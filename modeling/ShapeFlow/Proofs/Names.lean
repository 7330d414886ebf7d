/-
The names of unknown dimensions. What is known without them is its `bare` form, and two
things that differ in such names only have the same one. Shapes agree just when their
bare forms are equal (`Shape?.agrees_iff`); merging commutes with the forgetting of names,
whether anything changed and whether there was a conflict included
(`ValueState.bare_merge`); and graphs and overrides that differ in names only give their
values seeds that do (`seed_bare`).
-/
import Mathlib
import ShapeFlow.Proofs.Graph.Countdown
import ShapeFlow.Proofs.Resolver.Refinement

namespace ShapeFlow

def Dim.bare : Dim → Dim
  | .known n => .known n
  | .unknown _ => Dim.anonymous

def Shape.bare (s : Shape) : Shape := s.map Dim.bare

def Shape?.bare (s : Shape?) : Shape? := s.map Shape.bare

def TensorInfo.bare (t : TensorInfo) : TensorInfo := ⟨t.element, Shape?.bare t.shape⟩

def TensorInfo?.bare (t : TensorInfo?) : TensorInfo? := t.map TensorInfo.bare

def ValueState.bare (v : ValueState) : ValueState := ⟨v.info.bare, v.provenance⟩

def Declaration.bare (d : Declaration) : Declaration := ⟨d.name, d.info.bare⟩

def Graph.bare (g : Graph) : Graph :=
  { g with
    inputs := g.inputs.map Declaration.bare
    outputs := g.outputs.map Declaration.bare
    intermediates := g.intermediates.map Declaration.bare
    constants := g.constants.map Declaration.bare }

def Model.bare (m : Model) : Model := { m with graph := m.graph.bare }

/-! ## Shapes -/

theorem Dim.agrees_iff {d e : Dim} : d.agrees e = true ↔ d.bare = e.bare := by
  cases d <;> cases e <;> simp [agrees, size?, bare, anonymous]

theorem Shape.agrees_iff {s t : Shape} : agrees s t = true ↔ bare s = bare t := by
  induction s generalizing t with
  | nil => cases t <;> simp [agrees, bare]
  | cons d s ih =>
    cases t with
    | nil => simp [agrees, bare]
    | cons e t =>
      simp only [agrees, Bool.and_eq_true, Dim.agrees_iff, ih]
      simp [bare]

/-- Shapes agree just when they differ in names only. -/
theorem Shape?.agrees_iff {s t : Shape?} : agrees s t = true ↔ bare s = bare t := by
  cases s <;> cases t <;> simp [agrees, bare, Shape.agrees_iff]

theorem Shape.length_bare (s : Shape) : (bare s).length = s.length := List.length_map _

theorem Shape.bare_getD (s : Shape) (i : Nat) :
    (s.getD i Dim.anonymous).bare = (bare s).getD i Dim.anonymous := (List.getD_map ..).symm

/-- The size of a dimension is that of its bare form. -/
theorem Dim.size?_bare (d : Dim) : d.bare.size? = d.size? := by
  cases d <;> rfl

theorem Shape.sizes?_bare (s : Shape) : sizes? (bare s) = sizes? s := by
  have hsize : Dim.size? ∘ Dim.bare = Dim.size? := funext Dim.size?_bare
  rw [sizes?, sizes?, bare, List.mapM_map, hsize]

/-- A product of dimensions has no name. -/
theorem Dim.product_bare (s : Shape) : product (Shape.bare s) = product s := by
  induction s with
  | nil => rfl
  | cons d s ih =>
    cases d with
    | unknown name => rfl
    | known n =>
      have hcons : Shape.bare (.known n :: s) = .known n :: Shape.bare s := rfl
      rw [hcons, product, product, ih]

theorem TensorInfo.isInformative_bare (t : TensorInfo) : t.bare.isInformative = t.isInformative := by
  obtain ⟨element, shape⟩ := t
  cases shape <;> rfl

/-! ## Merging -/

namespace Merged

variable {α β γ α' β' γ' : Type}

theorem map_pair {f : α → β → γ} {f' : α' → β' → γ'} {g : α → α'} {h : β → β'} {k : γ → γ'}
    (hf : ∀ x y, k (f x y) = f' (g x) (h y)) (a : Merged α) (b : Merged β) :
    (pair f a b).map k = pair f' (a.map g) (b.map h) := by
  simp only [pair, map, hf]

end Merged

theorem Dim.bare_merge (d e : Dim) : (d.merge e).map bare = d.bare.merge e.bare := by
  cases e with
  | unknown name => rfl
  | known n =>
    cases d with
    | unknown name => rfl
    | known m =>
      simp only [merge, bare]
      split <;> rfl

theorem Shape.bare_merge (s t : Shape) : (merge s t).map bare = merge (bare s) (bare t) := by
  induction s generalizing t with
  | nil => rfl
  | cons d s ih =>
    cases t with
    | nil => rfl
    | cons e t =>
      have hcons : ∀ d s, bare (d :: s) = d.bare :: bare s := fun _ _ => rfl
      simp only [merge, hcons, ← ih, ← Dim.bare_merge]
      exact Merged.map_pair hcons _ _

theorem Shape?.bare_merge (s t : Shape?) : (merge s t).map bare = merge (bare s) (bare t) := by
  cases t with
  | none => cases s <;> rfl
  | some t =>
    cases s with
    | none => rfl
    | some s =>
      simp only [merge, bare, Option.map_some, Shape.length_bare, ← Shape.bare_merge]
      split <;> rfl

theorem TensorInfo.bare_merge (a t : TensorInfo) : (a.merge t).map bare = a.bare.merge t.bare := by
  unfold merge
  rw [Merged.map_pair (g := id) (h := Shape?.bare) fun _ _ => rfl, Shape?.bare_merge]
  rfl

/-- **Merging does not look at names:** without them it gives the same, and changes
and conflicts are the same. -/
theorem ValueState.bare_merge (v : ValueState) (t : TensorInfo?) :
    (v.merge t).map bare = v.bare.merge (TensorInfo?.bare t) := by
  cases t with
  | none => rfl
  | some t =>
    have hmerge : (v.info.merge t).map TensorInfo.bare = v.bare.info.merge t.bare :=
      TensorInfo.bare_merge v.info t
    have hsame : v.bare.provenance = v.provenance := rfl
    simp only [merge, TensorInfo?.bare, Option.map_some, hsame, ← hmerge]
    split <;> rfl

/-! ## Graphs -/

theorem Graph.takeLevels_congr {g g' : Graph} (h : g.nodes = g'.nodes) (awaits : List (List Text))
    (level lacking : List Nat) :
    g.takeLevels awaits level lacking = g'.takeLevels awaits level lacking := by
  have harrivals : g.arrivals awaits = g'.arrivals awaits := by
    funext level
    simp only [arrivals, outputsAt, h]
  fun_induction takeLevels g awaits level lacking with
  | case1 lacking => rw [takeLevels, dif_pos rfl]
  | case2 level lacking hlevel c levels left htake ih =>
    have hrest := ih.symm.trans htake
    rw [takeLevels, dif_neg hlevel, ← harrivals]
    exact congrArg (fun taken => (level :: taken.1, taken.2)) hrest.symm

/-- The levels of a graph depend on its nodes only. -/
theorem Graph.levels_congr {g g' : Graph} (h : g.nodes = g'.nodes) : g.levels = g'.levels := by
  have htake : g.takeLevels = g'.takeLevels := by
    funext awaits level lacking
    exact takeLevels_congr h awaits level lacking
  have hwrites : g.writes = g'.writes := by simp only [writes, h]
  have hawaits : g.awaits = g'.awaits := by simp only [awaits, hwrites, h]
  simp only [levels, hwrites, hawaits, h, htake]

/-- The values are the same but for names. -/
def Dict.SameButNames (d d' : Dict ValueState) : Prop := ∀ v, (d.state v).bare = (d'.state v).bare

/-- The same values are overridden, by the same information but for names. -/
structure Dict.SameOverrides (d d' : Dict TensorInfo) : Prop where
  nodup : d.keys.Nodup
  nodup' : d'.keys.Nodup
  get? : ∀ v, TensorInfo?.bare (d.get? v) = TensorInfo?.bare (d'.get? v)

theorem Dict.SameButNames.insert {d d' : Dict ValueState} (h : d.SameButNames d') (name : Text)
    {s s' : ValueState} (hs : s.bare = s'.bare) : (d.insert name s).SameButNames (d'.insert name s') := by
  intro v
  rw [state_insert, state_insert]
  split
  · exact hs
  · exact h v

theorem Dict.SameButNames.seedDeclarations {d d' : Dict ValueState} (h : d.SameButNames d')
    (provenance : Provenance) {ds ds' : List Declaration}
    (hds : ds.map Declaration.bare = ds'.map Declaration.bare) :
    (seedDeclarations d provenance ds).SameButNames (seedDeclarations d' provenance ds') := by
  induction ds generalizing ds' d d' with
  | nil =>
    obtain rfl := List.map_eq_nil_iff.mp hds.symm
    exact h
  | cons a ds ih =>
    obtain ⟨a', ds', rfl, ha, hrest⟩ := List.map_eq_cons_iff.mp hds.symm
    obtain ⟨hname, hinfo⟩ := Declaration.mk.inj ha
    have hstep : (if a.name.isEmpty then d else d.insert a.name ⟨a.info, provenance⟩).SameButNames
        (if a'.name.isEmpty then d' else d'.insert a'.name ⟨a'.info, provenance⟩) := by
      rw [hname]
      split
      · exact h
      · exact h.insert a.name (congrArg (ValueState.mk · provenance) hinfo.symm)
    exact ih hstep hrest.symm

theorem seedOverride_eq (declared : Dict ValueState) (name : Text) (info : TensorInfo) :
    seedOverride declared name info =
      ⟨⟨info.element.or (declared.state name).info.element, info.shape⟩, .override⟩ := by
  unfold seedOverride Dict.state
  cases declared.get? name <;> rfl

/-- **What is known before the run is the same but for names.** -/
theorem seed_bare {g g' : Graph} (hg : g.bare = g'.bare) {overrides overrides' : Dict TensorInfo}
    (ho : overrides.SameOverrides overrides') :
    (seed g overrides).SameButNames (seed g' overrides') := by
  have hdeclared : (seed g {}).SameButNames (seed g' {}) := by
    have hempty : Dict.SameButNames {} {} := fun _ => rfl
    exact (((hempty.seedDeclarations .declared (congrArg Graph.intermediates hg)).seedDeclarations
      .declared (congrArg Graph.outputs hg)).seedDeclarations
      .input (congrArg Graph.inputs hg)).seedDeclarations .constant (congrArg Graph.constants hg)
  intro v
  have hinfo := ho.get? v
  rw [state_seed g ho.nodup, state_seed g' ho.nodup']
  generalize overrides.get? v = a at hinfo
  generalize overrides'.get? v = a' at hinfo
  cases a with
  | none =>
    obtain rfl := Option.map_eq_none_iff.mp hinfo.symm
    exact hdeclared v
  | some a =>
    obtain ⟨a', rfl, ha⟩ := Option.map_eq_some_iff.mp hinfo.symm
    obtain ⟨helement, hshape⟩ := TensorInfo.mk.inj ha
    have hstate : ((seed g {}).state v).info.element = ((seed g' {}).state v).info.element :=
      congrArg (·.info.element) (hdeclared v)
    simp only [Option.elim_some, seedOverride_eq, ValueState.bare, TensorInfo.bare, helement, hshape, hstate]

end ShapeFlow
