/-
The sizes that a model file gives. A negative size of a declared value says nothing, so that
no shape of an input, an output or an intermediate value has a negative dimension. The sizes
of constants are taken over as they stand: the shape of a constant is made of the numbers in
its own fields, negative ones among them (`shaped_model`).
-/
import Mathlib
import ShapeFlow.Proofs.Operator.Natural
import ShapeFlow.Wire.Model

namespace ShapeFlow

theorem mapError_eq_ok {ε ε' α : Type} {x : Except ε α} {f : ε → ε'} {a : α} :
    x.mapError f = .ok a ↔ x = .ok a := by
  cases x <;> simp [Except.mapError]

/-- No dimension of the declared value is negative. -/
def Declaration.Natural (d : Declaration) : Prop := ∀ s ∈ d.info.shape, Shape.Natural s

instance (d : Declaration) : Decidable d.Natural :=
  inferInstanceAs (Decidable (∀ s ∈ d.info.shape, Shape.Natural s))

/-- No dimension of what is declared of a value is negative; constants are left out. -/
structure Graph.Natural (g : Graph) : Prop where
  inputs : ∀ d ∈ g.inputs, d.Natural
  outputs : ∀ d ∈ g.outputs, d.Natural
  intermediates : ∀ d ∈ g.intermediates, d.Natural

namespace Wire

/-! ## What holds of all that is decoded -/

section Noted

variable {α : Type}

theorem Noted.ok_bind {β : Type} (a : α) (notes : List UntypedValue) (f : α → Noted β) :
    (⟨.ok a, notes⟩ : Noted α) >>= f = ⟨(f a).value, notes ++ (f a).notes⟩ := rfl

theorem Noted.ok_map {β : Type} (a : α) (notes : List UntypedValue) (f : α → β) :
    f <$> (⟨.ok a, notes⟩ : Noted α) = ⟨.ok (f a), notes⟩ :=
  congrArg (Noted.mk (.ok (f a))) (List.append_nil notes)

theorem Noted.bind_assoc {β γ : Type} (x : Noted α) (f : α → Noted β) (g : β → Noted γ) :
    x >>= f >>= g = x >>= fun a => f a >>= g := by
  obtain ⟨value, notes⟩ := x
  cases value with
  | error e => rfl
  | ok a =>
    rw [ok_bind, ok_bind]
    obtain ⟨value, notes'⟩ := f a
    cases value with
    | error e => rfl
    | ok b => exact congrArg (Noted.mk _) (List.append_assoc notes notes' _)

theorem Noted.id_map (x : Noted α) : id <$> x = x := by
  obtain ⟨value, notes⟩ := x
  cases value with
  | error e => rfl
  | ok a => exact ok_map a notes id

instance : LawfulMonad Noted := LawfulMonad.mk' Noted Noted.id_map (fun _ _ => rfl) Noted.bind_assoc

theorem Noted.satisfiesM_iff {P : α → Prop} {x : Noted α} :
    SatisfiesM P x ↔ ∀ a, x.value = .ok a → P a := by
  constructor
  · rintro ⟨⟨value, notes⟩, rfl⟩ a ha
    cases value with
    | error e => cases ha
    | ok b =>
      cases ha
      exact b.2
  · intro h
    obtain ⟨value, notes⟩ := x
    cases value with
    | error e => exact ⟨⟨.error e, notes⟩, rfl⟩
    | ok a => exact ⟨⟨.ok ⟨a, h a rfl⟩, notes⟩, ok_map _ notes _⟩

theorem Noted.satisfiesM_ofExcept (x : Except DecodeError α) :
    SatisfiesM (fun a => x = .ok a) (Noted.ofExcept x) :=
  satisfiesM_iff.mpr fun _ h => h

theorem Noted.satisfiesM_within {P : α → Prop} {x : Noted α} (h : SatisfiesM P x) (place : Place) :
    SatisfiesM P (x.within place) := by
  rw [satisfiesM_iff] at h ⊢
  intro a ha
  exact h a (mapError_eq_ok.mp ha)

end Noted

/-! ## Messages -/

section Message

variable {σ : Type} {locate : σ → DecodeError → DecodeError} {step : σ → Field → Noted σ}

/-- What every field keeps, with the fields before it, holds after all fields. -/
theorem satisfiesM_foldFields {P : List Field → σ → Prop}
    (hstep : ∀ fs s f, P fs s → SatisfiesM (P (fs ++ [f])) (step s f)) (error : Option FieldError)
    {fs rest : List Field} {s : σ} (hs : P fs s) :
    SatisfiesM (P (fs ++ rest)) (foldFields locate step error s rest) := by
  rw [Noted.satisfiesM_iff]
  intro t ht
  induction rest generalizing fs s with
  | nil =>
    cases error with
    | none =>
      cases ht
      rwa [List.append_nil]
    | some e => cases ht
  | cons f rest ih =>
    simp only [foldFields] at ht
    split at ht
    · cases ht
    · next u hu =>
      rw [List.append_cons]
      exact ih (Noted.satisfiesM_iff.mp (hstep fs s f hs) u hu) ht

theorem satisfiesM_messageAt {P : List Field → σ → Prop} {start : σ} (hstart : P [] start)
    (hstep : ∀ fs s f, P fs s → SatisfiesM (P (fs ++ [f])) (step s f)) (b : Bytes) :
    SatisfiesM (P (split b).fields) (messageAt locate step start b) :=
  satisfiesM_foldFields hstep (split b).error hstart

/-- **What holds at the start and is kept by every field holds of a message.** -/
theorem satisfiesM_message {P : σ → Prop} {start : σ} (hstart : P start)
    (hstep : ∀ s f, P s → SatisfiesM P (step s f)) (b : Bytes) :
    SatisfiesM P (messageAt locate step start b) :=
  satisfiesM_messageAt (P := fun _ => P) hstart (fun _ => hstep) b

end Message

/-! ## Declared values -/

theorem natural_dim (b : Bytes) : SatisfiesM Dim.Natural (dim b) := by
  refine satisfiesM_message trivial (fun d f hd => ?_) b
  unfold dimStep
  split
  · refine .pure ?_
    split
    · exact hd
    · next hn => exact Int64.not_lt.mp hn
  · exact .pure trivial
  · exact .pure hd

theorem natural_shape (b : Bytes) : SatisfiesM Shape.Natural (shape b) := by
  refine satisfiesM_message (List.forall_mem_nil _) (fun s f hs => ?_) b
  unfold shapeStep
  split
  · exact (natural_dim f.bytes).bind fun d hd => .pure (hs.append (List.forall_mem_singleton.mpr hd))
  · exact .pure hs

theorem natural_tensorType (name : Text) (b : Bytes) :
    SatisfiesM (fun info => ∀ s ∈ info.shape, Shape.Natural s) (tensorType name b) := by
  refine satisfiesM_message (by simp) (fun info f hinfo => ?_) b
  unfold tensorTypeStep
  split
  · exact SatisfiesM.trivial.bind fun _ _ => .pure hinfo
  · refine (natural_shape f.bytes).bind fun s hs => .pure ?_
    rintro _ ⟨⟩
    exact hs
  · exact .pure hinfo

theorem natural_declaration (b : Bytes) : SatisfiesM Declaration.Natural (declaration b) := by
  refine satisfiesM_message (by simp [Declaration.Natural]) (fun d f hd => ?_) b
  unfold declarationStep
  split
  · exact .pure hd
  · refine satisfiesM_message hd (fun d f hd => ?_) f.bytes
    unfold typeStep
    split
    · exact (natural_tensorType d.name f.bytes).bind fun _ hinfo => .pure hinfo
    · exact .pure hd
  · exact .pure hd

/-! ## Constants -/

section Elements

variable {α : Type} {read : Field → Except DecodeError (List α)} {number : Nat} {f : Field}

/-- The elements of a list that the fields of a number hold, one after the other. -/
def elementsIn (read : Field → Except DecodeError (List α)) (number : Nat) (fs : List Field) :
    List α :=
  fs.flatMap fun f => if f.number = number then (read f).toOption.getD [] else []

theorem elementsIn_self {xs : List α} (h : f.number = number) (hxs : read f = .ok xs)
    (fs : List Field) : elementsIn read number (fs ++ [f]) = elementsIn read number fs ++ xs := by
  simp [elementsIn, h, hxs, Except.toOption]

theorem elementsIn_other (read : Field → Except DecodeError (List α)) (h : f.number ≠ number)
    (fs : List Field) : elementsIn read number (fs ++ [f]) = elementsIn read number fs := by
  simp [elementsIn, h]

end Elements

/-- The shape of a tensor is made of the numbers in its fields. -/
theorem shape_tensor (b : Bytes) :
    SatisfiesM (fun d => d.info.shape = some (Shape.ofSizes (elementsIn Field.ints 1 (split b).fields)))
      (tensor b) := by
  have hparts : SatisfiesM (fun t : TensorParts => t.sizes = elementsIn Field.ints 1 (split b).fields)
      (message tensorStep {} b) := by
    refine satisfiesM_messageAt (P := fun fs (t : TensorParts) => t.sizes = elementsIn Field.ints 1 fs) rfl
      (fun fs t f ht => ?_) b
    unfold tensorStep
    split
    · next hnumber =>
      refine (Noted.satisfiesM_ofExcept f.ints).bind fun ns hns => .pure ?_
      rw [elementsIn_self hnumber hns, ht]
    all_goals exact .pure (ht.trans (elementsIn_other _ (by omega) fs).symm)
  refine hparts.bind fun t ht => SatisfiesM.trivial.bind fun _ _ => .pure ?_
  rw [ht]

/-- That of a sparse tensor too, whatever the shape of its values. -/
theorem shape_sparseTensor (b : Bytes) :
    SatisfiesM (fun d => d.info.shape = some (Shape.ofSizes (elementsIn Field.ints 3 (split b).fields)))
      (sparseTensor b) := by
  have hparts : SatisfiesM (fun t : SparseParts => t.sizes = elementsIn Field.ints 3 (split b).fields)
      (message sparseStep {} b) := by
    refine satisfiesM_messageAt (P := fun fs (t : SparseParts) => t.sizes = elementsIn Field.ints 3 fs) rfl
      (fun fs t f ht => ?_) b
    unfold sparseStep
    split
    · next hnumber =>
      refine SatisfiesM.trivial.bind fun _ _ => .pure ?_
      exact ht.trans (elementsIn_other _ (by omega) fs).symm
    · next hnumber =>
      refine (Noted.satisfiesM_ofExcept f.ints).bind fun ns hns => .pure ?_
      rw [elementsIn_self hnumber hns, ht]
    · exact .pure (ht.trans (elementsIn_other _ (by omega) fs).symm)
  refine hparts.bind fun t ht => .pure ?_
  rw [ht]

/-- The sizes of the constants among the fields of a graph: those of tensors and of sparse
tensors, in the order of the fields. -/
def constantSizes (fs : List Field) : List (List Int64) :=
  fs.flatMap fun f =>
    if f.number = 5 then [elementsIn Field.ints 1 (split f.bytes).fields]
    else if f.number = 15 then [elementsIn Field.ints 3 (split f.bytes).fields]
    else []

/-- What the fields of a graph have to do with the shapes of its values. -/
structure Shaped (fs : List Field) (g : Graph) : Prop where
  natural : g.Natural
  constants : g.constants.map (·.info.shape) =
    (constantSizes fs).map fun sizes => some (Shape.ofSizes sizes)

/-- **The step:** a field adds a declaration that is natural, or a constant with its sizes. -/
theorem shaped_graphStep {fs : List Field} {g : Graph} (h : Shaped fs g) (f : Field) :
    SatisfiesM (Shaped (fs ++ [f])) (graphStep g f) := by
  have hadd : ∀ {ds : List Declaration}, (∀ d ∈ ds, d.Natural) → ∀ {d : Declaration}, d.Natural →
      ∀ e ∈ ds ++ [d], e.Natural := fun hds _ hd =>
    List.forall_mem_append.mpr ⟨hds, List.forall_mem_singleton.mpr hd⟩
  have hread := natural_declaration f.bytes
  have hkept : f.number ≠ 5 → f.number ≠ 15 → g.constants.map (·.info.shape) =
      (constantSizes (fs ++ [f])).map fun sizes => some (Shape.ofSizes sizes) := by
    intro hdense hsparse
    simp [constantSizes, hdense, hsparse, h.constants]
  obtain ⟨hinputs, houtputs, hintermediates⟩ := h.natural
  unfold graphStep
  split
  · exact SatisfiesM.trivial.bind fun _ _ =>
      .pure ⟨⟨hinputs, houtputs, hintermediates⟩, hkept (by omega) (by omega)⟩
  · exact .pure ⟨⟨hinputs, houtputs, hintermediates⟩, hkept (by omega) (by omega)⟩
  · next hdense =>
    refine (Noted.satisfiesM_within (shape_tensor f.bytes) _).bind fun d hd => .pure ?_
    exact ⟨⟨hinputs, houtputs, hintermediates⟩, by simp [constantSizes, hdense, h.constants, hd]⟩
  · exact hread.bind fun d hd =>
      .pure ⟨⟨hadd hinputs hd, houtputs, hintermediates⟩, hkept (by omega) (by omega)⟩
  · exact hread.bind fun d hd =>
      .pure ⟨⟨hinputs, hadd houtputs hd, hintermediates⟩, hkept (by omega) (by omega)⟩
  · exact hread.bind fun d hd =>
      .pure ⟨⟨hinputs, houtputs, hadd hintermediates hd⟩, hkept (by omega) (by omega)⟩
  · next hsparse =>
    refine (Noted.satisfiesM_within (shape_sparseTensor f.bytes) _).bind fun d hd => .pure ?_
    exact ⟨⟨hinputs, houtputs, hintermediates⟩, by simp [constantSizes, hsparse, h.constants, hd]⟩
  · exact .pure ⟨⟨hinputs, houtputs, hintermediates⟩, hkept (by omega) (by omega)⟩

theorem shaped_graph (b : Bytes) : SatisfiesM (Shaped (split b).fields) (graph b) := by
  have hempty : Shaped [] {} := ⟨⟨by simp, by simp, by simp⟩, rfl⟩
  exact satisfiesM_messageAt hempty (fun _ _ f h => shaped_graphStep h f) b

/-- The field of a number that counts where only one can: the last. -/
def lastIn (number : Nat) (fs : List Field) : Option Field :=
  (fs.filter fun f => f.number = number).getLast?

theorem lastIn_append (number : Nat) (fs : List Field) (f : Field) :
    lastIn number (fs ++ [f]) = if f.number = number then some f else lastIn number fs := by
  unfold lastIn
  split <;> simp [*]

/-- The graph of a model. -/
def graphIn (fs : List Field) : Bytes := ((lastIn 7 fs).map Field.bytes).getD []

theorem graphIn_append (fs : List Field) (f : Field) :
    graphIn (fs ++ [f]) = if f.number = 7 then f.bytes else graphIn fs := by
  rw [graphIn, lastIn_append]
  split <;> rfl

/-- The sizes of the constants of a model file, in their order. -/
def sizesOfConstants (b : Bytes) : List (List Int64) :=
  constantSizes (split (graphIn (split b).fields)).fields

/-- **The run:** the shapes of a decoded model are those that the fields of its graph give. -/
theorem shaped_model (b : Bytes) :
    SatisfiesM (fun m => Shaped (split (graphIn (split b).fields)).fields m.graph) (model b) := by
  have hparts : SatisfiesM (fun m : ModelParts => m.graph = graphIn (split b).fields)
      (message modelStep {} b) := by
    refine satisfiesM_messageAt (P := fun fs (m : ModelParts) => m.graph = graphIn fs) rfl
      (fun fs m f hm => ?_) b
    have hkept : f.number ≠ 7 → m.graph = graphIn (fs ++ [f]) := by
      intro hother
      rw [graphIn_append, if_neg hother, hm]
    unfold modelStep
    split
    · exact .pure (hkept (by omega))
    · exact .pure (hkept (by omega))
    · next hgraph => exact .pure (by rw [graphIn_append, if_pos hgraph])
    · exact SatisfiesM.trivial.bind fun _ _ => .pure (hkept (by omega))
    · exact .pure (hkept (by omega))
  refine hparts.bind fun m hm => ?_
  refine (Noted.satisfiesM_within (shaped_graph m.graph) _).bind fun g hg => .pure ?_
  rwa [← hm]

end Wire

end ShapeFlow
