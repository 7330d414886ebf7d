/-
Negative sizes in model files. No format gives a negative dimension to an input, an output or
an intermediate value: a description that has one is refused, and the wire format takes it for
an unknown one. Constants are another matter. A description checks them as it does all values;
the wire format does not, and a constant has a negative dimension just when its own fields have
a negative number (`natural_load`).
-/
import Mathlib
import ShapeFlow.ModelFile
import ShapeFlow.Proofs.Wire.Layout
import ShapeFlow.Proofs.Wire.Sizes
import ShapeFlow.Proofs.Yaml.Decode

namespace ShapeFlow

/-- What holds of all that a function gives holds of the results for a list. -/
theorem satisfiesM_mapM {ε α β : Type} {P : β → Prop} {f : α → Except ε β} {as : List α}
    (h : ∀ a ∈ as, SatisfiesM P (f a)) : SatisfiesM (∀ b ∈ ·, P b) (as.mapM f) := by
  induction as with
  | nil => exact .pure (List.forall_mem_nil _)
  | cons a as ih =>
    rw [List.mapM_cons]
    obtain ⟨ha, has⟩ := List.forall_mem_cons.mp h
    exact ha.bind fun b hb => (ih has).bind fun bs hbs => .pure (List.forall_mem_cons.mpr ⟨hb, hbs⟩)

namespace Description

/-! ## Drafts -/

theorem natural_dim (d : Yaml.Document) (n : Yaml.Node) : SatisfiesM Dim.Natural (dim d n) := by
  rw [SatisfiesM_Except_eq]
  intro x hx
  unfold dim at hx
  split at hx
  · split at hx
    · split at hx
      · cases hx
      · split at hx
        · cases hx
        · next hn =>
          cases hx
          exact Int64.not_lt.mp hn
    · split at hx <;> cases hx <;> trivial
  · cases hx

theorem natural_dims (d : Yaml.Document) (n : Yaml.Node) : SatisfiesM Shape.Natural (dims d n) := by
  unfold dims
  split
  · exact satisfiesM_mapM fun n _ => natural_dim d n
  · exact SatisfiesM_Except_eq.mpr fun _ h => nomatch h

theorem natural_shape? (d : Yaml.Document) (n : Yaml.Node) :
    SatisfiesM (∀ s ∈ ·, Shape.Natural s) (shape? d n) := by
  refine Yaml.Document.satisfiesM_read (fun n => ?_) n
  split
  · split <;> exact SatisfiesM.trivial.bind fun _ _ => .pure (by simp)
  · have hdims := SatisfiesM_Except_eq.mp (natural_dims d n)
    split
    · next s hs =>
      refine .pure ?_
      rintro _ ⟨⟩
      exact hdims s hs
    · exact Yaml.Decode.satisfiesM_throw _

/-- No dimension of the value is negative. -/
def DeclarationDraft.Natural (v : DeclarationDraft) : Prop := ∀ s ∈ v.shape, Shape.Natural s

theorem natural_declaration? (d : Yaml.Document) (n : Yaml.Node) :
    SatisfiesM (∀ v ∈ ·, DeclarationDraft.Natural v) (declaration? d n) := by
  refine Yaml.Document.satisfiesM_mapping? (fun v key n hv => ?_) (by simp [DeclarationDraft.Natural]) _ n
  unfold declarationStep
  split
  · exact SatisfiesM.trivial.bind fun _ _ => .pure hv
  split
  · exact SatisfiesM.trivial.bind fun _ _ => .pure hv
  · exact (natural_shape? d n).bind fun _ hs => .pure hs

/-- No dimension of any value is negative. -/
structure Draft.Natural (v : Draft) : Prop where
  inputs : ∀ d ∈ v.inputs, d.Natural
  outputs : ∀ d ∈ v.outputs, d.Natural
  intermediates : ∀ d ∈ v.intermediates, d.Natural
  constants : ∀ d ∈ v.constants, d.Natural

theorem natural_declarations? (d : Yaml.Document) (n : Yaml.Node) :
    SatisfiesM (fun o => ∀ v ∈ o.getD [], DeclarationDraft.Natural v) (declarations? d n) := by
  refine (Yaml.Document.satisfiesM_list? (natural_declaration? d) _ n).imp fun {o} ho => ?_
  cases o with
  | none => exact List.forall_mem_nil _
  | some vs => exact ho vs rfl

theorem natural_draftStep (d : Yaml.Document) {v : Draft} (hv : v.Natural) (key : Text) (n : Yaml.Node) :
    SatisfiesM Draft.Natural (draftStep d v key n) := by
  obtain ⟨hinputs, houtputs, hintermediates, hconstants⟩ := hv
  have hread := natural_declarations? d n
  unfold draftStep
  split
  · exact SatisfiesM.trivial.bind fun _ _ => .pure ⟨hinputs, houtputs, hintermediates, hconstants⟩
  split
  · exact SatisfiesM.trivial.bind fun _ _ => .pure ⟨hinputs, houtputs, hintermediates, hconstants⟩
  split
  · exact SatisfiesM.trivial.bind fun _ _ => .pure ⟨hinputs, houtputs, hintermediates, hconstants⟩
  split
  · exact SatisfiesM.trivial.bind fun _ _ => .pure ⟨hinputs, houtputs, hintermediates, hconstants⟩
  split
  · exact hread.bind fun _ hnew => .pure ⟨hnew, houtputs, hintermediates, hconstants⟩
  split
  · exact hread.bind fun _ hnew => .pure ⟨hinputs, hnew, hintermediates, hconstants⟩
  split
  · exact hread.bind fun _ hnew => .pure ⟨hinputs, houtputs, hnew, hconstants⟩
  split
  · exact hread.bind fun _ hnew => .pure ⟨hinputs, houtputs, hintermediates, hnew⟩
  · exact SatisfiesM.trivial.bind fun _ _ => .pure ⟨hinputs, houtputs, hintermediates, hconstants⟩

theorem natural_empty : Draft.Natural {} := ⟨by simp, by simp, by simp, by simp⟩

theorem natural_draft (d : Yaml.Document) : SatisfiesM Draft.Natural (draft d) := by
  refine SatisfiesM.trivial.bind fun _ _ => ?_
  refine (Yaml.Document.satisfiesM_mapping? (fun v key n hv => natural_draftStep d hv key n)
    natural_empty _ d.root).bind fun o ho => .pure ?_
  cases o with
  | none => exact natural_empty
  | some v => exact ho v rfl

theorem natural_draftOf {d : Option Yaml.Document} : SatisfiesM Draft.Natural (draftOf d) := by
  rw [SatisfiesM_Except_eq]
  intro v hv
  cases d with
  | none =>
    cases hv
    exact natural_empty
  | some d =>
    simp only [draftOf] at hv
    split at hv
    · cases hv
    · cases hv
    · next w p hrun =>
      split at hv
      · cases hv
        exact Yaml.Decode.of_satisfiesM (natural_draft d) hrun
      · cases hv

/-! ## Models -/

theorem natural_declarations {vs : List DeclarationDraft} (h : ∀ v ∈ vs, v.Natural) (list : Text) :
    SatisfiesM (∀ d ∈ ·, Declaration.Natural d) (declarations list vs) := by
  refine satisfiesM_mapM fun v hv => SatisfiesM_Except_eq.mpr fun d hd => ?_
  have hnatural := h v.1 (List.fst_mem_of_mem_zipIdx hv)
  unfold declaration at hd
  split at hd
  · cases hd
  split at hd
  · cases hd
  · cases hd
    exact hnatural

theorem natural_modelOf {v : Draft} (hv : v.Natural) :
    SatisfiesM (fun m => m.graph.Natural ∧ ∀ d ∈ m.graph.constants, d.Natural) (modelOf v) := by
  refine (natural_declarations hv.inputs _).bind fun inputs hinputs => ?_
  refine (natural_declarations hv.outputs _).bind fun outputs houtputs => ?_
  refine (natural_declarations hv.intermediates _).bind fun intermediates hintermediates => ?_
  refine (natural_declarations hv.constants _).bind fun constants hconstants => ?_
  cases constants.find? (·.info.shape.isNone) with
  | some c =>
    exact SatisfiesM.trivial.bind fun _ _ => SatisfiesM.trivial.bind fun _ _ =>
      .pure ⟨⟨hinputs, houtputs, hintermediates⟩, hconstants⟩
  | none =>
    exact SatisfiesM.trivial.bind fun _ _ => .pure ⟨⟨hinputs, houtputs, hintermediates⟩, hconstants⟩

theorem natural_read (t : Text) :
    SatisfiesM (fun m => m.graph.Natural ∧ ∀ d ∈ m.graph.constants, d.Natural) (read t) := by
  unfold read
  split
  · exact SatisfiesM_Except_eq.mpr fun _ h => nomatch h
  · exact natural_draftOf.bind fun _ hv => natural_modelOf hv

end Description

/-! ## Files of both formats -/

/-- A constant has a negative dimension just when a number in its own fields is negative. -/
theorem Wire.Shaped.not_natural_iff {fs : List Wire.Field} {g : Graph} (h : Wire.Shaped fs g)
    {i : Nat} {d : Declaration} (hd : g.constants[i]? = some d) :
    ¬ d.Natural ↔ ∃ sizes, (Wire.constantSizes fs)[i]? = some sizes ∧ ∃ n ∈ sizes, n < 0 := by
  have hshape : (g.constants.map (·.info.shape))[i]? = some d.info.shape := by
    rw [List.getElem?_map, hd, Option.map_some]
  rw [h.constants, List.getElem?_map, Option.map_eq_some_iff] at hshape
  obtain ⟨sizes, hsizes, hshape⟩ := hshape
  have hnatural : d.Natural ↔ ∀ n ∈ sizes, 0 ≤ n := by
    rw [Declaration.Natural, ← hshape, ← Shape.natural_ofSizes]
    simp [Shape.ofSizes]
  rw [hnatural, hsizes]
  simp

/-- **Loading gives no negative dimension to what is declared of values. A constant has one just
when the file is of the wire format and a number among its sizes there is negative.** -/
theorem natural_load {format : ModelFormat} {contents : Text} {m : Model}
    (h : (format.load contents).model = .ok m) :
    m.graph.Natural ∧ ∀ (i : Nat) d, m.graph.constants[i]? = some d →
      (¬ d.Natural ↔ format = .wire ∧
        ∃ sizes, (Wire.sizesOfConstants contents.bytes)[i]? = some sizes ∧ ∃ n ∈ sizes, n < 0) := by
  cases format with
  | wire =>
    have hm : (Wire.model contents.bytes).value = .ok m := mapError_eq_ok.mp h
    have hshaped := Wire.Noted.satisfiesM_iff.mp (Wire.shaped_model contents.bytes) m hm
    refine ⟨hshaped.natural, fun i d hd => ?_⟩
    rw [hshaped.not_natural_iff hd]
    exact ⟨fun hsizes => ⟨rfl, hsizes⟩, And.right⟩
  | description =>
    have hm : Description.read contents = .ok m := mapError_eq_ok.mp h
    obtain ⟨hgraph, hconstants⟩ := SatisfiesM_Except_eq.mp (Description.natural_read contents) m hm
    refine ⟨hgraph, fun i d hd => ⟨fun hnot => ?_, fun hwire => ?_⟩⟩
    · exact absurd (hconstants d (List.mem_of_getElem? hd)) hnot
    · cases hwire.1

/-- A file with negative sizes in three places: of an input, a constant and a sparse constant,
where they are packed. -/
def inverted : Text := ⟨Wire.write [Wire.part 7 [
  Wire.part 5 [Wire.intField 1 (-1), Wire.intField 1 3, Wire.intField 2 1, Wire.textField 8 "w"],
  Wire.part 15 [Wire.part 1 [Wire.intField 1 2, Wire.intField 2 1, Wire.textField 8 "s"],
    ⟨3, .bytes (Wire.writeInts [4, -2])⟩],
  Wire.part 11 [Wire.textField 1 "x", Wire.part 2 [Wire.part 1 [Wire.intField 1 1, Wire.part 2 [
    Wire.part 1 [Wire.intField 1 (-1)], Wire.part 1 [Wire.intField 1 3]]]]]]]⟩

/-- The model that is read from the file. -/
def invertedModel : Model where
  graph := {
    inputs := [⟨"x", some .float32, some [Dim.anonymous, .known 3]⟩]
    constants := [⟨"w", some .float32, some [.known (-1), .known 3]⟩,
      ⟨"s", some .float32, some [.known 4, .known (-2)]⟩] }

theorem load_inverted : (ModelFormat.wire.load inverted).model = .ok invertedModel := by cbv

theorem natural_load_inverted : (ModelFormat.wire.load inverted).model = .ok invertedModel ∧
    Wire.sizesOfConstants inverted.bytes = [[-1, 3], [4, -2]] ∧ invertedModel.graph.Natural ∧
    ∀ d, invertedModel.graph.constants[1]? = some d → ¬ d.Natural := by
  obtain ⟨hgraph, hconstants⟩ := natural_load load_inverted
  have hsizes : Wire.sizesOfConstants inverted.bytes = [[-1, 3], [4, -2]] := by cbv
  refine ⟨load_inverted, hsizes, hgraph, fun d hd => (hconstants 1 d hd).mpr ⟨rfl, [4, -2], ?_⟩⟩
  rw [hsizes]
  exact ⟨rfl, -2, by simp, by decide⟩

/-- A file is read though every constant of it has a negative dimension. -/
theorem negative_inverted : ∃ m, (ModelFormat.wire.load inverted).model = .ok m ∧
    m.graph.constants.length = 2 ∧ ∀ d ∈ m.graph.constants, ¬ d.Natural :=
  ⟨invertedModel, load_inverted, rfl, by decide⟩

end ShapeFlow
