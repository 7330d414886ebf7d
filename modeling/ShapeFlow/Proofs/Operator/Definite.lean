/-
When a rule has something to say. A rule abstains for few reasons: an input that it needs
has no shape, the padding is in a legacy mode, there are groups, a transposed convolution
is dilated, or the window has to be taken from weights that are not known. Where none of
them applies (`Determined`), every rule of the standard registry gives a shape or finds the
node invalid (`definite_of_mem_standardRules`).
-/
import ShapeFlow.Proofs.Operator.Reading
import ShapeFlow.Registry

namespace ShapeFlow

/-! ## Definite verdicts -/

namespace Verdict

variable {α β : Type}

/-- The verdict is a shape, or that the node is invalid. -/
def Definite (v : Verdict α) : Prop := v ≠ .abstain

namespace Definite

/-- **Definite steps follow each other to a definite verdict.** -/
theorem bind {v : Verdict α} (h : v.Definite) {f : α → Verdict β}
    (hf : ∀ a, v = .done a → (f a).Definite) : (v >>= f).Definite := by
  cases v with
  | invalid e => exact fun hv => nomatch hv
  | abstain => exact absurd rfl h
  | done a => exact hf a rfl

theorem pure (a : α) : (Pure.pure a : Verdict α).Definite := fun h => nomatch h

theorem map {v : Verdict α} (h : v.Definite) (f : α → β) : (f <$> v).Definite :=
  h.bind fun a _ => pure (f a)

theorem need {o : Option α} {a : α} (h : o = some a) : (need o).Definite := by
  subst h
  exact fun h => nomatch h

theorem abstainIf {c : Bool} (h : c = false) : (abstainIf c).Definite := by
  subst h
  exact fun h => nomatch h

theorem invalidIf (c : Bool) (e : RuleError) : (invalidIf c e).Definite := by
  cases c <;> exact fun h => nomatch h

theorem ofAttribute (e : Except AttributeError α) : (ofAttribute e).Definite := by
  cases e <;> exact fun h => nomatch h

end Definite

end Verdict

open Verdict

/-! ## Reading attributes -/

section Attributes

variable {attrs : Attributes}

theorem definite_spatialOr (name : Text) (length : Nat) (fill least : Int64) :
    (spatialOr attrs name length fill least).Definite :=
  (Definite.ofAttribute _).bind fun _ _ => (Definite.ofAttribute _).bind fun _ _ => .pure _

theorem definite_spatialIfGiven (name : Text) (length : Nat) (least : Int64) :
    (spatialIfGiven attrs name length least).Definite :=
  (Definite.ofAttribute _).bind fun _ _ => (Definite.ofAttribute _).bind fun _ _ => .pure _

theorem get?_of_spatialIfGiven {name : Text} {length : Nat} {least : Int64}
    (h : spatialIfGiven attrs name length least = .done none) : attrs.get? name = none := by
  obtain ⟨hnone, -⟩ | ⟨_, -, -, hv⟩ := Attributes.spatial?_eq_ok.mp (spatialIfGiven_eq_done.mp h).1
  · exact hnone
  · cases hv

/-- An attribute that is no number makes the node invalid. -/
theorem definite_oneGroup (h : ∀ n, attrs.get? "group" = some (.int n) → n = 1) :
    (oneGroup attrs).Definite := by
  refine (Definite.ofAttribute _).bind fun group hgroup => .abstainIf ?_
  rw [ofAttribute_eq_done] at hgroup
  unfold Attributes.int? at hgroup
  split at hgroup
  · cases hgroup
    rfl
  · next n hn =>
    cases hgroup
    rw [h n hn]
    rfl
  · cases hgroup

end Attributes

theorem Shape.sizes?_of_isFullyKnown {s : Shape} (h : isFullyKnown s = true) :
    ∃ sizes, sizes? s = some sizes := by
  induction s with
  | nil => exact ⟨[], rfl⟩
  | cons d s ih =>
    obtain ⟨hd, hs⟩ := Bool.and_eq_true_iff.mp (List.all_cons.symm.trans h)
    obtain ⟨n, rfl⟩ := Dim.isKnown_eq_true.mp hd
    obtain ⟨sizes, hsizes⟩ := ih hs
    exact ⟨n :: sizes, sizes?_eq_some.mpr (by rw [sizes?_eq_some.mp hsizes]; rfl)⟩

theorem Shape.isFullyKnown_drop {s : Shape} (h : isFullyKnown s = true) (n : Nat) :
    isFullyKnown (s.drop n) = true :=
  List.all_eq_true.mpr fun d hd => List.all_eq_true.mp h d (List.mem_of_mem_drop hd)

theorem Window.definite_kernelOfWeights {weights : Shape} (h : Shape.isFullyKnown weights = true)
    (axes : Nat) : (kernelOfWeights weights axes).Definite := by
  obtain ⟨sizes, hsizes⟩ := Shape.sizes?_of_isFullyKnown
    (Shape.isFullyKnown_drop h (weights.length - axes))
  exact (Definite.invalidIf _ _).bind fun _ _ => .need hsizes

/-! ## The rules -/

/-- The window of the operator is taken from the weights, for want of an attribute. -/
def WindowOfWeights (op : Text) (attrs : Attributes) : Prop :=
  op = "Conv" ∧ attrs.get? "kernel_shape" = none ∨
    op = "ConvTranspose" ∧ attrs.get? "kernel_shape" = none ∧ attrs.get? "output_shape" = none

/-- The places of the inputs whose shapes an operator needs. -/
def neededInputs (op : Text) : List Nat :=
  if op = "Conv" ∨ op = "ConvTranspose" ∨ op = "MaxRoiPool" then [0, 1] else [0]

theorem WindowOfWeights.mem_neededInputs {op : Text} {attrs : Attributes} (h : WindowOfWeights op attrs) :
    1 ∈ neededInputs op := by
  rcases h with ⟨rfl, -⟩ | ⟨rfl, -⟩ <;> simp [neededInputs]

/-- There is no reason for a rule of the operator to abstain. -/
structure Determined (op : Text) (attrs : Attributes) (inputs : List TensorInfo?) : Prop where
  operands : ∀ k ∈ neededInputs op, ∃ s, inputShape? inputs k = some s
  modern : attrs.contains "auto_pad" = false
  ungrouped : ∀ n, attrs.get? "group" = some (.int n) → n = 1
  dense : op = "ConvTranspose" → attrs.contains "dilations" = false
  window : WindowOfWeights op attrs → ∀ s, inputShape? inputs 1 = some s →
    Shape.isFullyKnown s = true

/-- The rule does not abstain where it has no reason to. -/
def ShapeRule.DefiniteFor (rule : ShapeRule) (op : Text) : Prop :=
  ∀ attrs inputs, Determined op attrs inputs → (rule attrs inputs).Definite

theorem Determined.first {op : Text} {attrs : Attributes} {inputs : List TensorInfo?}
    (h : Determined op attrs inputs) : ∃ s, inputShape? inputs 0 = some s := by
  refine h.operands 0 ?_
  unfold neededInputs
  split <;> exact List.mem_cons_self

namespace Window

theorem definite_kernel {attrs : Attributes} {weights : Shape?} {axes : Nat}
    (h : attrs.get? "kernel_shape" = none → ∀ s ∈ weights, Shape.isFullyKnown s = true) :
    (kernel attrs weights axes).Definite := by
  have hcheck : ∀ v : Verdict (List Int64), v.Definite → (do
      let values ← v
      Verdict.ofAttribute (checkMinimum "kernel_shape" values 1)
      return values).Definite := fun v hv =>
    hv.bind fun _ _ => (Definite.ofAttribute _).bind fun _ _ => .pure _
  refine (Definite.ofAttribute _).bind fun given hgiven => ?_
  rw [ofAttribute_eq_done, Attributes.spatial?_eq_ok] at hgiven
  obtain ⟨hnone, rfl⟩ | ⟨values, -, -, rfl⟩ := hgiven
  · cases weights with
    | none => exact hcheck _ fun hv => nomatch hv
    | some s => exact hcheck _ (definite_kernelOfWeights (h hnone s rfl) axes)
  · exact hcheck _ (.pure values)

theorem definite_dilations (kind : WindowKind) (attrs : Attributes) (axes : Nat) :
    (dilations kind attrs axes).Definite := by
  cases kind with
  | pooling => exact .pure _
  | convolution => exact definite_spatialOr _ _ _ _

/-- Where the weights can be read, so can all else. -/
theorem definite_rule {kind : WindowKind} {op : Text} {attrs : Attributes} {inputs : List TensorInfo?}
    (h : Determined op attrs inputs) (hweights : (weights kind inputs).Definite)
    (hknown : attrs.get? "kernel_shape" = none → ∀ w, weights kind inputs = .done w →
      ∀ s ∈ w, Shape.isFullyKnown s = true) : (rule kind attrs inputs).Definite := by
  obtain ⟨input, hinput⟩ := h.first
  refine (Definite.need hinput).bind fun _ _ => hweights.bind fun w hw => ?_
  refine (Definite.abstainIf h.modern).bind fun _ _ => (Definite.invalidIf _ _).bind fun _ _ => ?_
  refine (definite_dilations kind attrs _).bind fun _ _ => ?_
  refine (definite_oneGroup h.ungrouped).bind fun _ _ => ?_
  refine (definite_spatialOr _ _ _ _).bind fun _ _ => (definite_spatialOr _ _ _ _).bind fun _ _ => ?_
  refine (Definite.invalidIf _ _).bind fun _ _ => ?_
  exact (definite_kernel fun hnone => hknown hnone w hw).bind fun _ _ => .pure _

theorem definite_convolution : (rule .convolution).DefiniteFor "Conv" := by
  intro attrs inputs h
  obtain ⟨weights, hweights⟩ := h.operands 1 (by simp [neededInputs])
  refine definite_rule h ((Definite.need hweights).map some) fun hnone w hw s hs => ?_
  obtain ⟨s', hs', rfl⟩ := map_eq_done.mp hw
  cases hs
  exact h.window (.inl ⟨rfl, hnone⟩) s (need_eq_done.mp hs')

theorem definite_pooling (op : Text) : (rule .pooling).DefiniteFor op := by
  intro attrs inputs h
  refine definite_rule h (.pure _) fun _ w hw s hs => ?_
  rw [← done_inj.mp hw] at hs
  cases hs

end Window

namespace Transposed

theorem definite_kernel {given : Option (List Int64)} {weights : Shape} (axes : Nat)
    (h : given = none → Shape.isFullyKnown weights = true) : (kernel given weights axes).Definite := by
  cases given with
  | some values => exact .pure values
  | none =>
    refine (Definite.invalidIf _ _).bind fun _ _ => ?_
    exact (Window.definite_kernelOfWeights (h rfl) axes).bind fun _ _ =>
      (Definite.ofAttribute _).bind fun _ _ => .pure _

theorem definite_wanted (input : Shape) (targets : List Int64) : (wanted input targets).Definite := by
  unfold wanted
  split <;> exact fun h => nomatch h

theorem definite_rule : rule.DefiniteFor "ConvTranspose" := by
  intro attrs inputs h
  obtain ⟨input, hinput⟩ := h.first
  obtain ⟨weights, hweights⟩ := h.operands 1 (by simp [neededInputs])
  refine (Definite.need hinput).bind fun _ _ => (Definite.need hweights).bind fun w hw => ?_
  refine (Definite.abstainIf h.modern).bind fun _ _ => (Definite.invalidIf _ _).bind fun _ _ => ?_
  refine (definite_oneGroup h.ungrouped).bind fun _ _ => ?_
  refine (Definite.abstainIf (h.dense rfl)).bind fun _ _ => ?_
  refine (definite_spatialOr _ _ _ _).bind fun _ _ => (definite_spatialOr _ _ _ _).bind fun _ _ => ?_
  refine (definite_spatialIfGiven _ _ _).bind fun given hgiven => ?_
  refine (definite_spatialIfGiven _ _ _).bind fun targets htargets => ?_
  refine (definite_spatialOr _ _ _ _).bind fun _ _ => (Definite.invalidIf _ _).bind fun _ _ => ?_
  cases targets with
  | some targets => exact (definite_wanted _ targets).bind fun _ _ => .pure _
  | none =>
    -- without targets the window is needed, and the weights give it if no attribute does
    refine ((definite_kernel _ fun hnone => ?_).map _).bind fun _ _ => .pure _
    subst hnone
    have hkernel := get?_of_spatialIfGiven hgiven
    have houtput := get?_of_spatialIfGiven htargets
    exact h.window (.inr ⟨rfl, hkernel, houtput⟩) w (need_eq_done.mp hw)

end Transposed

theorem RegionPool.definite_rule : rule.DefiniteFor "MaxRoiPool" := by
  intro attrs inputs h
  obtain ⟨input, hinput⟩ := h.first
  obtain ⟨regions, hregions⟩ := h.operands 1 (by simp [neededInputs])
  refine (Definite.need hinput).bind fun _ _ => (Definite.need hregions).bind fun _ _ => ?_
  refine (Definite.invalidIf _ _).bind fun _ _ => (Definite.invalidIf _ _).bind fun _ _ => ?_
  refine (Definite.ofAttribute _).bind fun _ _ => (Definite.ofAttribute _).bind fun _ _ => ?_
  exact (Definite.ofAttribute _).bind fun _ _ => .pure _

theorem GlobalPool.definite_rule (op : Text) : rule.DefiniteFor op := by
  intro attrs inputs h
  obtain ⟨input, hinput⟩ := h.first
  exact (Definite.need hinput).bind fun _ _ => (Definite.invalidIf _ _).bind fun _ _ => .pure _

theorem Unchanged.definite_rule (op : Text) : rule.DefiniteFor op := by
  intro attrs inputs h
  obtain ⟨input, hinput⟩ := h.first
  exact .need hinput

theorem Flatten.definite_rule (op : Text) : rule.DefiniteFor op := by
  intro attrs inputs h
  obtain ⟨input, hinput⟩ := h.first
  refine (Definite.need hinput).bind fun _ _ => (Definite.ofAttribute _).bind fun _ _ => ?_
  exact (Definite.invalidIf _ _).bind fun _ _ => .pure _

/-- **No rule of the standard registry abstains without a reason.** -/
theorem definite_of_mem_standardRules :
    ∀ e ∈ Registry.standardRules, ShapeRule.DefiniteFor e.2.2 e.1 := by
  simp only [Registry.standardRules, List.forall_mem_cons, List.not_mem_nil, false_imp_iff,
    implies_true, Window.definite_convolution, Window.definite_pooling, Transposed.definite_rule,
    RegionPool.definite_rule, GlobalPool.definite_rule, Unchanged.definite_rule,
    Flatten.definite_rule, and_self]

end ShapeFlow
