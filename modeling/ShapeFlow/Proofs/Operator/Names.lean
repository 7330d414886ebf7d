/-
Inference does not look at the names of unknown dimensions. Of inputs that differ in names
only, a rule finds all invalid for the same reason, abstains for all, or gives shapes that
differ in names only (`Verdict.SameButNames`, for every standard rule by
`nameless_of_mem_standardRules`); so do the results of every inference by the standard
registry (`bare_infer`).
-/
import ShapeFlow.Proofs.Names

namespace ShapeFlow

/-- The reason with no names in its shapes. -/
def RuleError.bare : RuleError → RuleError
  | .attribute e => .attribute e
  | .inputRank input => .inputRank (Shape.bare input)
  | .weightsRank weights => .weightsRank (Shape.bare weights)
  | .weightsAxes weights axes => .weightsAxes (Shape.bare weights) axes
  | .weightsChannels weights => .weightsChannels (Shape.bare weights)
  | .regionsRank regions => .regionsRank (Shape.bare regions)
  | .outputBelowInput axis target size input => .outputBelowInput axis target size (Shape.bare input)
  | .axisRange axis input => .axisRange axis (Shape.bare input)

def Fault.bare : Fault → Fault
  | .rule op e => .rule op e.bare
  | .reported reason => .reported reason
  | .declined reason => .declined reason

def Outcome.bare : Outcome → Outcome
  | .unresolved => .unresolved
  | .resolved => .resolved
  | .failed fault => .failed fault.bare

def OutputResult.bare (result : OutputResult) : OutputResult := ⟨result.outcome.bare, result.info.bare⟩

def InferError.bare : InferError → InferError
  | .unsupported op opset => .unsupported op opset
  | .failed op fault => .failed op fault.bare

/-! ## Verdicts -/

namespace Verdict

variable {α β γ δ : Type} {R : α → β → Prop} {S : γ → δ → Prop}

/-- The same verdict, but for names in the reason and for what relates the values. -/
inductive SameButNames (R : α → β → Prop) : Verdict α → Verdict β → Prop
  | invalid {e e' : RuleError} : e.bare = e'.bare → SameButNames R (.invalid e) (.invalid e')
  | abstain : SameButNames R .abstain .abstain
  | done {a : α} {b : β} : R a b → SameButNames R (.done a) (.done b)

namespace SameButNames

theorem refl (v : Verdict α) : SameButNames Eq v v := by
  cases v with
  | invalid e => exact .invalid rfl
  | abstain => exact .abstain
  | done a => exact .done rfl

theorem bind {v : Verdict α} {w : Verdict β} (h : SameButNames R v w) {f : α → Verdict γ}
    {g : β → Verdict δ} (hf : ∀ a b, R a b → SameButNames S (f a) (g b)) :
    SameButNames S (v >>= f) (w >>= g) := by
  cases h with
  | invalid he => exact .invalid he
  | abstain => exact .abstain
  | done hab => exact hf _ _ hab

/-- A step that is the same on both sides. -/
theorem same (v : Verdict α) {f : α → Verdict γ} {g : α → Verdict δ}
    (hf : ∀ a, SameButNames S (f a) (g a)) : SameButNames S (v >>= f) (v >>= g) :=
  (refl v).bind fun a _ hab => hab ▸ hf a

theorem need {a : Option α} {b : Option β} (h : Option.Rel R a b) :
    SameButNames R (Verdict.need a) (Verdict.need b) := by
  cases h with
  | none => exact .abstain
  | some hab => exact .done hab

theorem invalidIf {c d : Bool} (h : c = d) {e e' : RuleError} (he : e.bare = e'.bare) :
    SameButNames Eq (Verdict.invalidIf c e) (Verdict.invalidIf d e') := by
  subst h
  cases c with
  | true => exact .invalid he
  | false => exact .done rfl

end SameButNames

end Verdict

open Verdict

/-! ## What a rule reads of its inputs -/

/-- The shapes differ in names only. -/
def Shape.SameButNames (s t : Shape) : Prop := Shape.bare s = Shape.bare t

namespace Shape.SameButNames

variable {s t : Shape} (h : Shape.SameButNames s t)
include h

theorem length_eq : s.length = t.length := by
  rw [← length_bare s, ← length_bare t, h]

theorem getD_eq (i : Nat) : (s.getD i Dim.anonymous).bare = (t.getD i Dim.anonymous).bare := by
  rw [bare_getD, bare_getD, h]

theorem cons {d e : Dim} (hde : d.bare = e.bare) : Shape.SameButNames (d :: s) (e :: t) :=
  congrArg₂ List.cons hde h

theorem take (n : Nat) : Shape.SameButNames (s.take n) (t.take n) := by
  unfold Shape.SameButNames Shape.bare
  rw [List.map_take, List.map_take]
  exact congrArg (List.take n) h

theorem drop (n : Nat) : Shape.SameButNames (s.drop n) (t.drop n) := by
  unfold Shape.SameButNames Shape.bare
  rw [List.map_drop, List.map_drop]
  exact congrArg (List.drop n) h

theorem append (u : Shape) : Shape.SameButNames (s ++ u) (t ++ u) := by
  unfold Shape.SameButNames Shape.bare
  rw [List.map_append, List.map_append]
  exact congrArg (· ++ u.map Dim.bare) h

theorem sizes?_eq : Shape.sizes? s = Shape.sizes? t := by
  rw [← sizes?_bare s, ← sizes?_bare t, h]

theorem product_eq : Dim.product s = Dim.product t := by
  rw [← Dim.product_bare s, ← Dim.product_bare t, h]

end Shape.SameButNames

section Inputs

variable {inputs inputs' : List TensorInfo?}
  (h : inputs.map TensorInfo?.bare = inputs'.map TensorInfo?.bare)
include h

theorem input_eq (i : Nat) :
    TensorInfo?.bare (inputs.getD i none) = TensorInfo?.bare (inputs'.getD i none) := by
  have hget : ∀ l : List TensorInfo?, TensorInfo?.bare (l.getD i none) =
      (l.map TensorInfo?.bare).getD i none := fun l => (List.getD_map ..).symm
  rw [hget, hget, h]

theorem inputShape?_eq (i : Nat) :
    Option.Rel Shape.SameButNames (inputShape? inputs i) (inputShape? inputs' i) := by
  have hbare : Shape?.bare (inputShape? inputs i) = Shape?.bare (inputShape? inputs' i) := by
    have hbind : ∀ t : TensorInfo?, Shape?.bare (t.bind TensorInfo.shape) =
        (TensorInfo?.bare t).bind TensorInfo.shape := fun t => by cases t <;> rfl
    rw [inputShape?, inputShape?, hbind, hbind, input_eq h i]
  generalize inputShape? inputs i = s at hbare
  generalize inputShape? inputs' i = t at hbare
  cases s with
  | none =>
    obtain rfl := Option.map_eq_none_iff.mp hbare.symm
    exact .none
  | some s =>
    obtain ⟨t, rfl, hst⟩ := Option.map_eq_some_iff.mp hbare.symm
    exact .some hst.symm

theorem firstElement?_eq : firstElement? inputs = firstElement? inputs' := by
  have helement : ∀ t : TensorInfo?, TensorInfo?.element? t = TensorInfo?.element? (TensorInfo?.bare t) :=
    fun t => by cases t <;> rfl
  rw [firstElement?, firstElement?, helement, input_eq h 0, ← helement]

/-- A rule that needs the shape of an input. -/
theorem need_inputShape? (i : Nat) :
    SameButNames Shape.SameButNames (need (inputShape? inputs i)) (need (inputShape? inputs' i)) :=
  .need (inputShape?_eq h i)

end Inputs

/-! ## The rules -/

/-- The verdict does not depend on names. -/
def ShapeRule.Nameless (rule : ShapeRule) : Prop :=
  ∀ (attrs : Attributes) {inputs inputs' : List TensorInfo?},
    inputs.map TensorInfo?.bare = inputs'.map TensorInfo?.bare →
    SameButNames Shape.SameButNames (rule attrs inputs) (rule attrs inputs')

namespace Window

theorem positions_bare (d : Dim) (before after kernel dilation stride : Int64) :
    positions d.bare before after kernel dilation stride =
      positions d before after kernel dilation stride := by
  cases d <;> rfl

theorem kernelOfWeights_same {s t : Shape} (h : Shape.SameButNames s t) (axes : Nat) :
    SameButNames Eq (kernelOfWeights s axes) (kernelOfWeights t axes) := by
  have hlen := h.length_eq
  unfold kernelOfWeights
  refine (SameButNames.invalidIf (by rw [hlen]) ?_).bind fun _ _ _ => ?_
  · exact congrArg (RuleError.weightsAxes · axes) h
  · rw [hlen, (h.drop _).sizes?_eq]
    exact .refl _

theorem kernel_same {w w' : Shape?} (h : Option.Rel Shape.SameButNames w w') (attrs : Attributes)
    (axes : Nat) : SameButNames Eq (kernel attrs w axes) (kernel attrs w' axes) := by
  refine .same _ fun given => ?_
  cases given with
  | some values => exact .refl _
  | none =>
    cases h with
    | none => exact .refl _
    | some hw => exact (kernelOfWeights_same hw axes).bind fun values _ hv => hv ▸ .refl _

theorem weights_same {inputs inputs' : List TensorInfo?}
    (h : inputs.map TensorInfo?.bare = inputs'.map TensorInfo?.bare) (kind : WindowKind) :
    SameButNames (Option.Rel Shape.SameButNames) (weights kind inputs) (weights kind inputs') := by
  cases kind with
  | pooling => exact .done .none
  | convolution => exact (need_inputShape? h 1).bind fun _ _ hw => .done (.some hw)

theorem channels_eq {s t : Shape} (h : Shape.SameButNames s t) {w w' : Shape?}
    (hw : Option.Rel Shape.SameButNames w w') : (channels s w).bare = (channels t w').bare := by
  cases hw with
  | none => exact h.getD_eq 1
  | some hw => exact hw.getD_eq 0

theorem rule_nameless (kind : WindowKind) : ShapeRule.Nameless (rule kind) := by
  intro attrs inputs inputs' h
  refine (need_inputShape? h 0).bind fun s t hst => ?_
  refine (weights_same h kind).bind fun w w' hw => .same _ fun _ => ?_
  have hlen := hst.length_eq
  refine (SameButNames.invalidIf (by rw [hlen]) ?_).bind fun _ _ _ => ?_
  · exact congrArg RuleError.inputRank hst
  simp only [hlen]
  refine .same _ fun dilations => .same _ fun _ => .same _ fun pads => .same _ fun strides => ?_
  refine (SameButNames.invalidIf ?_ rfl).bind fun _ _ _ => ?_
  · cases hw with
    | none => rfl
    | @some a b hw =>
      have hnil : a = [] ↔ b = [] := by
        rw [← List.length_eq_zero_iff, hw.length_eq, List.length_eq_zero_iff]
      rw [Bool.eq_iff_iff]
      simpa using hnil
  refine (kernel_same hw attrs _).bind fun kernel _ hk => hk ▸ .done ?_
  have hspatial : ∀ i, positions (s.getD (2 + i) Dim.anonymous) = positions (t.getD (2 + i) Dim.anonymous) := by
    intro i
    funext before after kernel dilation stride
    rw [← positions_bare, hst.getD_eq, positions_bare]
  simp only [hspatial]
  exact Shape.SameButNames.cons (Shape.SameButNames.cons rfl (channels_eq hst hw)) (hst.getD_eq 0)

end Window

namespace Transposed

theorem extent_bare (d : Dim) (before after kernel stride extra : Int64) :
    extent d.bare before after kernel stride extra = extent d before after kernel stride extra := by
  cases d <;> rfl

/-- The same target is too small, if any is. -/
theorem tooSmall?_same {s t : Shape} (h : Shape.SameButNames s t) (i : Nat) (targets : List Int64) :
    (tooSmall? s i targets).map RuleError.bare = (tooSmall? t i targets).map RuleError.bare := by
  induction targets generalizing i with
  | nil => rfl
  | cons target targets ih =>
    have hd := h.getD_eq (2 + i)
    simp only [tooSmall?]
    generalize s.getD (2 + i) Dim.anonymous = d at hd
    generalize t.getD (2 + i) Dim.anonymous = e at hd
    cases d with
    | unknown name =>
      cases e with
      | unknown name => exact ih (i + 1)
      | known m => cases hd
    | known n =>
      cases e with
      | unknown name => cases hd
      | known m =>
        cases hd
        simp only
        split
        · exact congrArg (some ∘ RuleError.outputBelowInput i target n) h
        · exact ih (i + 1)

theorem wanted_same {s t : Shape} (h : Shape.SameButNames s t) (targets : List Int64) :
    SameButNames Eq (wanted s targets) (wanted t targets) := by
  have hsmall := tooSmall?_same h 0 targets
  unfold wanted
  generalize tooSmall? s 0 targets = e at hsmall
  generalize tooSmall? t 0 targets = e' at hsmall
  cases e with
  | none =>
    obtain rfl := Option.map_eq_none_iff.mp hsmall.symm
    exact .refl _
  | some e =>
    obtain ⟨e', rfl, he⟩ := Option.map_eq_some_iff.mp hsmall.symm
    exact .invalid he.symm

theorem kernel_same {s t : Shape} (h : Shape.SameButNames s t) (given : Option (List Int64)) (axes : Nat) :
    SameButNames Eq (kernel given s axes) (kernel given t axes) := by
  cases given with
  | some values => exact .refl _
  | none =>
    refine (SameButNames.invalidIf (by rw [h.length_eq]) ?_).bind fun _ _ _ => ?_
    · exact congrArg (RuleError.weightsAxes · axes) h
    · exact (Window.kernelOfWeights_same h axes).bind fun values _ hv => hv ▸ .refl _

theorem covered_eq {s t : Shape} (h : Shape.SameButNames s t) (pads strides extra : List Int64)
    (axes : Nat) : covered s pads strides extra axes = covered t pads strides extra axes := by
  funext kernel
  refine List.map_congr_left fun i _ => ?_
  rw [← extent_bare, h.getD_eq, extent_bare]

theorem rule_nameless : ShapeRule.Nameless rule := by
  intro attrs inputs inputs' h
  refine (need_inputShape? h 0).bind fun s t hst => ?_
  refine (need_inputShape? h 1).bind fun w w' hw => .same _ fun _ => ?_
  have hlen := hst.length_eq
  refine (SameButNames.invalidIf (by rw [hlen]) ?_).bind fun _ _ _ => ?_
  · exact congrArg RuleError.inputRank hst
  simp only [hlen]
  refine .same _ fun _ => .same _ fun _ => .same _ fun pads => .same _ fun strides => ?_
  refine .same _ fun given => .same _ fun targets => .same _ fun extra => ?_
  refine (SameButNames.invalidIf (by rw [hw.length_eq]) ?_).bind fun _ _ _ => ?_
  · exact congrArg RuleError.weightsChannels hw
  have hout : ∀ a b, a = b → Shape.SameButNames (s.getD 0 Dim.anonymous :: w.getD 1 Dim.anonymous :: a)
      (t.getD 0 Dim.anonymous :: w'.getD 1 Dim.anonymous :: b) := by
    rintro a _ rfl
    exact Shape.SameButNames.cons (Shape.SameButNames.cons rfl (hw.getD_eq 1)) (hst.getD_eq 0)
  cases targets with
  | some targets => exact (wanted_same hst targets).bind fun a b hab => .done (hout a b hab)
  | none =>
    rw [covered_eq hst]
    have hkernel := kernel_same hw given (t.length - 2)
    exact (hkernel.bind fun _ _ hk => .done (congrArg _ hk)).bind fun a b hab => .done (hout a b hab)

end Transposed

theorem RegionPool.rule_nameless : ShapeRule.Nameless rule := by
  intro attrs inputs inputs' h
  refine (need_inputShape? h 0).bind fun s t hst => ?_
  refine (need_inputShape? h 1).bind fun u u' hu => ?_
  refine (SameButNames.invalidIf (by rw [hst.length_eq]) ?_).bind fun _ _ _ => ?_
  · exact congrArg RuleError.inputRank hst
  refine (SameButNames.invalidIf (by rw [hu.length_eq]) ?_).bind fun _ _ _ => ?_
  · exact congrArg RuleError.regionsRank hu
  refine .same _ fun pooled => .same _ fun _ => .same _ fun _ => .done ?_
  exact Shape.SameButNames.cons (Shape.SameButNames.cons rfl (hst.getD_eq 1)) (hu.getD_eq 0)

theorem GlobalPool.rule_nameless : ShapeRule.Nameless rule := by
  intro attrs inputs inputs' h
  refine (need_inputShape? h 0).bind fun s t hst => ?_
  refine (SameButNames.invalidIf (by rw [hst.length_eq]) ?_).bind fun _ _ _ => .done ?_
  · exact congrArg RuleError.inputRank hst
  · rw [hst.length_eq]
    exact hst.take 2 |>.append _

theorem Unchanged.rule_nameless : ShapeRule.Nameless rule := by
  intro attrs inputs inputs' h
  exact need_inputShape? h 0

theorem Flatten.rule_nameless : ShapeRule.Nameless rule := by
  intro attrs inputs inputs' h
  refine (need_inputShape? h 0).bind fun s t hst => .same _ fun axis => ?_
  refine (SameButNames.invalidIf (by rw [hst.length_eq]) ?_).bind fun _ _ _ => .done ?_
  · exact congrArg (RuleError.axisRange (axis.getD 1)) hst
  · rw [(hst.take _).product_eq, (hst.drop _).product_eq]
    exact rfl

theorem nameless_of_mem_standardRules : ∀ e ∈ Registry.standardRules, ShapeRule.Nameless e.2.2 := by
  have hw := Window.rule_nameless
  have hg := GlobalPool.rule_nameless
  have hu := Unchanged.rule_nameless
  simp only [Registry.standardRules, List.forall_mem_cons, List.not_mem_nil, false_imp_iff, implies_true,
    hw, hg, hu, Transposed.rule_nameless, RegionPool.rule_nameless, Flatten.rule_nameless, and_self]

/-! ## Results -/

theorem Outcome.fault?_bare (o : Outcome) : o.bare.fault? = o.fault?.map Fault.bare := by
  cases o <;> rfl

namespace ShapeRule

variable {rule : ShapeRule} {inputs inputs' : List TensorInfo?}

theorem Nameless.first_eq (h : rule.Nameless)
    (hins : inputs.map TensorInfo?.bare = inputs'.map TensorInfo?.bare) (op : Text) (attrs : Attributes) :
    (rule.first op attrs inputs).bare = (rule.first op attrs inputs').bare := by
  have helement := firstElement?_eq hins
  have hsame := h attrs hins
  unfold first
  generalize rule attrs inputs = v at hsame
  generalize rule attrs inputs' = w at hsame
  cases hsame with
  | invalid he => simp only [OutputResult.bare, Outcome.bare, Fault.bare, he]
  | abstain => simp only [helement]
  | @done s t hst =>
    have hshape : Shape?.bare (some s) = Shape?.bare (some t) := congrArg some hst
    simp only [OutputResult.bare, TensorInfo.bare, helement, hshape]

theorem infer_eq_ite (rule : ShapeRule) (op : Text) (attrs : Attributes) (inputs : List TensorInfo?)
    (outputs : Int) : rule.infer op attrs inputs outputs =
      if (rule.first op attrs inputs).outcome.fault?.isSome then
        List.replicate (max outputs 1).toNat (rule.first op attrs inputs)
      else (rule.first op attrs inputs :: List.replicate (outputs.toNat - 1) {}).take outputs.toNat := by
  unfold infer
  cases h : (rule.first op attrs inputs).outcome <;> simp only [Outcome.fault?, h] <;> rfl

theorem Nameless.infer_eq (h : rule.Nameless)
    (hins : inputs.map TensorInfo?.bare = inputs'.map TensorInfo?.bare) (op : Text) (attrs : Attributes)
    (outputs : Int) :
    (rule.infer op attrs inputs outputs).map OutputResult.bare =
      (rule.infer op attrs inputs' outputs).map OutputResult.bare := by
  have hfirst := h.first_eq hins op attrs
  have hfault : (rule.first op attrs inputs).outcome.fault?.isSome =
      (rule.first op attrs inputs').outcome.fault?.isSome := by
    have := congrArg (·.outcome.fault?.isSome) hfirst
    simpa only [OutputResult.bare, Outcome.fault?_bare, Option.isSome_map] using this
  rw [infer_eq_ite, infer_eq_ite, hfault]
  split
  · rw [List.map_replicate, List.map_replicate, hfirst]
  · rw [List.map_take, List.map_take, List.map_cons, List.map_cons, hfirst]

end ShapeRule

namespace Registry

theorem bare_applyResult (slot : TensorInfo?) (result : OutputResult) :
    TensorInfo?.bare (applyResult slot result) = applyResult (TensorInfo?.bare slot) result.bare := by
  cases slot with
  | none => rfl
  | some info =>
    obtain ⟨outcome, element, shape⟩ := result
    cases outcome with
    | resolved => rfl
    | failed fault => rfl
    | unresolved => cases element <;> rfl

theorem bare_applyResults (slots : List TensorInfo?) (results : List OutputResult) :
    (applyResults slots results).map TensorInfo?.bare =
      applyResults (slots.map TensorInfo?.bare) (results.map OutputResult.bare) := by
  induction slots generalizing results with
  | nil => cases results <;> rfl
  | cons slot slots ih =>
    cases results with
    | nil => rfl
    | cons result results =>
      exact congrArg₂ List.cons (bare_applyResult slot result) (ih results)

theorem bare_findSome? (results : List OutputResult) :
    (results.findSome? fun result => result.outcome.fault?).map Fault.bare =
      (results.map OutputResult.bare).findSome? fun result => result.outcome.fault? := by
  rw [List.map_findSome?, List.findSome?_map]
  congr 1
  funext result
  exact (Outcome.fault?_bare result.outcome).symm

/-- An answer with no names in it. -/
def bareAnswer (answer : Except InferError (List TensorInfo?)) : Except InferError (List TensorInfo?) :=
  match answer with
  | .error e => .error e.bare
  | .ok outputs => .ok (outputs.map TensorInfo?.bare)

/-- **Inference by the standard rules does not look at names:** from inputs that differ in
names only it gives answers that do. -/
theorem bare_infer {inputs inputs' : List TensorInfo?}
    (h : inputs.map TensorInfo?.bare = inputs'.map TensorInfo?.bare) (op : Text) (opset : Int)
    (attrs : Attributes) (slots : List TensorInfo?) :
    bareAnswer (standard.infer op opset attrs inputs slots) =
      bareAnswer (standard.infer op opset attrs inputs' slots) := by
  unfold infer
  cases hf : standard.lookup op opset with
  | none => rfl
  | some f =>
    obtain ⟨since, rule, hmem, rfl⟩ := lookup_standard hf
    have hrule : rule.Nameless := nameless_of_mem_standardRules _ hmem
    have hresults := hrule.infer_eq h op attrs slots.length
    have hwritten : (applyResults slots (rule.infer op attrs inputs slots.length)).map TensorInfo?.bare =
        (applyResults slots (rule.infer op attrs inputs' slots.length)).map TensorInfo?.bare := by
      rw [bare_applyResults, bare_applyResults, hresults]
    have hfault := bare_findSome? (rule.infer op attrs inputs slots.length)
    rw [hresults, ← bare_findSome?] at hfault
    simp only
    generalize List.findSome? _ (rule.infer op attrs inputs slots.length) = fault at hfault
    generalize List.findSome? _ (rule.infer op attrs inputs' slots.length) = fault' at hfault
    cases fault with
    | none =>
      obtain rfl := Option.map_eq_none_iff.mp hfault.symm
      exact congrArg Except.ok hwritten
    | some fault =>
      obtain ⟨fault', rfl, hbare⟩ := Option.map_eq_some_iff.mp hfault.symm
      exact congrArg (Except.error ∘ InferError.failed op) hbare.symm

end Registry

end ShapeFlow
