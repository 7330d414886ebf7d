/-
Why nodes are invalid. A reason that a rule gives speaks of an attribute or of the shape of an
input, and what it says is so (`RuleError.TrueOf`): the attribute has that value or is missing,
the shape is that of the input, and the bound that is named is not kept. Values that stand in
for a missing attribute are never blamed. Every rule of the standard registry gives only such
reasons (`reasoned_of_mem_standardRules`).
-/
import ShapeFlow.Proofs.Operator.Reading
import ShapeFlow.Registry

namespace ShapeFlow

/-! ## Reasons that are so -/

/-- Where the values of a list attribute come from: from the attribute or, for the window of a
convolution without one, from the last axes of the weights. -/
inductive ValuesFrom (attrs : Attributes) (inputs : List TensorInfo?) (name : Text) (values : List Int64) : Prop
  | given (h : attrs.get? name = some (.ints values))
  | weights (weights : Shape) (hname : name = "kernel_shape") (hnone : attrs.get? name = none)
      (hweights : inputShape? inputs 1 = some weights) (hlast : Shape.ofSizes values <:+ weights)

/-- What the error says of the attributes is so. -/
def AttributeError.TrueOf (attrs : Attributes) (inputs : List TensorInfo?) : AttributeError → Prop
  | .type name found expected =>
    ∃ a, attrs.get? name = some a ∧ a.type = found ∧ found ≠ expected
  | .length name values expected =>
    attrs.get? name = some (.ints values) ∧ (values.length : Int) ≠ expected
  | .missing name => attrs.get? name = none
  | .minimum name value position values least =>
    ValuesFrom attrs inputs name values ∧ values[position]? = some value ∧ value < least

/-- What the error says of the node is so. -/
def RuleError.TrueOf (attrs : Attributes) (inputs : List TensorInfo?) : RuleError → Prop
  | .attribute e => e.TrueOf attrs inputs
  | .inputRank input => inputShape? inputs 0 = some input ∧ input.length < 2
  | .weightsRank weights => inputShape? inputs 1 = some weights ∧ weights.length < 1
  | .weightsAxes weights axes => inputShape? inputs 1 = some weights ∧ weights.length < axes + 2 ∧
    ∃ input, inputShape? inputs 0 = some input ∧ input.length = axes + 2
  | .weightsChannels weights => inputShape? inputs 1 = some weights ∧ weights.length < 2
  | .regionsRank regions => inputShape? inputs 1 = some regions ∧ regions.length ≠ 2
  | .outputBelowInput axis target size input =>
    inputShape? inputs 0 = some input ∧ input[2 + axis]? = some (.known size) ∧ target < size ∧
    ∃ targets, attrs.get? "output_shape" = some (.ints targets) ∧ targets[axis]? = some target
  | .axisRange axis input => inputShape? inputs 0 = some input ∧
    (attrs.get? "axis" = some (.int axis) ∨ attrs.get? "axis" = none ∧ axis = 1) ∧
    (axis.toInt < 0 ∨ (input.length : Int) < axis.toInt)

namespace Verdict

variable {α β : Type} {P : RuleError → Prop}

/-- If the node is found invalid, the reason is one of these. -/
def Reasoned (P : RuleError → Prop) (v : Verdict α) : Prop := ∀ e, v = .invalid e → P e

namespace Reasoned

/-- **Steps with reasons follow each other to a verdict with a reason.** -/
theorem bind {v : Verdict α} (h : v.Reasoned P) {f : α → Verdict β}
    (hf : ∀ a, v = .done a → (f a).Reasoned P) : (v >>= f).Reasoned P := by
  cases v with
  | invalid e =>
    intro e' he'
    cases he'
    exact h e rfl
  | abstain => exact nofun
  | done a => exact hf a rfl

theorem pure (a : α) : (Pure.pure a : Verdict α).Reasoned P := nofun

theorem map {v : Verdict α} (h : v.Reasoned P) (f : α → β) : (f <$> v).Reasoned P :=
  h.bind fun a _ => pure (f a)

theorem need (o : Option α) : (need o).Reasoned P := by
  cases o <;> exact nofun

theorem abstainIf (c : Bool) : (abstainIf c).Reasoned P := by
  cases c <;> exact nofun

theorem invalidIf {c : Bool} {e : RuleError} (h : c = true → P e) : (invalidIf c e).Reasoned P := by
  cases c with
  | false => exact nofun
  | true =>
    intro e' he'
    cases he'
    exact h rfl

theorem ofAttribute {x : Except AttributeError α} (h : ∀ e, x = .error e → P (.attribute e)) :
    (ofAttribute x).Reasoned P := by
  cases x with
  | ok a => exact nofun
  | error e =>
    intro e' he'
    cases he'
    exact h e rfl

end Reasoned

end Verdict

open Verdict

/-- Every reason that the rule gives is so. -/
def ShapeRule.Reasoned (rule : ShapeRule) : Prop :=
  ∀ attrs inputs, (rule attrs inputs).Reasoned (RuleError.TrueOf attrs inputs)

/-! ## Attributes -/

section Attributes

variable {attrs : Attributes} {inputs : List TensorInfo?} {name : Text} {e : AttributeError}

namespace Attributes

theorem int?_error (h : attrs.int? name = .error e) : e.TrueOf attrs inputs := by
  unfold int? at h
  split at h
  · cases h
  · cases h
  · next a hother hget =>
    cases h
    refine ⟨a, hget, rfl, fun htype => ?_⟩
    cases a with
    | int n => exact hother n rfl
    | float | string | floats | ints | strings | coded => cases htype

theorem int?_ok {value : Option Int64} (h : attrs.int? name = .ok value) :
    attrs.get? name = value.map Attribute.int := by
  unfold int? at h
  split at h
  · next hget =>
    cases h
    exact hget
  · next hget =>
    cases h
    exact hget
  · cases h

theorem float?_error (h : attrs.float? name = .error e) : e.TrueOf attrs inputs := by
  unfold float? at h
  split at h
  · cases h
  · cases h
  · next a hother hget =>
    cases h
    refine ⟨a, hget, rfl, fun htype => ?_⟩
    cases a with
    | float x => exact hother x rfl
    | int | string | floats | ints | strings | coded => cases htype

theorem ints?_error (h : attrs.ints? name = .error e) : e.TrueOf attrs inputs := by
  unfold ints? at h
  split at h
  · cases h
  · cases h
  · next a hother hget =>
    cases h
    refine ⟨a, hget, rfl, fun htype => ?_⟩
    cases a with
    | ints ns => exact hother ns rfl
    | float | int | string | floats | strings | coded => cases htype

theorem ints?_ok {values : List Int64} (h : attrs.ints? name = .ok (some values)) :
    attrs.get? name = some (.ints values) := by
  unfold ints? at h
  split at h
  · cases h
  · next hget =>
    cases h
    exact hget
  · cases h

theorem spatial?_error {length : Int} (h : attrs.spatial? name length = .error e) :
    e.TrueOf attrs inputs := by
  unfold spatial? at h
  split at h
  · next hread =>
    cases h
    exact ints?_error hread
  · cases h
  · next values hread =>
    split at h
    · cases h
    · next hlength =>
      cases h
      exact ⟨ints?_ok hread, hlength⟩

theorem required_error {length : Nat} (h : attrs.required name length = .error e) :
    e.TrueOf attrs inputs := by
  unfold required at h
  split at h
  · next hread =>
    cases h
    exact spatial?_error hread
  · next hread =>
    cases h
    obtain ⟨hnone, -⟩ | ⟨_, -, -, hsome⟩ := spatial?_eq_ok.mp hread
    · exact hnone
    · cases hsome
  · cases h

end Attributes

/-- The value that is reported is the one at the place reported, and too small. -/
theorem checkMinimum_error {values : List Int64} {least : Int64}
    (hvalues : ValuesFrom attrs inputs name values) (h : checkMinimum name values least = .error e) :
    e.TrueOf attrs inputs := by
  unfold checkMinimum at h
  split at h
  · cases h
  · next i hi =>
    cases h
    obtain ⟨hlength, hlt, -⟩ := List.findIdx?_eq_some_iff_getElem.mp hi
    have hvalue : values[i]? = some (values.getD i 0) := by
      rw [List.getD_eq_getElem?_getD, List.getElem?_eq_getElem hlength, Option.getD_some]
    refine ⟨hvalues, hvalue, ?_⟩
    rw [List.getElem?_eq_getElem hlength, Option.some.injEq] at hvalue
    exact hvalue ▸ of_decide_eq_true hlt

/-- Values that are not below the least have nothing to be reported. -/
theorem checkMinimum_ne_error {values : List Int64} {least : Int64} (h : ∀ n ∈ values, least ≤ n) :
    checkMinimum name values least ≠ .error e := by
  rw [checkMinimum_eq_ok (u := ()) |>.mpr h]
  exact nofun

/-- Values that stand in for missing ones pass the check, so only given values are blamed. -/
theorem reasoned_spatialOr {length : Nat} {fill least : Int64} (hfill : least ≤ fill) :
    (spatialOr attrs name length fill least).Reasoned (RuleError.TrueOf attrs inputs) := by
  refine (Reasoned.ofAttribute fun e he => Attributes.spatial?_error he).bind fun given hgiven => ?_
  refine (Reasoned.ofAttribute fun e he => ?_).bind fun _ _ => .pure _
  obtain ⟨-, rfl⟩ | ⟨values, hget, -, rfl⟩ := Attributes.spatial?_eq_ok.mp (ofAttribute_eq_done.mp hgiven)
  · refine absurd he (checkMinimum_ne_error fun n hn => ?_)
    rwa [List.eq_of_mem_replicate hn]
  · exact checkMinimum_error (.given hget) he

theorem reasoned_spatialIfGiven {length : Nat} {least : Int64} :
    (spatialIfGiven attrs name length least).Reasoned (RuleError.TrueOf attrs inputs) := by
  refine (Reasoned.ofAttribute fun e he => Attributes.spatial?_error he).bind fun given hgiven => ?_
  refine (Reasoned.ofAttribute fun e he => ?_).bind fun _ _ => .pure _
  obtain ⟨-, rfl⟩ | ⟨values, hget, -, rfl⟩ := Attributes.spatial?_eq_ok.mp (ofAttribute_eq_done.mp hgiven)
  · exact absurd he (checkMinimum_ne_error nofun)
  · exact checkMinimum_error (.given hget) he

theorem reasoned_oneGroup : (oneGroup attrs).Reasoned (RuleError.TrueOf attrs inputs) :=
  (Reasoned.ofAttribute fun _ he => Attributes.int?_error he).bind fun _ _ => .abstainIf _

end Attributes

/-! ## Rules -/

namespace Window

variable {attrs : Attributes} {inputs : List TensorInfo?} {axes : Nat}

theorem suffix_kernelOfWeights {weights : Shape} {values : List Int64}
    (h : kernelOfWeights weights axes = .done values) : Shape.ofSizes values <:+ weights := by
  simp only [kernelOfWeights, bind_eq_done, need_eq_done, Shape.sizes?_eq_some] at h
  obtain ⟨-, -, hsizes⟩ := h
  exact hsizes ▸ List.drop_suffix _ _

theorem reasoned_kernelOfWeights {weights input : Shape} (hinput : inputShape? inputs 0 = some input)
    (haxes : input.length = axes + 2) (hweights : inputShape? inputs 1 = some weights) :
    (kernelOfWeights weights axes).Reasoned (RuleError.TrueOf attrs inputs) := by
  refine (Reasoned.invalidIf fun h => ?_).bind fun _ _ => .need _
  have hrank := of_decide_eq_true h
  exact ⟨hweights, by omega, input, hinput, haxes⟩

theorem reasoned_kernel {weights : Shape?} {input : Shape} (hinput : inputShape? inputs 0 = some input)
    (haxes : input.length = axes + 2) (hweights : ∀ w, weights = some w → inputShape? inputs 1 = some w) :
    (kernel attrs weights axes).Reasoned (RuleError.TrueOf attrs inputs) := by
  refine (Reasoned.ofAttribute fun e he => Attributes.spatial?_error he).bind fun given hgiven => ?_
  obtain ⟨hnone, rfl⟩ | ⟨values, hget, -, rfl⟩ := Attributes.spatial?_eq_ok.mp (ofAttribute_eq_done.mp hgiven)
  · cases weights with
    | none =>
      refine Reasoned.bind (fun e he => ?_) nofun
      cases he
      exact hnone
    | some w =>
      refine (reasoned_kernelOfWeights hinput haxes (hweights w rfl)).bind fun values hvalues => ?_
      refine (Reasoned.ofAttribute fun e he => ?_).bind fun _ _ => .pure _
      have hlast := suffix_kernelOfWeights hvalues
      exact checkMinimum_error (.weights w rfl hnone (hweights w rfl) hlast) he
  · refine (Reasoned.pure values).bind fun _ hvalues => ?_
    obtain rfl := pure_eq_done.mp hvalues
    exact (Reasoned.ofAttribute fun e he => checkMinimum_error (.given hget) he).bind fun _ _ => .pure _

theorem inputShape?_of_weights {kind : WindowKind} {weights : Shape?}
    (h : Window.weights kind inputs = .done weights) :
    ∀ w, weights = some w → inputShape? inputs 1 = some w := by
  rintro w rfl
  cases kind with
  | pooling => cases h
  | convolution =>
    obtain ⟨w', hw', hdone⟩ := bind_eq_done.mp h
    obtain rfl := Option.some.inj (pure_eq_done.mp hdone)
    exact need_eq_done.mp hw'

theorem reasoned_weights (kind : WindowKind) :
    (weights kind inputs).Reasoned (RuleError.TrueOf attrs inputs) := by
  cases kind with
  | pooling => exact .pure _
  | convolution => exact (Reasoned.need _).bind fun _ _ => .pure _

theorem reasoned_dilations (kind : WindowKind) :
    (dilations kind attrs axes).Reasoned (RuleError.TrueOf attrs inputs) := by
  cases kind with
  | pooling => exact .pure _
  | convolution => exact reasoned_spatialOr (by decide)

theorem reasoned_rule (kind : WindowKind) : (rule kind).Reasoned := by
  intro attrs inputs
  refine (Reasoned.need _).bind fun input hinput => ?_
  refine (reasoned_weights kind).bind fun weights hweights => ?_
  have hinput := need_eq_done.mp hinput
  have hweights := inputShape?_of_weights hweights
  refine (Reasoned.abstainIf _).bind fun _ _ => ?_
  refine (Reasoned.invalidIf fun h => ⟨hinput, of_decide_eq_true h⟩).bind fun _ hrank => ?_
  have hrank := Nat.le_of_not_lt (of_decide_eq_false (invalidIf_eq_done.mp hrank))
  refine (reasoned_dilations kind).bind fun _ _ => reasoned_oneGroup.bind fun _ _ => ?_
  refine (reasoned_spatialOr (by decide)).bind fun _ _ => ?_
  refine (reasoned_spatialOr (by decide)).bind fun _ _ => ?_
  refine (Reasoned.invalidIf fun h => ?_).bind fun _ _ => ?_
  · exact ⟨hweights [] (by simpa using h), Nat.zero_lt_one⟩
  · exact (reasoned_kernel hinput (by omega) hweights).bind fun _ _ => .pure _

end Window

namespace Transposed

variable {attrs : Attributes} {inputs : List TensorInfo?}

/-- What is reported is a place where the input is larger than what is asked for. -/
theorem tooSmall?_eq_some {input : Shape} {i : Nat} {targets : List Int64} {e : RuleError}
    (h : tooSmall? input i targets = some e) :
    ∃ k target size, e = .outputBelowInput (i + k) target size input ∧ targets[k]? = some target ∧
      input[2 + (i + k)]? = some (.known size) ∧ target < size := by
  induction targets generalizing i with
  | nil => cases h
  | cons target rest ih =>
    -- a place further on is found from the next one
    have hlater : tooSmall? input (i + 1) rest = some e → ∃ k t size,
        e = .outputBelowInput (i + k) t size input ∧ (target :: rest)[k]? = some t ∧
        input[2 + (i + k)]? = some (.known size) ∧ t < size := fun hrest => by
      obtain ⟨k, t, size, he, ht, hsize, hlt⟩ := ih hrest
      rw [show i + 1 + k = i + (k + 1) by omega] at he hsize
      exact ⟨k + 1, t, size, he, ht, hsize, hlt⟩
    unfold tooSmall? at h
    split at h
    · next size hsize =>
      split at h
      · next hlt =>
        cases h
        refine ⟨0, target, size, rfl, rfl, ?_, hlt⟩
        rw [List.getD_eq_getElem?_getD] at hsize
        cases hget : input[2 + i]? with
        | none => rw [hget] at hsize; cases hsize
        | some d => rw [hget] at hsize; exact congrArg some hsize
      · exact hlater h
    · exact hlater h

theorem reasoned_wanted {input : Shape} (hinput : inputShape? inputs 0 = some input) {targets : List Int64}
    (htargets : attrs.get? "output_shape" = some (.ints targets)) :
    (wanted input targets).Reasoned (RuleError.TrueOf attrs inputs) := by
  intro e he
  unfold wanted at he
  split at he
  · next e' hsmall =>
    cases he
    obtain ⟨k, target, size, rfl, htarget, hsize, hlt⟩ := tooSmall?_eq_some hsmall
    rw [Nat.zero_add] at hsize ⊢
    exact ⟨hinput, hsize, hlt, targets, htargets, htarget⟩
  · cases he

theorem reasoned_kernel {given : Option (List Int64)} {weights input : Shape} {axes : Nat}
    (hinput : inputShape? inputs 0 = some input) (haxes : input.length = axes + 2)
    (hweights : inputShape? inputs 1 = some weights)
    (hnone : given = none → attrs.get? "kernel_shape" = none) :
    (kernel given weights axes).Reasoned (RuleError.TrueOf attrs inputs) := by
  cases given with
  | some values => exact .pure values
  | none =>
    refine (Reasoned.invalidIf fun h => ?_).bind fun _ _ => ?_
    · exact ⟨hweights, of_decide_eq_true h, input, hinput, haxes⟩
    refine (Window.reasoned_kernelOfWeights hinput haxes hweights).bind fun values hvalues => ?_
    refine (Reasoned.ofAttribute fun e he => ?_).bind fun _ _ => .pure _
    have hlast := Window.suffix_kernelOfWeights hvalues
    exact checkMinimum_error (.weights weights rfl (hnone rfl) hweights hlast) he

theorem reasoned_rule : rule.Reasoned := by
  intro attrs inputs
  refine (Reasoned.need _).bind fun input hinput => (Reasoned.need _).bind fun weights hweights => ?_
  have hinput := need_eq_done.mp hinput
  have hweights := need_eq_done.mp hweights
  refine (Reasoned.abstainIf _).bind fun _ _ => ?_
  refine (Reasoned.invalidIf fun h => ⟨hinput, of_decide_eq_true h⟩).bind fun _ hrank => ?_
  have hrank := Nat.le_of_not_lt (of_decide_eq_false (invalidIf_eq_done.mp hrank))
  refine reasoned_oneGroup.bind fun _ _ => (Reasoned.abstainIf _).bind fun _ _ => ?_
  refine (reasoned_spatialOr (by decide)).bind fun _ _ => ?_
  refine (reasoned_spatialOr (by decide)).bind fun _ _ => ?_
  refine reasoned_spatialIfGiven.bind fun given hgiven => ?_
  refine reasoned_spatialIfGiven.bind fun targets htargets => ?_
  refine (reasoned_spatialOr (by decide)).bind fun _ _ => ?_
  refine (Reasoned.invalidIf fun h => ⟨hweights, of_decide_eq_true h⟩).bind fun _ _ => ?_
  obtain ⟨hgiven, -⟩ := spatialIfGiven_eq_done.mp hgiven
  obtain ⟨htargets, -⟩ := spatialIfGiven_eq_done.mp htargets
  obtain ⟨-, rfl⟩ | ⟨values, hvalues, -, rfl⟩ := Attributes.spatial?_eq_ok.mp htargets
  · refine ((reasoned_kernel hinput (by omega) hweights fun hnone => ?_).map _).bind fun _ _ => .pure _
    obtain ⟨hget, -⟩ | ⟨_, -, -, hsome⟩ := Attributes.spatial?_eq_ok.mp hgiven
    · exact hget
    · cases hnone.symm.trans hsome
  · exact (reasoned_wanted hinput hvalues).bind fun _ _ => .pure _

end Transposed

theorem RegionPool.reasoned_rule : rule.Reasoned := by
  intro attrs inputs
  refine (Reasoned.need _).bind fun input hinput => (Reasoned.need _).bind fun regions hregions => ?_
  have hinput := need_eq_done.mp hinput
  have hregions := need_eq_done.mp hregions
  refine (Reasoned.invalidIf fun h => ⟨hinput, of_decide_eq_true h⟩).bind fun _ _ => ?_
  refine (Reasoned.invalidIf fun h => ⟨hregions, by simpa using h⟩).bind fun _ _ => ?_
  refine (Reasoned.ofAttribute fun e he => Attributes.required_error he).bind fun pooled hpooled => ?_
  obtain ⟨hget, -⟩ := Attributes.required_eq_ok.mp (ofAttribute_eq_done.mp hpooled)
  refine (Reasoned.ofAttribute fun e he => checkMinimum_error (.given hget) he).bind fun _ _ => ?_
  exact (Reasoned.ofAttribute fun e he => Attributes.float?_error he).bind fun _ _ => .pure _

theorem GlobalPool.reasoned_rule : rule.Reasoned := by
  intro attrs inputs
  refine (Reasoned.need _).bind fun input hinput => ?_
  have hinput := need_eq_done.mp hinput
  exact (Reasoned.invalidIf fun h => ⟨hinput, of_decide_eq_true h⟩).bind fun _ _ => .pure _

theorem Unchanged.reasoned_rule : rule.Reasoned := fun _ _ => .need _

theorem Flatten.reasoned_rule : rule.Reasoned := by
  intro attrs inputs
  refine (Reasoned.need _).bind fun input hinput => ?_
  refine (Reasoned.ofAttribute fun e he => Attributes.int?_error he).bind fun axis haxis => ?_
  refine (Reasoned.invalidIf fun h => ?_).bind fun _ _ => .pure _
  have hget := Attributes.int?_ok (ofAttribute_eq_done.mp haxis)
  refine ⟨need_eq_done.mp hinput, ?_, ?_⟩
  · cases axis with
    | none => exact .inr ⟨hget, rfl⟩
    | some n => exact .inl hget
  · simpa [Int64.lt_iff_toInt_lt] using h

/-- **Every rule of the standard registry gives only reasons that are so.** -/
theorem reasoned_of_mem_standardRules : ∀ e ∈ Registry.standardRules, ShapeRule.Reasoned e.2.2 := by
  simp only [Registry.standardRules, List.forall_mem_cons, List.not_mem_nil, false_imp_iff,
    implies_true, Window.reasoned_rule, Transposed.reasoned_rule, RegionPool.reasoned_rule,
    GlobalPool.reasoned_rule, Unchanged.reasoned_rule, Flatten.reasoned_rule, and_self]

end ShapeFlow
