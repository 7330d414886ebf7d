/-
No rule takes what is not there. Each rule of the standard registry is written once more with
every index, slice and division checked, and with the number of spatial axes as an integer that
could be negative; each comes to the verdict of the rule itself, whatever the attributes and the
inputs are (`checked_of_mem_standardRules`). So the lists that are indexed by axes are as long as
the axes need, whether they were given or filled in, and a stride is never zero. A node that
fails does so for a reason that the rule checked for and that is so (`infer_checked`).
-/
import Mathlib
import ShapeFlow.Proofs.Inference.Checked
import ShapeFlow.Proofs.Operator.Rank
import ShapeFlow.Proofs.Operator.Reasons

namespace ShapeFlow

open Checked Verdict

/-! ## Sliding windows -/

namespace Window

namespace Operands

/-- The windows along a spatial axis. Nothing is taken for an axis of unknown length, and no
stride for one that is too short. -/
def checkedAlong (o : Operands) (i : Nat) : Except Crash Dim := do
  let axis ← get o.input (2 + i : Nat)
  match axis with
  | .unknown _ => return Dim.anonymous
  | .known size =>
    let before ← get o.pads i
    let after ← get o.pads (i + o.axes : Nat)
    let room := size + before + after
    let window ← get o.kernel i
    let dilation ← get o.dilations i
    let span := (window - 1) * dilation + 1
    if room < span then
      return Dim.anonymous
    let stride ← get o.strides i
    let steps ← divide (room - span) stride
    return .known (steps + 1)

def checkedChannels (o : Operands) : Except Crash Dim :=
  match o.weights with
  | some weights => get weights 0
  | none => get o.input 1

def checkedOutput (o : Operands) : Except Crash Shape := do
  let batch ← get o.input 0
  let channels ← o.checkedChannels
  let spatial ← (List.range o.axes).mapM o.checkedAlong
  return batch :: channels :: spatial

namespace ReadFrom

variable {o : Operands} {kind : WindowKind} {attrs : Attributes} {inputs : List TensorInfo?}

theorem checkedAlong_eq (h : o.ReadFrom kind attrs inputs) {i : Nat} (hi : i < o.axes) :
    o.checkedAlong i = .ok (o.along i) := by
  have hrank := h.rank
  have haxes : o.axes = o.input.length - 2 := rfl
  have hpads := length_spatialOr h.pads
  have hstride : o.strides.getD i 1 ≠ 0 := fun hzero => by
    obtain ⟨-, -, -, hleast⟩ := spatialOr_eq_done.mp h.strides
    have hone := le_getD hleast Int64.le_rfl i
    rw [hzero] at hone
    exact absurd hone (by decide)
  unfold checkedAlong along
  rw [get_eq (by omega) Dim.anonymous, get_eq (by omega) 0, get_eq (by omega) 0,
    get_eq (by rwa [length_kernel h.kernel]) 1, get_eq (by rwa [length_dilations h.dilations]) 1,
    get_eq (by rwa [length_spatialOr h.strides]) 1]
  cases o.input.getD (2 + i) Dim.anonymous with
  | unknown name => rfl
  | known size =>
    simp only [positions]
    split
    · next hshort => exact if_pos hshort
    · next hfits =>
      refine (if_neg hfits).trans ?_
      change (divide _ (o.strides.getD i 1) >>= _) = _
      rw [divide_eq hstride]
      rfl

theorem checkedChannels_eq (h : o.ReadFrom kind attrs inputs) :
    o.checkedChannels = .ok (channels o.input o.weights) := by
  have hrank := h.rank
  have hfilters := h.filters
  unfold checkedChannels channels
  cases hweights : o.weights with
  | none => exact get_one (by omega) _
  | some weights =>
    have hpos : 0 < weights.length := List.length_pos_iff.mpr fun hnil => hfilters (by rw [hweights, hnil])
    exact get_zero hpos _

theorem checkedOutput_eq (h : o.ReadFrom kind attrs inputs) : o.checkedOutput = .ok o.output := by
  have hrank := h.rank
  have hspatial := mapM_eq fun i hi => h.checkedAlong_eq (List.mem_range.mp hi)
  unfold checkedOutput
  rw [get_zero (by omega) Dim.anonymous, h.checkedChannels_eq, hspatial]
  rfl

end ReadFrom

end Operands

/-- The last axes of the weights. -/
def checkedKernelOfWeights (weights : Shape) (axes : Int) : Checked (List Int64) := do
  Verdict.invalidIf (weights.length < axes + 1) (.weightsAxes weights axes.toNat)
  let last ← slice weights (weights.length - axes) weights.length
  Verdict.need (Shape.sizes? last)

def checkedKernel (attrs : Attributes) (weights : Shape?) (axes : Int) : Checked (List Int64) := do
  let given ← Verdict.ofAttribute (attrs.spatial? "kernel_shape" axes)
  let values ← match given, weights with
    | some values, _ => pure values
    | none, some weights => checkedKernelOfWeights weights axes
    | none, none => Checked.verdict (.invalid (.attribute (.missing "kernel_shape")))
  Verdict.ofAttribute (checkMinimum "kernel_shape" values 1)
  return values

/-- Abstains unless a convolution has weights of known rank. -/
def needWeights (kind : WindowKind) (inputs : List TensorInfo?) : Checked Unit :=
  match kind with
  | .pooling => pure ()
  | .convolution => needShapes inputs 2

/-- The weights of a convolution, which are known to be there. -/
def weightsOf (kind : WindowKind) (inputs : List TensorInfo?) : Except Crash Shape? :=
  match kind with
  | .pooling => .ok none
  | .convolution => some <$> shapeOf inputs 1

def checkedDilations (kind : WindowKind) (attrs : Attributes) (axes : Int) : Checked (List Int64) :=
  match kind with
  | .pooling => liftM (fill axes (1 : Int64))
  | .convolution => listOr attrs "dilations" axes 1 1

/-- The rule of convolution and pooling. -/
def checked (kind : WindowKind) : CheckedRule := fun attrs inputs => do
  needShapes inputs 1
  needWeights kind inputs
  Verdict.abstainIf (attrs.contains "auto_pad")
  let input ← shapeOf inputs 0
  Verdict.invalidIf (input.length < 2) (.inputRank input)
  let axes : Int := input.length - 2
  let dilations ← checkedDilations kind attrs axes
  oneGroup attrs
  let pads ← listOr attrs "pads" (2 * axes) 0 0
  let strides ← listOr attrs "strides" axes 1 1
  let weights ← weightsOf kind inputs
  Verdict.invalidIf (weights == some []) (.weightsRank [])
  let kernel ← checkedKernel attrs weights axes
  (⟨input, weights, dilations, pads, strides, kernel⟩ : Operands).checkedOutput

section

variable {attrs : Attributes} {inputs : List TensorInfo?}

/-- The weights have the axes that are sliced off them. -/
theorem checkedKernelOfWeights_eq (weights : Shape) (axes : Nat) :
    checkedKernelOfWeights weights axes = .verdict (kernelOfWeights weights axes) := by
  unfold checkedKernelOfWeights kernelOfWeights
  have hcond : decide ((weights.length : Int) < axes + 1) = decide (weights.length < axes + 1) :=
    decide_eq_decide.mpr (by omega)
  rw [hcond, Int.toNat_natCast]
  refine bind_verdict fun _ hrank => ?_
  have hrank := Nat.le_of_not_lt (of_decide_eq_false (invalidIf_eq_done.mp hrank))
  have hstart : (weights.length : Int) - axes = (weights.length - axes : Nat) := by omega
  rw [hstart, bind_ok (slice_drop (Nat.sub_le _ _))]
  rfl

theorem checkedKernel_eq (attrs : Attributes) (weights : Shape?) (axes : Nat) :
    checkedKernel attrs weights axes = .verdict (kernel attrs weights axes) := by
  unfold checkedKernel kernel
  refine bind_verdict fun given _ => ?_
  cases given with
  | some values => exact bind_verdict fun _ _ => bind_verdict fun _ _ => rfl
  | none =>
    cases weights with
    | none => rfl
    | some weights =>
      simp only [checkedKernelOfWeights_eq]
      exact bind_verdict fun _ _ => bind_verdict fun _ _ => rfl

theorem checkedDilations_eq (kind : WindowKind) (attrs : Attributes) (axes : Nat) :
    checkedDilations kind attrs axes = .verdict (dilations kind attrs axes) := by
  cases kind with
  | pooling => exact congrArg ofExcept (fill_eq axes 1)
  | convolution => exact listOr_eq attrs _ axes 1 1

theorem needWeights_bind {β : Type} {kind : WindowKind} {input : Shape}
    (hinput : inputShape? inputs 0 = some input) {f : Shape? → Verdict β} {g : Unit → Checked β}
    (h : ∀ w, weights kind inputs = .done w → g () = .verdict (f w)) :
    (needWeights kind inputs >>= g) = .verdict (weights kind inputs >>= f) := by
  cases kind with
  | pooling => exact h none rfl
  | convolution =>
    cases hw : inputShape? inputs 1 with
    | none => rw [needWeights, needShapes_of_none Nat.one_lt_two hw, weights, hw]; rfl
    | some w =>
      have hdone : weights .convolution inputs = .done (some w) := by rw [weights, hw]; rfl
      rw [needWeights, needShapes_of_both hinput hw, hdone]
      exact h (some w) hdone

theorem weightsOf_eq {kind : WindowKind} {w : Shape?} (h : weights kind inputs = .done w) :
    weightsOf kind inputs = .ok w := by
  cases kind with
  | pooling => exact congrArg Except.ok (done_inj.mp h)
  | convolution =>
    obtain ⟨s, hs, hw⟩ := bind_eq_done.mp h
    rw [weightsOf, shapeOf_eq (need_eq_done.mp hs), ← pure_eq_done.mp hw]
    rfl

end

/-- **Convolution and pooling take nothing that is not there.** -/
theorem checked_eq (kind : WindowKind) (attrs : Attributes) (inputs : List TensorInfo?) :
    checked kind attrs inputs = .verdict (rule kind attrs inputs) := by
  refine needShapes_one fun input hinput => needWeights_bind hinput fun weights hweights => ?_
  refine bind_verdict fun _ hmodern => ?_
  rw [bind_ok (shapeOf_eq hinput)]
  refine bind_verdict fun _ hrank => ?_
  have hrank := Nat.le_of_not_lt (of_decide_eq_false (invalidIf_eq_done.mp hrank))
  have haxes : (input.length : Int) - 2 = (input.length - 2 : Nat) := by omega
  have hsides : 2 * ((input.length - 2 : Nat) : Int) = (2 * (input.length - 2) : Nat) := by omega
  simp only [haxes, hsides, checkedDilations_eq, listOr_eq, bind_ok (weightsOf_eq hweights), checkedKernel_eq]
  refine bind_verdict fun dilations hdilations => bind_verdict fun _ hgroup => ?_
  refine bind_verdict fun pads hpads => bind_verdict fun strides hstrides => ?_
  refine bind_verdict fun _ hfilters => bind_verdict fun kernel hkernel => ?_
  have hread : (⟨input, weights, dilations, pads, strides, kernel⟩ : Operands).ReadFrom kind attrs inputs :=
    ⟨hinput, hweights, abstainIf_eq_done.mp hmodern, hrank, hdilations, hgroup, hpads, hstrides,
      by simpa using invalidIf_eq_done.mp hfilters, hkernel⟩
  rw [hread.checkedOutput_eq]
  rfl

end Window

/-! ## Transposed convolution -/

namespace Transposed

namespace Operands

/-- What a window covers of a spatial axis. -/
def checkedAlong (o : Operands) (kernel : List Int64) (i : Nat) : Except Crash Dim := do
  let axis ← get o.input (2 + i : Nat)
  match axis with
  | .unknown _ => return Dim.anonymous
  | .known size =>
    let stride ← get o.strides i
    let extra ← get o.extra i
    let window ← get kernel i
    let before ← get o.pads i
    let after ← get o.pads (i + o.axes : Nat)
    let covered := stride * (size - 1) + extra + window - before - after
    return if covered < 0 then Dim.anonymous else .known covered

def checkedCovered (o : Operands) (kernel : List Int64) : Except Crash Shape :=
  (List.range o.axes).mapM (o.checkedAlong kernel)

theorem ReadFrom.checkedAlong_eq {o : Operands} {attrs : Attributes} {inputs : List TensorInfo?}
    (h : o.ReadFrom attrs inputs) {kernel : List Int64} (hkernel : kernel.length = o.axes) {i : Nat}
    (hi : i < o.axes) : o.checkedAlong kernel i =
      .ok (extent (o.input.getD (2 + i) Dim.anonymous) (o.pads.getD i 0) (o.pads.getD (i + o.axes) 0)
        (kernel.getD i 1) (o.strides.getD i 1) (o.extra.getD i 0)) := by
  have hrank := h.rank
  have haxes : o.axes = o.input.length - 2 := rfl
  have hpads := length_spatialOr h.pads
  unfold checkedAlong
  rw [get_eq (by omega) Dim.anonymous, get_eq (by rwa [length_spatialOr h.strides]) 1,
    get_eq (by rwa [length_spatialOr h.extra]) 0, get_eq (by rwa [hkernel]) 1,
    get_eq (by omega) 0, get_eq (by omega) 0]
  cases o.input.getD (2 + i) Dim.anonymous with
  | unknown name => rfl
  | known size => rfl

theorem ReadFrom.checkedCovered_eq {o : Operands} {attrs : Attributes} {inputs : List TensorInfo?}
    (h : o.ReadFrom attrs inputs) {kernel : List Int64} (hkernel : kernel.length = o.axes) :
    o.checkedCovered kernel = .ok (covered o.input o.pads o.strides o.extra o.axes kernel) :=
  mapM_eq fun _ hi => h.checkedAlong_eq hkernel (List.mem_range.mp hi)

end Operands

/-- A size that is asked for, beside that of the input. -/
def checkTarget (input : Shape) (i : Nat) (target : Int64) : Dim → Verdict Unit
  | .known size => Verdict.invalidIf (target < size) (.outputBelowInput i target size input)
  | .unknown _ => .done ()

/-- The output axes that are asked for, from a place on. -/
def checkedWanted (input : Shape) : Nat → List Int64 → Checked Shape
  | _, [] => pure []
  | i, target :: rest => do
    let axis ← get input (2 + i : Nat)
    checkTarget input i target axis
    let spatial ← checkedWanted input (i + 1) rest
    return .known target :: spatial

def checkedKernel (given : Option (List Int64)) (weights : Shape) (axes : Int) : Checked (List Int64) :=
  match given with
  | some values => pure values
  | none => do
    Verdict.invalidIf (weights.length < axes + 2) (.weightsAxes weights axes.toNat)
    let values ← Window.checkedKernelOfWeights weights axes
    Verdict.ofAttribute (checkMinimum "kernel_shape" values 1)
    return values

def Operands.checkedSpatial (o : Operands) : Checked Shape :=
  match o.targets with
  | some targets => checkedWanted o.input 0 targets
  | none => do
    let kernel ← checkedKernel o.window o.weights o.axes
    o.checkedCovered kernel

/-- The rule of transposed convolution. -/
def checked : CheckedRule := fun attrs inputs => do
  needShapes inputs 2
  Verdict.abstainIf (attrs.contains "auto_pad")
  let input ← shapeOf inputs 0
  Verdict.invalidIf (input.length < 2) (.inputRank input)
  let axes : Int := input.length - 2
  oneGroup attrs
  Verdict.abstainIf (attrs.contains "dilations")
  let pads ← listOr attrs "pads" (2 * axes) 0 0
  let strides ← listOr attrs "strides" axes 1 1
  let given ← listIfGiven attrs "kernel_shape" axes 1
  let targets ← listIfGiven attrs "output_shape" axes 0
  let extra ← listOr attrs "output_padding" axes 0 0
  let weights ← shapeOf inputs 1
  Verdict.invalidIf (weights.length < 2) (.weightsChannels weights)
  let batch ← get input 0
  let channels ← get weights 1
  let spatial ← (⟨input, weights, pads, strides, given, targets, extra⟩ : Operands).checkedSpatial
  return batch :: channels :: spatial

/-- The output axes that are asked for from a place on, none smaller than its input axis. -/
def wantedFrom (input : Shape) (i : Nat) (targets : List Int64) : Verdict Shape :=
  match tooSmall? input i targets with
  | some e => .invalid e
  | none => .done (targets.map Dim.known)

theorem wantedFrom_cons (input : Shape) (i : Nat) (target : Int64) (rest : List Int64) :
    wantedFrom input i (target :: rest) = (do
      checkTarget input i target (input.getD (2 + i) Dim.anonymous)
      let spatial ← wantedFrom input (i + 1) rest
      return .known target :: spatial) := by
  have hrest : tooSmall? input i (target :: rest) = tooSmall? input (i + 1) rest →
      wantedFrom input i (target :: rest) = (do
        let spatial ← wantedFrom input (i + 1) rest
        return .known target :: spatial) := fun hsame => by
    unfold wantedFrom
    rw [hsame]
    cases tooSmall? input (i + 1) rest <;> rfl
  cases haxis : input.getD (2 + i) Dim.anonymous with
  | unknown name => exact hrest (by rw [tooSmall?, haxis])
  | known size =>
    by_cases hlt : target < size
    · have hsmall : tooSmall? input i (target :: rest) = some (.outputBelowInput i target size input) := by
        rw [tooSmall?, haxis]
        exact if_pos hlt
      rw [wantedFrom, hsmall, checkTarget, decide_eq_true hlt]
      rfl
    · have hsame : tooSmall? input i (target :: rest) = tooSmall? input (i + 1) rest := by
        rw [tooSmall?, haxis]
        exact if_neg hlt
      rw [hrest hsame, checkTarget, decide_eq_false hlt]
      rfl

/-- There is an axis of the input beside each size that is asked for. -/
theorem checkedWanted_eq {input : Shape} {targets : List Int64} {i : Nat}
    (h : 2 + i + targets.length ≤ input.length) :
    checkedWanted input i targets = .verdict (wantedFrom input i targets) := by
  induction targets generalizing i with
  | nil => rfl
  | cons target rest ih =>
    rw [List.length_cons] at h
    rw [checkedWanted, bind_ok (get_eq (by omega) Dim.anonymous), wantedFrom_cons, ih (by omega)]
    exact bind_verdict fun _ _ => bind_verdict fun _ _ => rfl

theorem checkedKernel_eq (given : Option (List Int64)) (weights : Shape) (axes : Nat) :
    checkedKernel given weights axes = .verdict (kernel given weights axes) := by
  cases given with
  | some values => rfl
  | none =>
    have hcond : decide ((weights.length : Int) < axes + 2) = decide (weights.length < axes + 2) :=
      decide_eq_decide.mpr (by omega)
    simp only [checkedKernel, kernel, hcond, Int.toNat_natCast, Window.checkedKernelOfWeights_eq]
    exact bind_verdict fun _ _ => bind_verdict fun _ _ => bind_verdict fun _ _ => rfl

theorem length_kernel {attrs : Attributes} {given : Option (List Int64)} {weights : Shape} {axes : Nat}
    (hgiven : spatialIfGiven attrs "kernel_shape" axes 1 = .done given) {values : List Int64}
    (h : kernel given weights axes = .done values) : values.length = axes := by
  cases given with
  | some given =>
    obtain rfl := done_inj.mp h
    exact length_spatialIfGiven hgiven
  | none =>
    simp only [kernel, bind_eq_done, pure_eq_done] at h
    obtain ⟨-, -, _, hweights, -, -, rfl⟩ := h
    exact Window.length_kernelOfWeights hweights

theorem Operands.ReadFrom.checkedSpatial_eq {o : Operands} {attrs : Attributes} {inputs : List TensorInfo?}
    (h : o.ReadFrom attrs inputs) : o.checkedSpatial = .verdict o.spatial := by
  have hrank := h.rank
  have haxes : o.axes = o.input.length - 2 := rfl
  have htargets := h.targets
  unfold checkedSpatial spatial
  cases hasked : o.targets with
  | some targets =>
    rw [hasked] at htargets
    have hlength := length_spatialIfGiven htargets
    exact checkedWanted_eq (by omega)
  | none =>
    simp only [checkedKernel_eq]
    refine bind_verdict fun kernel hkernel => ?_
    rw [h.checkedCovered_eq (length_kernel h.window hkernel)]
    rfl

/-- **Transposed convolution takes nothing that is not there.** -/
theorem checked_eq (attrs : Attributes) (inputs : List TensorInfo?) :
    checked attrs inputs = .verdict (rule attrs inputs) := by
  refine needShapes_two fun input weights hinput hweights => ?_
  refine bind_verdict fun _ hmodern => ?_
  rw [bind_ok (shapeOf_eq hinput)]
  refine bind_verdict fun _ hrank => ?_
  have hrank := Nat.le_of_not_lt (of_decide_eq_false (invalidIf_eq_done.mp hrank))
  have haxes : (input.length : Int) - 2 = (input.length - 2 : Nat) := by omega
  have hsides : 2 * ((input.length - 2 : Nat) : Int) = (2 * (input.length - 2) : Nat) := by omega
  simp only [haxes, hsides, listOr_eq, listIfGiven_eq, bind_ok (shapeOf_eq hweights)]
  refine bind_verdict fun _ hgroup => bind_verdict fun _ hdense => ?_
  refine bind_verdict fun pads hpads => bind_verdict fun strides hstrides => ?_
  refine bind_verdict fun given hgiven => bind_verdict fun targets htargets => ?_
  refine bind_verdict fun extra hextra => bind_verdict fun _ hchannels => ?_
  have hchannels := Nat.le_of_not_lt (of_decide_eq_false (invalidIf_eq_done.mp hchannels))
  have hread : (⟨input, weights, pads, strides, given, targets, extra⟩ : Operands).ReadFrom attrs inputs :=
    ⟨hinput, hweights, abstainIf_eq_done.mp hmodern, hrank, hgroup, abstainIf_eq_done.mp hdense, hpads,
      hstrides, hgiven, htargets, hextra, hchannels⟩
  rw [bind_ok (get_zero (by omega) Dim.anonymous), bind_ok (get_one (by omega) Dim.anonymous),
    hread.checkedSpatial_eq]
  cases targets <;> exact bind_verdict fun _ _ => rfl

end Transposed

/-! ## The other rules -/

namespace RegionPool

def checked : CheckedRule := fun attrs inputs => do
  needShapes inputs 2
  let input ← shapeOf inputs 0
  let regions ← shapeOf inputs 1
  Verdict.invalidIf (input.length < 2) (.inputRank input)
  Verdict.invalidIf (regions.length != 2) (.regionsRank regions)
  let pooled ← Verdict.ofAttribute (attrs.required "pooled_shape" 2)
  Verdict.ofAttribute (checkMinimum "pooled_shape" pooled 0)
  let _ ← Verdict.ofAttribute (attrs.float? "spatial_scale")
  let count ← get regions 0
  let channels ← get input 1
  let height ← get pooled 0
  let width ← get pooled 1
  return [count, channels, .known height, .known width]

theorem checked_eq (attrs : Attributes) (inputs : List TensorInfo?) :
    checked attrs inputs = .verdict (rule attrs inputs) := by
  refine needShapes_two fun input regions hinput hregions => ?_
  rw [bind_ok (shapeOf_eq hinput), bind_ok (shapeOf_eq hregions)]
  refine bind_verdict fun _ hrank => bind_verdict fun _ hregions => ?_
  refine bind_verdict fun pooled hpooled => bind_verdict fun _ _ => bind_verdict fun _ _ => ?_
  have hrank := Nat.le_of_not_lt (of_decide_eq_false (invalidIf_eq_done.mp hrank))
  have hregions : regions.length = 2 := by simpa using invalidIf_eq_done.mp hregions
  obtain ⟨-, hpooled⟩ := Attributes.required_eq_ok.mp (ofAttribute_eq_done.mp hpooled)
  obtain ⟨height, width, rfl⟩ := List.length_eq_two.mp hpooled
  rw [bind_ok (get_zero (by omega) Dim.anonymous), bind_ok (get_one (by omega) Dim.anonymous)]
  rfl

end RegionPool

namespace GlobalPool

def checked : CheckedRule := fun _ inputs => do
  needShapes inputs 1
  let input ← shapeOf inputs 0
  Verdict.invalidIf (input.length < 2) (.inputRank input)
  let batch ← get input 0
  let channels ← get input 1
  let spatial ← fill (input.length - 2) (Dim.known 1)
  return batch :: channels :: spatial

theorem checked_eq (attrs : Attributes) (inputs : List TensorInfo?) :
    checked attrs inputs = .verdict (rule attrs inputs) := by
  refine needShapes_one fun input hinput => ?_
  rw [bind_ok (shapeOf_eq hinput)]
  refine bind_verdict fun _ hrank => ?_
  have hrank := Nat.le_of_not_lt (of_decide_eq_false (invalidIf_eq_done.mp hrank))
  have haxes : (input.length : Int) - 2 = (input.length - 2 : Nat) := by omega
  have htake : input.take 2 = [input.getD 0 Dim.anonymous, input.getD 1 Dim.anonymous] := by
    cases input with
    | nil => exact absurd hrank (Nat.not_succ_le_zero 1)
    | cons batch rest =>
      cases rest with
      | nil => exact absurd hrank (Nat.not_succ_le_self 1)
      | cons channels spatial => rfl
  rw [bind_ok (get_zero (by omega) Dim.anonymous), bind_ok (get_one (by omega) Dim.anonymous), haxes,
    bind_ok (fill_eq _ _), htake]
  rfl

end GlobalPool

namespace Unchanged

def checked : CheckedRule := fun _ inputs => do
  needShapes inputs 1
  shapeOf inputs 0

theorem checked_eq (attrs : Attributes) (inputs : List TensorInfo?) :
    checked attrs inputs = .verdict (rule attrs inputs) := by
  cases hs : inputShape? inputs 0 with
  | none => rw [checked, needShapes_of_none Nat.zero_lt_one hs, rule, hs]; rfl
  | some s =>
    rw [checked, needShapes_of_first hs, shapeOf_eq hs, rule, hs]
    rfl

end Unchanged

namespace Flatten

def checked : CheckedRule := fun attrs inputs => do
  needShapes inputs 1
  let input ← shapeOf inputs 0
  let axis ← Verdict.ofAttribute (attrs.int? "axis")
  let axis := axis.getD 1
  Verdict.invalidIf (axis < 0 || (input.length : Int) < axis.toInt) (.axisRange axis input)
  let before ← slice input 0 axis.toInt
  let after ← slice input axis.toInt input.length
  return [Dim.product before, Dim.product after]

theorem checked_eq (attrs : Attributes) (inputs : List TensorInfo?) :
    checked attrs inputs = .verdict (rule attrs inputs) := by
  refine needShapes_one fun input hinput => ?_
  rw [bind_ok (shapeOf_eq hinput)]
  refine bind_verdict fun axis _ => bind_verdict fun _ hrange => ?_
  have hrange := invalidIf_eq_done.mp hrange
  simp only [Bool.or_eq_false_iff, decide_eq_false_iff_not, Int64.lt_iff_toInt_lt, Int64.toInt_zero] at hrange
  obtain ⟨split, hsplit⟩ := Int.eq_ofNat_of_zero_le (Int.not_lt.mp hrange.1)
  simp only [hsplit] at hrange ⊢
  rw [bind_ok (slice_take (by omega)), bind_ok (slice_drop (by omega))]
  rfl

end Flatten

/-! ## Inference -/

/-- The checked rule of an operator of the standard registry. -/
def checkedRule (op : Text) : CheckedRule :=
  if op = "Conv" then Window.checked .convolution
  else if op = "ConvTranspose" then Transposed.checked
  else if op = "MaxRoiPool" then RegionPool.checked
  else if op = "Flatten" then Flatten.checked
  else if op ∈ (["AveragePool", "MaxPool", "LpPool"] : List Text) then Window.checked .pooling
  else if op ∈ (["GlobalAveragePool", "GlobalMaxPool", "GlobalLpPool"] : List Text) then GlobalPool.checked
  else Unchanged.checked

/-- **No rule of the standard registry takes what is not there.** -/
theorem checked_of_mem_standardRules : ∀ e ∈ Registry.standardRules, ∀ attrs inputs,
    checkedRule e.1 attrs inputs = .verdict (e.2.2 attrs inputs) := by
  simp only [Registry.standardRules, List.forall_mem_cons, List.not_mem_nil, false_imp_iff,
    implies_true, and_true]
  exact ⟨Window.checked_eq _, Transposed.checked_eq, Window.checked_eq _, Window.checked_eq _,
    Window.checked_eq _, Window.checked_eq _, Window.checked_eq _, RegionPool.checked_eq,
    GlobalPool.checked_eq, GlobalPool.checked_eq, GlobalPool.checked_eq, GlobalPool.checked_eq,
    Unchanged.checked_eq, Unchanged.checked_eq, Unchanged.checked_eq, Unchanged.checked_eq,
    Unchanged.checked_eq, Flatten.checked_eq⟩

/-- **Inference never crashes.** With every index, slice and division checked it comes to the same
results, and a result that failed names a reason that the rule checked for and that is so. -/
theorem infer_checked {op : Text} {opset : Int} {f : Operator}
    (hf : Registry.standard.lookup op opset = some f) (attrs : Attributes) (inputs : List TensorInfo?)
    (outputs : Int) :
    (checkedRule op).infer op attrs inputs outputs = .ok (f.infer attrs inputs outputs) ∧
    ∀ result ∈ f.infer attrs inputs outputs, ∀ fault, result.outcome = .failed fault →
      ∃ e : RuleError, fault = .rule op e ∧ e.TrueOf attrs inputs := by
  obtain ⟨since, rule, hrule, rfl⟩ := Registry.lookup_standard hf
  have hchecked := checked_of_mem_standardRules _ hrule attrs inputs
  constructor
  · refine CheckedRule.infer_eq op hchecked (fun shape hshape => ?_) outputs
    obtain ⟨input, hinput, -⟩ := ranked_of_mem_standardRules _ hrule attrs inputs shape hshape
    exact ⟨input, hinput⟩
  · intro result hresult fault hfault
    obtain ⟨e, he, rfl⟩ := ShapeRule.invalid_of_failed hresult hfault
    exact ⟨e, rfl, reasoned_of_mem_standardRules _ hrule attrs inputs e he⟩

/-- The second size that is asked for is too small, which fails even without outputs. -/
theorem infer_checked_shrunk :
    let attrs : Attributes := ⟨[("output_shape", .ints [4, 2])]⟩
    let input : Shape := [.known 1, .unknown "C", .known 3, .known 5]
    let inputs : List TensorInfo? := [some ⟨none, some input⟩, some ⟨none, some [.known 8, .known 7]⟩]
    let reason : RuleError := .outputBelowInput 1 2 5 input
    (∃ f, Registry.standard.lookup "ConvTranspose" 11 = some f) ∧
    (checkedRule "ConvTranspose").infer "ConvTranspose" attrs inputs 0 =
      .ok [⟨.failed (.rule "ConvTranspose" reason), {}⟩] ∧ reason.TrueOf attrs inputs := by
  intro attrs input inputs reason
  have hf : Registry.standard.lookup "ConvTranspose" 11 =
      some ⟨ShapeRule.infer Transposed.rule "ConvTranspose", false⟩ := rfl
  have hresults : ShapeRule.infer Transposed.rule "ConvTranspose" attrs inputs 0 =
      [⟨.failed (.rule "ConvTranspose" reason), {}⟩] := by cbv
  obtain ⟨hinfer, htrue⟩ := infer_checked hf attrs inputs 0
  simp only [hresults] at hinfer htrue
  obtain ⟨e, he, htrue⟩ := htrue _ (List.mem_singleton_self _) _ rfl
  obtain rfl : reason = e := by injection he
  exact ⟨⟨_, hf⟩, hinfer, htrue⟩

end ShapeFlow
