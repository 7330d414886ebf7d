/-
Sliding windows: convolution and the pooling operators. A window of `kernel`
places, `dilation` apart, slides over the padded axis in steps of `stride`; the
output axis counts its positions. A convolution takes the number of output
channels from the weights, and the window too if `kernel_shape` is not given;
pooling keeps the channels and needs `kernel_shape`.
-/
import ShapeFlow.Inference.Verdict

namespace ShapeFlow

inductive WindowKind where
  | convolution
  | pooling
deriving DecidableEq

namespace Window

/-- The number of window positions along one axis, or unknown if the axis is, or
if the window does not fit. -/
def positions (axis : Dim) (before after kernel dilation stride : Int64) : Dim :=
  match axis with
  | .unknown _ => Dim.anonymous
  | .known size =>
    let room := size + before + after
    let span := (kernel - 1) * dilation + 1
    if room < span then Dim.anonymous else .known ((room - span) / stride + 1)

def kernelOfWeights (weights : Shape) (axes : Nat) : Verdict (List Int64) := do
  Verdict.invalidIf (weights.length < axes + 1) (.weightsAxes weights axes)
  Verdict.need (Shape.sizes? (weights.drop (weights.length - axes)))

/-- The window: the attribute, or for a convolution the weights. -/
def kernel (attrs : Attributes) (weights : Shape?) (axes : Nat) : Verdict (List Int64) := do
  let given ← Verdict.ofAttribute (attrs.spatial? "kernel_shape" axes)
  let values ← match given, weights with
    | some values, _ => .done values
    | none, some weights => kernelOfWeights weights axes
    | none, none => .invalid (.attribute (.missing "kernel_shape"))
  Verdict.ofAttribute (checkMinimum "kernel_shape" values 1)
  return values

/-- The weights of a convolution, which have at least the axis of the filters. -/
def weights (kind : WindowKind) (inputs : List TensorInfo?) : Verdict Shape? :=
  match kind with
  | .pooling => .done none
  | .convolution => do
    let weights ← Verdict.need (inputShape? inputs 1)
    return some weights

def dilations (kind : WindowKind) (attrs : Attributes) (axes : Nat) : Verdict (List Int64) :=
  match kind with
  | .pooling => .done (List.replicate axes 1)
  | .convolution => spatialOr attrs "dilations" axes 1 1

/-- Axis 1 of the output. -/
def channels (input : Shape) (weights : Shape?) : Dim :=
  match weights with
  | some weights => weights.getD 0 Dim.anonymous
  | none => input.getD 1 Dim.anonymous

def rule (kind : WindowKind) : ShapeRule := fun attrs inputs => do
  let input ← Verdict.need (inputShape? inputs 0)
  let weights ← weights kind inputs
  -- the legacy padding modes are not handled
  Verdict.abstainIf (attrs.contains "auto_pad")
  Verdict.invalidIf (input.length < 2) (.inputRank input)
  let axes := input.length - 2
  let dilations ← dilations kind attrs axes
  oneGroup attrs
  let pads ← spatialOr attrs "pads" (2 * axes) 0 0
  let strides ← spatialOr attrs "strides" axes 1 1
  Verdict.invalidIf (weights == some []) (.weightsRank [])
  let kernel ← kernel attrs weights axes
  let spatial := (List.range axes).map fun i =>
    positions (input.getD (2 + i) Dim.anonymous) (pads.getD i 0) (pads.getD (i + axes) 0)
      (kernel.getD i 1) (dilations.getD i 1) (strides.getD i 1)
  return input.getD 0 Dim.anonymous :: channels input weights :: spatial

end Window

end ShapeFlow
