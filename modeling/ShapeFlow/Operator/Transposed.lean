/-
Transposed convolution. The spatial axes of the output are those of the
`output_shape` attribute, or computed from the window: the input axis stretched
by the stride, plus the window, less the padding. Groups, dilations and the
legacy padding modes are left alone.
-/
import ShapeFlow.Operator.Window

namespace ShapeFlow

namespace Transposed

/-- The length of an axis that a transposed window covers, or unknown if the
input axis is, or if nothing is left after the padding. -/
def extent (axis : Dim) (before after kernel stride extra : Int64) : Dim :=
  match axis with
  | .unknown _ => Dim.anonymous
  | .known size =>
    let covered := stride * (size - 1) + extra + kernel - before - after
    if covered < 0 then Dim.anonymous else .known covered

/-- The first place where the wanted output is smaller than the input. -/
def tooSmall? (input : Shape) : Nat → List Int64 → Option RuleError
  | _, [] => none
  | i, target :: rest =>
    match input.getD (2 + i) Dim.anonymous with
    | .known size =>
      if target < size then some (.outputBelowInput i target size input)
      else tooSmall? input (i + 1) rest
    | .unknown _ => tooSmall? input (i + 1) rest

def wanted (input : Shape) (targets : List Int64) : Verdict Shape :=
  match tooSmall? input 0 targets with
  | some e => .invalid e
  | none => .done (targets.map Dim.known)

/-- The window: the attribute, or the last axes of the weights. -/
def kernel (given : Option (List Int64)) (weights : Shape) (axes : Nat) : Verdict (List Int64) :=
  match given with
  | some values => .done values
  | none => do
    Verdict.invalidIf (weights.length < axes + 2) (.weightsAxes weights axes)
    let values ← Window.kernelOfWeights weights axes
    Verdict.ofAttribute (checkMinimum "kernel_shape" values 1)
    return values

def covered (input : Shape) (pads strides extra : List Int64) (axes : Nat) (kernel : List Int64) : Shape :=
  (List.range axes).map fun i =>
    extent (input.getD (2 + i) Dim.anonymous) (pads.getD i 0) (pads.getD (i + axes) 0)
      (kernel.getD i 1) (strides.getD i 1) (extra.getD i 0)

def rule : ShapeRule := fun attrs inputs => do
  let input ← Verdict.need (inputShape? inputs 0)
  let weights ← Verdict.need (inputShape? inputs 1)
  Verdict.abstainIf (attrs.contains "auto_pad")
  Verdict.invalidIf (input.length < 2) (.inputRank input)
  let axes := input.length - 2
  oneGroup attrs
  Verdict.abstainIf (attrs.contains "dilations")
  let pads ← spatialOr attrs "pads" (2 * axes) 0 0
  let strides ← spatialOr attrs "strides" axes 1 1
  let given ← spatialIfGiven attrs "kernel_shape" axes 1
  let targets ← spatialIfGiven attrs "output_shape" axes 0
  let extra ← spatialOr attrs "output_padding" axes 0 0
  Verdict.invalidIf (weights.length < 2) (.weightsChannels weights)
  let spatial ← match targets with
    | some targets => wanted input targets
    | none => (covered input pads strides extra axes) <$> kernel given weights axes
  return input.getD 0 Dim.anonymous :: weights.getD 1 Dim.anonymous :: spatial

end Transposed

end ShapeFlow
