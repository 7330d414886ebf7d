/-
Pooling of regions of interest: one output per region, with the channels of the
input and the height and width that the `pooled_shape` attribute gives.
-/
import ShapeFlow.Inference.Verdict

namespace ShapeFlow

namespace RegionPool

def rule : ShapeRule := fun attrs inputs => do
  let input ← Verdict.need (inputShape? inputs 0)
  let regions ← Verdict.need (inputShape? inputs 1)
  Verdict.invalidIf (input.length < 2) (.inputRank input)
  Verdict.invalidIf (regions.length != 2) (.regionsRank regions)
  let pooled ← Verdict.ofAttribute (attrs.required "pooled_shape" 2)
  Verdict.ofAttribute (checkMinimum "pooled_shape" pooled 0)
  -- the scale does not change the shape, but it has to be a number
  let _ ← Verdict.ofAttribute (attrs.float? "spatial_scale")
  return regions.getD 0 Dim.anonymous :: input.getD 1 Dim.anonymous :: pooled.map Dim.known

end RegionPool

end ShapeFlow
