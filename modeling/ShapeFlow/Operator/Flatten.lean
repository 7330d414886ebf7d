/-
Flattening to a matrix: the axes before the `axis` attribute are multiplied into
the first, the others into the second. Without the attribute it is axis one.
-/
import ShapeFlow.Inference.Verdict

namespace ShapeFlow

namespace Flatten

def rule : ShapeRule := fun attrs inputs => do
  let input ← Verdict.need (inputShape? inputs 0)
  let axis ← Verdict.ofAttribute (attrs.int? "axis")
  let axis := axis.getD 1
  Verdict.invalidIf (axis < 0 || (input.length : Int) < axis.toInt) (.axisRange axis input)
  let split := axis.toInt.toNat
  return [Dim.product (input.take split), Dim.product (input.drop split)]

end Flatten

end ShapeFlow
