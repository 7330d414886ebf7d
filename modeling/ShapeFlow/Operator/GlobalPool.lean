/-
Global pooling: every spatial axis becomes one, whether its size is known or not.
-/
import ShapeFlow.Inference.Verdict

namespace ShapeFlow

namespace GlobalPool

def rule : ShapeRule := fun _ inputs => do
  let input ← Verdict.need (inputShape? inputs 0)
  Verdict.invalidIf (input.length < 2) (.inputRank input)
  return input.take 2 ++ List.replicate (input.length - 2) (.known 1)

end GlobalPool

end ShapeFlow
