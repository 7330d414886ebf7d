/-
Operators whose first output has the shape of the first input: normalisations
and dropout.
-/
import ShapeFlow.Inference.Verdict

namespace ShapeFlow

namespace Unchanged

def rule : ShapeRule := fun _ inputs => Verdict.need (inputShape? inputs 0)

end Unchanged

end ShapeFlow
