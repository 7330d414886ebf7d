/-
Results of inference, one per output. A shape rule speaks of the first output
only: its element type is that of the first input, the other outputs stay
unresolved, and an invalid node fails in every output, at least in one.
-/
import ShapeFlow.Inference.Verdict

namespace ShapeFlow

inductive Fault where
  /-- The rule of an operator found the node invalid. -/
  | rule (op : Text) (e : RuleError)
  /-- An inference function gave its own reason. -/
  | reported (reason : Text)
  /-- An inference function says itself that it does not support the operator. -/
  | declined (reason : Text)

def Fault.message : Fault → Text
  | .rule op e => "shape inference failed: " ++ op ++ ": " ++ e.message
  | .reported reason | .declined reason => reason

inductive Outcome where
  /-- Not enough is known, or the case is not handled; it can be tried again. -/
  | unresolved
  /-- The shape was computed; single dimensions may still be unknown. -/
  | resolved
  /-- The node is invalid. -/
  | failed (fault : Fault)

namespace Outcome

def code : Outcome → Int
  | unresolved => 0
  | resolved => 1
  | failed _ => 2

def nameOf : Int → Text
  | 0 => "unresolved"
  | 1 => "resolved"
  | 2 => "failed"
  | n => "Outcome(" ++ Text.ofInt n ++ ")"

def name (o : Outcome) : Text := nameOf o.code

def fault? : Outcome → Option Fault
  | failed fault => some fault
  | _ => none

end Outcome

structure OutputResult where
  outcome : Outcome := .unresolved
  info : TensorInfo := {}

/-- An inference function: results for the number of outputs asked for. -/
abbrev InferenceFn := Attributes → List TensorInfo? → Int → List OutputResult

def firstElement? (inputs : List TensorInfo?) : Option ElementType :=
  TensorInfo?.element? (inputs.getD 0 none)

namespace ShapeRule

def first (rule : ShapeRule) (op : Text) (attrs : Attributes) (inputs : List TensorInfo?) :
    OutputResult :=
  match rule attrs inputs with
  | .invalid e => ⟨.failed (.rule op e), {}⟩
  | .abstain => ⟨.unresolved, ⟨firstElement? inputs, none⟩⟩
  | .done shape => ⟨.resolved, ⟨firstElement? inputs, some shape⟩⟩

def infer (rule : ShapeRule) (op : Text) : InferenceFn := fun attrs inputs outputs =>
  let first := first rule op attrs inputs
  match first.outcome with
  | .failed _ => List.replicate (max outputs 1).toNat first
  | _ => (first :: List.replicate (outputs.toNat - 1) {}).take outputs.toNat

end ShapeRule

end ShapeFlow
