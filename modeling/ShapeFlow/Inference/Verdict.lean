/-
What a shape rule can say about a node: that it is invalid, that there is not
enough to go on, or the shape of its first output. Rules are written in the
monad of these verdicts, so the first step that is not `done` settles the rule.
-/
import ShapeFlow.Attribute
import ShapeFlow.Tensor.Info

namespace ShapeFlow

inductive RuleError where
  | attribute (e : AttributeError)
  | inputRank (input : Shape)
  | weightsRank (weights : Shape)
  | weightsAxes (weights : Shape) (axes : Nat)
  | weightsChannels (weights : Shape)
  | regionsRank (regions : Shape)
  | outputBelowInput (axis : Nat) (target size : Int64) (input : Shape)
  | axisRange (axis : Int64) (input : Shape)

def RuleError.message : RuleError → Text
  | .attribute e => e.message
  | .inputRank input =>
    "input tensor must have at least 2 dimensions, got shape " ++ Shape.text input
  | .weightsRank weights =>
    "second input (weights) tensor has wrong dimension, got shape " ++ Shape.text weights
  | .weightsAxes weights axes =>
    "second input (weights) tensor has wrong dimension, got shape " ++ Shape.text weights ++
      " but input has " ++ Text.ofNat axes ++ " spatial axes"
  | .weightsChannels weights =>
    "second input (weights) tensor must have at least 2 dimensions, got shape " ++ Shape.text weights
  | .regionsRank regions => "rois tensor must have 2 dimensions, got shape " ++ Shape.text regions
  | .outputBelowInput axis target size input =>
    "output_shape[" ++ Text.ofNat axis ++ "]=" ++ Text.ofInt64 target ++
      " cannot be smaller than the input spatial dimension " ++ Text.ofInt64 size ++
      " (input shape " ++ Shape.text input ++ ")"
  | .axisRange axis input =>
    "invalid value " ++ Text.ofInt64 axis ++ " for attribute \"axis\", it must be in [0, " ++
      Text.ofNat input.length ++ "] for input shape " ++ Shape.text input

inductive Verdict (α : Type) where
  | invalid (e : RuleError)
  | abstain
  | done (a : α)

namespace Verdict

variable {α β : Type}

def bind (v : Verdict α) (f : α → Verdict β) : Verdict β :=
  match v with
  | invalid e => invalid e
  | abstain => abstain
  | done a => f a

instance : Monad Verdict where
  pure := done
  bind := bind

/-- An attribute that cannot be read makes the node invalid. -/
def ofAttribute : Except AttributeError α → Verdict α
  | .error e => invalid (.attribute e)
  | .ok a => done a

/-- Without the value there is nothing to go on. -/
def need : Option α → Verdict α
  | some a => done a
  | none => abstain

def abstainIf (c : Bool) : Verdict Unit := if c then abstain else done ()

def invalidIf (c : Bool) (e : RuleError) : Verdict Unit := if c then invalid e else done ()

@[simp] theorem bind_done (a : α) (f : α → Verdict β) : (done a >>= f) = f a := rfl
@[simp] theorem bind_abstain (f : α → Verdict β) : (abstain >>= f) = abstain := rfl
@[simp] theorem bind_invalid (e : RuleError) (f : α → Verdict β) : (invalid e >>= f) = invalid e := rfl

theorem bind_eq_done {v : Verdict α} {f : α → Verdict β} {b : β} :
    (v >>= f) = done b ↔ ∃ a, v = done a ∧ f a = done b := by
  cases v <;> simp

end Verdict

/-- A shape rule: the shape of the first output, from the attributes and what is
known about the inputs. -/
abbrev ShapeRule := Attributes → List TensorInfo? → Verdict Shape

def inputShape? (inputs : List TensorInfo?) (i : Nat) : Shape? :=
  (inputs.getD i none).bind TensorInfo.shape

/-- A list attribute with one value per axis: a value for all axes stands in for
a missing one, and none may be below the least. -/
def spatialOr (attrs : Attributes) (name : Text) (length : Nat) (fill least : Int64) :
    Verdict (List Int64) := do
  let given ← Verdict.ofAttribute (attrs.spatial? name length)
  let values := given.getD (List.replicate length fill)
  Verdict.ofAttribute (checkMinimum name values least)
  return values

def spatialIfGiven (attrs : Attributes) (name : Text) (length : Nat) (least : Int64) :
    Verdict (Option (List Int64)) := do
  let given ← Verdict.ofAttribute (attrs.spatial? name length)
  Verdict.ofAttribute (checkMinimum name (given.getD []) least)
  return given

/-- Grouped operators are left alone: only one group is handled. -/
def oneGroup (attrs : Attributes) : Verdict Unit := do
  let group ← Verdict.ofAttribute (attrs.int? "group")
  Verdict.abstainIf (group.getD 1 != 1)

end ShapeFlow
