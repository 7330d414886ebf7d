/-
What happens while a model is decoded and its shapes are propagated, as far as
it can be worth telling. An event is shown from some verbosity on.
-/
import ShapeFlow.Graph
import ShapeFlow.Registry
import ShapeFlow.Wire.Message

namespace ShapeFlow

/-- The entry of a log that a message makes. An entry ends with a line break of
its own, which a break at the end of the message takes the place of. -/
def Text.asEntry (t : Text) : Text :=
  if t.bytes.getLast? = some 0x0A then ⟨t.bytes.dropLast⟩ else t

inductive Event where
  /-- A value was declared with an element type that is not known. -/
  | untyped (value : UntypedValue)
  /-- An operator has no inference function; told once for each operator. -/
  | unsupported (op domain : Text)
  /-- The inference of a node failed for the first time. -/
  | failed (node : Node) (error : InferError)
  | inferred (node : Node) (inputs outputs : List TensorInfo?)
  /-- The inference of a node replaced what was known about a value. -/
  | conflict (node : Node) (inferred : TensorInfo?) (value : Text) (declared : TensorInfo)
  | passDone (pass : Nat) (changed : Bool)

namespace Event

/-- The verbosity that an event needs to be shown; conflicts are always shown. -/
def verbosity? : Event → Option Int
  | untyped _ | unsupported _ _ | failed _ _ => some 1
  | inferred _ _ _ | passDone _ _ => some 2
  | conflict _ _ _ _ => none

def isShown (verbosity : Int) (e : Event) : Bool := e.verbosity?.all (· ≤ verbosity)

def infosText (infos : List TensorInfo?) : Text := bracketed (infos.map TensorInfo?.text)

def message : Event → Text
  | untyped value => value.message
  | unsupported op domain =>
    "shape inference not supported for op type " ++ op.quote ++ " (domain " ++ domain.quote ++
      "), its outputs are left unresolved"
  | failed node error =>
    "shape inference failed for node " ++ node.text ++ ": " ++ error.message
  | inferred node inputs outputs =>
    "inferred " ++ node.text ++ ": inputs=" ++ infosText inputs ++ ", outputs=" ++ infosText outputs
  | conflict node found value declared =>
    "node " ++ node.text ++ ": inferred " ++ TensorInfo?.text found ++ " for " ++ value.quote ++
      " conflicts with declared " ++ declared.text ++ ", using the inferred one"
  | passDone pass changed =>
    "shape propagation pass #" ++ Text.ofNat pass ++ ": changed=" ++
      (if changed then "true" else "false")

def messages (verbosity : Int) (events : List Event) : List Text :=
  (events.filter (isShown verbosity)).map fun e => e.message.asEntry

end Event

end ShapeFlow
