/-
Overrides of shapes, written `name=d0,d1,...`. A dimension is a number, a name,
or `?` or nothing when it is not known; white space around it does not count. A
later override of a name replaces an earlier one, and one that cannot be read
changes nothing.
-/
import ShapeFlow.Dict
import ShapeFlow.Number.Integer
import ShapeFlow.Tensor.Info
import ShapeFlow.Text.Blank
import ShapeFlow.Text.Split

namespace ShapeFlow

inductive OverrideError where
  /-- It has no `=`, or no name before it. -/
  | form (value : Text)
  | negative (size : Int64) (value : Text)

def OverrideError.message : OverrideError → Text
  | form value =>
    "invalid input override " ++ value.quote ++ ", it must be in the form \"name=d0,d1,...\""
  | negative size value =>
    "invalid negative dimension " ++ Text.ofInt64 size ++ " in input override " ++ value.quote

abbrev Overrides := Dict TensorInfo

namespace Overrides

/-- The dimension of a part between commas, or the negative size that it gives. -/
def dim (part : Text) : Except Int64 Dim :=
  let name := part.trim
  if name = "?" ∨ name = .empty then .ok .anonymous
  else
    match readInt name with
    | .error _ => .ok (.unknown name)
    | .ok size => if size < 0 then .error size else .ok (.known size)

/-- The dimensions of a list between commas; an empty list is a scalar's. -/
def dims (list : Text) : Except Int64 Shape :=
  if list.isEmpty then .ok [] else (list.split 0x2C).mapM dim

def entry (value : Text) : Except OverrideError (Text × Shape) :=
  match value.cut? 0x3D with
  | none => .error (.form value)
  | some (name, list) =>
    if name.isEmpty then .error (.form value)
    else
      match dims list with
      | .ok shape => .ok (name, shape)
      | .error size => .error (.negative size value)

/-- Takes an override in; it leaves the element type open. -/
def set (overrides : Overrides) (value : Text) : Except OverrideError Overrides :=
  (entry value).map fun (name, shape) => overrides.insert name ⟨none, some shape⟩

def text (overrides : Overrides) : Text :=
  Text.join " " (overrides.entries.map fun (name, info) => name ++ "=" ++ Shape?.text info.shape)

end Overrides

end ShapeFlow
