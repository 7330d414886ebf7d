/-
Model files. The extension of the path tells the format: descriptions end in
`.yaml` or `.yml`, in any case of letters, and all else is in the wire format.
-/
import ShapeFlow.Description.Model
import ShapeFlow.Event
import ShapeFlow.Folder
import ShapeFlow.Wire.Model

namespace ShapeFlow

inductive ModelFormat where
  | wire
  | description
deriving DecidableEq

inductive FormatError where
  | wire (error : Wire.DecodeError)
  | description (error : Description.Error)

def FormatError.message : FormatError → Text
  | wire e => "failed to parse ONNX model proto: " ++ e.message
  | description e => e.message

/-- A model, or why there is none, with what happened while it was read. -/
structure Loaded (ε : Type) where
  model : Except ε Model
  events : List Event := []

def ModelFormat.load (format : ModelFormat) (contents : Text) : Loaded FormatError :=
  match format with
  | .wire =>
    let decoded := Wire.model contents.bytes
    ⟨decoded.value.mapError .wire, decoded.notes.map .untyped⟩
  | .description => ⟨(Description.read contents).mapError .description, []⟩

inductive FileError where
  | unreadable (path : Text) (fault : PathFault)
  | contents (path : Text) (error : FormatError)

def FileError.message : FileError → Text
  | unreadable path fault =>
    "failed to read ONNX model file in " ++ path ++ ": " ++ fault.message path
  | contents path e => "file " ++ path ++ ": " ++ e.message

/-- The end of a path's last name from its last point on; nothing without a
point. -/
def extensionBytes (path : List UInt8) : List UInt8 :=
  let name := path.reverse.takeWhile (· ≠ 0x2F)
  if name.contains 0x2E then 0x2E :: (name.takeWhile (· ≠ 0x2E)).reverse else []

def ModelFormat.ofPath (path : Text) : ModelFormat :=
  let extension : Text := ⟨(extensionBytes path.bytes).map Number.lower⟩
  if extension = ".yaml" ∨ extension = ".yml" then .description else .wire

/-- Reads the file at a path, given its contents or why there are none. -/
def loadFile (path : Text) (contents : Except PathFault Text) : Loaded FileError :=
  match contents with
  | .error fault => ⟨.error (.unreadable path fault), []⟩
  | .ok contents =>
    let loaded := (ModelFormat.ofPath path).load contents
    ⟨loaded.model.mapError (.contents path), loaded.events⟩

end ShapeFlow
