/-
A folder with files, and the paths that lead to them. A path is a list of steps
between slashes, walked from the folder, or from outside if it starts with a
slash; of what lies outside nothing is known but that it is made of folders.
-/
import ShapeFlow.Text.Split

namespace ShapeFlow

inductive PathFault where
  | missing
  | isFolder
  /-- A step from something that is no folder. -/
  | notFolder
  | nameTooLong
  /-- The path holds a zero byte. -/
  | invalid
deriving DecidableEq

namespace PathFault

/-- A folder can be opened, but not read. -/
def action : PathFault → Text
  | isFolder => "read"
  | missing | notFolder | nameTooLong | invalid => "open"

def reason : PathFault → Text
  | missing => "no such file or directory"
  | isFolder => "is a directory"
  | notFolder => "not a directory"
  | nameTooLong => "file name too long"
  | invalid => "invalid argument"

def message (path : Text) (f : PathFault) : Text := f.action ++ " " ++ path ++ ": " ++ f.reason

end PathFault

structure Folder where
  files : List (Text × Text) := []

namespace Folder

inductive Place where
  | inside
  | outside
  | file (contents : Text)

/-- Names have at most so many bytes. -/
def nameLimit : Nat := 255

/-- Paths are shorter than this. -/
def pathLimit : Nat := 4096

def step (f : Folder) (name : Text) : Place → Except PathFault Place
  | .file _ => .error .notFolder
  | place =>
    if name.isEmpty || name == "." then .ok place
    else if name == ".." then .ok .outside
    else if nameLimit < name.length then .error .nameTooLong
    else
      match place with
      | .inside =>
        match f.files.lookup name with
        | some contents => .ok (.file contents)
        | none => .error .missing
      | _ => .error .missing

def read (f : Folder) (path : Text) : Except PathFault Text := do
  if path.bytes.contains 0 then throw .invalid
  if path.isEmpty then throw .missing
  if pathLimit ≤ path.length then throw .nameTooLong
  let start : Place := if path.bytes.head? = some 0x2F then .outside else .inside
  match ← (path.split 0x2F).foldlM (fun place name => f.step name place) start with
  | .file contents => return contents
  | _ => throw .isFolder

end Folder

end ShapeFlow
