/-
Attributes of a node: named values of six types. A reader of an attribute states
the type it expects; the wrong type, a list of the wrong length, a required
attribute that is missing and a value below its minimum are each an error.
-/
import ShapeFlow.Dict
import ShapeFlow.Text.Quoted
import ShapeFlow.Number.Shortest

namespace ShapeFlow

inductive AttributeType where
  | float
  | int
  | string
  | floats
  | ints
  | strings
  /-- A code that no value of this library has. -/
  | other (code : Int)
deriving DecidableEq

namespace AttributeType

def ofCode : Int → AttributeType
  | 1 => float
  | 2 => int
  | 3 => string
  | 6 => floats
  | 7 => ints
  | 8 => strings
  | n => other n

def code : AttributeType → Int
  | float => 1
  | int => 2
  | string => 3
  | floats => 6
  | ints => 7
  | strings => 8
  | other n => n

def name : AttributeType → Text
  | float => "FLOAT"
  | int => "INT"
  | string => "STRING"
  | floats => "FLOATS"
  | ints => "INTS"
  | strings => "STRINGS"
  | other n => "UNDEFINED(" ++ Text.ofInt n ++ ")"

end AttributeType

inductive Attribute where
  | float (x : Single)
  | int (n : Int64)
  | string (t : Text)
  | floats (xs : List Single)
  | ints (ns : List Int64)
  | strings (ts : List Text)
  /-- A value of a type that is only known by its code. -/
  | coded (code : Int)
deriving DecidableEq

def bracketed (ts : List Text) : Text := "[" ++ Text.join " " ts ++ "]"

namespace Attribute

def type : Attribute → AttributeType
  | float _ => .float
  | int _ => .int
  | string _ => .string
  | floats _ => .floats
  | ints _ => .ints
  | strings _ => .strings
  | coded code => .other code

/-- The value of a type that holds nothing: zero, or the empty text or list. -/
def blank : AttributeType → Attribute
  | .float => float ⟨0⟩
  | .int => int 0
  | .string => string Text.empty
  | .floats => floats []
  | .ints => ints []
  | .strings => strings []
  | .other code => coded code

def text : Attribute → Text
  | float x => x.text
  | int n => Text.ofInt64 n
  | string t => t.quote
  | floats xs => bracketed (xs.map Single.text)
  | ints ns => bracketed (ns.map Text.ofInt64)
  | strings ts => bracketed (ts.map Text.quote)
  | coded _ => "<undefined>"

end Attribute

abbrev Attributes := Dict Attribute

/-- The attributes in the byte order of their names. -/
def Attributes.text (attrs : Attributes) : Text :=
  "\x7b" ++ Text.join ", " (attrs.sorted.map fun (name, a) => name ++ "=" ++ a.text) ++ "\x7d"

inductive AttributeError where
  | type (name : Text) (found expected : AttributeType)
  | length (name : Text) (values : List Int64) (expected : Int)
  | missing (name : Text)
  | minimum (name : Text) (value : Int64) (position : Nat) (values : List Int64) (least : Int64)

def AttributeError.message : AttributeError → Text
  | .type name found expected =>
    "attribute " ++ name.quote ++ " has type " ++ found.name ++ ", expected " ++ expected.name
  | .length name values expected =>
    "attribute " ++ name.quote ++ " has incorrect size: got " ++ Text.ofNat values.length ++
      " values " ++ bracketed (values.map Text.ofInt64) ++ ", expected " ++ Text.ofInt expected
  | .missing name => "attribute " ++ name.quote ++ " must be specified"
  | .minimum name value position values least =>
    "attribute " ++ name.quote ++ " has invalid value " ++ Text.ofInt64 value ++ " at position " ++
      Text.ofNat position ++ " (values " ++ bracketed (values.map Text.ofInt64) ++
      "), it must be >= " ++ Text.ofInt64 least

namespace Attributes

def int? (attrs : Attributes) (name : Text) : Except AttributeError (Option Int64) :=
  match attrs.get? name with
  | none => .ok none
  | some (.int n) => .ok (some n)
  | some a => .error (.type name a.type .int)

def float? (attrs : Attributes) (name : Text) : Except AttributeError (Option Single) :=
  match attrs.get? name with
  | none => .ok none
  | some (.float x) => .ok (some x)
  | some a => .error (.type name a.type .float)

def string? (attrs : Attributes) (name : Text) : Except AttributeError (Option Text) :=
  match attrs.get? name with
  | none => .ok none
  | some (.string t) => .ok (some t)
  | some a => .error (.type name a.type .string)

def ints? (attrs : Attributes) (name : Text) : Except AttributeError (Option (List Int64)) :=
  match attrs.get? name with
  | none => .ok none
  | some (.ints ns) => .ok (some ns)
  | some a => .error (.type name a.type .ints)

/-- The integers of a name, exactly `length` of them, if the attribute is there. -/
def spatial? (attrs : Attributes) (name : Text) (length : Int) :
    Except AttributeError (Option (List Int64)) :=
  match attrs.ints? name with
  | .error e => .error e
  | .ok none => .ok none
  | .ok (some values) =>
    if (values.length : Int) = length then .ok (some values)
    else .error (.length name values length)

def required (attrs : Attributes) (name : Text) (length : Int) :
    Except AttributeError (List Int64) :=
  match attrs.spatial? name length with
  | .error e => .error e
  | .ok none => .error (.missing name)
  | .ok (some values) => .ok values

end Attributes

/-- No value of a list attribute is below its minimum; the first that is is
reported. -/
def checkMinimum (name : Text) (values : List Int64) (least : Int64) : Except AttributeError Unit :=
  match values.findIdx? (· < least) with
  | none => .ok ()
  | some i => .error (.minimum name (values.getD i 0) i values least)

end ShapeFlow
