/-
Element types of tensors: their names, the codes that model files use for the
common ones, and the bytes that one element takes. Names are accepted in three
spellings: the file format's own names in any case, the names and short names
of the list, and their lower-case forms.
-/
import ShapeFlow.Text.Utf8
import ShapeFlow.Text.Quoted

namespace ShapeFlow

inductive ElementType where
  | bool
  | int8
  | int16
  | int32
  | int64
  | uint8
  | uint16
  | uint32
  | uint64
  | float16
  | float32
  | float64
  | bfloat16
  | complex64
  | complex128
  | f8e5m2
  | f8e4m3fn
  | f8e4m3b11fnuz
  | f8e5m2fnuz
  | f8e4m3fnuz
  | s4
  | u4
  | token
  | s2
  | u2
  | f8e4m3
  | f8e3m4
  | f8e8m0fnu
  | f4e2m1fn
deriving DecidableEq

namespace ElementType

def all : List ElementType := [
  bool, int8, int16, int32, int64, uint8, uint16, uint32, uint64, float16, float32, float64,
  bfloat16, complex64, complex128, f8e5m2, f8e4m3fn, f8e4m3b11fnuz, f8e5m2fnuz, f8e4m3fnuz, s4, u4,
  token, s2, u2, f8e4m3, f8e3m4, f8e8m0fnu, f4e2m1fn]

def name : ElementType → Text
  | bool => "Bool"
  | int8 => "Int8"
  | int16 => "Int16"
  | int32 => "Int32"
  | int64 => "Int64"
  | uint8 => "Uint8"
  | uint16 => "Uint16"
  | uint32 => "Uint32"
  | uint64 => "Uint64"
  | float16 => "Float16"
  | float32 => "Float32"
  | float64 => "Float64"
  | bfloat16 => "BFloat16"
  | complex64 => "Complex64"
  | complex128 => "Complex128"
  | f8e5m2 => "F8E5M2"
  | f8e4m3fn => "F8E4M3FN"
  | f8e4m3b11fnuz => "F8E4M3B11FNUZ"
  | f8e5m2fnuz => "F8E5M2FNUZ"
  | f8e4m3fnuz => "F8E4M3FNUZ"
  | s4 => "S4"
  | u4 => "U4"
  | token => "TOKEN"
  | s2 => "S2"
  | u2 => "U2"
  | f8e4m3 => "F8E4M3"
  | f8e3m4 => "F8E3M4"
  | f8e8m0fnu => "F8E8M0FNU"
  | f4e2m1fn => "F4E2M1FN"

/-- The place in the list of all types, from one on. -/
def rank (t : ElementType) : Nat := all.findIdx (· == t) + 1

/-- Bytes of one element, for the types that a machine word stores. -/
def byteSize? : ElementType → Option UInt64
  | bool | int8 | uint8 => some 1
  | int16 | uint16 | float16 | bfloat16 => some 2
  | int32 | uint32 | float32 => some 4
  | int64 | uint64 | float64 | complex64 => some 8
  | complex128 => some 16
  | _ => none

def ofCode? : Int → Option ElementType
  | 1 => some float32
  | 2 => some uint8
  | 3 => some int8
  | 4 => some uint16
  | 5 => some int16
  | 6 => some int32
  | 7 => some int64
  | 9 => some bool
  | 10 => some float16
  | 11 => some float64
  | 12 => some uint32
  | 13 => some uint64
  | 14 => some complex64
  | 15 => some complex128
  | 16 => some bfloat16
  | _ => none

def code? : ElementType → Option Nat
  | float32 => some 1
  | uint8 => some 2
  | int8 => some 3
  | uint16 => some 4
  | int16 => some 5
  | int32 => some 6
  | int64 => some 7
  | bool => some 9
  | float16 => some 10
  | float64 => some 11
  | uint32 => some 12
  | uint64 => some 13
  | complex64 => some 14
  | complex128 => some 15
  | bfloat16 => some 16
  | _ => none

end ElementType

inductive ElementError where
  | code (n : Int)
  | name (t : Text)

def ElementError.message : ElementError → Text
  | .code n => "unsupported/unknown ONNX data type " ++ Text.ofInt n
  | .name t => "unknown data type " ++ t.quote

namespace ElementType

/-- The type of a code; code zero says that the type is not known. -/
def ofCode (n : Int) : Except ElementError (Option ElementType) :=
  if n = 0 then .ok none
  else
    match ofCode? n with
    | some t => .ok (some t)
    | none => .error (.code n)

def formatNames : List (Text × ElementType) := [
  ("FLOAT", float32), ("UINT8", uint8), ("INT8", int8), ("UINT16", uint16), ("INT16", int16),
  ("INT32", int32), ("INT64", int64), ("BOOL", bool), ("FLOAT16", float16), ("DOUBLE", float64),
  ("UINT32", uint32), ("UINT64", uint64), ("COMPLEX64", complex64), ("COMPLEX128", complex128),
  ("BFLOAT16", bfloat16)]

/-- Short names, and the two names of no type. -/
def shortNames : List (Text × Option ElementType) := [
  ("InvalidDType", none), ("INVALID", none), ("PRED", bool), ("S8", int8), ("S16", int16),
  ("S32", int32), ("S64", int64), ("U8", uint8), ("U16", uint16), ("U32", uint32), ("U64", uint64),
  ("F16", float16), ("F32", float32), ("F64", float64), ("BF16", bfloat16), ("C64", complex64),
  ("C128", complex128)]

def upperChar (c : Char) : Char :=
  if 'a' ≤ c ∧ c ≤ 'z' then Char.ofNat (c.toNat - 32)
  else if c = 'ı' then 'I'
  else if c = 'ſ' then 'S'
  else c

def lowerChar (c : Char) : Char :=
  if 'A' ≤ c ∧ c ≤ 'Z' then Char.ofNat (c.toNat + 32)
  else if c = 'İ' then 'i'
  else if c = 'K' then 'k'
  else c

/-- Changes the case of a valid text; other texts are left alone. -/
def mapCase (f : Char → Char) (t : Text) : Text :=
  match t.chars? with
  | some cs => Text.ofChars (cs.map f)
  | none => t

def names : List (Text × Option ElementType) :=
  all.map (fun t => (t.name, some t)) ++ shortNames

/-- The type of a name, or of the lower-case form of a name. -/
def named? (t : Text) : Option (Option ElementType) :=
  (names.find? fun entry => entry.1 == t || mapCase lowerChar entry.1 == t).map Prod.snd

/-- The type of a name; no name and a question mark say that it is not known. -/
def parse (t : Text) : Except ElementError (Option ElementType) :=
  if t.isEmpty ∨ t = "?" then .ok none
  else
    match formatNames.find? fun entry => entry.1 == mapCase upperChar t with
    | some (_, type) => .ok (some type)
    | none =>
      match (named? t).orElse fun _ => named? (mapCase lowerChar t) with
      | some type => .ok type
      | none => .error (.name t)

end ElementType

end ShapeFlow
