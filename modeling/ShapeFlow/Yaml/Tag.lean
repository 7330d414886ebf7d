/-
What a scalar stands for. A plain scalar without a tag is a null, a truth value,
a number, a date or text, by its form; a tag asks for one of these, and a scalar
of another form does not fit it. Tags of other kinds leave the text as it is.
-/
import ShapeFlow.Number.Decimal
import ShapeFlow.Yaml.Timestamp

namespace ShapeFlow

namespace Yaml

inductive Real where
  | undefined
  | infinite (negative : Bool)
  | finite (negative : Bool) (magnitude : Binary.Scaled)

namespace Real

def ofInt (n : Int64) : Real :=
  match Binary.double.round n.toInt.natAbs 1 with
  | some s => .finite (n < 0) s
  | none => .undefined

/-- Reads a literal; one that is too large is none. -/
def read? (t : Text) : Option Real :=
  match Fraction.read? t with
  | none => none
  | some .undefined => some .undefined
  | some (.infinite negative) => some (.infinite negative)
  | some (.finite negative digits binary exponent) =>
    (Fraction.roundTo Binary.double digits binary exponent).map (.finite negative)

/-- The whole part in 64 bits, unless the number is above them; below them it is
the least of all. -/
def toInt64? : Real → Option Int64
  | undefined => none
  | infinite negative => if negative then some Int64.minValue else none
  | finite negative s =>
    let whole : Int := s.floor
    if negative then
      some (if whole ≤ 0x8000000000000000 then Int64.ofInt (-whole) else Int64.minValue)
    else if whole < 0x8000000000000000 then some (Int64.ofInt whole)
    else if whole = 0x8000000000000000 then some Int64.minValue
    else none

end Real

inductive Resolved where
  | null
  | bool
  | int (n : Int64)
  /-- A whole number above the signed ones. -/
  | large
  | float (x : Real)
  | timestamp
  | text

def Resolved.tag : Resolved → Text
  | .null => "!!null"
  | .bool => "!!bool"
  | .int _ | .large => "!!int"
  | .float _ => "!!float"
  | .timestamp => "!!timestamp"
  | .text => "!!str"

def resolvedWords : List (Text × Resolved) := [
  ("", .null), ("~", .null), ("null", .null), ("Null", .null), ("NULL", .null),
  ("true", .bool), ("True", .bool), ("TRUE", .bool),
  ("false", .bool), ("False", .bool), ("FALSE", .bool),
  (".nan", .float .undefined), (".NaN", .float .undefined), (".NAN", .float .undefined),
  (".inf", .float (.infinite false)), (".Inf", .float (.infinite false)),
  (".INF", .float (.infinite false)), ("+.inf", .float (.infinite false)),
  ("+.Inf", .float (.infinite false)), ("+.INF", .float (.infinite false)),
  ("-.inf", .float (.infinite true)), ("-.Inf", .float (.infinite true)),
  ("-.INF", .float (.infinite true))]

def signedDigits? (base : Nat) (bytes : List UInt8) : Option Int64 :=
  let digits := Number.unsigned bytes
  if digits.isEmpty then none
  else
    match Number.digits base false 0 digits with
    | .error _ => none
    | .ok n => (Number.signed (bytes.head? == some 0x2D) n).toOption

/-- A whole number without underscores: a literal, or a base with the sign after it. -/
def wholeNumber? (t : Text) : Option Resolved :=
  match readLiteral t with
  | .ok n => some (.int n)
  | .error _ =>
    match Number.readNatLiteral t.bytes with
    | .ok _ => some .large
    | .error _ =>
      match t.bytes with
      | 0x30 :: 0x62 :: rest => (signedDigits? 2 rest).map .int
      | 0x30 :: 0x6F :: rest => (signedDigits? 8 rest).map .int
      | _ => none

def isExponent : List UInt8 → Bool
  | [] => true
  | e :: rest =>
    let digits := Number.unsigned rest
    Number.lower e = 0x65 && !digits.isEmpty && digits.all Number.isDigit

/-- The decimal form of a number: digits with a point, and an exponent. -/
def isDecimal (t : Text) : Bool :=
  match Number.unsigned t.bytes with
  | [] => false
  | 0x2E :: rest =>
    !(rest.takeWhile Number.isDigit).isEmpty && isExponent (rest.dropWhile Number.isDigit)
  | rest =>
    !(rest.takeWhile Number.isDigit).isEmpty &&
      match rest.dropWhile Number.isDigit with
      | 0x2E :: rest => isExponent (rest.dropWhile Number.isDigit)
      | rest => isExponent rest

def resolveNumber (t : Text) : Resolved :=
  if isTimestamp t then .timestamp
  else
    let plain : Text := ⟨t.bytes.filter (· != 0x5F)⟩
    match wholeNumber? plain with
    | some r => r
    | none =>
      if isDecimal plain then
        match Real.read? plain with
        | some x => .float x
        | none => .text
      else .text

def resolve (t : Text) : Resolved :=
  match resolvedWords.find? (·.1 == t) with
  | some (_, r) => r
  | none =>
    match t.bytes with
    | [] => .null
    | b :: _ =>
      if b = 0x2E then
        match Real.read? t with
        | some x => .float x
        | none => .text
      else if Number.isDigit b || b = 0x2B || b = 0x2D then resolveNumber t
      else .text

def isResolvable (tag : Text) : Bool :=
  tag == "!!bool" || tag == "!!int" || tag == "!!float" || tag == "!!null" || tag == "!!timestamp"

/-- What a scalar with a tag stands for, unless it does not fit the tag. A whole
number fits a tag that asks for a fraction. -/
def resolveAs (tag t : Text) : Option Resolved :=
  if !isResolvable tag then some .text
  else
    let r := resolve t
    if r.tag = tag then some r
    else
      match r with
      | .int n => if tag == "!!float" then some (.float (.ofInt n)) else none
      | _ => none

def standardTag : Text := "tag:yaml.org,2002:"

def shortTag (tag : Text) : Text :=
  if standardTag.bytes.isPrefixOf tag.bytes then "!!" ++ ⟨tag.bytes.drop standardTag.length⟩ else tag

end Yaml

end ShapeFlow
