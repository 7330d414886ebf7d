/-
Reading decimal and hexadecimal fractions. A literal is a sign, digits with at
most one point, and an exponent (`e` for decimal, `p` for hexadecimal, where it
is required); underscores may separate digits. `inf`, `infinity` and `nan` are
also literals. The value is exact until it is rounded to a format.
-/
import ShapeFlow.Number.Integer
import ShapeFlow.Number.Single

namespace ShapeFlow

inductive Fraction where
  | undefined
  | infinite (negative : Bool)
  /-- ± digits * 10^exponent, or * 2^exponent for a hexadecimal literal. -/
  | finite (negative : Bool) (digits : Nat) (binary : Bool) (exponent : Int)

namespace Fraction

/-- Digits read so far: their value, how many followed the point, and whether
there were any, and a point. -/
structure Mantissa where
  value : Nat := 0
  places : Nat := 0
  any : Bool := false
  point : Bool := false

/-- Reads digits, underscores and at most one point, and returns the rest. -/
def mantissa (hex : Bool) : Mantissa → List UInt8 → Mantissa × List UInt8
  | acc, [] => (acc, [])
  | acc, b :: rest =>
    if b = 0x5F then mantissa hex acc rest
    else if b = 0x2E then
      if acc.point then (acc, b :: rest) else mantissa hex { acc with point := true } rest
    else
      match Number.digit? b with
      | none => (acc, b :: rest)
      | some d =>
        let base := if hex then 16 else 10
        if base ≤ d then (acc, b :: rest)
        else mantissa hex { acc with
          value := acc.value * base + d
          places := if acc.point then acc.places + 1 else acc.places
          any := true } rest

/-- Reads the digits of an exponent, which stops growing at five digits. -/
def exponentDigits : Nat → List UInt8 → Nat × List UInt8
  | n, [] => (n, [])
  | n, b :: rest =>
    if b = 0x5F then exponentDigits n rest
    else if Number.isDigit b then
      exponentDigits (if n < 10000 then n * 10 + (b.toNat - 0x30) else n) rest
    else (n, b :: rest)

def exponent? (bytes : List UInt8) : Option (Int × List UInt8) :=
  let negative := bytes.head? == some 0x2D
  match Number.unsigned bytes with
  | [] => none
  | b :: rest =>
    if Number.isDigit b then
      let (n, rest) := exponentDigits 0 (b :: rest)
      some (if negative then -(n : Int) else n, rest)
    else none

def isHexStart : List UInt8 → Bool
  | z :: x :: _ :: _ => z = 0x30 ∧ Number.lower x = 0x78
  | _ => false

/-- The words for values that are not finite, in any case of letters. -/
def word? (negative signed : Bool) (bytes : List UInt8) : Option Fraction :=
  let word := bytes.map Number.lower
  if word = (Text.ofString "inf").bytes ∨ word = (Text.ofString "infinity").bytes then
    some (.infinite negative)
  else if word = (Text.ofString "nan").bytes ∧ !signed then some .undefined
  else none

/-- A finite literal without its sign. -/
def number? (negative : Bool) (bytes : List UInt8) : Option Fraction := do
  let hex := isHexStart bytes
  let (m, rest) := mantissa hex {} (if hex then bytes.drop 2 else bytes)
  if !m.any then none
  let places : Int := if hex then -(4 * m.places : Int) else -(m.places : Int)
  match rest with
  | [] => if hex then none else some (.finite negative m.value hex places)
  | b :: rest =>
    if Number.lower b = (if hex then 0x70 else 0x65) then
      let (e, rest) ← exponent? rest
      if rest.isEmpty then some (.finite negative m.value hex (places + e)) else none
    else none

def read? (t : Text) : Option Fraction :=
  let bytes := Number.unsigned t.bytes
  let negative := t.bytes.head? == some 0x2D
  let signed := bytes.length < t.bytes.length
  match word? negative signed bytes with
  | some f => some f
  | none =>
    match number? negative bytes with
    | none => none
    | some f => if t.bytes.contains 0x5F && !Number.underscoresOk t.bytes then none else some f

/-- The nearest number of a format, or nothing beyond its largest. A decimal of
over 400 places before or after the point is beyond every format. -/
def roundTo (f : Binary.Format) (digits : Nat) (binary : Bool) (exponent : Int) :
    Option Binary.Scaled :=
  let base := if binary then 2 else 10
  let size : Int := (Nat.toDigits base digits).length + exponent
  let bound : Int := if binary then 1400 else 400
  if digits = 0 ∨ size < -bound then f.round 0 1
  else if bound < size then none
  else if 0 ≤ exponent then f.round (digits * Nat.pow base exponent.toNat) 1
  else f.round digits (Nat.pow base (-exponent).toNat)

end Fraction

def readSingle (t : Text) : Except NumberError Single :=
  match Fraction.read? t with
  | none => .error .form
  | some .undefined => .ok .nan
  | some (.infinite negative) => .ok (.infinity negative)
  | some (.finite negative digits binary exponent) =>
    match Fraction.roundTo Binary.single digits binary exponent with
    | none => .error .range
    | some s => .ok (.ofScaled negative s)

end ShapeFlow
