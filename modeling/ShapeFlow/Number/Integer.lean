/-
Reading whole numbers. A literal of `readInt` is an optional sign and digits in
base ten; `readLiteral` also takes `0x`, `0o` and `0b` and the bare leading zero
of octal numbers, and underscores between digits. Digits are read from the left,
so a number that grows beyond 64 bits is out of range even when a wrong
character follows.
-/
import ShapeFlow.Text

namespace ShapeFlow

inductive NumberError where
  | form
  | range
deriving DecidableEq

def NumberError.message : NumberError → Text
  | .form => "invalid syntax"
  | .range => "value out of range"

namespace Number

def lower (b : UInt8) : UInt8 := if 0x41 ≤ b ∧ b ≤ 0x5A then b + 0x20 else b

def isDigit (b : UInt8) : Bool := 0x30 ≤ b && b ≤ 0x39

/-- The value of a digit or a letter, as digits of bases up to 36 are written. -/
def digit? (b : UInt8) : Option Nat :=
  if isDigit b then some (b.toNat - 0x30)
  else if 0x61 ≤ lower b ∧ lower b ≤ 0x7A then some ((lower b).toNat - 0x61 + 10)
  else none

def isHexDigit (b : UInt8) : Bool :=
  match digit? b with
  | some d => d < 16
  | none => false

/-- What stood before a place in a number. -/
inductive Before where
  | digit
  | underscore
  | other

/-- Every underscore stands between two digits. -/
def spaced (hex : Bool) : Before → List UInt8 → Bool
  | .underscore, [] => false
  | _, [] => true
  | before, b :: rest =>
    if isDigit b || (hex && isHexDigit b) then spaced hex .digit rest
    else if b = 0x5F then
      match before with
      | .digit => spaced hex .underscore rest
      | _ => false
    else
      match before with
      | .underscore => false
      | _ => spaced hex .other rest

/-- Drops one sign. -/
def unsigned : List UInt8 → List UInt8
  | b :: rest => if b = 0x2B ∨ b = 0x2D then rest else b :: rest
  | [] => []

/-- Underscores separate digits; a base letter counts as a digit before one. -/
def underscoresOk (bytes : List UInt8) : Bool :=
  match unsigned bytes with
  | z :: x :: rest =>
    if z = 0x30 ∧ (lower x = 0x62 ∨ lower x = 0x6F ∨ lower x = 0x78) then
      spaced (lower x = 0x78) .digit rest
    else spaced false .other (z :: x :: rest)
  | rest => spaced false .other rest

/-- Reads digits in a base onto `n`, with underscores when they are allowed, up
to the largest number of 64 bits. -/
def digits (base : Nat) (underscores : Bool) : Nat → List UInt8 → Except NumberError Nat
  | n, [] => .ok n
  | n, b :: rest =>
    if underscores ∧ b = 0x5F then digits base underscores n rest
    else
      match digit? b with
      | none => .error .form
      | some d =>
        if base ≤ d then .error .form
        else if 0x10000000000000000 ≤ n * base + d then .error .range
        else digits base underscores (n * base + d) rest

/-- A number below 2^64 in base ten. -/
def readNat (bytes : List UInt8) : Except NumberError Nat :=
  if bytes.isEmpty then .error .form else digits 10 false 0 bytes

/-- The base that a literal's beginning gives, and the digits after it. -/
def baseOf : List UInt8 → Nat × List UInt8
  | 0x30 :: x :: d :: rest =>
    if lower x = 0x62 then (2, d :: rest)
    else if lower x = 0x6F then (8, d :: rest)
    else if lower x = 0x78 then (16, d :: rest)
    else (8, x :: d :: rest)
  | 0x30 :: rest => (8, rest)
  | bytes => (10, bytes)

def readNatLiteral (bytes : List UInt8) : Except NumberError Nat :=
  if bytes.isEmpty then .error .form
  else
    let (base, rest) := baseOf bytes
    match digits base true 0 rest with
    | .error e => .error e
    | .ok n => if bytes.contains 0x5F && !underscoresOk bytes then .error .form else .ok n

def signed (negative : Bool) (n : Nat) : Except NumberError Int64 :=
  if negative then
    if n ≤ 0x8000000000000000 then .ok (Int64.ofInt (-(n : Int))) else .error .range
  else
    if n < 0x8000000000000000 then .ok (Int64.ofInt n) else .error .range

def readSigned (read : List UInt8 → Except NumberError Nat) (t : Text) : Except NumberError Int64 :=
  let negative := t.bytes.head? == some 0x2D
  match read (unsigned t.bytes) with
  | .error e => .error e
  | .ok n => signed negative n

end Number

/-- A 64-bit number in base ten. -/
def readInt (t : Text) : Except NumberError Int64 := Number.readSigned Number.readNat t

/-- A 64-bit number in the base that its beginning gives. -/
def readLiteral (t : Text) : Except NumberError Int64 := Number.readSigned Number.readNatLiteral t

end ShapeFlow
