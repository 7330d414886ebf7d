/-
Dates and times as plain scalars: a year of four digits, month and day, and
possibly a time, with a zone if it is joined by a letter and without one if it
is joined by blanks.
-/
import ShapeFlow.Number.Integer

namespace ShapeFlow

namespace Yaml

namespace Timestamp

/-- One digit or two. -/
def number? : List UInt8 → Option (Nat × List UInt8)
  | a :: b :: rest =>
    if Number.isDigit a then
      if Number.isDigit b then some ((a.toNat - 48) * 10 + (b.toNat - 48), rest)
      else some (a.toNat - 48, b :: rest)
    else none
  | [a] => if Number.isDigit a then some (a.toNat - 48, []) else none
  | [] => none

def char? (c : UInt8) : List UInt8 → Option (List UInt8)
  | a :: rest => if a = c then some rest else none
  | [] => none

def isLeapYear (year : Nat) : Bool := year % 4 = 0 && (year % 100 != 0 || year % 400 = 0)

def daysIn (year month : Nat) : Nat :=
  if month = 2 then if isLeapYear year then 29 else 28
  else if month = 4 || month = 6 || month = 9 || month = 11 then 30
  else 31

def year? : List UInt8 → Option (Nat × List UInt8)
  | a :: b :: c :: d :: 0x2D :: rest =>
    if [a, b, c, d].all Number.isDigit then
      some ([a, b, c, d].foldl (fun n x => 10 * n + (x.toNat - 48)) 0, rest)
    else none
  | _ => none

def date? (bytes : List UInt8) : Option (List UInt8) := do
  let (year, rest) ← year? bytes
  let (month, rest) ← number? rest
  let rest ← char? 0x2D rest
  let (day, rest) ← number? rest
  if 1 ≤ month ∧ month ≤ 12 ∧ 1 ≤ day ∧ day ≤ daysIn year month then some rest else none

/-- Digits after a point or a comma, if there are any. -/
def fraction : List UInt8 → List UInt8
  | a :: b :: rest =>
    if (a = 0x2E || a = 0x2C) && Number.isDigit b then (b :: rest).dropWhile Number.isDigit
    else a :: b :: rest
  | rest => rest

def time? (bytes : List UInt8) : Option (List UInt8) := do
  let (hour, rest) ← number? bytes
  let rest ← char? 0x3A rest
  let (minute, rest) ← number? rest
  let rest ← char? 0x3A rest
  let (second, rest) ← number? rest
  if hour < 24 ∧ minute < 60 ∧ second < 60 then some (fraction rest) else none

/-- A zone: the letter of universal time, or a signed offset. -/
def isZone : List UInt8 → Bool
  | [z] => z = 0x5A
  | [sign, a, b, colon, c, d] =>
    (sign = 0x2B || sign = 0x2D) && colon = 0x3A && [a, b, c, d].all Number.isDigit &&
      (a.toNat - 48) * 10 + (b.toNat - 48) ≤ 24 && (c.toNat - 48) * 10 + (d.toNat - 48) ≤ 60
  | _ => false

end Timestamp

def isTimestamp (t : Text) : Bool :=
  match Timestamp.date? t.bytes with
  | none => false
  | some [] => true
  | some (joint :: rest) =>
    if joint = 0x54 || joint = 0x74 then
      match Timestamp.time? rest with
      | some zone => Timestamp.isZone zone
      | none => false
    else if joint = 0x20 then
      Timestamp.time? (rest.dropWhile (· = 0x20)) == some []
    else false

end Yaml

end ShapeFlow
