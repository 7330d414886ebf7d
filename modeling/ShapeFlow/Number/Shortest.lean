/-
The shortest decimal for a number of 32 bits: the fewest digits that are nearer
to the number than to any other of the format, and of those the nearest; of two
that are equally near the one with an even last digit. The digits are written in
place below a million and down to 0.0001, and with an exponent of two or more
digits beyond.
-/
import ShapeFlow.Text
import ShapeFlow.Number.Single

namespace ShapeFlow

namespace Decimal

/-- The number 0.d₁d₂… * 10^point with digits d₁d₂…. -/
structure Digits where
  digits : List Nat
  point : Int

/-- The reals that round to m * 2^e, as multiples of 2^(e-2): the number itself,
the two ends, and whether the ends belong. -/
structure Interval where
  low : Nat
  mid : Nat
  high : Nat
  unit : Int
  closed : Bool

def intervalOf (s : Binary.Scaled) : Interval :=
  let narrow := s.m = 0x800000 ∧ -149 < s.e
  { low := if narrow then 4 * s.m - 1 else 4 * s.m - 2
    mid := 4 * s.m
    high := 4 * s.m + 2
    unit := s.e - 2
    closed := s.m % 2 = 0 }

/-- n * 10^p compared with k * 2^u, all multiplied to naturals. -/
def compareScaled (n : Nat) (p : Int) (k : Nat) (u : Int) : Ordering :=
  let left := n * Nat.pow 10 p.toNat * Nat.pow 2 (-u).toNat
  let right := k * Nat.pow 2 u.toNat * Nat.pow 10 (-p).toNat
  compare left right

/-- Whether n * 10^p rounds to the number of the interval. -/
def Interval.holds (i : Interval) (n : Nat) (p : Int) : Bool :=
  let low := compareScaled n p i.low i.unit
  let high := compareScaled n p i.high i.unit
  (low == .gt || (i.closed && low == .eq)) && (high == .lt || (i.closed && high == .eq))

/-- The greatest n with n * 10^p at most the number. -/
def Interval.below (i : Interval) (p : Int) : Nat :=
  (i.mid * Nat.pow 2 i.unit.toNat * Nat.pow 10 (-p).toNat) /
    (Nat.pow 2 (-i.unit).toNat * Nat.pow 10 p.toNat)

/-- Whether of the neighbours n and n + 1 on the grid 10^p the lower one is to be
tried first: it is nearer, or it is as near and even. -/
def Interval.lowerFirst (i : Interval) (n : Nat) (p : Int) : Bool :=
  -- n is nearer than n + 1 exactly when twice the number is below (2n + 1) * 10^p
  match compareScaled (2 * n + 1) p (2 * i.mid) i.unit with
  | .gt => true
  | .eq => n % 2 = 0
  | .lt => false

/-- The nearer of the number's two neighbours among the multiples of 10^p, if it
rounds to the number; else the other one, if that does. -/
def Interval.onGrid (i : Interval) (p : Int) : Option Nat :=
  let n := i.below p
  let first := if i.lowerFirst n p then n else n + 1
  let second := if i.lowerFirst n p then n + 1 else n
  if i.holds first p then some first
  else if i.holds second p then some second
  else none

def Interval.search (i : Interval) : Nat → Int → Option (Nat × Int)
  | 0, _ => none
  | fuel + 1, p =>
    match i.onGrid p with
    | some n => if n = 0 then i.search fuel (p - 1) else some (n, p)
    | none => i.search fuel (p - 1)

/-- The shortest digits of a positive number of the 32-bit format. Grids from
10^39 down to 10^-46 cover every such number, and nine digits always suffice. -/
def shortest (s : Binary.Scaled) : Digits :=
  match (intervalOf s).search 100 39 with
  | some (n, p) =>
    let ds := (Nat.toDigits 10 n).map fun c => c.toNat - 0x30
    ⟨ds, (ds.length : Int) + p⟩
  | none => ⟨[], 0⟩

def digitText (ds : List Nat) : Text := Text.concat (ds.map Text.ofNat)

def exponentText (e : Int) : Text :=
  let sign : Text := if e < 0 then "-" else "+"
  sign ++ (if e.natAbs < 10 then ("0" : Text) else "") ++ Text.ofNat e.natAbs

/-- Digits with an exponent from the sixth power of ten on and below the minus
fourth, else in place. -/
def Digits.text (d : Digits) : Text :=
  let e := d.point - 1
  if e < -4 ∨ 6 ≤ e then
    let rest := d.digits.drop 1
    digitText (d.digits.take 1) ++ (if rest.isEmpty then ("" : Text) else "." ++ digitText rest) ++
      "e" ++ exponentText e
  else if d.point ≤ 0 then
    "0." ++ digitText (List.replicate (-d.point).toNat 0 ++ d.digits)
  else
    let places := d.point.toNat
    let whole := d.digits.take places ++ List.replicate (places - d.digits.length) 0
    let rest := d.digits.drop places
    digitText whole ++ (if rest.isEmpty then ("" : Text) else "." ++ digitText rest)

end Decimal

def Single.text (x : Single) : Text :=
  let sign : Text := if x.negative then "-" else ""
  match x.magnitude with
  | .undefined => "NaN"
  | .infinite => if x.negative then "-Inf" else "+Inf"
  | .finite s => if s.m = 0 then sign ++ "0" else sign ++ (Decimal.shortest s).text

end ShapeFlow
