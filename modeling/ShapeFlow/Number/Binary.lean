/-
Binary floating-point numbers as exact pairs: a finite number is m * 2^e. A
format bounds m and e; `Format.round` takes a positive quotient to the nearest
number of the format, a tie to the even m.
-/

namespace ShapeFlow

namespace Binary

/-- A format has numbers m * 2^e with m < 2^digits and least ≤ e ≤ greatest. -/
structure Format where
  digits : Nat
  least : Int
  greatest : Int

def single : Format := ⟨24, -149, 104⟩

def double : Format := ⟨53, -1074, 971⟩

structure Scaled where
  m : Nat
  e : Int
deriving DecidableEq

/-- num / den * 2^(-e) as a quotient of naturals. -/
def scaleDown (num den : Nat) (e : Int) : Nat × Nat :=
  if 0 ≤ e then (num, den * Nat.pow 2 e.toNat) else (num * Nat.pow 2 (-e).toNat, den)

/-- The nearest natural to a quotient, a tie to the even one. -/
def roundDiv (num den : Nat) : Nat :=
  let q := num / den
  let r := num % den
  if 2 * r < den then q
  else if den < 2 * r then q + 1
  else if q % 2 = 0 then q else q + 1

/-- The exponent at which the quotient has about `digits` binary digits, at least
the least of the format. -/
def Format.exponent (f : Format) (num den : Nat) : Int :=
  let guess : Int := (num.log2 : Int) - (den.log2 : Int) - (f.digits : Int)
  let (n, d) := scaleDown num den guess
  let e := if n / d < Nat.pow 2 f.digits then guess else guess + 1
  if e < f.least then f.least else e

/-- The nearest number of the format to num / den, or nothing above the largest. -/
def Format.round (f : Format) (num den : Nat) : Option Scaled :=
  if num = 0 then some ⟨0, f.least⟩
  else
    let e := f.exponent num den
    let (n, d) := scaleDown num den e
    let m := roundDiv n d
    let s : Scaled := if m = Nat.pow 2 f.digits then ⟨Nat.pow 2 (f.digits - 1), e + 1⟩ else ⟨m, e⟩
    if f.greatest < s.e then none else some s

def Scaled.floor (s : Scaled) : Nat :=
  if 0 ≤ s.e then s.m * Nat.pow 2 s.e.toNat else s.m / Nat.pow 2 (-s.e).toNat

end Binary

end ShapeFlow
