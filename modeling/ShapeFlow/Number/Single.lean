/-
Numbers of 32 bits: what a bit pattern stands for, and back.
-/
import ShapeFlow.Number.Binary

namespace ShapeFlow

/-- The value of a bit pattern of 32 bits, without its sign. -/
inductive Magnitude where
  | finite (s : Binary.Scaled)
  | infinite
  | undefined

/-- A number of 32 bits, kept as its bit pattern. -/
structure Single where
  bits : UInt32
deriving DecidableEq

namespace Single

def negative (x : Single) : Bool := x.bits &&& 0x80000000 != 0

def magnitude (x : Single) : Magnitude :=
  let exponent := ((x.bits >>> 23) &&& 0xFF).toNat
  let fraction := (x.bits &&& 0x7FFFFF).toNat
  if exponent = 255 then if fraction = 0 then .infinite else .undefined
  else if exponent = 0 then .finite ⟨fraction, -149⟩
  else .finite ⟨fraction + 0x800000, (exponent : Int) - 150⟩

def ofScaled (negative : Bool) (s : Binary.Scaled) : Single :=
  let sign : Nat := if negative then 0x80000000 else 0
  let rest := if s.m < 0x800000 then s.m else (s.e + 150).toNat * 0x800000 + (s.m - 0x800000)
  ⟨UInt32.ofNat (sign + rest)⟩

def infinity (negative : Bool) : Single := ⟨if negative then 0xFF800000 else 0x7F800000⟩

def nan : Single := ⟨0x7FC00000⟩

end Single

end ShapeFlow
