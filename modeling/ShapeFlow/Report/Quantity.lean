/-
Quantities as a report shows them: counts with a comma before every three
digits, and sizes in bytes with a unit of powers of a thousand.
-/
import ShapeFlow.Text

namespace ShapeFlow

namespace Quantity

/-- Puts a comma before every group of three digits that has digits before it. -/
def grouped : List UInt8 → List UInt8
  | [] => []
  | d :: rest =>
    if rest.length % 3 = 0 ∧ rest ≠ [] then d :: 0x2C :: grouped rest else d :: grouped rest

def count (n : Int) : Text :=
  let sign : Text := if n < 0 then "-" else ""
  sign ++ ⟨grouped (Text.ofNat n.natAbs).bytes⟩

def units : List Text := ["B", "kB", "MB", "GB", "TB", "PB", "EB"]

/-- Ten or more are rounded to a whole number, a half to the even neighbour. -/
def tenths (n : Nat) : Text :=
  if n < 100 then Text.ofNat (n / 10) ++ "." ++ Text.ofNat (n % 10)
  else
    let whole := n / 10
    let up := 5 < n % 10 || (n % 10 == 5 && whole % 2 == 1)
    Text.ofNat (if up then whole + 1 else whole)

/-- A number of bytes in the unit that its logarithm selects. The quotient is
rounded to tenths in floating point, so a size just below a unit can show as a
thousand of the smaller one. -/
def bytes (n : UInt64) : Text :=
  if n < 10 then Text.ofNat n.toNat ++ " B"
  else
    let power := (n.toFloat.log / Float.log 1000).floor.toUInt64.toNat
    let quotient := n.toFloat / (Nat.pow 1000 power).toFloat
    tenths (quotient * 10 + 0.5).floor.toUInt64.toNat ++ " " ++ units.getD power "EB"

end Quantity

end ShapeFlow
