/-
Dimensions and shapes. A dimension is known, a number of 64 bits, or unknown,
possibly with a name that is only shown. A shape is the list of dimensions of a
tensor whose rank is known; where the rank may be unknown it is an `Option`.
-/
import ShapeFlow.Text

namespace ShapeFlow

inductive Dim where
  | known (size : Int64)
  /-- Unknown; the name is empty when there is none. -/
  | unknown (name : Text)
deriving DecidableEq

namespace Dim

def anonymous : Dim := .unknown Text.empty

def isKnown : Dim → Bool
  | known _ => true
  | unknown _ => false

theorem isKnown_eq_true {d : Dim} : d.isKnown = true ↔ ∃ n, d = .known n := by
  cases d <;> simp [isKnown]

def size? : Dim → Option Int64
  | known n => some n
  | unknown _ => none

def text : Dim → Text
  | known n => Text.ofInt64 n
  | unknown name => if name.isEmpty then "?" else name

/-- Equal as far as sizes go: names are not looked at. -/
def agrees (a b : Dim) : Bool := a.size? == b.size?

/-- The dimension of a size that is negative when it is not known. -/
def ofSigned (n : Int64) : Dim := if n < 0 then anonymous else known n

/-- The product, unknown if a factor is; of no dimensions it is one. -/
def product : List Dim → Dim
  | [] => known 1
  | unknown _ :: _ => anonymous
  | known n :: rest =>
    match product rest with
    | known m => known (n * m)
    | unknown _ => anonymous

end Dim

abbrev Shape := List Dim

namespace Shape

def ofSizes (sizes : List Int64) : Shape := sizes.map Dim.known

def sizes? (s : Shape) : Option (List Int64) := s.mapM Dim.size?

def isFullyKnown (s : Shape) : Bool := s.all Dim.isKnown

def text (s : Shape) : Text := "[" ++ Text.join ", " (s.map Dim.text) ++ "]"

/-- Same rank, and dimensions that agree. -/
def agrees : Shape → Shape → Bool
  | [], [] => true
  | a :: s, b :: t => a.agrees b && agrees s t
  | _, _ => false

/-- The number of elements, wrapping around at 64 bits. -/
def count (sizes : List Int64) : Int64 := sizes.foldl (· * ·) 1

end Shape

abbrev Shape? := Option Shape

namespace Shape?

/-- The rank, or minus one if it is not known. -/
def rank : Shape? → Int
  | some s => s.length
  | none => -1

def isFullyKnown : Shape? → Bool
  | some s => Shape.isFullyKnown s
  | none => false

def text : Shape? → Text
  | some s => Shape.text s
  | none => "[?]"

def agrees : Shape? → Shape? → Bool
  | some s, some t => Shape.agrees s t
  | none, none => true
  | _, _ => false

end Shape?

end ShapeFlow
