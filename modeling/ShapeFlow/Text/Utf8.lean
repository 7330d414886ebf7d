/-
Reading a text as UTF-8. A text splits into pieces: well-formed characters, and
single bytes wherever no character starts. Text is valid when every piece is a
character.
-/
import ShapeFlow.Text

namespace ShapeFlow

namespace Text

/-- A character, or a byte that starts none. -/
inductive Piece where
  | char (c : Char)
  | byte (b : UInt8)

/-- The six payload bits of a continuation byte. -/
def continuation? (b : UInt8) : Option Nat :=
  if b &&& 0xC0 = 0x80 then some (b &&& 0x3F).toNat else none

/-- The character with this code, unless it is a surrogate or out of range, or
shorter bytes would have done (`least`). -/
def scalar? (least code : Nat) : Option Char :=
  if least ≤ code ∧ code.isValidChar then some (Char.ofNat code) else none

/-- The character that the bytes start with, and the bytes after it. -/
def leading? : List UInt8 → Option (Char × List UInt8)
  | [] => none
  | a :: rest =>
    if a < 0x80 then some (Char.ofNat a.toNat, rest)
    else if a < 0xC0 then none
    else if a < 0xE0 then
      match rest with
      | b :: rest => do
        let x ← continuation? b
        let c ← scalar? 0x80 ((a &&& 0x1F).toNat * 64 + x)
        return (c, rest)
      | _ => none
    else if a < 0xF0 then
      match rest with
      | b :: c :: rest => do
        let x ← continuation? b
        let y ← continuation? c
        let c ← scalar? 0x800 (((a &&& 0x0F).toNat * 64 + x) * 64 + y)
        return (c, rest)
      | _ => none
    else if a < 0xF8 then
      match rest with
      | b :: c :: d :: rest => do
        let x ← continuation? b
        let y ← continuation? c
        let z ← continuation? d
        let c ← scalar? 0x10000 ((((a &&& 0x07).toNat * 64 + x) * 64 + y) * 64 + z)
        return (c, rest)
      | _ => none
    else none

/-- The pieces of at most `fuel` bytes; a piece takes at least one byte. -/
def piecesOf : Nat → List UInt8 → List Piece
  | 0, _ => []
  | _, [] => []
  | fuel + 1, b :: rest =>
    match leading? (b :: rest) with
    | some (c, rest) => .char c :: piecesOf fuel rest
    | none => .byte b :: piecesOf fuel rest

def pieces (t : Text) : List Piece := piecesOf t.length t.bytes

def chars? (t : Text) : Option (List Char) :=
  t.pieces.mapM fun
    | .char c => some c
    | .byte _ => none

def toString? (t : Text) : Option String := t.chars?.map String.ofList

end Text

end ShapeFlow
