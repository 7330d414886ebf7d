/-
White space, and text without it at both ends. White space is the Unicode
property White_Space; every blank of core's `Char.isWhitespace` is in it.
-/
import ShapeFlow.Text.Utf8

namespace ShapeFlow

/-- The codes with the Unicode property White_Space. -/
def isBlankCode (n : Nat) : Bool :=
  (9 ≤ n && n ≤ 13) || n == 0x20 || n == 0x85 || n == 0xA0 || n == 0x1680 ||
    (0x2000 ≤ n && n ≤ 0x200A) || n == 0x2028 || n == 0x2029 || n == 0x202F || n == 0x205F ||
    n == 0x3000

def isBlank (c : Char) : Bool := isBlankCode c.toNat

namespace Text

def Piece.bytes : Piece → List UInt8
  | .char c => String.utf8EncodeChar c
  | .byte b => [b]

def Piece.blank : Piece → Bool
  | .char c => isBlank c
  | .byte _ => false

def trim (t : Text) : Text :=
  let inner := ((t.pieces.dropWhile Piece.blank).reverse.dropWhile Piece.blank).reverse
  ⟨inner.flatMap Piece.bytes⟩

end Text

end ShapeFlow
