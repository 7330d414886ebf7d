/-
Quoted text. Printable characters stand for themselves, a few have letters of
their own, and everything else is written by its code: a byte with two digits,
a character with four or eight.
-/
import ShapeFlow.Text.Utf8
import ShapeFlow.Text.Printable

namespace ShapeFlow

namespace Text

def hexDigits (width n : Nat) : List Char :=
  ((Nat.toDigits 16 n).reverse ++ List.replicate width '0').take width |>.reverse

/-- The letter after the backslash, for characters that have one. -/
def escapeLetter? : Char → Option Char
  | '"' => some '"'
  | '\\' => some '\\'
  | '\x07' => some 'a'
  | '\x08' => some 'b'
  | '\x0c' => some 'f'
  | '\n' => some 'n'
  | '\r' => some 'r'
  | '\t' => some 't'
  | '\x0b' => some 'v'
  | _ => none

def Piece.quoted : Piece → List Char
  | .byte b => '\\' :: 'x' :: hexDigits 2 b.toNat
  | .char c =>
    match escapeLetter? c with
    | some letter => ['\\', letter]
    | none =>
      if isPrintable c then [c]
      else if c.toNat < 0x80 then '\\' :: 'x' :: hexDigits 2 c.toNat
      else if c.toNat < 0x10000 then '\\' :: 'u' :: hexDigits 4 c.toNat
      else '\\' :: 'U' :: hexDigits 8 c.toNat

def quote (t : Text) : Text :=
  ofChars ('"' :: t.pieces.flatMap Piece.quoted ++ ['"'])

end Text

end ShapeFlow
