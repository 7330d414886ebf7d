/-
The characters of a YAML stream. A stream is UTF-8, or UTF-16 if it starts with
that byte order mark, and is read in blocks of bytes. Characters that YAML does
not allow, and bytes that are no characters, make their block and all after it
unreadable; a stream that ends within a character is unreadable at its end.
-/
import ShapeFlow.Text.Utf8

namespace ShapeFlow

namespace Yaml

def isAllowed (c : Char) : Bool :=
  let n := c.toNat
  n = 0x09 || n = 0x0A || n = 0x0D || (0x20 ≤ n && n ≤ 0x7E) || n = 0x85 ||
    (0xA0 ≤ n && n ≤ 0xD7FF) || (0xE000 ≤ n && n ≤ 0xFFFD) || 0x10000 ≤ n

inductive Encoding where
  | utf8
  | utf16 (little : Bool)

inductive Lead where
  | char (c : Char) (rest : List UInt8)
  | incomplete
  | invalid

def isHighSurrogate (n : Nat) : Bool := 0xD800 ≤ n && n < 0xDC00

def isLowSurrogate (n : Nat) : Bool := 0xDC00 ≤ n && n < 0xE000

/-- How many bytes a character has that starts with this one. -/
def octets (b : UInt8) : Nat :=
  if b < 0x80 then 1
  else if b < 0xC0 then 0
  else if b < 0xE0 then 2
  else if b < 0xF0 then 3
  else if b < 0xF8 then 4
  else 0

namespace Encoding

def unit (little : Bool) (a b : UInt8) : Nat :=
  if little then a.toNat + 256 * b.toNat else 256 * a.toNat + b.toNat

def lead (e : Encoding) (bytes : List UInt8) : Lead :=
  match e, bytes with
  | _, [] => .incomplete
  | .utf8, b :: rest =>
    if octets b = 0 then .invalid
    else if ((b :: rest).drop (octets b - 1)).isEmpty then .incomplete
    else
      match Text.leading? (b :: rest) with
      | some (c, rest) => .char c rest
      | none => .invalid
  | .utf16 _, [_] => .incomplete
  | .utf16 little, a :: b :: rest =>
    let high := unit little a b
    if isLowSurrogate high then .invalid
    else if isHighSurrogate high then
      match rest with
      | a :: b :: rest =>
        let low := unit little a b
        if isLowSurrogate low then
          .char (Char.ofNat (0x10000 + (high - 0xD800) * 1024 + (low - 0xDC00))) rest
        else .invalid
      | _ => .incomplete
    else .char (Char.ofNat high) rest

/-- The complete characters of a block, and the bytes after them; every character
takes at least one byte. -/
def block? (e : Encoding) : Nat → List UInt8 → Option (List Char × List UInt8)
  | 0, bytes => some ([], bytes)
  | fuel + 1, bytes =>
    match e.lead bytes with
    | .incomplete => some ([], bytes)
    | .invalid => none
    | .char c rest =>
      if isAllowed c then (e.block? fuel rest).map fun (cs, left) => (c :: cs, left) else none

end Encoding

/-- The characters that can be read, how many of them each block has, and whether
something unreadable follows. -/
structure Source where
  chars : List Char
  blocks : List Nat
  faulty : Bool

def blockSize : Nat := 512

/-- Reads blocks of which the first has `size` bytes; a character that a block
ends in belongs to the next. -/
def Source.ofBlocks (e : Encoding) : Nat → Nat → List UInt8 → Source
  | 0, _, _ => ⟨[], [], true⟩
  | _, _, [] => ⟨[], [], false⟩
  | fuel + 1, size, bytes =>
    let block := bytes.take size
    match e.block? block.length block with
    | none => ⟨[], [], true⟩
    | some (cs, left) =>
      let after := bytes.drop size
      if after.isEmpty then ⟨cs, [cs.length], !left.isEmpty⟩
      else
        let s := ofBlocks e fuel blockSize (left ++ after)
        ⟨cs ++ s.chars, cs.length :: s.blocks, s.faulty⟩

/-- The stream of bytes, in the encoding that their beginning tells. -/
def Source.ofText (t : Text) : Source :=
  let read (e : Encoding) (markSize : Nat) (bytes : List UInt8) : Source :=
    ofBlocks e (t.length + 1) (blockSize - markSize) bytes
  match t.bytes with
  | 0xFF :: 0xFE :: rest => read (.utf16 true) 2 rest
  | 0xFE :: 0xFF :: rest => read (.utf16 false) 2 rest
  | 0xEF :: 0xBB :: 0xBF :: rest => read .utf8 3 rest
  | bytes => read .utf8 0 bytes

end Yaml

end ShapeFlow
