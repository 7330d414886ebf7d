/-
A place in the characters of a stream, with its line and column, and the classes
of characters that tell where a token ends.

Characters are loaded block by block, when they are needed: `need` fails if one of
them cannot be read. What the first character was when a block was loaded last is
remembered, since a byte order mark there counts at the start of a line.
-/
import ShapeFlow.Yaml.Source

namespace ShapeFlow

namespace Yaml

/-- Where a character stands; all counted from zero. -/
structure Mark where
  index : Nat := 0
  line : Nat := 0
  column : Nat := 0

namespace Mark

def plus (m : Mark) (n : Nat) : Mark := ⟨m.index + n, m.line, m.column + n⟩

def newline (m : Mark) (width : Nat) : Mark := ⟨m.index + width, m.line + 1, 0⟩

end Mark

/-- A mark, and what is loaded from there on. -/
structure Place where
  mark : Mark := {}
  /-- How many characters are loaded. At the end of the stream its end counts as
  one more. -/
  loaded : Nat := 0
  /-- How many characters the blocks have that are not loaded. -/
  blocks : List Nat
  /-- Whether what follows those blocks is unreadable. -/
  faulty : Bool
  /-- Whether the stream stood at a byte order mark when a block was loaded last. -/
  marked : Bool := false

namespace Place

def column (p : Place) : Nat := p.mark.column

def plus (p : Place) (n : Nat) : Place := { p with mark := p.mark.plus n, loaded := p.loaded - n }

def next (p : Place) : Place := p.plus 1

def newline (p : Place) (width : Nat) : Place :=
  { p with mark := p.mark.newline width, loaded := p.loaded - width }

def load (n : Nat) (p : Place) : List Nat → Nat → Option Place
  | [], loaded =>
    if p.faulty then none else some { p with loaded := loaded + 1, blocks := [] }
  | size :: rest, loaded =>
    if n ≤ loaded + size then some { p with loaded := loaded + size, blocks := rest }
    else load n p rest (loaded + size)

/-- Makes sure that `n` characters are loaded, or all; `rest` stands at the place. -/
def need (n : Nat) (p : Place) (rest : List Char) : Option Place :=
  if n ≤ p.loaded then some p
  else load n { p with marked := rest.head? == some '\uFEFF' } p.blocks p.loaded

end Place

structure Cursor where
  place : Place
  rest : List Char

def isBlank (c : Char) : Bool := c = ' ' || c = '\t'

/-- A line break of one byte. -/
def isPlainBreak (c : Char) : Bool := c = '\r' || c = '\n'

def isBreak (c : Char) : Bool :=
  isPlainBreak c || c = '\u0085' || c = '\u2028' || c = '\u2029'

/-- A blank, a line break or the end of the stream comes next. -/
def endsWord : List Char → Bool
  | [] => true
  | c :: _ => isBlank c || isBreak c

def startsBlank : List Char → Bool
  | [] => false
  | c :: _ => isBlank c

/-- What a line break contributes to a text; all but two kinds are a newline. -/
def breakText (c : Char) : Char := if c = '\u2028' || c = '\u2029' then c else '\n'

def isWordChar (c : Char) : Bool := c.isAlphanum || c = '_' || c = '-'

def startsDocumentMark (m : Mark) : List Char → Bool
  | '-' :: '-' :: '-' :: rest => m.column = 0 && endsWord rest
  | '.' :: '.' :: '.' :: rest => m.column = 0 && endsWord rest
  | _ => false

def hexValue? (c : Char) : Option Nat :=
  if c.isDigit then some (c.toNat - 48)
  else if 'a' ≤ c ∧ c ≤ 'f' then some (c.toNat - 87)
  else if 'A' ≤ c ∧ c ≤ 'F' then some (c.toNat - 55)
  else none

def hexNumber? (cs : List Char) : Option Nat :=
  cs.foldlM (fun n c => (hexValue? c).map (16 * n + ·)) 0

namespace Cursor

def ofSource (s : Source) : Cursor := ⟨{ blocks := s.blocks, faulty := s.faulty }, s.chars⟩

def mark (c : Cursor) : Mark := c.place.mark

def column (c : Cursor) : Nat := c.place.column

def startsWith (c : Cursor) (x : Char) : Bool := c.rest.head? == some x

def need (n : Nat) (c : Cursor) : Option Cursor := (c.place.need n c.rest).map (⟨·, c.rest⟩)

def skip (c : Cursor) (n : Nat) : Cursor := ⟨c.place.plus n, c.rest.drop n⟩

/-- Reads characters of a class, each loaded when the one before it is passed. -/
def spanFrom (p : Char → Bool) : Place → List Char → Option (List Char × Cursor)
  | place, [] => some ([], ⟨place, []⟩)
  | place, c :: rest =>
    if p c then do
      let place ← place.next.need 1 rest
      let (taken, after) ← spanFrom p place rest
      return (c :: taken, after)
    else some ([], ⟨place, c :: rest⟩)

/-- The characters of a class that come next, none of them a line break, and the
place after them. -/
def span (p : Char → Bool) (c : Cursor) : Option (List Char × Cursor) := do
  let place ← c.place.need 1 c.rest
  spanFrom p place c.rest

def skipWhile (p : Char → Bool) (c : Cursor) : Option Cursor := (c.span p).map Prod.snd

def skipBlanks (c : Cursor) : Option Cursor := c.skipWhile isBlank

def skipToBreak (c : Cursor) : Option Cursor := c.skipWhile (!isBreak ·)

def skipBreak (c : Cursor) : Option Cursor :=
  match c.rest with
  | [] => some c
  | x :: _ =>
    if isBreak x then do
      let c ← c.need 2
      match c.rest with
      | '\r' :: '\n' :: rest => return ⟨c.place.newline 2, rest⟩
      | rest => return ⟨c.place.newline 1, rest.tail⟩
    else some c

/-- Passes over blanks and a comment, to the end of the line. -/
def skipLineEnd (c : Cursor) : Option Cursor := do
  let c ← c.skipBlanks
  let c ← if c.startsWith '#' then c.skipToBreak else some c
  if c.rest.isEmpty || c.rest.head?.any isBreak then c.skipBreak else none

end Cursor

end Yaml

end ShapeFlow
