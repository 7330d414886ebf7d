/-
Plain scalars: words of text without quotes, over one or more lines. A single
line break between words is a blank, and of more breaks all but the first are
kept.
-/
import ShapeFlow.Yaml.Cursor

namespace ShapeFlow

namespace Yaml

/-- Text that is being put together from words and the gaps between them.
Characters are kept in reverse. -/
structure Folding where
  text : List Char := []
  blanks : List Char := []
  /-- The first line break of the gap, and those after it. -/
  firstBreak : List Char := []
  moreBreaks : List Char := []
  /-- Whether the gap goes over a line break. -/
  broken : Bool := false

namespace Folding

def foldBreaks (f : Folding) : List Char :=
  if f.firstBreak = ['\n'] then
    if f.moreBreaks.isEmpty then ' ' :: f.text else f.moreBreaks ++ f.text
  else f.moreBreaks ++ f.firstBreak ++ f.text

/-- Ends a gap: its blanks or its line breaks become part of the text. -/
def close (f : Folding) : Folding :=
  if f.broken then { text := f.foldBreaks } else { text := f.blanks ++ f.text }

def add (f : Folding) (c : Char) : Folding :=
  let f := f.close
  { f with text := c :: f.text }

/-- Adds a blank to the gap; after a line break it does not count. -/
def addBlank (f : Folding) (c : Char) : Folding :=
  if f.broken then f else { f with blanks := c :: f.blanks }

def addBreak (f : Folding) (c : Char) : Folding :=
  if f.broken then { f with moreBreaks := breakText c :: f.moreBreaks }
  else { f with blanks := [], firstBreak := [breakText c], broken := true }

end Folding

/-- Characters that end a plain scalar inside a flow collection. -/
def isFlowIndicator (c : Char) : Bool :=
  c = ',' || c = '?' || c = '[' || c = ']' || c = '\x7b' || c = '\x7d'

/-- Where a plain scalar ends that comes upon this word. -/
def endsPlain (flow : Bool) (c : Char) (rest : List Char) : Bool :=
  (c = ':' && endsWord rest) || (flow && isFlowIndicator c)

/-- Where a gap ends the scalar: at a lower column. -/
def gapEnds (flow : Bool) (indent : Nat) (p : Place) : Bool := !flow && p.column < indent

def plainFrom (flow : Bool) (indent : Nat) :
    Bool → Folding → Place → List Char → Option (Folding × Cursor)
  | gap, f, p, [] => do
    let p ← if gap && !gapEnds flow indent p then p.need 4 [] else some p
    return (f, ⟨p, []⟩)
  | _, f, p, '\r' :: '\n' :: rest => do
    let p ← p.need 2 ('\r' :: '\n' :: rest)
    let p ← (p.newline 2).need 1 rest
    plainFrom flow indent true (f.addBreak '\n') p rest
  | gap, f, p, c :: rest =>
    if isBreak c then do
      let p ← p.need 2 (c :: rest)
      let p ← (p.newline 1).need 1 rest
      plainFrom flow indent true (f.addBreak c) p rest
    else if isBlank c then
      -- A tab is no indentation.
      if f.broken && p.column < indent && c = '\t' then none
      else do
        let p ← p.next.need 1 rest
        plainFrom flow indent true (f.addBlank c) p rest
    else if gap && gapEnds flow indent p then some (f, ⟨p, c :: rest⟩)
    else do
      let p ← if gap then p.need 4 (c :: rest) else some p
      if gap && (startsDocumentMark p.mark (c :: rest) || c = '#') then return (f, ⟨p, c :: rest⟩)
      else if endsPlain flow c rest then return (f, ⟨p, c :: rest⟩)
      else
        let p ← p.next.need 2 rest
        plainFrom flow indent false (f.add c) p rest

/-- A plain scalar: its text, whether a line break follows it, and the place
after it. Continuation lines have at least `indent` columns. -/
def plainScalar? (flow : Bool) (indent : Nat) (c : Cursor) : Option (List Char × Bool × Cursor) :=
  (plainFrom flow indent false {} c.place c.rest).map fun (f, after) =>
    (f.text.reverse, f.broken, after)

end Yaml

end ShapeFlow
