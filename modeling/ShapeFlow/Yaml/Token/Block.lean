/-
Block scalars: lines of text that share an indentation, kept as they are or
folded. A sign in the header says what becomes of the line breaks at the end.
-/
import ShapeFlow.Yaml.Cursor

namespace ShapeFlow

namespace Yaml

inductive Chomping where
  | clip
  | strip
  | keep
deriving DecidableEq

structure BlockHeader where
  chomping : Chomping := .clip
  /-- The indentation that is asked for, beyond that of the block around. -/
  increment : Option Nat := none

def chomping? : Char → Option Chomping
  | '+' => some .keep
  | '-' => some .strip
  | _ => none

/-- The sign for the line breaks at the end, if it comes next. -/
def blockChomping (c : Cursor) : Option (Option Chomping × Cursor) := do
  let c ← c.need 1
  match c.rest.head?.bind chomping? with
  | some chomping => return (some chomping, c.skip 1)
  | none => return (none, c)

/-- The sign for the indentation, if it comes next: a digit that is not zero. -/
def blockIncrement (c : Cursor) : Option (Option Nat × Cursor) := do
  let c ← c.need 1
  match c.rest.head?.filter Char.isDigit with
  | some '0' => none
  | some digit => return (some (digit.toNat - 48), c.skip 1)
  | none => return (none, c)

/-- The two signs of a header in either order. -/
def blockHeader? (c : Cursor) : Option (BlockHeader × Cursor) := do
  let (chomping, c) ← blockChomping c
  let (increment, c) ← blockIncrement c
  match chomping, increment with
  | none, some increment =>
    let (chomping, c) ← blockChomping c
    return (⟨chomping.getD .clip, some increment⟩, c)
  | chomping, increment => return (⟨chomping.getD .clip, increment⟩, c)

/-- A block scalar that is being read, characters in reverse. -/
structure BlockLines where
  text : List Char := []
  /-- The break that ended the last line, and those of empty lines after it. -/
  lastBreak : List Char := []
  emptyBreaks : List Char := []
  /-- Whether the last line started with a blank. -/
  blankStart : Bool := false
  /-- The indentation, once it is known, and the widest seen until then. -/
  indent : Option Nat := none
  widest : Nat := 0

namespace BlockLines

/-- Starts a line whose first character is blank or not: line breaks before it
are kept, or folded if neither of the lines starts with a blank. -/
def startLine (literal : Bool) (b : BlockLines) (blank : Bool) : BlockLines :=
  let fold := !literal && !b.blankStart && !blank && b.lastBreak = ['\n']
  let joined :=
    if fold then if b.emptyBreaks.isEmpty then [' '] else [] else b.lastBreak
  { b with
    text := b.emptyBreaks ++ joined ++ b.text
    lastBreak := []
    emptyBreaks := []
    blankStart := blank }

def finish (b : BlockLines) (chomping : Chomping) : List Char :=
  let text :=
    match chomping with
    | .strip => b.text
    | .clip => b.lastBreak ++ b.text
    | .keep => b.emptyBreaks ++ b.lastBreak ++ b.text
  text.reverse

end BlockLines

/-- Reads on: inside a line, or in the indentation before one. An indentation
that is not given is the widest of the first lines, at least `least`. -/
def blockFrom (literal : Bool) (least : Nat) :
    Bool → BlockLines → Place → List Char → Option (BlockLines × Cursor)
  | _, b, p, [] => some (b, ⟨p, []⟩)
  | true, b, p, '\r' :: '\n' :: rest => do
    let p ← p.need 2 ('\r' :: '\n' :: rest)
    let p ← (p.newline 2).need 1 rest
    blockFrom literal least false { b with lastBreak := ['\n'] } p rest
  | true, b, p, c :: rest =>
    if isBreak c then do
      let p ← p.need 2 (c :: rest)
      let p ← (p.newline 1).need 1 rest
      blockFrom literal least false { b with lastBreak := [breakText c] } p rest
    else do
      let p ← p.next.need 1 rest
      blockFrom literal least true { b with text := c :: b.text } p rest
  | false, b, p, '\r' :: '\n' :: rest => do
    let widest := max b.widest p.column
    let p ← p.need 2 ('\r' :: '\n' :: rest)
    let p ← (p.newline 2).need 1 rest
    blockFrom literal least false { b with emptyBreaks := '\n' :: b.emptyBreaks, widest } p rest
  | false, b, p, c :: rest =>
    let inIndent := b.indent.all (p.column < ·)
    if inIndent && c = ' ' then do
      let p ← p.next.need 1 rest
      blockFrom literal least false b p rest
    else if inIndent && c = '\t' then none
    else
      let widest := max b.widest p.column
      if isBreak c then do
        let p ← p.need 2 (c :: rest)
        let p ← (p.newline 1).need 1 rest
        blockFrom literal least false
          { b with emptyBreaks := breakText c :: b.emptyBreaks, widest } p rest
      else
        let indent := b.indent.getD (max widest least)
        if p.column = indent then do
          let b := { b with indent := some indent }.startLine literal (isBlank c)
          let p ← p.next.need 1 rest
          blockFrom literal least true { b with text := c :: b.text } p rest
        else some ({ b with indent := some indent }, ⟨p, c :: rest⟩)

/-- A block scalar at its indicator: its text and the place after it. The block
around it is indented to `around`, or by less than any column. -/
def blockScalar? (literal : Bool) (around : Int) (c : Cursor) : Option (List Char × Cursor) := do
  let (header, c) ← blockHeader? (c.skip 1)
  let c ← c.skipLineEnd
  let indent := header.increment.map fun n => (max around 0).toNat + n
  let least := (max (around + 1) 1).toNat
  let c ← c.need 1
  let (b, c) ← blockFrom literal least false { indent } c.place c.rest
  return (b.finish header.chomping, c)

end Yaml

end ShapeFlow
