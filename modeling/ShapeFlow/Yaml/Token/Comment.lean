/-
Comments and the other space between tokens. A comment behind a token ends with
its line. Lines of their own that hold comments may be indented by tabs, which
other lines may not, so they are passed over together; the next one is looked for
among the characters within reach.
-/
import ShapeFlow.Yaml.Cursor

namespace ShapeFlow

namespace Yaml

namespace Cursor

/-- How many characters are looked at for a comment. -/
def commentReach : Nat := 512

/-- How many characters stand between `start` and a comment, if they all are blanks,
or line breaks of one byte with `lines`; `n` of them are passed. -/
def commentAfter (lines : Bool) (start : List Char) :
    Nat → Place → List Char → Option (Option Nat × Place)
  | n, p, [] => do
    let p ← if n = commentReach then some p else p.need (n + 1) start
    return (none, p)
  | n, p, c :: rest =>
    if n = commentReach then some (none, p)
    else do
      let p ← p.need (n + 1) start
      if isBlank c || (lines && isPlainBreak c) then commentAfter lines start (n + 1) p rest
      else if lines && isBreak c && n + 1 < commentReach then return (none, ← p.need (n + 2) start)
      else return (if c = '#' then some n else none, p)

def skipLineComment (c : Cursor) : Option Cursor := do
  let (distance, place) ← commentAfter false c.rest 0 c.place c.rest
  match distance with
  | some n => (skip ⟨place, c.rest⟩ n).skipToBreak
  | none => return ⟨place, c.rest⟩

def skipLines : Nat → Place → List Char → Cursor
  | 0, p, cs => ⟨p, cs⟩
  | _, p, [] => ⟨p, []⟩
  | n + 1, p, '\r' :: '\n' :: rest => skipLines (n - 1) (p.newline 2) rest
  | n + 1, p, c :: rest =>
    if isBreak c then skipLines n (p.newline 1) rest else skipLines n p.next rest

/-- Passes over comments and the lines between them, up to the end of the last. -/
def skipComments : Nat → Cursor → Option Cursor
  | 0, _ => none
  | fuel + 1, c => do
    let c ← c.skipToBreak
    let (distance, place) ←
      -- Only after a line break of one byte another comment is looked for.
      if c.rest.head?.any isPlainBreak then commentAfter true c.rest 1 c.place c.rest.tail
      else do pure (none, ← c.place.need 2 c.rest)
    match distance with
    | some n => skipComments fuel (skipLines n place c.rest)
    | none => return ⟨place, c.rest⟩

/-- Passes over blanks, comments and line breaks, and tells whether a key may start
behind them. In the block context it may start on a new line, and tabs are no
indentation. After a byte order mark, one character at the start of a line does
not count. -/
def skipToToken (flow : Bool) : Nat → Bool → Cursor → Option (Cursor × Bool)
  | 0, _, _ => none
  | fuel + 1, keyAllowed, c => do
    let c ← c.need 1
    let c := if c.column = 0 && c.place.marked then c.skip 1 else c
    let c ← c.skipWhile fun x => x = ' ' || ((flow || !keyAllowed) && x = '\t')
    let c ← if c.startsWith '#' then c.skipComments (fuel + 1) else some c
    if c.rest.head?.any isBreak then skipToToken flow fuel (keyAllowed || !flow) (← c.skipBreak)
    else return (c, keyAllowed)

end Cursor

end Yaml

end ShapeFlow
