/-
From characters to tokens. Indentation opens and closes blocks. A node may turn
out to be the key of a mapping only at the colon after it, so places where a key
may have started are remembered, one for each open flow collection; at the colon
the key token is put in there.

Tokens are read as they are asked for: two more than the one that is looked at,
and further as long as a key may start there. What stands behind them may be
malformed.
-/
import ShapeFlow.Yaml.Token.Block
import ShapeFlow.Yaml.Token.Comment
import ShapeFlow.Yaml.Token.Label
import ShapeFlow.Yaml.Token.Quoted
import Std.Data.TreeMap

namespace ShapeFlow

namespace Yaml

/-- A place where a key may have started. -/
structure SimpleKey where
  /-- Whether a key still can start there. -/
  possible : Bool := false
  /-- Whether nothing but a key can stand there. -/
  required : Bool := false
  /-- How many tokens there were before it. -/
  number : Nat := 0
  mark : Mark := {}

/-- A key ends on its line, within 1024 characters. -/
def SimpleKey.reaches (k : SimpleKey) (m : Mark) : Bool :=
  m.line ≤ k.mark.line && m.index ≤ k.mark.index + 1024

structure Lexer where
  cursor : Cursor
  /-- The tokens that are read ahead, and how many were taken before them. -/
  queue : List Token := [⟨.streamStart, 0⟩]
  taken : Nat := 0
  /-- The column of the innermost block, and those of the blocks around it. -/
  indent : Int := -1
  indents : List Int := []
  /-- How many blocks are open. -/
  blocks : Nat := 0
  /-- The possible key of the block context and of each open flow collection,
  the innermost last. -/
  keys : Array SimpleKey := #[{}]
  /-- The levels at which keys may start with a token, by its number. -/
  levels : Std.TreeMap Nat Nat := {}
  /-- Whether a key may start here. -/
  keyAllowed : Bool := true
  /-- No less than the number of characters. -/
  size : Nat

def Lexer.ofSource (s : Source) : Lexer := { cursor := .ofSource s, size := s.chars.length }

def nestingLimit : Nat := 10000

namespace Lexer

def mark (s : Lexer) : Mark := s.cursor.mark

def column (s : Lexer) : Int := s.cursor.mark.column

def inFlow (s : Lexer) : Bool := 1 < s.keys.size

def count (s : Lexer) : Nat := s.taken + s.queue.length

def emit (s : Lexer) (kind : TokenKind) (line : Nat) : Lexer :=
  { s with queue := s.queue ++ [⟨kind, line⟩] }

/-- Puts a token in after the first `number` tokens, or last if they are taken. -/
def emitAt (s : Lexer) (number : Nat) (kind : TokenKind) (line : Nat) : Lexer :=
  if number < s.taken then s.emit kind line
  else
    let (before, after) := s.queue.splitAt (number - s.taken)
    { s with queue := before ++ ⟨kind, line⟩ :: after }

/-- Opens a block at a column that is deeper than the block around it. -/
def openBlock (s : Lexer) (column : Int) (number : Nat) (kind : TokenKind) (line : Nat) :
    Option Lexer :=
  if s.inFlow || column ≤ s.indent then some s
  else if nestingLimit ≤ s.blocks then none
  else
    let s := { s with indent := column, indents := s.indent :: s.indents, blocks := s.blocks + 1 }
    some (s.emitAt number kind line)

def closeFrom (column : Int) (line : Nat) : List Int → Lexer → Lexer
  | [], s => s
  | outer :: rest, s =>
    if column < s.indent then
      let s := { s with indent := outer, indents := rest, blocks := s.blocks - 1 }
      closeFrom column line rest (s.emit .blockEnd line)
    else s

def closeBlocks (s : Lexer) (column : Int) (line : Nat) : Lexer :=
  if s.inFlow then s else closeFrom column line s.indents s

def level (s : Lexer) : Nat := s.keys.size - 1

def key (s : Lexer) : SimpleKey := s.keys.back?.getD {}

def setKey (s : Lexer) (k : SimpleKey) : Lexer :=
  { s with keys := s.keys.setIfInBounds s.level k }

/-- Gives up the possible key; a required one has to be a key. -/
def dropKey (s : Lexer) : Option Lexer :=
  let k := s.key
  if !k.possible then some s
  else if k.required then none
  else
    let s := s.setKey { k with possible := false }
    some { s with levels := s.levels.erase k.number }

def saveKey (s : Lexer) : Option Lexer :=
  if s.keyAllowed then do
    let k : SimpleKey := ⟨true, !s.inFlow && s.indent = s.column, s.count, s.mark⟩
    let s := (← s.dropKey).setKey k
    return { s with levels := s.levels.insert k.number s.level }
  else some s

/-- Whether a key can still start at a level. One that is not on this line any more
is given up, and a required one has to be a key. -/
def checkKey (s : Lexer) (level : Nat) : Option (Bool × Lexer) := do
  let k ← s.keys[level]?
  if !k.possible then return (false, s)
  else if k.reaches s.mark then return (true, s)
  else if k.required then none
  else return (false, { s with keys := s.keys.setIfInBounds level { k with possible := false } })

def skipToToken (s : Lexer) : Option Lexer := do
  let (cursor, keyAllowed) ← s.cursor.skipToToken s.inFlow (s.size + 2) s.keyAllowed
  return { s with cursor, keyAllowed }

/-- Passes over a comment on the line of the last token. What follows a dash, or a
scalar that ran to the end of its line, is left for the way to the next token. -/
def skipLineComment (s : Lexer) : Option Lexer := do
  let skipped := do return { s with cursor := ← s.cursor.skipLineComment }
  match s.queue.getLast? with
  | some ⟨.blockEntry, _⟩ => return s
  | some ⟨.scalar _ _, _⟩ => if s.keyAllowed then return s else skipped
  | _ => skipped

/-- The end of the stream closes all blocks. It starts a line of its own. -/
def endStream (s : Lexer) : Option Lexer := do
  let m := s.mark
  let m := if m.column = 0 then m else ⟨m.index, m.line + 1, 0⟩
  let s := { s with cursor := { s.cursor with place := { s.cursor.place with mark := m } } }
  let s ← (s.closeBlocks (-1) m.line).dropKey
  return { s with keyAllowed := false }.emit .streamEnd m.line

/-- Document marks and directives close all blocks. -/
def startDocument (s : Lexer) : Option Lexer := do
  let s ← (s.closeBlocks (-1) s.mark.line).dropKey
  return { s with keyAllowed := false }

def documentMark (s : Lexer) (kind : TokenKind) : Option Lexer := do
  let s ← s.startDocument
  return { s with cursor := s.cursor.skip 3 }.emit kind s.mark.line

def directive (s : Lexer) : Option Lexer := do
  let s ← s.startDocument
  let (kind, cursor) ← directive? s.cursor
  return { s with cursor }.emit kind s.mark.line

def indicator (s : Lexer) (kind : TokenKind) : Lexer :=
  { s with cursor := s.cursor.skip 1 }.emit kind s.mark.line

/-- The level of a collection starts with a key that is not possible, as if it
were that of the collection. -/
def flowStart (s : Lexer) (kind : TokenKind) : Option Lexer := do
  let s ← s.saveKey
  if nestingLimit < s.keys.size then none
  else
    let k : SimpleKey := { number := s.count, mark := s.mark }
    return { s with keys := s.keys.push k, keyAllowed := true }.indicator kind

/-- The end of a collection forgets the key of its level. If no key was seen there,
this is where the collection itself starts. -/
def flowEnd (s : Lexer) (kind : TokenKind) : Option Lexer := do
  let s ← s.dropKey
  let s :=
    if s.inFlow then { s with levels := s.levels.erase s.key.number, keys := s.keys.pop } else s
  return { s with keyAllowed := false }.indicator kind

def flowEntry (s : Lexer) : Option Lexer := do
  let s ← s.dropKey
  return { s with keyAllowed := true }.indicator .flowEntry

/-- A dash is an entry of a block sequence, which it may open. -/
def blockEntry (s : Lexer) : Option Lexer := do
  if !s.inFlow && !s.keyAllowed then none
  else
    let s ← s.openBlock s.column s.count .blockSequence s.mark.line
    let s ← s.dropKey
    return { s with keyAllowed := true }.indicator .blockEntry

/-- A question mark starts a key of any kind. -/
def explicitKey (s : Lexer) : Option Lexer := do
  if !s.inFlow && !s.keyAllowed then none
  else
    let s ← s.openBlock s.column s.count .blockMapping s.mark.line
    let s ← s.dropKey
    return { s with keyAllowed := !s.inFlow }.indicator .key

def markedValue (s : Lexer) : Option Lexer := do
  if !s.inFlow && !s.keyAllowed then none
  else
    let s ← s.openBlock s.column s.count .blockMapping s.mark.line
    return { s with keyAllowed := !s.inFlow }.indicator .value

/-- A colon follows a key: one that may have started on this line, or one that
was marked as such. -/
def value (s : Lexer) : Option Lexer := do
  let (valid, s) ← s.checkKey s.level
  if valid then
    let k := s.key
    let s := s.emitAt k.number .key k.mark.line
    let s ← s.openBlock k.mark.column k.number .blockMapping k.mark.line
    let s := s.setKey { k with possible := false }
    return { s with levels := s.levels.erase k.number, keyAllowed := false }.indicator .value
  else s.markedValue

/-- An anchor, an alias or a tag may start a key. -/
def label (s : Lexer) (read : Cursor → Option (TokenKind × Cursor)) : Option Lexer := do
  let s ← s.saveKey
  let (kind, cursor) ← read s.cursor
  return { s with cursor, keyAllowed := false }.emit kind s.mark.line

def blockScalar (s : Lexer) (literal : Bool) : Option Lexer := do
  let s ← s.dropKey
  let (text, cursor) ← blockScalar? literal s.indent s.cursor
  return { s with cursor, keyAllowed := true }.emit (.scalar (Text.ofChars text) false) s.mark.line

def quotedScalar (s : Lexer) (single : Bool) : Option Lexer := do
  let s ← s.saveKey
  let (text, cursor) ← quotedScalar? single s.cursor
  return { s with cursor, keyAllowed := false }.emit (.scalar (Text.ofChars text) false) s.mark.line

def plainScalar (s : Lexer) : Option Lexer := do
  let s ← s.saveKey
  let (text, broken, cursor) ← plainScalar? s.inFlow (s.indent + 1).toNat s.cursor
  return { s with cursor, keyAllowed := broken }.emit (.scalar (Text.ofChars text) true) s.mark.line

def isIndicator (c : Char) : Bool :=
  c = '-' || c = '?' || c = ':' || c = ',' || c = '[' || c = ']' || c = '\x7b' || c = '\x7d' ||
    c = '#' || c = '&' || c = '*' || c = '!' || c = '|' || c = '>' || c = '\'' || c = '"' ||
    c = '%' || c = '@' || c = '\x60'

def startsPlain (flow : Bool) (c : Char) (rest : List Char) : Bool :=
  !(isBlank c || isBreak c || isIndicator c) || (c = '-' && !startsBlank rest) ||
    (!flow && (c = '?' || c = ':') && !endsWord rest)

def content (s : Lexer) (c : Char) (rest : List Char) : Option Lexer :=
  if c = '[' then s.flowStart .flowSequence
  else if c = '\x7b' then s.flowStart .flowMapping
  else if c = ']' then s.flowEnd .flowSequenceEnd
  else if c = '\x7d' then s.flowEnd .flowMappingEnd
  else if c = ',' then s.flowEntry
  else if c = '-' && endsWord rest then s.blockEntry
  else if c = '?' && (s.inFlow || endsWord rest) then s.explicitKey
  else if c = ':' && (s.inFlow || endsWord rest) then s.value
  else if c = '*' then s.label fun c => (anchorName? c).map fun (name, c) => (.reference name, c)
  else if c = '&' then s.label fun c => (anchorName? c).map fun (name, c) => (.anchor name, c)
  else if c = '!' then s.label fun c => (tag? c).map fun (handle, suffix, c) => (.tag handle suffix, c)
  else if c = '|' && !s.inFlow then s.blockScalar true
  else if c = '>' && !s.inFlow then s.blockScalar false
  else if c = '\'' then s.quotedScalar true
  else if c = '"' then s.quotedScalar false
  else if startsPlain s.inFlow c rest then s.plainScalar
  else none

/-- Reads one more token, or more if blocks end before it. At the end of the
stream there are as many ends as are asked for. -/
def next (s : Lexer) : Option Lexer := do
  let s := { s with cursor := ← s.cursor.need 1 }
  let line := s.mark.line
  let s ← s.skipToToken
  let s := s.closeBlocks s.column line
  let s := { s with cursor := ← s.cursor.need 4 }
  match s.cursor.rest with
  | [] => s.endStream
  | c :: rest =>
    if s.mark.column = 0 && c = '%' then s.directive
    else if startsDocumentMark s.mark (c :: rest) then
      s.documentMark (if c = '-' then .documentStart else .documentEnd)
    else (← s.content c rest).skipLineComment

/-- Whether a token has to be read before the first of the queue can be taken. -/
def needsNext (s : Lexer) : Option (Bool × Lexer) :=
  if s.queue.length ≤ 2 then some (true, s)
  else
    match s.levels[s.taken]? with
    | some level => s.checkKey level
    | none => some (false, s)

/-- Reads ahead; every step passes a character or finds the end of the stream. -/
def readyFrom : Nat → Lexer → Option Lexer
  | 0, _ => none
  | fuel + 1, s => do
    let (needed, s) ← s.needsNext
    if needed then readyFrom fuel (← s.next) else return s

def ready (s : Lexer) : Option Lexer := s.readyFrom (s.size + 4)

def take (s : Lexer) : Lexer := { s with queue := s.queue.tail, taken := s.taken + 1 }

end Lexer

end Yaml

end ShapeFlow
