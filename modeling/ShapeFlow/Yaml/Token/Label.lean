/-
Names of anchors and aliases, tags, and the directives at the head of a document.
Escaped octets in a tag must have the form of UTF-8 characters.
-/
import ShapeFlow.Yaml.Cursor
import ShapeFlow.Yaml.Token

namespace ShapeFlow

namespace Yaml

def endsAnchor : List Char → Bool
  | [] => true
  | c :: _ =>
    isBlank c || isBreak c || c = '?' || c = ':' || c = ',' || c = ']' || c = '\x7d' || c = '%' ||
      c = '@' || c = '\x60'

def anchorName? (c : Cursor) : Option (Text × Cursor) := do
  let (name, c) ← (c.skip 1).span isWordChar
  if name.isEmpty || !endsAnchor c.rest then none else return (Text.ofChars name, c)

/-- A character of a tag, other than the percent sign of an escape. -/
def isTagChar (c : Char) : Bool :=
  isWordChar c || c = ';' || c = '/' || c = '?' || c = ':' || c = '@' || c = '&' || c = '=' ||
    c = '+' || c = '$' || c = ',' || c = '.' || c = '!' || c = '~' || c = '*' || c = '\'' ||
    c = '(' || c = ')' || c = '[' || c = ']'

/-- Reads the characters of a tag onto reversed octets; `missing` more octets of an
escaped character have to follow. -/
def tagFrom : Nat → List UInt8 → Place → List Char → Option (List UInt8 × Cursor)
  | 0, acc, p, [] => some (acc, ⟨p, []⟩)
  | _ + 1, _, _, [] => none
  | missing, acc, p, '%' :: rest =>
    match rest with
    | a :: b :: rest => do
      let p ← p.need 3 ('%' :: a :: b :: rest)
      let octet := (← hexNumber? [a, b]).toUInt8
      let p ← (p.plus 3).need 1 rest
      match missing with
      | 0 =>
        match octets octet with
        | 0 => none
        | more + 1 => tagFrom more (octet :: acc) p rest
      | more + 1 =>
        if octet &&& 0xC0 = 0x80 then tagFrom more (octet :: acc) p rest else none
    | _ => none
  | 0, acc, p, c :: rest =>
    if isTagChar c then do
      let p ← p.next.need 1 rest
      tagFrom 0 (c.toNat.toUInt8 :: acc) p rest
    else some (acc, ⟨p, c :: rest⟩)
  | _ + 1, _, _, _ :: _ => none

def tagText? (c : Cursor) : Option (Text × Cursor) := do
  let c ← c.need 1
  let (bytes, c) ← tagFrom 0 [] c.place c.rest
  return (⟨bytes.reverse⟩, c)

def tagTextNonempty? (c : Cursor) : Option (Text × Cursor) :=
  (tagText? c).filter fun (t, _) => !t.isEmpty

/-- An exclamation mark and a name, and whether a second mark closes it. -/
def tagHandle? (c : Cursor) : Option (List Char × Bool × Cursor) := do
  let c ← c.need 1
  if c.startsWith '!' then
    let (name, c) ← (c.skip 1).span isWordChar
    if c.startsWith '!' then return (name, true, c.skip 1) else return (name, false, c)
  else none

def handleText (name : List Char) (closed : Bool) : Text :=
  Text.ofChars ('!' :: name ++ if closed then ['!'] else [])

/-- A tag as handle and suffix, with the place after it; a tag in full has no
handle. -/
def tagParts? (c : Cursor) : Option (Text × Text × Cursor) := do
  let c ← c.need 2
  match c.rest with
  | '!' :: '<' :: _ =>
    let (suffix, c) ← tagTextNonempty? (c.skip 2)
    if c.startsWith '>' then return (Text.empty, suffix, c.skip 1) else none
  | _ =>
    let (name, closed, after) ← tagHandle? c
    if closed then
      let (suffix, c) ← tagTextNonempty? after
      return (handleText name closed, suffix, c)
    else
      let (rest, c) ← tagText? after
      let suffix := Text.ofChars name ++ rest
      -- A lone mark is kept as a suffix: it asks for no tag.
      if suffix.isEmpty then return (Text.empty, "!", c) else return ("!", suffix, c)

def tag? (c : Cursor) : Option (Text × Text × Cursor) := do
  let (handle, suffix, c) ← tagParts? c
  let c ← c.need 1
  if endsWord c.rest then return (handle, suffix, c) else none

def versionNumber? (c : Cursor) : Option (Nat × Cursor) := do
  let (digits, c) ← c.span Char.isDigit
  if digits.isEmpty || 2 < digits.length then none
  else return (digits.foldl (fun n d => 10 * n + (d.toNat - 48)) 0, c)

def versionDirective? (c : Cursor) : Option (TokenKind × Cursor) := do
  let (major, c) ← versionNumber? (← c.skipBlanks)
  if c.startsWith '.' then
    let (minor, c) ← versionNumber? (c.skip 1)
    return (.version major minor, c)
  else none

def tagDirective? (c : Cursor) : Option (TokenKind × Cursor) := do
  let (name, closed, c) ← tagHandle? (← c.skipBlanks)
  let c ← c.need 1
  if (!closed && !name.isEmpty) || !startsBlank c.rest then none
  else
    let (expansion, c) ← tagTextNonempty? (← c.skipBlanks)
    let c ← c.need 1
    if endsWord c.rest then return (.tagShort (handleText name closed) expansion, c) else none

/-- A directive at its percent sign, to the end of its line. -/
def directive? (c : Cursor) : Option (TokenKind × Cursor) := do
  let (name, c) ← (c.skip 1).span isWordChar
  if name.isEmpty || !endsWord c.rest then none
  else
    let (kind, c) ←
      if name = ['Y', 'A', 'M', 'L'] then versionDirective? c
      else if name = ['T', 'A', 'G'] then tagDirective? c
      else none
    return (kind, ← c.skipLineEnd)

end Yaml

end ShapeFlow
