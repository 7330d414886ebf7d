/-
Quoted scalars. Lines are folded as in plain scalars; in double quotes there are
escapes, and an escaped line break is nothing.
-/
import ShapeFlow.Yaml.Token.Plain

namespace ShapeFlow

namespace Yaml

/-- Characters that one letter stands for after a backslash. -/
def escaped? : Char → Option Char
  | '0' => some '\x00'
  | 'a' => some '\x07'
  | 'b' => some '\x08'
  | 't' => some '\t'
  | '\t' => some '\t'
  | 'n' => some '\n'
  | 'v' => some '\x0b'
  | 'f' => some '\x0c'
  | 'r' => some '\r'
  | 'e' => some '\x1b'
  | ' ' => some ' '
  | '"' => some '"'
  | '\'' => some '\''
  | '\\' => some '\\'
  | 'N' => some '\u0085'
  | '_' => some '\u00a0'
  | 'L' => some '\u2028'
  | 'P' => some '\u2029'
  | _ => none

def codedChar? (digits : List Char) : Option Char :=
  (hexNumber? digits).bind fun n => if n.isValidChar then some (Char.ofNat n) else none

/-- The character of an escape with a code at a place, and the place after it. -/
def codedEscape? (digits : List Char) (p : Place) (rest : List Char) : Option (Char × Place) := do
  let p ← (p.plus 2).need digits.length digits
  let c ← codedChar? digits
  let p ← (p.plus digits.length).need 2 rest
  return (c, p)

def quotedFrom (single : Bool) : Bool → Folding → Place → List Char → Option (List Char × Cursor)
  | _, _, _, [] => none
  | _, f, p, '\r' :: '\n' :: rest => do
    let p ← p.need 2 ('\r' :: '\n' :: rest)
    let p ← (p.newline 2).need 1 rest
    quotedFrom single true (f.addBreak '\n') p rest
  | gap, f, p, c :: rest =>
    if isBreak c then do
      let p ← p.need 2 (c :: rest)
      let p ← (p.newline 1).need 1 rest
      quotedFrom single true (f.addBreak c) p rest
    else if isBlank c then do
      let p ← p.next.need 1 rest
      quotedFrom single true (f.addBlank c) p rest
    else do
      let p ← if gap then p.need 4 (c :: rest) else some p
      if gap && startsDocumentMark p.mark (c :: rest) then none
      else if single && c = '\'' then
        match rest with
        | '\'' :: rest =>
          let p ← (p.plus 2).need 2 rest
          quotedFrom single false (f.add '\'') p rest
        | _ => return (f.close.text.reverse, ⟨p.next, rest⟩)
      else if !single && c = '"' then return (f.close.text.reverse, ⟨p.next, rest⟩)
      else if !single && c = '\\' then
        match rest with
        | '\r' :: '\n' :: rest =>
          let p ← p.need 3 ('\\' :: '\r' :: '\n' :: rest)
          let p ← (p.next.newline 2).need 1 rest
          quotedFrom single (rest.head? != some '"') { f.close with broken := true } p rest
        | 'x' :: a :: b :: rest =>
          let (c, p) ← codedEscape? [a, b] p rest
          quotedFrom single false (f.add c) p rest
        | 'u' :: a :: b :: c :: d :: rest =>
          let (c, p) ← codedEscape? [a, b, c, d] p rest
          quotedFrom single false (f.add c) p rest
        | 'U' :: a :: b :: c :: d :: a' :: b' :: c' :: d' :: rest =>
          let (c, p) ← codedEscape? [a, b, c, d, a', b', c', d'] p rest
          quotedFrom single false (f.add c) p rest
        | x :: rest =>
          if isBreak x then
            let p ← p.need 3 ('\\' :: x :: rest)
            let p ← (p.next.newline 1).need 1 rest
            -- The gap after an escaped break is over if the closing quote follows.
            quotedFrom single (rest.head? != some '"') { f.close with broken := true } p rest
          else
            let c ← escaped? x
            let p ← (p.plus 2).need 2 rest
            quotedFrom single false (f.add c) p rest
        | [] => none
      else
        let p ← p.next.need 2 rest
        quotedFrom single false (f.add c) p rest

/-- A quoted scalar at its opening quote: its text and the place after it. -/
def quotedScalar? (single : Bool) (c : Cursor) : Option (List Char × Cursor) := do
  let c ← (c.skip 1).need 4
  quotedFrom single false {} c.place c.rest

end Yaml

end ShapeFlow
