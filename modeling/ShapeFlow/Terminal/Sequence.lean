/-
A text as sequences: a printed character, a cluster, a control, or a whole control
sequence. Two kinds of sequences are understood: commands that change the pen, and
links.
-/
import ShapeFlow.Terminal.Pen
import ShapeFlow.Text.Cluster
import ShapeFlow.Text.Split

namespace ShapeFlow

namespace Terminal

structure Link where
  target : Text := .empty
  attributes : Text := .empty
deriving DecidableEq

/-- The sequence that sets a link; an empty one ends it. -/
def Link.text (l : Link) : Text := "\x1b]8;" ++ l.attributes ++ ";" ++ l.target ++ "\x07"

inductive Request where
  | nothing
  | pen (parameters : List Parameter)
  | link (l : Link)

structure Sequence where
  bytes : List UInt8
  width : Nat := 0
  request : Request := .nothing

namespace Sequence

def isDigit (b : UInt8) : Bool := 0x30 ≤ b && b ≤ 0x39

def number (digits : List UInt8) : Nat := digits.foldl (fun n d => 10 * n + (d.toNat - 48)) 0

/-- Parameters between semicolons and colons; the colon ties a parameter to the
next one. `digits` are those of the current parameter, in reverse. -/
def parametersFrom : List UInt8 → List UInt8 → List Parameter
  | digits, [] => [⟨if digits.isEmpty then none else some (number digits.reverse), false⟩]
  | digits, b :: rest =>
    if isDigit b then parametersFrom (b :: digits) rest
    else
      ⟨if digits.isEmpty then none else some (number digits.reverse), b = 0x3A⟩ ::
        parametersFrom [] rest

def parameters (bytes : List UInt8) : List Parameter :=
  if bytes.isEmpty then [] else parametersFrom [] bytes

/-- What a string to the operating system asks for: `8`, attributes and a target
make a link. -/
def systemRequest (data : List UInt8) : Request :=
  match (Text.mk data).split 0x3B with
  | [command, attributes, target] =>
    let digits := command.bytes.takeWhile isDigit
    if !digits.isEmpty && number digits = 8 then .link ⟨target, attributes⟩ else .nothing
  | _ => .nothing

/-- The inside of a string and the bytes that end it. A string to the operating
system may end with a bell. -/
def stringBody (system : Bool) : List UInt8 → List UInt8 × List UInt8
  | [] => ([], [])
  | b :: rest =>
    if b = 0x07 && system || b = 0x9C then ([], [b])
    else if b = 0x18 || b = 0x1A then ([], [])
    else if b = 0x1B then ([], if rest.head? = some 0x5C then [b, 0x5C] else [])
    else
      let (body, ending) := stringBody system rest
      (b :: body, ending)

def string (head : List UInt8) (system : Bool) (bytes : List UInt8) : Sequence :=
  let (body, ending) := stringBody system bytes
  { bytes := head ++ body ++ ending
    request := if system then systemRequest body else .nothing }

/-- A command after its head: marks, parameters, more bytes and the name. The
name of a device string starts its inside. -/
def command (head : List UInt8) (device plain : Bool) (bytes : List UInt8) : Sequence :=
  let marks := bytes.takeWhile fun b => 0x3C ≤ b && b ≤ 0x3F
  let bytes := bytes.drop marks.length
  let given := bytes.takeWhile fun b => 0x30 ≤ b && b ≤ 0x3B
  let bytes := bytes.drop given.length
  let more := bytes.takeWhile fun b => 0x20 ≤ b && b ≤ 0x2F
  let start := head ++ marks ++ given ++ more
  match bytes.drop more.length with
  | [] => ⟨start, 0, .nothing⟩
  | b :: rest =>
    if 0x40 ≤ b && b ≤ 0x7E then
      if device then string (start ++ [b]) false rest
      else
        { bytes := start ++ [b]
          request :=
            if plain && b = 0x6D && marks.isEmpty && more.isEmpty then .pen (parameters given)
            else .nothing }
    else ⟨start, 0, .nothing⟩

/-- A sequence after an escape; bytes may stand between the escape and what tells
the kind of the sequence. -/
def escape (bytes : List UInt8) : Sequence :=
  let more := bytes.takeWhile fun b => 0x20 ≤ b && b ≤ 0x2F
  let start := 0x1B :: more
  let plain := more.isEmpty
  match bytes.drop more.length with
  | [] => ⟨start, 0, .nothing⟩
  | b :: rest =>
    if b = 0x5B then command (start ++ [b]) false plain rest
    else if b = 0x50 then command (start ++ [b]) plain false rest
    else if b = 0x5D then string (start ++ [b]) plain rest
    else if b = 0x58 || b = 0x5E || b = 0x5F then string (start ++ [b]) false rest
    else if 0x30 ≤ b && b ≤ 0x7E then ⟨start ++ [b], 0, .nothing⟩
    else ⟨start, 0, .nothing⟩

def first (b : UInt8) (rest : List UInt8) : Sequence :=
  if b = 0x1B then escape rest
  else if b = 0x9B then command [b] false true rest
  else if b = 0x90 then command [b] true false rest
  else if b = 0x9D then string [b] true rest
  else if b = 0x98 || b = 0x9E || b = 0x9F then string [b] false rest
  else if b < 0x20 || b = 0x7F then ⟨[b], 0, .nothing⟩
  else if b < 0x7F then ⟨[b], 1, .nothing⟩
  else if b < 0xC0 then ⟨[b], 0, .nothing⟩
  else
    let (width, after) := Cluster.read (b :: rest)
    ⟨(b :: rest).take ((b :: rest).length - after.length), width, .nothing⟩

end Sequence

def sequencesFrom : Nat → List UInt8 → List Sequence
  | 0, _ => []
  | _, [] => []
  | fuel + 1, b :: rest =>
    let s := Sequence.first b rest
    s :: sequencesFrom fuel ((b :: rest).drop s.bytes.length)

def sequences (t : Text) : List Sequence := sequencesFrom t.length t.bytes

end Terminal

end ShapeFlow
