/-
Reading nodes as values of a known type. A node that does not fit is noted and
passed over, so that all such faults of a document are found; only what makes
the document as a whole unusable halts the reading. A null fits every type and
gives nothing.

A mapping may take over entries of other mappings: its own entries count first,
then those of the others in order.

Aliases can make a short document stand for a huge one. Every node that is read is
counted, and a document is unusable if too large a share of what is read stands
behind aliases.
-/
import ShapeFlow.Text.Base64
import ShapeFlow.Text.Quoted
import ShapeFlow.Yaml.Node

namespace ShapeFlow

namespace Yaml

inductive Misfit where
  /-- A node that is not of the type asked for. -/
  | type (line : Nat) (tag value : Text) (target : Text)
  /-- A key that a mapping has already. -/
  | key (line : Nat) (name : Text) (first : Nat)
  /-- A field that another key has set already. -/
  | field (line : Nat) (name : Text) (target : Text)

/-- Long texts are cut after seven bytes. -/
def shown (value : Text) : Text :=
  if 10 < value.length then " \x60" ++ ⟨value.bytes.take 7⟩ ++ "...\x60" else " \x60" ++ value ++ "\x60"

def Misfit.message : Misfit → Text
  | .type line tag value target =>
    "line " ++ Text.ofNat line ++ ": cannot unmarshal " ++ shortTag tag ++
      (if tag == "!!seq" || tag == "!!map" then value else shown value) ++ " into " ++ target
  | .key line name first =>
    "line " ++ Text.ofNat line ++ ": mapping key " ++ name.quote ++ " already defined at line " ++
      Text.ofNat first
  | .field line name target =>
    "line " ++ Text.ofNat line ++ ": field " ++ name ++ " already set in type " ++ target

inductive Halt (ε : Type) where
  | malformed
  | refused (e : ε)

structure Progress where
  misfits : List Misfit := []
  /-- How many nodes were read, and how many of them behind an alias. -/
  visited : Nat := 0
  aliased : Nat := 0
  /-- How many aliases lead to the node that is being read. -/
  depth : Nat := 0

/-- Whether too many nodes stand behind aliases: more than 99 of 100 up to 400000
nodes, more than 10 of 100 from 4000000 nodes on, and in between a share that falls
evenly. -/
def Progress.isExcessive (p : Progress) : Bool :=
  100 < p.aliased && 1000 < p.visited &&
    if p.visited ≤ 400000 then 99 * p.visited < 100 * p.aliased
    else if 4000000 ≤ p.visited then 10 * p.visited < 100 * p.aliased
    else (99 * 3600000 - 89 * (p.visited - 400000)) * p.visited < 100 * 3600000 * p.aliased

abbrev Decode (ε : Type) := StateT Progress (Except (Halt ε))

variable {ε : Type}

namespace Decode

def misfits (ms : List Misfit) : Decode ε Unit := modify fun p => { p with misfits := p.misfits ++ ms }

def misfit (m : Misfit) : Decode ε Unit := misfits [m]

def malformed {α : Type} : Decode ε α := throw .malformed

def refuse {α : Type} (e : ε) : Decode ε α := throw (.refused e)

def visit : Decode ε Unit := do
  let p ← get
  let aliased := if p.depth = 0 then p.aliased else p.aliased + 1
  let p := { p with visited := p.visited + 1, aliased }
  set p
  if p.isExcessive then malformed

def behind {α : Type} (read : Decode ε α) : Decode ε α := do
  modify fun p => { p with depth := p.depth + 1 }
  let a ← read
  modify fun p => { p with depth := p.depth - 1 }
  return a

end Decode

def Node.misfit (n : Node) (target : Text) : Misfit := .type n.line n.tag n.value target

/-- The later of two keys that are written alike, for each such pair. -/
def repeatedKeys : List (Node × Node) → List Misfit
  | [] => []
  | (key, _) :: rest =>
    (rest.filter fun (other, _) => key.sameKey other).map
      (fun (other, _) => .key other.line other.value key.line) ++ repeatedKeys rest

/-- What a scalar gives: nothing for null. -/
inductive ScalarValue where
  | null
  | text (t : Text)
  | resolved (r : Resolved) (t : Text)

def scalarValue? (tag value : Text) : Option ScalarValue :=
  if tag == "!!str" then some (.text value)
  else if tag == "!!binary" then value.ofBase64?.map .text
  else
    match resolveAs tag value with
    | none => none
    | some .null => some .null
    | some .text => some (.text value)
    | some r => some (.resolved r value)

/-- A node that is no scalar is of no scalar type; repeated keys come first. -/
def collectionMisfits (n : Node) (target : Text) : List Misfit :=
  match n with
  | .mapping _ entries _ =>
    let repeated := repeatedKeys entries
    if repeated.isEmpty then [n.misfit target] else repeated
  | _ => [n.misfit target]

/-- A scalar where a collection is asked for: null, or a misfit. -/
def noScalar (tag value : Text) (misfit : Misfit) : Decode ε Unit :=
  match scalarValue? tag value with
  | none => .malformed
  | some .null => pure ()
  | some _ => .misfit misfit

namespace Document

variable (d : Document)

/-- Reads a node, or the node that an alias stands for. -/
def read {α : Type} (n : Node) (f : Node → Decode ε α) : Decode ε α := do
  Decode.visit
  match n with
  | .reference _ _ _ =>
    Decode.behind do
      Decode.visit
      f (d.deref n)
  | n => f n

/-- Any scalar is a text. -/
def text? (n : Node) : Decode ε (Option Text) :=
  d.read n fun n =>
    match n with
    | .scalar tag value _ =>
      match scalarValue? tag value with
      | none => .malformed
      | some .null => pure none
      | some (.text t) => pure (some t)
      | some (.resolved _ t) => pure (some t)
    | n => do
      Decode.misfits (collectionMisfits n "string")
      return none

/-- A whole number of 64 bits; a fraction is cut. -/
def int? (target : Text) (n : Node) : Decode ε (Option Int64) :=
  d.read n fun n =>
    match n with
    | .scalar tag value _ => do
      let found ← match scalarValue? tag value with
        | none => .malformed
        | some .null => return none
        | some (.text _) => pure none
        | some (.resolved (.int n) _) => pure (some n)
        | some (.resolved (.float x) _) => pure x.toInt64?
        | some (.resolved _ _) => pure none
      if found.isNone then Decode.misfit (n.misfit target)
      return found
    | n => do
      Decode.misfits (collectionMisfits n target)
      return none

/-- The items of a sequence, without those that give nothing. -/
def items {α : Type} (item : Node → Decode ε (Option α)) : List Node → Decode ε (List α)
  | [] => return []
  | n :: rest => do
    match ← item n with
    | some a => return a :: (← items item rest)
    | none => items item rest

def list? {α : Type} (target : Text) (item : Node → Decode ε (Option α)) (n : Node) :
    Decode ε (Option (List α)) :=
  d.read n fun n =>
    match n with
    | .scalar tag value _ => do
      noScalar tag value (n.misfit target)
      return none
    | .sequence _ nodes _ => some <$> items item nodes
    | n => do
      Decode.misfits (collectionMisfits n target)
      return none

/-- The fields of a mapping that stands for a record, and what the record is
called; any text is a key of other mappings. -/
abbrev Fields := Option (Text × List Text)

/-- The keys of a mapping that are texts by themselves, not numbers or others. -/
def textKeys : List (Node × Node) → Decode ε (List Text)
  | [] => return []
  | (key, _) :: rest => do
    let name ← d.read key fun key =>
      match key with
      | .scalar tag value _ =>
        match scalarValue? tag value with
        | none => .malformed
        | some (.text t) => pure (some t)
        | some _ => pure none
      | _ => pure none
    return name.toList ++ (← textKeys rest)

def mergeValue? (entries : List (Node × Node)) : Option Node :=
  (entries.reverse.find? fun (key, _) => key.isMerge).map Prod.snd

/-- The mappings to take entries from: one, or a sequence of them. -/
def mergeSources : Node → List Node
  | .sequence _ items _ => items
  | n => [n]

section Entries

variable {σ : Type} (fields : Fields) (step : σ → Text → Node → Decode ε σ)

/-- Reads the entries of one mapping. `taken` are the keys that count already, if
that matters; `done` the fields that this mapping has set. -/
def ownEntries :
    Option (List Text) → List Text → σ → List (Node × Node) → Decode ε (σ × Option (List Text))
  | taken, _, v, [] => return (v, taken)
  | taken, done, v, (key, value) :: rest => do
    if key.isMerge then ownEntries taken done v rest
    else
      match ← d.text? key with
      | none => ownEntries taken done v rest
      | some name =>
        if taken.any (·.contains name) then ownEntries taken done v rest
        else
          let taken := taken.map (name :: ·)
          match fields with
          | none => ownEntries taken done (← step v name value) rest
          | some (target, known) =>
            if !known.contains name then ownEntries taken done v rest
            else if done.contains name then
              Decode.misfit (.field key.line name target)
              ownEntries taken done v rest
            else ownEntries taken (name :: done) (← step v name value) rest

mutual

/-- Reads the entries of a mapping: its own, then those that it takes over.
`inside` are the anchored mappings that are being taken over. -/
def entriesFrom :
    Nat → List Nat → Option (List Text) → σ → List (Node × Node) → Decode ε (σ × Option (List Text))
  | 0, _, _, _, _ => .malformed
  | fuel + 1, inside, taken, v, entries => do
    let repeated := repeatedKeys entries
    if !repeated.isEmpty then
      Decode.misfits repeated
      return (v, taken)
    else
      let (v, taken) ← d.ownEntries fields step taken [] v entries
      match mergeValue? entries with
      | none => return (v, taken)
      | some value =>
        let known ← match taken with
          | some names => pure names
          | none => d.textKeys entries
        let (v, known) ← sourcesFrom fuel inside known v (mergeSources value)
        return (v, taken.map fun _ => known)

def sourcesFrom : Nat → List Nat → List Text → σ → List Node → Decode ε (σ × List Text)
  | 0, _, _, _, _ => .malformed
  | _ + 1, _, taken, v, [] => return (v, taken)
  | fuel + 1, inside, taken, v, source :: rest => do
    Decode.visit
    let (v, more) ← match source with
      | .mapping _ entries _ => entriesFrom fuel inside (some taken) v entries
      | .reference _ target _ =>
        match d.deref source with
        | .mapping _ entries _ =>
          if inside.contains target then .malformed
          else
            Decode.behind do
              Decode.visit
              entriesFrom fuel (target :: inside) (some taken) v entries
        | _ => .malformed
      | _ => .malformed
    sourcesFrom fuel inside (more.getD taken) v rest

end

end Entries

def mapping? {σ : Type} (target : Text) (fields : Fields) (step : σ → Text → Node → Decode ε σ)
    (start : σ) (n : Node) : Decode ε (Option σ) :=
  d.read n fun n =>
    match n with
    | .mapping _ own _ =>
      (fun r => some r.1) <$> d.entriesFrom fields step (4 * d.size + 8) [] none start own
    | .scalar tag value _ => do
      noScalar tag value (n.misfit target)
      return none
    | n => do
      Decode.misfits (collectionMisfits n target)
      return none

end Document

end Yaml

end ShapeFlow
