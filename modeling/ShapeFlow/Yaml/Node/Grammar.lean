/-
From tokens to nodes: the first document of a stream. A node is an alias, or
properties (an anchor, a tag) and content; an entry without content is an empty
scalar. Tokens are read as they are needed, so what stands far behind the document
may be malformed.
-/
import ShapeFlow.Yaml.Node
import ShapeFlow.Yaml.Token.Lexer

namespace ShapeFlow

namespace Yaml

/-- What is left to read, and the anchors so far: the last of each name counts. -/
structure Reading where
  lexer : Lexer
  handles : List (Text × Text) := []
  anchors : List (Text × Nat) := []
  anchored : List (Nat × Node) := []
  /-- How many anchors there were. -/
  count : Nat := 0

/-- A step of reading; no result means that the tokens make no document. -/
abbrev Read := StateT Reading Option

namespace Read

def peek : Read Token := do
  let r ← get
  let lexer ← r.lexer.ready
  set { r with lexer }
  match lexer.queue with
  | t :: _ => return t
  | [] => failure

def skip : Read Unit := modify fun r => { r with lexer := r.lexer.take }

/-- The tag of a scalar without one, by its style and text. -/
def defaultTag (text : Text) (plain : Bool) : Text :=
  if !plain then "!!str" else if text == "<<" then "!!merge" else (resolve text).tag

/-- The tag in short form, or the one that takes its place. -/
def tagOr (tag default : Text) : Text :=
  if tag.isEmpty || tag == "!" then default else shortTag tag

def omitted (line : Nat) : Node := .scalar "!!null" Text.empty (line + 1)

/-- Anchor and tag of a node, and the line that they start on. -/
structure Properties where
  anchor : Option Text := none
  tag : Option (Text × Text) := none
  line : Option Nat := none

/-- One anchor and one tag, in either order. -/
def properties : Read Properties := do
  let t ← peek
  match t.kind with
  | .anchor name =>
    skip
    match (← peek).kind with
    | .tag handle suffix =>
      skip
      return ⟨some name, some (handle, suffix), some t.line⟩
    | _ => return ⟨some name, none, some t.line⟩
  | .tag handle suffix =>
    skip
    match (← peek).kind with
    | .anchor name =>
      skip
      return ⟨some name, some (handle, suffix), some t.line⟩
    | _ => return ⟨none, some (handle, suffix), some t.line⟩
  | _ => return {}

def expand : Option (Text × Text) → Read Text
  | none => return Text.empty
  | some (handle, suffix) => do
    if handle.isEmpty then return suffix
    match (← get).handles.lookup handle with
    | some expansion => if (expansion ++ suffix).isEmpty then failure else return expansion ++ suffix
    | none => failure

/-- Takes up an anchor before the content of its node is read. -/
def announce : Option Text → Read (Option Nat)
  | none => return none
  | some name => do
    let r ← get
    set { r with anchors := (name, r.count) :: r.anchors, count := r.count + 1 }
    return some r.count

def keep (place : Option Nat) (n : Node) : Read Node := do
  match place with
  | some i => modify fun r => { r with anchored := (i, n) :: r.anchored }
  | none => pure ()
  return n

mutual

/-- A node; block collections and sequences without their own indentation only
where they may stand. -/
def node : Nat → Bool → Bool → Read Node
  | 0, _, _ => failure
  | fuel + 1, block, indentless => do
    let t ← peek
    match t.kind with
    | .reference name =>
      skip
      match (← get).anchors.lookup name with
      | some target => return .reference name target (t.line + 1)
      | none => failure
    | _ =>
      let p ← properties
      let tag ← expand p.tag
      let t ← peek
      let line := p.line.getD t.line + 1
      let place ← announce p.anchor
      match t.kind with
      | .scalar text plain =>
        skip
        keep place (.scalar (tagOr tag (defaultTag text plain)) text line)
      | .flowSequence =>
        skip
        keep place (.sequence (tagOr tag "!!seq") (← flowSequence fuel true) line)
      | .flowMapping =>
        skip
        keep place (.mapping (tagOr tag "!!map") (← flowMapping fuel true) line)
      | kind =>
        if indentless && kind = .blockEntry then
          keep place (.sequence (tagOr tag "!!seq") (← indentlessSequence fuel) line)
        else if block && kind = .blockSequence then
          skip
          keep place (.sequence (tagOr tag "!!seq") (← blockSequence fuel) line)
        else if block && kind = .blockMapping then
          skip
          keep place (.mapping (tagOr tag "!!map") (← blockMapping fuel) line)
        else if p.anchor.isSome || !tag.isEmpty then
          keep place (.scalar (tagOr tag "!!null") Text.empty line)
        else failure

def blockSequence : Nat → Read (List Node)
  | 0 => failure
  | fuel + 1 => do
    let t ← peek
    match t.kind with
    | .blockEntry =>
      skip
      let item ← match (← peek).kind with
        | .blockEntry | .blockEnd => pure (omitted t.line)
        | _ => node fuel true false
      return item :: (← blockSequence fuel)
    | .blockEnd =>
      skip
      return []
    | _ => failure

/-- The entries of a sequence that is indented like the mapping around it. -/
def indentlessSequence : Nat → Read (List Node)
  | 0 => failure
  | fuel + 1 => do
    let t ← peek
    match t.kind with
    | .blockEntry =>
      skip
      let item ← match (← peek).kind with
        | .blockEntry | .key | .value | .blockEnd => pure (omitted t.line)
        | _ => node fuel true false
      return item :: (← indentlessSequence fuel)
    | _ => return []

def blockMapping : Nat → Read (List (Node × Node))
  | 0 => failure
  | fuel + 1 => do
    let t ← peek
    match t.kind with
    | .key =>
      skip
      let key ← match (← peek).kind with
        | .key | .value | .blockEnd => pure (omitted t.line)
        | _ => node fuel true true
      let t ← peek
      let value ← match t.kind with
        | .value => do
          skip
          match (← peek).kind with
          | .key | .value | .blockEnd => pure (omitted t.line)
          | _ => node fuel true true
        | _ => pure (omitted t.line)
      return (key, value) :: (← blockMapping fuel)
    | .blockEnd =>
      skip
      return []
    | _ => failure

/-- The entries of a flow sequence, to its end; the first needs no comma. -/
def flowSequence : Nat → Bool → Read (List Node)
  | 0, _ => failure
  | fuel + 1, first => do
    let t ← peek
    if t.kind = .flowSequenceEnd then
      skip
      return []
    else if !first && t.kind != .flowEntry then failure
    else
      if !first then skip
      let t ← peek
      match t.kind with
      | .flowSequenceEnd =>
        skip
        return []
      | .key =>
        skip
        let item ← flowPair fuel t.line
        return item :: (← flowSequence fuel false)
      | _ =>
        let item ← node fuel false false
        return item :: (← flowSequence fuel false)

/-- A mapping of one entry inside a flow sequence, after its key token. A key
that is left out takes the token in its place along. -/
def flowPair : Nat → Nat → Read Node
  | 0, _ => failure
  | fuel + 1, line => do
    let t ← peek
    let key ← match t.kind with
      | .value | .flowEntry | .flowSequenceEnd => do
        skip
        pure (omitted t.line)
      | _ => node fuel false false
    let t ← peek
    let value ← match t.kind with
      | .value => do
        skip
        match (← peek).kind with
        | .flowEntry | .flowSequenceEnd => pure (omitted t.line)
        | _ => node fuel false false
      | _ => pure (omitted t.line)
    return .mapping "!!map" [(key, value)] (line + 1)

def flowMapping : Nat → Bool → Read (List (Node × Node))
  | 0, _ => failure
  | fuel + 1, first => do
    let t ← peek
    if t.kind = .flowMappingEnd then
      skip
      return []
    else if !first && t.kind != .flowEntry then failure
    else
      if !first then skip
      let t ← peek
      match t.kind with
      | .flowMappingEnd =>
        skip
        return []
      | .key =>
        skip
        let t ← peek
        let key ← match t.kind with
          | .value | .flowEntry | .flowMappingEnd => pure (omitted t.line)
          | _ => node fuel false false
        let t ← peek
        let value ← match t.kind with
          | .value => do
            skip
            let t ← peek
            match t.kind with
            | .flowEntry | .flowMappingEnd => pure (omitted t.line)
            | _ => node fuel false false
          | _ => pure (omitted t.line)
        return (key, value) :: (← flowMapping fuel false)
      | _ =>
        let key ← node fuel false false
        let t ← peek
        return (key, omitted t.line) :: (← flowMapping fuel false)

end

/-- The directives of a document: a version at most once, and each handle. -/
def directives : Nat → Bool → Read Unit
  | 0, _ => failure
  | fuel + 1, versioned => do
    match (← peek).kind with
    | .version major minor =>
      if versioned || major != 1 || minor != 1 then failure
      else
        skip
        directives fuel true
    | .tagShort handle expansion =>
      let r ← get
      if (r.handles.lookup handle).isSome then failure
      else
        set { r with handles := r.handles ++ [(handle, expansion)] }
        skip
        directives fuel versioned
    | _ => return ()

def standardHandles : List (Text × Text) := [("!", "!"), ("!!", standardTag)]

def root (fuel : Nat) : Read (Option Node) := do
  let _ ← peek
  skip
  let t ← peek
  match t.kind with
  | .streamEnd => return none
  | .version _ _ | .tagShort _ _ | .documentStart =>
    directives fuel false
    modify fun r => { r with handles := r.handles ++ standardHandles }
    if (← peek).kind != .documentStart then failure
    skip
    let t ← peek
    match t.kind with
    | .version _ _ | .tagShort _ _ | .documentStart | .documentEnd | .streamEnd =>
      return some (omitted t.line)
    | _ => return some (← node fuel true false)
  | _ =>
    modify fun r => { r with handles := r.handles ++ standardHandles }
    return some (← node fuel true false)

/-- The first document, if the stream holds one. What follows its root is looked
at. -/
def document (fuel : Nat) : Read (Option Document) := do
  match ← root fuel with
  | none => return none
  | some root =>
    let _ ← peek
    let r ← get
    return some ⟨root, r.anchored, r.lexer.size⟩

end Read

/-- The first document of a stream: nothing if it is malformed, and no document if
the stream is empty. -/
def Document.ofText? (t : Text) : Option (Option Document) :=
  let lexer := Lexer.ofSource (.ofText t)
  (Read.document (16 * lexer.size + 64)).run' { lexer }

end Yaml

end ShapeFlow
