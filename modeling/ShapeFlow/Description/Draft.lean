/-
A graph description as it is written in YAML: texts, numbers and lists, before
any of it is checked. Shapes are read here as well: dimensions are whole numbers,
names, or `?` and null where they are not known.
-/
import ShapeFlow.Dict
import ShapeFlow.Number.Integer
import ShapeFlow.Tensor.Shape
import ShapeFlow.Yaml.Decode

namespace ShapeFlow

namespace Description

/-- Why a number could not be read, with the name of the reader. -/
def numberMessage (reader t : Text) (e : NumberError) : Text :=
  "strconv." ++ reader ++ ": parsing " ++ t.quote ++ ": " ++ e.message

inductive ShapeError where
  | notList (line : Nat) (value : Text)
  | notScalar (line : Nat) (value : Text)
  | number (line : Nat) (value : Text) (e : NumberError)
  | negative (line : Nat) (size : Int64)

def ShapeError.message : ShapeError → Text
  | .notList line value =>
    "line " ++ Text.ofNat line ++ ": shape must be a list of dimensions, got " ++ value.quote
  | .notScalar line value =>
    "line " ++ Text.ofNat line ++ ": dimension must be a scalar, got " ++ value.quote
  | .number line value e =>
    "line " ++ Text.ofNat line ++ ": invalid dimension: " ++ numberMessage "ParseInt" value e
  | .negative line size =>
    "line " ++ Text.ofNat line ++ ": invalid negative dimension " ++ Text.ofInt64 size ++
      ", use \"?\" for unknown dimensions"

/-- Reading that a wrong shape halts. -/
abbrev Decode := Yaml.Decode ShapeError

def dim (d : Yaml.Document) (n : Yaml.Node) : Except ShapeError Dim :=
  match d.deref n with
  | .scalar tag value line =>
    if tag == "!!int" then
      match readLiteral value with
      | .error e => .error (.number line value e)
      | .ok size => if size < 0 then .error (.negative line size) else .ok (.known size)
    else if tag == "!!null" || value == "?" || value.isEmpty then .ok .anonymous
    else .ok (.unknown value)
  | n => .error (.notScalar n.line n.value)

def dims (d : Yaml.Document) (n : Yaml.Node) : Except ShapeError Shape :=
  match n with
  | .sequence _ items _ => items.mapM (dim d)
  | n => .error (.notList n.line n.value)

/-- A shape; null is none. -/
def shape? (d : Yaml.Document) (n : Yaml.Node) : Decode (Option Shape) :=
  d.read n fun n =>
    if n.tag == "!!null" then
      match n with
      | .scalar tag value _ => do
        Yaml.noScalar tag value (n.misfit "*onnx.yamlShape")
        return none
      | n => do
        Yaml.Decode.misfits (Yaml.collectionMisfits n "*onnx.yamlShape")
        return none
    else
      match dims d n with
      | .ok s => pure (some s)
      | .error e => .refuse e

structure DeclarationDraft where
  name : Text := .empty
  element : Text := .empty
  shape : Option Shape := none

def declarationFields : Text × List Text := ("onnx.yamlValueInfo", ["name", "dtype", "shape"])

def declarationStep (d : Yaml.Document) (v : DeclarationDraft) (key : Text) (n : Yaml.Node) :
    Decode DeclarationDraft := do
  if key == "name" then return { v with name := (← d.text? n).getD v.name }
  else if key == "dtype" then return { v with element := (← d.text? n).getD v.element }
  else return { v with shape := ← shape? d n }

def declaration? (d : Yaml.Document) (n : Yaml.Node) : Decode (Option DeclarationDraft) :=
  d.mapping? declarationFields.1 (some declarationFields) (declarationStep d) {} n

structure NodeDraft where
  name : Text := .empty
  op : Text := .empty
  domain : Text := .empty
  inputs : List Text := []
  outputs : List Text := []
  attributes : Dict Yaml.Node := {}

def nodeFields : Text × List Text :=
  ("onnx.yamlNode", ["name", "op", "domain", "inputs", "outputs", "attributes"])

/-- The attributes stay nodes: their tags tell their types. -/
def attributes? (d : Yaml.Document) (n : Yaml.Node) : Decode (Option (Dict Yaml.Node)) :=
  let step (attributes : Dict Yaml.Node) (key : Text) (n : Yaml.Node) : Decode (Dict Yaml.Node) := do
    Yaml.Decode.visit
    return attributes.insert key n
  d.mapping? "map[string]yaml.Node" none step {} n

def texts? (d : Yaml.Document) (n : Yaml.Node) : Decode (Option (List Text)) :=
  d.list? "[]string" d.text? n

def nodeStep (d : Yaml.Document) (v : NodeDraft) (key : Text) (n : Yaml.Node) : Decode NodeDraft := do
  if key == "name" then return { v with name := (← d.text? n).getD v.name }
  else if key == "op" then return { v with op := (← d.text? n).getD v.op }
  else if key == "domain" then return { v with domain := (← d.text? n).getD v.domain }
  else if key == "inputs" then return { v with inputs := (← texts? d n).getD [] }
  else if key == "outputs" then return { v with outputs := (← texts? d n).getD [] }
  else return { v with attributes := (← attributes? d n).getD {} }

def node? (d : Yaml.Document) (n : Yaml.Node) : Decode (Option NodeDraft) :=
  d.mapping? nodeFields.1 (some nodeFields) (nodeStep d) {} n

/-- A graph description before it is checked. -/
structure Draft where
  name : Text := .empty
  formatVersion : Int64 := 0
  producer : Text := .empty
  opset : Int64 := 0
  inputs : List DeclarationDraft := []
  outputs : List DeclarationDraft := []
  intermediates : List DeclarationDraft := []
  constants : List DeclarationDraft := []
  nodes : List NodeDraft := []

def draftFields : Text × List Text :=
  ("onnx.yamlModel", ["name", "ir_version", "producer", "opset", "inputs", "outputs", "value_info",
    "initializers", "nodes"])

def declarations? (d : Yaml.Document) (n : Yaml.Node) : Decode (Option (List DeclarationDraft)) :=
  d.list? "[]onnx.yamlValueInfo" (declaration? d) n

def draftStep (d : Yaml.Document) (v : Draft) (key : Text) (n : Yaml.Node) : Decode Draft := do
  if key == "name" then return { v with name := (← d.text? n).getD v.name }
  else if key == "ir_version" then
    return { v with formatVersion := (← d.int? "int64" n).getD v.formatVersion }
  else if key == "producer" then return { v with producer := (← d.text? n).getD v.producer }
  else if key == "opset" then return { v with opset := (← d.int? "int" n).getD v.opset }
  else if key == "inputs" then return { v with inputs := (← declarations? d n).getD [] }
  else if key == "outputs" then return { v with outputs := (← declarations? d n).getD [] }
  else if key == "value_info" then return { v with intermediates := (← declarations? d n).getD [] }
  else if key == "initializers" then return { v with constants := (← declarations? d n).getD [] }
  else return { v with nodes := (← d.list? "[]onnx.yamlNode" (node? d) n).getD [] }

/-- Reads a document as a graph description. The document counts as a node. -/
def draft (d : Yaml.Document) : Decode Draft := do
  Yaml.Decode.visit
  let v ← d.mapping? draftFields.1 (some draftFields) (draftStep d) {} d.root
  return v.getD {}

end Description

end ShapeFlow
