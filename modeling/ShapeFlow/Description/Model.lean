/-
The model of a graph description. Values need names and known element types,
constants need shapes, nodes need operators. The type of an attribute follows
from the tags of its value: whole numbers, fractions and texts, or lists of
them; a list that mixes whole numbers and fractions is one of fractions, and any
other mixture one of texts.
-/
import ShapeFlow.Description.Draft
import ShapeFlow.Model
import ShapeFlow.Number.Decimal
import ShapeFlow.Yaml.Node.Grammar

namespace ShapeFlow

namespace Description

inductive ValueError where
  | int (line : Nat) (value : Text) (e : NumberError)
  | float (line : Nat) (value : Text) (e : NumberError)
  | nested (line : Nat)
  | notValue (line : Nat)

def ValueError.message : ValueError → Text
  | .int line value e => "line " ++ Text.ofNat line ++ ": " ++ numberMessage "ParseInt" value e
  | .float line value e => "line " ++ Text.ofNat line ++ ": " ++ numberMessage "ParseFloat" value e
  | .nested line => "line " ++ Text.ofNat line ++ ": lists of lists are not valid attributes"
  | .notValue line =>
    "line " ++ Text.ofNat line ++
      ": invalid attribute value, it must be a scalar or a list of scalars"

def intValue (line : Nat) (value : Text) : Except ValueError Int64 :=
  (readLiteral value).mapError (.int line value)

def floatValue (line : Nat) (value : Text) : Except ValueError Single :=
  (readSingle value).mapError (.float line value)

/-- A scalar of a list: its tag, text and line. -/
structure Item where
  tag : Text
  value : Text
  line : Nat

def item : Yaml.Node → Except ValueError Item
  | .scalar tag value line => .ok ⟨tag, value, line⟩
  | n => .error (.nested n.line)

/-- The type of a list after one more item: whole numbers fit every type, fractions
make whole numbers fractions, and anything else makes the list one of texts. -/
def widen (type : AttributeType) (tag : Text) : AttributeType :=
  if tag == "!!int" then type
  else if tag == "!!float" && type != .strings then .floats
  else .strings

/-- The type of a list, by the tags of its items in turn. -/
def listType (tags : List Text) : AttributeType := tags.foldl widen .ints

def listValue (type : AttributeType) (items : List Item) : Except ValueError Attribute :=
  match type with
  | .ints => .ints <$> items.mapM fun i => intValue i.line i.value
  | .floats => .floats <$> items.mapM fun i => floatValue i.line i.value
  | _ => .ok (.strings (items.map Item.value))

def attributeOf : Yaml.Node → Except ValueError Attribute
  | .scalar tag value line =>
    if tag == "!!int" then .int <$> intValue line value
    else if tag == "!!float" then .float <$> floatValue line value
    else .ok (.string value)
  | .sequence _ nodes _ => do
    let items ← nodes.mapM item
    listValue (listType (items.map Item.tag)) items
  | n => .error (.notValue n.line)

inductive Error where
  /-- The text is no YAML document. -/
  | malformed
  | misfits (ms : List Yaml.Misfit)
  | shape (e : ShapeError)
  | unnamed (list : Text) (index : Nat)
  | element (list : Text) (index : Nat) (name : Text) (e : ElementError)
  | constantShape (name : Text)
  | noOperator (index : Nat) (name : Text)
  | value (index : Nat) (op name : Text) (e : ValueError)

def Error.message : Error → Text
  | .malformed => "failed to parse YAML graph description"
  | .misfits ms =>
    "failed to parse YAML graph description: yaml: unmarshal errors:" ++
      Text.concat (ms.map fun m => "\n  " ++ m.message)
  | .shape e => "failed to parse YAML graph description: " ++ e.message
  | .unnamed list i => list ++ " #" ++ Text.ofNat i ++ ": missing name"
  | .element list i name e =>
    list ++ " #" ++ Text.ofNat i ++ ": value " ++ name.quote ++ ": " ++ e.message
  | .constantShape name => "initializer " ++ name.quote ++ " must have a shape"
  | .noOperator i name => "node #" ++ Text.ofNat i ++ " (" ++ name.quote ++ ") has no op"
  | .value i op name e =>
    "node #" ++ Text.ofNat i ++ " (" ++ op ++ "), attribute " ++ name.quote ++ ": " ++ e.message

/-- A declared value: it has a name and an element type that is known or left open. -/
def declaration (list : Text) (v : DeclarationDraft × Nat) : Except Error Declaration :=
  if v.1.name.isEmpty then .error (.unnamed list v.2)
  else
    match ElementType.parse v.1.element with
    | .error e => .error (.element list v.2 v.1.name e)
    | .ok element => .ok ⟨v.1.name, element, v.1.shape⟩

def declarations (list : Text) (vs : List DeclarationDraft) : Except Error (List Declaration) :=
  vs.zipIdx.mapM (declaration list)

/-- A node: it has an operator, and values for its attributes. -/
def node (n : NodeDraft × Nat) : Except Error Node :=
  if n.1.op.isEmpty then .error (.noOperator n.2 n.1.name)
  else do
    let attributes ← n.1.attributes.entries.mapM fun (name, value) =>
      match attributeOf value with
      | .ok a => .ok (name, a)
      | .error e => .error (.value n.2 n.1.op name e)
    return {
      name := n.1.name
      op := n.1.op
      domain := n.1.domain
      inputs := n.1.inputs
      outputs := n.1.outputs
      attributes := ⟨attributes⟩ }

def modelOf (v : Draft) : Except Error Model := do
  let inputs ← declarations "input" v.inputs
  let outputs ← declarations "output" v.outputs
  let intermediates ← declarations "value_info" v.intermediates
  let constants ← declarations "initializer" v.constants
  match constants.find? (·.info.shape.isNone) with
  | some c => throw (.constantShape c.name)
  | none => pure ()
  let nodes ← v.nodes.zipIdx.mapM node
  return {
    formatVersion := v.formatVersion
    producer := v.producer
    operatorSets := if 0 < v.opset then [⟨.empty, v.opset⟩] else []
    opset := v.opset
    graph := { name := v.name, inputs, outputs, intermediates, constants, nodes } }

/-- The draft of a document; of an empty stream it is empty. -/
def draftOf (d : Option Yaml.Document) : Except Error Draft :=
  match d with
  | none => .ok {}
  | some d =>
    match (draft d).run {} with
    | .error .malformed => .error .malformed
    | .error (.refused e) => .error (.shape e)
    | .ok (v, p) => if p.misfits.isEmpty then .ok v else .error (.misfits p.misfits)

def read (t : Text) : Except Error Model :=
  match Yaml.Document.ofText? t with
  | none => .error .malformed
  | some d => draftOf d >>= modelOf

end Description

end ShapeFlow
