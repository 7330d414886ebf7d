/-
How models are written: the fields of each message of a model file, by increasing
number. Writers may differ in two ways that say nothing about the model, whether
lists of numbers are packed and whether fields that would hold nothing are left
out; a `Layout` chooses. `Model.Writable` tells the models that can be written.
-/
import ShapeFlow.Proofs.Wire.Writing
import ShapeFlow.Wire.Model

namespace ShapeFlow

namespace Wire

/-- What is left to a writer. -/
structure Layout where
  /-- Whether the numbers of a list share one field. -/
  packed : Bool
  /-- Whether fields that would hold zero or nothing are left out. -/
  terse : Bool

/-- A message as the value of a field. -/
def part (number : Nat) (fields : List Field) : Field := ⟨number, .bytes (write fields)⟩

def textField (number : Nat) (t : Text) : Field := ⟨number, .bytes t.bytes⟩

def intField (number : Nat) (n : Int64) : Field := ⟨number, .varint n.toUInt64⟩

def floatField (number : Nat) (x : Single) : Field := ⟨number, .fixed32 x.bits⟩

/-- The code of an element type; zero if it is not known or has none. -/
def elementCode (element : Option ElementType) : Int64 :=
  Int64.ofNat ((element.bind ElementType.code?).getD 0)

/-- Nothing is said about an unknown size but its name. -/
def dimFields : Dim → List Field
  | .known n => [intField 1 n]
  | .unknown name => if name.isEmpty then [] else [textField 2 name]

def shapeFields (s : Shape) : List Field := s.map fun d => part 1 (dimFields d)

/-- Nothing is written where the rank is unknown; a scalar has a shape without
sizes. -/
def rankedFields : Shape? → List Field
  | some s => [part 2 (shapeFields s)]
  | none => []

namespace Layout

variable (l : Layout)

/-- A field, but none for a blank value in a terse layout. -/
def optional (blank : Bool) (f : Field) : List Field := if l.terse && blank then [] else [f]

def text (number : Nat) (t : Text) : List Field := l.optional t.isEmpty (textField number t)

def int (number : Nat) (n : Int64) : List Field := l.optional (n == 0) (intField number n)

def ints (number : Nat) (ns : List Int64) : List Field :=
  if l.packed then l.optional ns.isEmpty ⟨number, .bytes (writeInts ns)⟩
  else ns.map (intField number)

def floats (number : Nat) (xs : List Single) : List Field :=
  if l.packed then l.optional xs.isEmpty ⟨number, .bytes (writeFloats xs)⟩
  else xs.map (floatField number)

def tensorType (info : TensorInfo) : List Field :=
  l.int 1 (elementCode info.element) ++ rankedFields info.shape

def declaration (d : Declaration) : List Field :=
  l.text 1 d.name ++ [part 2 [part 1 (l.tensorType d.info)]]

/-- A constant, without its contents. -/
def tensor (d : Declaration) : List Field :=
  l.ints 1 ((d.info.shape.bind Shape.sizes?).getD []) ++ l.int 2 (elementCode d.info.element) ++
    l.text 8 d.name

def attributeValue : Attribute → List Field
  | .float x => l.optional (x.bits == 0) (floatField 2 x)
  | .int n => l.int 3 n
  | .string t => l.text 4 t
  | .floats xs => l.floats 7 xs
  | .ints ns => l.ints 8 ns
  | .strings ts => ts.map (textField 9)
  | .coded _ => []

/-- The type of an attribute is always declared. -/
def namedAttribute (name : Text) (a : Attribute) : List Field :=
  l.text 1 name ++ l.attributeValue a ++ [intField 20 (Int64.ofInt a.type.code)]

def node (n : Node) : List Field :=
  n.inputs.map (textField 1) ++ n.outputs.map (textField 2) ++ l.text 3 n.name ++ l.text 4 n.op ++
    n.attributes.entries.map (fun e => part 5 (l.namedAttribute e.1 e.2)) ++ l.text 7 n.domain

def graph (g : Graph) : List Field :=
  g.nodes.map (fun n => part 1 (l.node n)) ++ l.text 2 g.name ++
    g.constants.map (fun d => part 5 (l.tensor d)) ++
    g.inputs.map (fun d => part 11 (l.declaration d)) ++
    g.outputs.map (fun d => part 12 (l.declaration d)) ++
    g.intermediates.map (fun d => part 13 (l.declaration d))

def operatorSet (s : OperatorSet) : List Field := l.text 1 s.domain ++ l.int 2 s.version

def model (m : Model) : List Field :=
  l.int 1 m.formatVersion ++ l.text 2 m.producer ++ [part 7 (l.graph m.graph)] ++
    m.operatorSets.map fun s => part 8 (l.operatorSet s)

end Layout

end Wire

/-! ## What can be written -/

/-- The element type has a code, and no size is negative: that would be read as an
unknown one. -/
structure Declaration.Writable (d : Declaration) : Prop where
  element : ∀ t ∈ d.info.element, t.code?.isSome = true
  sizes : ∀ s ∈ d.info.shape, ∀ dim ∈ s, dim.size?.all (0 ≤ ·) = true

/-- Every size of a constant is known. -/
structure Declaration.WritableConstant (d : Declaration) : Prop where
  element : ∀ t ∈ d.info.element, t.code?.isSome = true
  sizes : d.info.shape.isFullyKnown = true

/-- Whether the value is of one of the six types. -/
def Attribute.isTyped : Attribute → Bool
  | .coded _ => false
  | _ => true

/-- Attributes have distinct names, and values that can be written. -/
structure Node.Writable (n : Node) : Prop where
  names : n.attributes.keys.Nodup
  values : ∀ e ∈ n.attributes.entries, e.2.isTyped = true

structure Model.Writable (m : Model) : Prop where
  opset : m.opset = OperatorSet.standardVersion m.operatorSets
  nodes : ∀ n ∈ m.graph.nodes, n.Writable
  declarations : ∀ d ∈ m.graph.inputs ++ m.graph.outputs ++ m.graph.intermediates, d.Writable
  constants : ∀ d ∈ m.graph.constants, d.WritableConstant

end ShapeFlow
