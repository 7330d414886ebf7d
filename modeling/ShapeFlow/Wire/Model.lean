/-
The messages of a model file. Each decoder folds over the fields of its message;
fields that it does not name are skipped, and of a field that holds one value
the last wins. The graph is decoded last, wherever it stands.
-/
import ShapeFlow.Model
import ShapeFlow.Wire.Message

namespace ShapeFlow

namespace Wire

/-- The element type of a code; a note is made of a code that has none. -/
def elementType (name : Text) (code : UInt64) : Noted (Option ElementType) :=
  match ElementType.ofCode code.toInt64.toInt32.toInt with
  | .ok element => pure element
  | .error cause => do
    Noted.note ⟨name, cause⟩
    return none

/-- A negative size says nothing. -/
def dimStep (dim : Dim) (f : Field) : Noted Dim :=
  match f.number with
  | 1 => pure (if f.scalar.toInt64 < 0 then dim else .known f.scalar.toInt64)
  | 2 => pure (.unknown f.text)
  | _ => pure dim

def dim (b : Bytes) : Noted Dim := message dimStep .anonymous b

def shapeStep (shape : Shape) (f : Field) : Noted Shape :=
  match f.number with
  | 1 => return shape ++ [← dim f.bytes]
  | _ => pure shape

def shape (b : Bytes) : Noted Shape := message shapeStep [] b

def tensorTypeStep (name : Text) (info : TensorInfo) (f : Field) : Noted TensorInfo :=
  match f.number with
  | 1 => return { info with element := ← elementType name f.scalar }
  | 2 => return { info with shape := some (← shape f.bytes) }
  | _ => pure info

/-- The type of a value of the given name; without a shape its rank is unknown. -/
def tensorType (name : Text) (b : Bytes) : Noted TensorInfo := message (tensorTypeStep name) {} b

/-- Only tensor types say anything. -/
def typeStep (d : Declaration) (f : Field) : Noted Declaration :=
  match f.number with
  | 1 => return { d with info := ← tensorType d.name f.bytes }
  | _ => pure d

def declarationStep (d : Declaration) (f : Field) : Noted Declaration :=
  match f.number with
  | 1 => pure { d with name := f.text }
  | 2 => message typeStep d f.bytes
  | _ => pure d

def declaration (b : Bytes) : Noted Declaration :=
  messageAt (fun d => .within (.value d.name)) declarationStep ⟨.empty, {}⟩ b

/-- What is read of a tensor: not its contents. -/
structure TensorParts where
  name : Text := .empty
  sizes : List Int64 := []
  element : UInt64 := 0

def tensorStep (t : TensorParts) (f : Field) : Noted TensorParts :=
  match f.number with
  | 1 => return { t with sizes := t.sizes ++ (← .ofExcept f.ints) }
  | 2 => pure { t with element := f.scalar }
  | 8 => pure { t with name := f.text }
  | _ => pure t

def tensor (b : Bytes) : Noted Declaration := do
  let t ← message tensorStep {} b
  return ⟨t.name, ← elementType t.name t.element, some (Shape.ofSizes t.sizes)⟩

/-- A sparse tensor has its name and element type from the tensor of its values. -/
structure SparseParts where
  values : Declaration := ⟨.empty, {}⟩
  sizes : List Int64 := []

def sparseStep (t : SparseParts) (f : Field) : Noted SparseParts :=
  match f.number with
  | 1 => return { t with values := ← tensor f.bytes }
  | 3 => return { t with sizes := t.sizes ++ (← .ofExcept f.ints) }
  | _ => pure t

def sparseTensor (b : Bytes) : Noted Declaration := do
  let t ← message sparseStep {} b
  return ⟨t.values.name, t.values.info.element, some (Shape.ofSizes t.sizes)⟩

structure AttributeParts where
  name : Text := .empty
  type : Int64 := 0
  float : Option Single := none
  int : Option Int64 := none
  string : Option Text := none
  floats : List Single := []
  ints : List Int64 := []
  strings : List Text := []

namespace AttributeParts

def typed? (a : AttributeParts) : AttributeType → Option Attribute
  | .float => some (.float (a.float.getD ⟨0⟩))
  | .int => some (.int (a.int.getD 0))
  | .string => some (.string (a.string.getD .empty))
  | .floats => some (.floats a.floats)
  | .ints => some (.ints a.ints)
  | .strings => some (.strings a.strings)
  | .other _ => none

/-- The value where no type is declared: that of the field which is there. -/
def untyped? (a : AttributeParts) : Option Attribute :=
  match a.float, a.int, a.string with
  | some x, _, _ => some (.float x)
  | none, some n, _ => some (.int n)
  | none, none, some t => some (.string t)
  | none, none, none =>
    if !a.floats.isEmpty then some (.floats a.floats)
    else if !a.ints.isEmpty then some (.ints a.ints)
    else if !a.strings.isEmpty then some (.strings a.strings)
    else none

/-- The value, unless it is of a type that is not read. -/
def value? (a : AttributeParts) : Option Attribute :=
  if a.type = 0 then a.untyped? else a.typed? (.ofCode a.type.toInt)

/-- Whether the type is not declared, or not one of tensors or graphs. -/
def isRead (a : AttributeParts) : Bool :=
  a.type == 0 || (a.typed? (.ofCode a.type.toInt)).isSome

/-- Of an attribute that is not read nothing is left but its name. -/
def kept (a : AttributeParts) : AttributeParts := if a.isRead then a else { name := a.name }

end AttributeParts

def attributeStep (a : AttributeParts) (f : Field) : Noted AttributeParts :=
  match f.number with
  | 1 => pure { a with name := f.text }
  | 2 => pure { a with float := some ⟨f.scalar.toUInt32⟩ }
  | 3 => pure { a with int := some f.scalar.toInt64 }
  | 4 => pure { a with string := some f.text }
  | 7 => return { a with floats := a.floats ++ (← .ofExcept f.floats) }
  | 8 => return { a with ints := a.ints ++ (← .ofExcept f.ints) }
  | 9 => pure { a with strings := a.strings ++ [f.text] }
  | 20 => pure { a with type := f.scalar.toInt64 }
  | _ => pure a

def attributeParts (b : Bytes) : Noted AttributeParts :=
  messageAt (fun a => .within (.attr a.name)) attributeStep {} b

def namedAttribute (b : Bytes) : Noted AttributeParts := do
  return (← attributeParts b).kept

def nodeStep (n : Node) (f : Field) : Noted Node :=
  match f.number with
  | 1 => pure { n with inputs := n.inputs ++ [f.text] }
  | 2 => pure { n with outputs := n.outputs ++ [f.text] }
  | 3 => pure { n with name := f.text }
  | 4 => pure { n with op := f.text }
  | 5 => do
    let a ← namedAttribute f.bytes
    match a.value? with
    | some v => return { n with attributes := n.attributes.insert a.name v }
    | none => return n
  | 7 => pure { n with domain := f.text }
  | _ => pure n

def node (b : Bytes) : Noted Node := message nodeStep {} b

/-- Constants are counted together, sparse or not. -/
def graphStep (g : Graph) (f : Field) : Noted Graph :=
  match f.number with
  | 1 => do
    let n ← (node f.bytes).within (.node g.nodes.length)
    return { g with nodes := g.nodes ++ [n] }
  | 2 => pure { g with name := f.text }
  | 5 => do
    let c ← (tensor f.bytes).within (.constant g.constants.length)
    return { g with constants := g.constants ++ [c] }
  | 11 => return { g with inputs := g.inputs ++ [← declaration f.bytes] }
  | 12 => return { g with outputs := g.outputs ++ [← declaration f.bytes] }
  | 13 => return { g with intermediates := g.intermediates ++ [← declaration f.bytes] }
  | 15 => do
    let c ← (sparseTensor f.bytes).within (.sparseConstant g.constants.length)
    return { g with constants := g.constants ++ [c] }
  | _ => pure g

def graph (b : Bytes) : Noted Graph := message graphStep {} b

def operatorSetStep (s : OperatorSet) (f : Field) : Noted OperatorSet :=
  match f.number with
  | 1 => pure { s with domain := f.text }
  | 2 => pure { s with version := f.scalar.toInt64 }
  | _ => pure s

def operatorSet (b : Bytes) : Noted OperatorSet := message operatorSetStep {} b

/-- A model whose graph is not decoded yet. -/
structure ModelParts where
  formatVersion : Int64 := 0
  producer : Text := .empty
  operatorSets : List OperatorSet := []
  graph : Bytes := []

def modelStep (m : ModelParts) (f : Field) : Noted ModelParts :=
  match f.number with
  | 1 => pure { m with formatVersion := f.scalar.toInt64 }
  | 2 => pure { m with producer := f.text }
  | 7 => pure { m with graph := f.bytes }
  | 8 => do
    let s ← (operatorSet f.bytes).within .operatorSet
    return { m with operatorSets := m.operatorSets ++ [s] }
  | _ => pure m

def model (b : Bytes) : Noted Model := do
  let m ← message modelStep {} b
  let g ← (graph m.graph).within .graph
  return {
    formatVersion := m.formatVersion
    producer := m.producer
    operatorSets := m.operatorSets
    opset := OperatorSet.standardVersion m.operatorSets
    graph := g }

end Wire

end ShapeFlow
