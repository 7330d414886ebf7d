/-
What is statically known about a tensor: its element type, its shape, or both;
and, once both are known, the elements and bytes that it holds.
-/
import ShapeFlow.Tensor.Element
import ShapeFlow.Tensor.Shape

namespace ShapeFlow

structure TensorInfo where
  element : Option ElementType := none
  shape : Shape? := none
deriving DecidableEq

namespace TensorInfo

def text (info : TensorInfo) : Text :=
  let element : Text := match info.element with | some t => t.name | none => "?"
  "(" ++ element ++ ")" ++ Shape?.text info.shape

def isInformative (info : TensorInfo) : Bool := info.element.isSome || info.shape.isSome

end TensorInfo

abbrev TensorInfo? := Option TensorInfo

namespace TensorInfo?

def text : TensorInfo? → Text
  | some info => info.text
  | none => TensorInfo.text {}

def shape? : TensorInfo? → Shape?
  | some info => info.shape
  | none => none

def element? : TensorInfo? → Option ElementType
  | some info => info.element
  | none => none

end TensorInfo?

/-- A tensor type with every size known. -/
structure ConcreteShape where
  element : ElementType
  sizes : List Int64

inductive ConcreteError where
  | absent
  | element (info : TensorInfo)
  | sizes (info : TensorInfo)

def ConcreteError.message : ConcreteError → Text
  | absent => "tensor information is nil"
  | element info => "tensor " ++ info.text ++ " has unknown data type"
  | sizes info => "tensor " ++ info.text ++ " has unknown dimensions"

inductive Footprint where
  /-- Not known. -/
  | unknown
  /-- The element type has no size in whole bytes. -/
  | unsized (element : ElementType)
  /-- Elements and bytes, both wrapping around at 64 bits. -/
  | of (elements : Int64) (bytes : UInt64)

def ElementType.unsizedMessage (t : ElementType) : Text :=
  "unknown dtype " ++ t.name.quote ++ " (" ++ Text.ofNat t.rank ++ ") in DType.GoType"

namespace ConcreteShape

/-- Sizes that are negative stand for dimensions that vary. -/
def toInfo (element : Option ElementType) (sizes : List Int64) : TensorInfo :=
  ⟨element, some (sizes.map Dim.ofSigned)⟩

def footprint (c : ConcreteShape) : Footprint :=
  let elements := Shape.count c.sizes
  match c.element.byteSize? with
  | some size => .of elements (size * elements.toUInt64)
  | none => .unsized c.element

end ConcreteShape

namespace TensorInfo?

def concrete : TensorInfo? → Except ConcreteError ConcreteShape
  | none => .error .absent
  | some info =>
    match info.element with
    | none => .error (.element info)
    | some element =>
      match info.shape.bind Shape.sizes? with
      | none => .error (.sizes info)
      | some sizes => .ok ⟨element, sizes⟩

def footprint (info : TensorInfo?) : Footprint :=
  match concrete info with
  | .ok c => c.footprint
  | .error _ => .unknown

end TensorInfo?

end ShapeFlow
