/-
Graphs of operations. Nodes read and write values by name; an empty name is an
operand that is left out. The graph also declares what is known about its
inputs, outputs, intermediate values and constants.
-/
import ShapeFlow.Attribute
import ShapeFlow.Tensor.Info

namespace ShapeFlow

structure Declaration where
  name : Text
  info : TensorInfo := {}
deriving DecidableEq

structure Node where
  name : Text := Text.empty
  op : Text := Text.empty
  domain : Text := Text.empty
  inputs : List Text := []
  outputs : List Text := []
  attributes : Attributes := {}

namespace Node

/-- The inputs that are not left out. -/
def namedInputs (n : Node) : List Text := n.inputs.filter (!·.isEmpty)

def namedOutputs (n : Node) : List Text := n.outputs.filter (!·.isEmpty)

def text (n : Node) : Text :=
  n.op ++ (if n.name.isEmpty then Text.empty else "(" ++ n.name ++ ")") ++
    ": [" ++ Text.join ", " n.inputs ++ "] -> [" ++ Text.join ", " n.outputs ++ "]" ++
    (if n.attributes.entries.isEmpty then Text.empty else " " ++ Attributes.text n.attributes)

/-- How a node is named in messages: by its name, or by its text without one. -/
def label (n : Node) : Text := if n.name.isEmpty then n.text else n.name

/-- Whether the node belongs to the default domain. -/
def isStandard (n : Node) : Bool := n.domain.isEmpty || n.domain == "ai.onnx"

end Node

structure Graph where
  name : Text := Text.empty
  inputs : List Declaration := []
  outputs : List Declaration := []
  intermediates : List Declaration := []
  constants : List Declaration := []
  nodes : List Node := []

end ShapeFlow
