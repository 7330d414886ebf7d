/-
Models: a graph with the versions of the operator sets it uses, and its summary.
-/
import ShapeFlow.Graph

namespace ShapeFlow

/-- A set of operators that a model uses, in one version. -/
structure OperatorSet where
  domain : Text := Text.empty
  version : Int64 := 0
deriving DecidableEq

def OperatorSet.text (s : OperatorSet) : Text :=
  "v" ++ Text.ofInt64 s.version ++
    (if s.domain.isEmpty then Text.empty else " (" ++ s.domain ++ ")")

/-- Whether the set is the one of operators without a domain. -/
def OperatorSet.isStandard (s : OperatorSet) : Bool := s.domain.isEmpty || s.domain == "ai.onnx"

/-- The version of the last standard set, or zero. -/
def OperatorSet.standardVersion (sets : List OperatorSet) : Int64 :=
  (sets.reverse.find? isStandard).elim 0 version

structure Model where
  formatVersion : Int64 := 0
  producer : Text := Text.empty
  operatorSets : List OperatorSet := []
  /-- The version of the default operator set, or zero. -/
  opset : Int64 := 0
  graph : Graph := {}

namespace Model

def constantNames (m : Model) : List Text := m.graph.constants.map Declaration.name

/-- The names of the inputs that are not constants. -/
def inputNames (m : Model) : List Text :=
  (m.graph.inputs.map Declaration.name).filter fun name => !m.constantNames.contains name

def outputNames (m : Model) : List Text := m.graph.outputs.map Declaration.name

/-- A title and one line for each declaration; nothing if there is none. -/
def declarationsText (title : Text) (declarations : List Declaration) : Text :=
  if declarations.isEmpty then Text.empty
  else
    "\t" ++ title ++ ":\n" ++
      Text.concat (declarations.map fun d => "\t\t" ++ d.name ++ ": " ++ d.info.text ++ "\n")

def namesText (names : List Text) : Text :=
  if names.isEmpty then "[]string(nil)"
  else "[]string\x7b" ++ Text.join ", " (names.map Text.quote) ++ "\x7d"

def text (m : Model) : Text :=
  "ONNX Model:\n" ++
    (if m.graph.name.isEmpty then Text.empty else "\tGraph:\t" ++ m.graph.name ++ "\n") ++
    (if m.producer.isEmpty then Text.empty else "\tProducer:\t" ++ m.producer ++ "\n") ++
    "\tIR Version:\t" ++ Text.ofInt64 m.formatVersion ++ "\n" ++
    "\tOperator Sets:\t[" ++ Text.join ", " (m.operatorSets.map OperatorSet.text) ++ "]\n" ++
    declarationsText "Inputs" m.graph.inputs ++
    declarationsText "Outputs" m.graph.outputs ++
    "\t# initializers:\t" ++ Text.ofNat m.graph.constants.length ++ "\n" ++
    "\t# nodes:\t" ++ Text.ofNat m.graph.nodes.length ++ "\n" ++
    "\tOp types:\t" ++ namesText (Text.sort (Text.distinct (m.graph.nodes.map Node.op))) ++ "\n"

end Model

end ShapeFlow
