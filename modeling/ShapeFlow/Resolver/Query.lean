/-
What a resolver knows: about a value, about all values, about the nodes that
failed and about the outputs that have no shape.
-/
import ShapeFlow.Resolver

namespace ShapeFlow

namespace Resolver

def info? (r : Resolver) (name : Text) : TensorInfo? :=
  ((r.values.get? name).map ValueState.info).filter TensorInfo.isInformative

def shape? (r : Resolver) (name : Text) : Shape? :=
  (r.values.get? name).bind fun v => v.info.shape

def sizes? (r : Resolver) (name : Text) : Option (List Int64) :=
  (r.shape? name).bind Shape.sizes?

def provenance (r : Resolver) (name : Text) : Provenance :=
  ((r.values.get? name).map ValueState.provenance).getD .unknown

/-- All values once: inputs, constants, outputs of nodes, outputs of the graph. -/
def valueNames (r : Resolver) : List Text :=
  let g := r.model.graph
  let names := g.inputs.map Declaration.name ++ g.constants.map Declaration.name ++
    g.nodes.flatMap Node.outputs ++ g.outputs.map Declaration.name
  Text.distinct (names.filter (!·.isEmpty))

/-- The errors of the failed nodes by label. A label that an earlier node has
taken is followed by the place of the node. -/
def failureTable (r : Resolver) : Dict InferError :=
  let step (acc : List Text × Dict InferError) (n : Node × Nat) : List Text × Dict InferError :=
    let label := n.1.label
    let key := if acc.1.contains label then label ++ "#" ++ Text.ofNat n.2 else label
    (key :: acc.1,
      match r.failure? n.2 with
      | some error => acc.2.insert key error
      | none => acc.2)
  (r.model.graph.nodes.zipIdx.foldl step ([], {})).2

def unresolvedOf (r : Resolver) (n : Node) : List Text :=
  n.namedOutputs.filter fun name => (r.shape? name).isNone

def unresolved (r : Resolver) : List Text := r.model.graph.nodes.flatMap r.unresolvedOf

/-- For each operator that has outputs without a shape, their number. -/
def unresolvedCounts (r : Resolver) : List (Text × Nat) :=
  let ops := r.model.graph.nodes.flatMap fun n => (r.unresolvedOf n).map fun _ => n.op
  (Text.sort (Text.distinct ops)).map fun op => (op, ops.count op)

/-- The counts on one line, the greatest first, equal ones by operator. -/
def unresolvedSummary (r : Resolver) : Text :=
  let counts := r.unresolvedCounts.mergeSort fun a b => decide (b.2 ≤ a.2)
  Text.join ", " (counts.map fun (op, count) => op ++ "=" ++ Text.ofNat count)

end Resolver

end ShapeFlow
