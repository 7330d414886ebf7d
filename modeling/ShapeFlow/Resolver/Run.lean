/-
Propagation. A run starts from the declared values and goes over the levels of
the graph, in passes, until a pass changes nothing. All nodes of a level are
inferred from the values before the level; then their results are merged. A run
looks for cancellation before and after the inference of every level, and an
interrupted run keeps exactly the levels that it had merged.
-/
import ShapeFlow.Event
import ShapeFlow.Graph.Levels
import ShapeFlow.Resolver

namespace ShapeFlow

inductive PropagateError where
  | graph (e : GraphError)
  | interrupted
  /-- How many nodes failed, the label of the first and its error. -/
  | failures (count : Nat) (label : Text) (first : InferError)

def PropagateError.message : PropagateError → Text
  | .graph e => e.message
  | .interrupted => "shape propagation interrupted: context canceled"
  | .failures count label first =>
    "shape inference failed for " ++ Text.ofNat count ++ " node(s), first failure in node " ++
      label ++ ": " ++ first.message

structure Run where
  values : Dict ValueState
  failures : List (Nat × InferError) := []
  /-- The operators that were reported as unsupported. -/
  reported : List Text := []
  events : List Event := []

inductive Attempt where
  | unsupported
  | failed (error : InferError)
  | inferred (outputs : List TensorInfo?)

/-- What is known about the inputs of a node; nothing about those left out. -/
def Node.inputInfos (n : Node) (values : Dict ValueState) : List TensorInfo? :=
  n.inputs.map fun name =>
    if name.isEmpty then none
    else ((values.get? name).map ValueState.info).filter TensorInfo.isInformative

namespace Resolver

/-- Infers one node. Nodes of other domains are not supported. -/
def attempt (r : Resolver) (n : Node) (inputs : List TensorInfo?) : Attempt :=
  if !n.isStandard then .unsupported
  else
    let slots := n.outputs.map fun name => if name.isEmpty then none else some {}
    match r.registry.infer n.op r.opset n.attributes inputs slots with
    | .error e => if e.isUnsupported then .unsupported else .failed e
    | .ok outputs => .inferred outputs

def cancels (r : Resolver) (n : Node) : Bool :=
  n.isStandard && (r.registry.lookup n.op r.opset).any Operator.cancels

structure LevelResults where
  results : List (Node × Nat × Attempt) := []
  events : List Event := []
  cancelled : Bool := false

/-- Infers the nodes of a level in order, except those that failed before. None
is inferred after one that cancels the run. -/
def inferLevel (r : Resolver) (run : Run) : List (Node × Nat) → LevelResults
  | [] => {}
  | (n, i) :: rest =>
    match run.failures.lookup i with
    | some error =>
      let tail := inferLevel r run rest
      { tail with results := (n, i, .failed error) :: tail.results }
    | none =>
      let inputs := n.inputInfos run.values
      let result := r.attempt n inputs
      let events :=
        match result with
        | .inferred outputs => [Event.inferred n inputs outputs]
        | _ => []
      if r.cancels n then { events, cancelled := true }
      else
        let tail := inferLevel r run rest
        { tail with results := (n, i, result) :: tail.results, events := events ++ tail.events }

def mergeOutputs (n : Node) (run : Run) : List (Text × TensorInfo?) → Run × Bool
  | [] => (run, false)
  | (name, info) :: rest =>
    if name.isEmpty || info.isNone then mergeOutputs n run rest
    else
      let before := (run.values.get? name).getD {}
      let merged := before.merge info
      let events := if merged.conflict then [Event.conflict n info name before.info] else []
      let run := { run with
        values := run.values.insert name merged.value, events := run.events ++ events }
      let (run, changed) := mergeOutputs n run rest
      (run, merged.changed || changed)

/-- Records the result of one node; tells whether a value changed. -/
def record (run : Run) : Node × Nat × Attempt → Run × Bool
  | (n, _, .unsupported) =>
    if run.reported.contains n.op then (run, false)
    else
      ({ run with
        reported := n.op :: run.reported
        events := run.events ++ [.unsupported n.op n.domain] }, false)
  | (n, i, .failed error) =>
    if (run.failures.lookup i).isSome then (run, false)
    else
      ({ run with
        failures := run.failures ++ [(i, error)]
        events := run.events ++ [.failed n error] }, false)
  | (n, _, .inferred outputs) => mergeOutputs n run (n.outputs.zip outputs)

def recordAll (run : Run) : List (Node × Nat × Attempt) → Run × Bool
  | [] => (run, false)
  | result :: rest =>
    let (run, changed) := record run result
    let (run, changed') := recordAll run rest
    (run, changed || changed')

inductive Progress where
  | interrupted (run : Run)
  | reached (run : Run) (changed : Bool)

/-- One level; `stop` says what the run sees at its n-th look for cancellation. -/
def runLevel (r : Resolver) (stop : Nat → Bool) (look : Nat) (run : Run) (level : List (Node × Nat)) :
    Progress :=
  if stop look then .interrupted run
  else
    let inferred := r.inferLevel run level
    let run := { run with events := run.events ++ inferred.events }
    if inferred.cancelled || stop (look + 1) then .interrupted run
    else
      let (run, changed) := recordAll run inferred.results
      .reached run changed

def runLevels (r : Resolver) (stop : Nat → Bool) (look : Nat) (run : Run) :
    List (List (Node × Nat)) → Progress
  | [] => .reached run false
  | level :: rest =>
    match r.runLevel stop look run level with
    | .interrupted run => .interrupted run
    | .reached run changed =>
      match runLevels r stop (look + 2) run rest with
      | .interrupted run => .interrupted run
      | .reached run changed' => .reached run (changed || changed')

/-- Passes until one changes nothing, or none is left. -/
def runPasses (r : Resolver) (stop : Nat → Bool) (levels : List (List (Node × Nat))) :
    Nat → Nat → Run → Progress
  | 0, _, run => .reached run false
  | left + 1, pass, run =>
    match r.runLevels stop (2 * levels.length * pass) run levels with
    | .interrupted run => .interrupted run
    | .reached run changed =>
      let run := { run with events := run.events ++ [.passDone pass changed] }
      if changed then runPasses r stop levels left (pass + 1) run else .reached run false

def levelNodes (g : Graph) (levels : List (List Nat)) : List (List (Node × Nat)) :=
  levels.map fun level => level.filterMap fun i => (g.nodes[i]?).map fun n => (n, i)

def failuresError (r : Resolver) : Except PropagateError Unit :=
  let first := r.model.graph.nodes.zipIdx.findSome? fun (n, i) =>
    (r.failure? i).map fun error => (n.label, error)
  match first with
  | none => .ok ()
  | some (label, error) => .error (.failures r.failures.length label error)

structure Propagation where
  resolver : Resolver
  result : Except PropagateError Unit
  events : List Event := []

/-- Propagates element types and shapes through the graph. Nothing is done if
that was done with the same settings. -/
def propagate (r : Resolver) (stop : Nat → Bool) : Propagation :=
  if r.propagated then ⟨r, r.failuresError, []⟩
  else
    match r.model.graph.levels with
    | .error e => ⟨r, .error (.graph e), []⟩
    | .ok levels =>
      let start : Run := { values := seed r.model.graph r.overrides }
      match r.runPasses stop (levelNodes r.model.graph levels) r.maxPasses 0 start with
      | .interrupted run =>
        ⟨{ r with values := run.values, failures := run.failures }, .error .interrupted, run.events⟩
      | .reached run _ =>
        let r := { r with values := run.values, failures := run.failures, propagated := true }
        ⟨r, r.failuresError, run.events⟩

end Resolver

end ShapeFlow
