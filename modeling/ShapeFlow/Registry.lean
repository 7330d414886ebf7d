/-
The registry of inference functions. Functions are registered for an operator
since a version; a lookup takes the newest that is not newer than the version
asked for, and the newest of all for a version that is not positive.
-/
import ShapeFlow.Inference.Result
import ShapeFlow.Operator.Window
import ShapeFlow.Operator.Transposed
import ShapeFlow.Operator.RegionPool
import ShapeFlow.Operator.GlobalPool
import ShapeFlow.Operator.Unchanged
import ShapeFlow.Operator.Flatten

namespace ShapeFlow

/-- An inference function, and whether calling it cancels the propagation that
calls it. -/
structure Operator where
  infer : InferenceFn
  cancels : Bool := false

structure Registry where
  /-- The functions of each operator by increasing version. -/
  versions : Dict (List (Int × Operator)) := {}

inductive InferError where
  | unsupported (op : Text) (opset : Int)
  | failed (op : Text) (fault : Fault)

def InferError.message : InferError → Text
  | .unsupported op opset =>
    op ++ " (opset version " ++ Text.ofInt opset ++ "): operator not supported for shape inference"
  | .failed op fault => op ++ ": " ++ fault.message

/-- Whether the error says no more than that the operator is not supported. -/
def InferError.isUnsupported : InferError → Bool
  | .unsupported _ _ | .failed _ (.declined _) => true
  | .failed _ _ => false

namespace Registry

def empty : Registry := {}

/-- Puts a function into its place; one of the same version is replaced. -/
def place (since : Int) (f : Operator) : List (Int × Operator) → List (Int × Operator)
  | [] => [(since, f)]
  | (v, g) :: rest =>
    if v < since then (v, g) :: place since f rest
    else if v = since then (since, f) :: rest
    else (since, f) :: (v, g) :: rest

def register (r : Registry) (op : Text) (since : Int) (f : Operator) : Registry :=
  ⟨r.versions.insert op (place since f ((r.versions.get? op).getD []))⟩

def lookup (r : Registry) (op : Text) (opset : Int) : Option Operator :=
  let versions := (r.versions.get? op).getD []
  let eligible := if opset ≤ 0 then versions else versions.filter (·.1 ≤ opset)
  eligible.getLast?.map Prod.snd

def ops (r : Registry) : List Text := Text.sort r.versions.keys

/-- Writes a result into an output slot: both element type and shape if it is
resolved, else the element type if it is known. A slot of an omitted output
stays empty. -/
def applyResult (slot : TensorInfo?) (result : OutputResult) : TensorInfo? :=
  slot.map fun info =>
    match result.outcome with
    | .resolved => result.info
    | .unresolved =>
      match result.info.element with
      | some t => { info with element := some t }
      | none => info
    | .failed _ => info

/-- Writes results into the slots in order; slots without a result are kept. -/
def applyResults : List TensorInfo? → List OutputResult → List TensorInfo?
  | slot :: slots, result :: results => applyResult slot result :: applyResults slots results
  | slots, _ => slots

/-- Runs the inference of an operator and writes the results into the slots. If
any result failed, the first failure is the error and no slot is written. -/
def infer (r : Registry) (op : Text) (opset : Int) (attrs : Attributes) (inputs slots : List TensorInfo?) :
    Except InferError (List TensorInfo?) :=
  match r.lookup op opset with
  | none => .error (.unsupported op opset)
  | some f =>
    let results := f.infer attrs inputs slots.length
    match results.findSome? fun result => result.outcome.fault? with
    | some fault => .error (.failed op fault)
    | none => .ok (applyResults slots results)

def registerRule (r : Registry) (op : Text) (since : Int) (rule : ShapeRule) : Registry :=
  r.register op since ⟨rule.infer op, false⟩

/-- The rules of this library: operator, first version, rule. -/
def standardRules : List (Text × Int × ShapeRule) := [
  ("Conv", 1, Window.rule .convolution),
  ("ConvTranspose", 1, Transposed.rule),
  ("AveragePool", 1, Window.rule .pooling),
  ("AveragePool", 7, Window.rule .pooling),
  ("MaxPool", 1, Window.rule .pooling),
  ("LpPool", 1, Window.rule .pooling),
  ("LpPool", 2, Window.rule .pooling),
  ("MaxRoiPool", 1, RegionPool.rule),
  ("GlobalAveragePool", 1, GlobalPool.rule),
  ("GlobalMaxPool", 1, GlobalPool.rule),
  ("GlobalLpPool", 1, GlobalPool.rule),
  ("GlobalLpPool", 2, GlobalPool.rule),
  ("BatchNormalization", 7, Unchanged.rule),
  ("InstanceNormalization", 6, Unchanged.rule),
  ("LpNormalization", 1, Unchanged.rule),
  ("Dropout", 7, Unchanged.rule),
  ("LRN", 1, Unchanged.rule),
  ("Flatten", 1, Flatten.rule)]

def standard : Registry :=
  standardRules.foldl (fun r (op, since, rule) => r.registerRule op since rule) empty

end Registry

end ShapeFlow
