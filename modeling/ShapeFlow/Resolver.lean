/-
A resolver holds a model, how its shapes are to be propagated, and what the last
propagation found. Changing a setting that matters for the result makes the
next propagation start anew.
-/
import ShapeFlow.Model
import ShapeFlow.Registry
import ShapeFlow.Value

namespace ShapeFlow

structure Resolver where
  model : Model
  registry : Registry := .standard
  /-- The version that selects inference functions; the latest unless positive. -/
  opset : Int
  /-- How many nodes of a level may be inferred at a time; it changes no result. -/
  parallelism : Int := 1
  maxPasses : Nat := 10
  overrides : Dict TensorInfo := {}
  values : Dict ValueState
  /-- The errors of failed nodes, by the node's place in the graph. -/
  failures : List (Nat × InferError) := []
  /-- Whether values and failures are the result of these settings. -/
  propagated : Bool := false

/-- The state that declarations give their values; a later one wins. -/
def seedDeclarations (values : Dict ValueState) (provenance : Provenance)
    (declarations : List Declaration) : Dict ValueState :=
  declarations.foldl (fun values d =>
    if d.name.isEmpty then values else values.insert d.name ⟨d.info, provenance⟩) values

/-- The state of an overridden value: without an element type of its own it
keeps the declared one. -/
def seedOverride (declared : Dict ValueState) (name : Text) (info : TensorInfo) : ValueState :=
  let element := info.element.or ((declared.get? name).bind (·.info.element))
  ⟨⟨element, info.shape⟩, .override⟩

def seed (g : Graph) (overrides : Dict TensorInfo) : Dict ValueState :=
  let values := seedDeclarations {} .declared g.intermediates
  let values := seedDeclarations values .declared g.outputs
  let values := seedDeclarations values .input g.inputs
  let values := seedDeclarations values .constant g.constants
  overrides.entries.foldl (fun values (name, info) =>
    values.insert name (seedOverride values name info)) values

namespace Resolver

def ofModel (m : Model) : Resolver :=
  { model := m, opset := m.opset.toInt, values := seed m.graph {} }

def withRegistry (r : Resolver) (registry : Registry) : Resolver :=
  { r with registry, propagated := false }

def withOpset (r : Resolver) (opset : Int) : Resolver := { r with opset, propagated := false }

def withParallelism (r : Resolver) (parallelism : Int) : Resolver := { r with parallelism }

/-- There is at least one pass. -/
def withMaxPasses (r : Resolver) (maxPasses : Int) : Resolver :=
  { r with maxPasses := (max maxPasses 1).toNat, propagated := false }

def withOverrides (r : Resolver) (overrides : Dict TensorInfo) : Resolver :=
  { r with overrides, propagated := false }

def failure? (r : Resolver) (index : Nat) : Option InferError := r.failures.lookup index

end Resolver

end ShapeFlow
