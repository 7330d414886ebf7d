/-
How far an override reaches. A value is downstream of another one if a node writes it that
reads the other, or something downstream of the other. Overriding a value, or overriding it
otherwise, makes no difference but to the value itself and to what is downstream of it, and
to the failures of the nodes that read these (`override_reaches_downstream`); a node that
writes the value, what it reads and its other outputs are not concerned.

What is not concerned rests on nothing that is: whoever writes such a value reads such values
only. So the solutions of the dataflow equation agree there.
-/
import Mathlib
import ShapeFlow.Proofs.Resolver.Agreement
import ShapeFlow.Proofs.Resolver.Refinement

namespace ShapeFlow

/-- The dictionaries hold the same, but for one key at most. -/
structure Dict.AgreeExcept {α : Type} (x : Text) (d d' : Dict α) : Prop where
  nodup : d.keys.Nodup
  nodup' : d'.keys.Nodup
  get? : ∀ v, v ≠ x → d.get? v = d'.get? v

/-- The override of a value matters to no other value before the run. -/
theorem Dict.AgreeExcept.state_seed {x : Text} {overrides overrides' : Dict TensorInfo}
    (h : overrides.AgreeExcept x overrides') (g : Graph) {v : Text} (hv : v ≠ x) :
    (seed g overrides).state v = (seed g overrides').state v := by
  rw [ShapeFlow.state_seed g h.nodup, ShapeFlow.state_seed g h.nodup', h.get? v hv]

namespace Graph

/-- Written by a node that reads `x`, or by one that reads something downstream of it. -/
inductive Downstream (g : Graph) (x : Text) : Text → Prop
  | reads {n : Node} {v : Text} : n ∈ g.nodes → x ∈ n.namedInputs → v ∈ n.namedOutputs →
      Downstream g x v
  | follows {n : Node} {u v : Text} : n ∈ g.nodes → Downstream g x u → u ∈ n.namedInputs →
      v ∈ n.namedOutputs → Downstream g x v

/-- Neither `x` nor downstream of it. -/
def Apart (g : Graph) (x v : Text) : Prop := v ≠ x ∧ ¬ g.Downstream x v

/-- Whoever writes something apart from `x` reads only what is apart from it. -/
theorem Apart.read {g : Graph} {x v : Text} (h : g.Apart x v) {n : Node} (hn : n ∈ g.nodes)
    (hv : v ∈ n.namedOutputs) {u : Text} (hu : u ∈ n.namedInputs) : g.Apart x u := by
  constructor
  · rintro rfl
    exact h.2 (.reads hn hu hv)
  · intro hdown
    exact h.2 (.follows hn hdown hu hv)

/-- Names whose writers read nothing but these names are apart from any other. -/
theorem apart_of_closed {g : Graph} {x : Text} (names : List Text) (hx : x ∉ names)
    (hread : ∀ n ∈ g.nodes, (∃ v ∈ n.namedOutputs, v ∈ names) → ∀ u ∈ n.namedInputs, u ∈ names)
    {v : Text} (hv : v ∈ names) : g.Apart x v := by
  refine ⟨ne_of_mem_of_not_mem hv hx, fun hdown => ?_⟩
  induction hdown with
  | reads hn hin hout => exact hx (hread _ hn ⟨_, hout, hv⟩ _ hin)
  | follows hn _ hin hout ih => exact ih (hread _ hn ⟨_, hout, hv⟩ _ hin)

end Graph

namespace Resolver

/-- The same model and settings, but for the override of one value. -/
structure AgreeExcept (x : Text) (r r' : Resolver) : Prop where
  model : r.model = r'.model
  registry : r.registry = r'.registry
  opset : r.opset = r'.opset
  overrides : r.overrides.AgreeExcept x r'.overrides

variable {r r' : Resolver} {x : Text}

/-- What is apart from the value is common ground, whatever was found. -/
theorem AgreeExcept.shared (h : AgreeExcept x r r') (run run' : Run) :
    Shared (r.adopt run true) (r'.adopt run' true) (r.model.graph.Apart x) where
  registry := h.registry
  opset := h.opset
  seeded v hv := by
    have hseed := h.overrides.state_seed r.model.graph hv.1
    change (seed r.model.graph r.overrides).state v = (seed r'.model.graph r'.overrides).state v
    rw [hseed, h.model]
  written v _ n _ := by
    change n ∈ r.model.graph.nodes ↔ n ∈ r'.model.graph.nodes
    rw [h.model]
  read v hv n hn hout u hu := hv.read hn hout hu

/-- **An override reaches downstream and nowhere else.** -/
theorem override_reaches_downstream (hr : r.Reachable) (hr' : r'.Reachable) (h : AgreeExcept x r r')
    {ls : List (List Nat)} (hl : r.model.graph.levels = .ok ls) {stop stop' : Nat → Bool}
    (hu : (r.propagate stop).Uninterrupted) (hu' : (r'.propagate stop').Uninterrupted) :
    (∀ v, v ≠ x → ¬ r.model.graph.Downstream x v →
      (r.propagate stop).resolver.info? v = (r'.propagate stop').resolver.info? v ∧
      (r.propagate stop).resolver.provenance v = (r'.propagate stop').resolver.provenance v) ∧
    ∀ i n, r.model.graph.nodes[i]? = some n →
      (∀ u ∈ n.namedInputs, u ≠ x ∧ ¬ r.model.graph.Downstream x u) →
      (r.propagate stop).resolver.failure? i = (r'.propagate stop').resolver.failure? i := by
  have hl' : r'.model.graph.levels = .ok ls := h.model ▸ hl
  have hsolved := (hr.complete_propagate hl hu).solved
  have hsolved' := (hr'.complete_propagate hl' hu').solved
  obtain ⟨⟨run, hrun⟩, -⟩ := finished_propagate hl hu
  obtain ⟨⟨run', hrun'⟩, -⟩ := finished_propagate hl' hu'
  rw [hrun] at hsolved ⊢
  rw [hrun'] at hsolved' ⊢
  have hshared := h.shared run run'
  have horder : (r.adopt run true).model.graph.Orderable := ⟨ls, hl⟩
  constructor
  · intro v hv hdown
    have hstate := hsolved.state_eq hsolved' horder hshared v ⟨hv, hdown⟩
    exact ⟨info?_of_state_eq hstate, provenance_of_state_eq hstate⟩
  · intro i n hn hread
    have hn' : r'.model.graph.nodes[i]? = some n := h.model ▸ hn
    exact hsolved.failure?_eq hsolved' horder hshared hn hn' hread

/-- Two branches from one input; the second one ends in a node that fails. -/
def branched : Resolver := ofModel { graph := {
  inputs := [⟨"x", ⟨some .float32, some [.known 2, .known 3, .known 4]⟩⟩]
  nodes := [
    { op := "Flatten", inputs := ["x"], outputs := ["y"] },
    { op := "Dropout", inputs := ["y"], outputs := ["z"] },
    { op := "Dropout", inputs := ["x"], outputs := ["s"] },
    { op := "Flatten", inputs := ["s"], outputs := ["t"], attributes := ⟨[("axis", .int 7)]⟩ }] } }

/-- An override inside the first branch. -/
def shortened : Dict TensorInfo := ⟨[("y", ⟨none, some [.known 5]⟩)]⟩

theorem cancels_branched : ∀ n ∈ branched.model.graph.nodes, branched.cancels n = false := by
  decide +kernel

theorem agreeExcept_branched : AgreeExcept "y" branched (branched.withOverrides shortened) where
  model := rfl
  registry := rfl
  opset := rfl
  overrides := {
    nodup := by decide
    nodup' := by decide
    get? := fun _ hv => (if_neg hv.symm).symm }

/-- The second branch keeps its shape and its failure; what follows the override does not. -/
theorem override_reaches_branched :
    (branched.propagate fun _ => false).Uninterrupted ∧
    (branched.propagate fun _ => false).resolver.info? "s" =
      ((branched.withOverrides shortened).propagate fun _ => false).resolver.info? "s" ∧
    (branched.propagate fun _ => false).resolver.failure? 3 =
      ((branched.withOverrides shortened).propagate fun _ => false).resolver.failure? 3 ∧
    ((branched.propagate fun _ => false).resolver.failure? 3).isSome = true ∧
    (branched.propagate fun _ => false).resolver.info? "z" =
      some ⟨some .float32, some [.known 2, .known 12]⟩ ∧
    ((branched.withOverrides shortened).propagate fun _ => false).resolver.info? "z" =
      some ⟨none, some [.known 5]⟩ := by
  have hr : branched.Reachable := .ofModel _
  have hl : branched.model.graph.levels = .ok [[0, 2], [1, 3]] := by cbv
  have hu := uninterrupted_propagate cancels_branched
  have hu' : ((branched.withOverrides shortened).propagate fun _ => false).Uninterrupted :=
    uninterrupted_propagate cancels_branched
  obtain ⟨hsame, hfails⟩ := override_reaches_downstream hr (hr.withOverrides shortened)
    agreeExcept_branched hl hu hu'
  have happart : branched.model.graph.Apart "y" "s" :=
    Graph.apart_of_closed ["x", "s"] (by decide) (by decide) (by decide)
  refine ⟨hu, (hsame "s" happart.1 happart.2).1, hfails 3 _ rfl ?_, by cbv, by cbv, by cbv⟩
  intro u hin
  obtain rfl := List.mem_singleton.mp hin
  exact happart

end Resolver

end ShapeFlow
