/-
The dataflow equation. What a resolver shows after a propagation that was not
interrupted is one equation over the final values: a value that no node writes
shows what is declared of it, and an output shows that merged with what its node
infers from what is finally known of its inputs (`dataflow_propagate`). A node
has failed exactly when that inference fails.
-/
import Mathlib
import ShapeFlow.Proofs.Graph.Levels
import ShapeFlow.Proofs.Resolver.Completion
import ShapeFlow.Resolver.Query

namespace ShapeFlow

/-! ## The slots of an inference -/

theorem Registry.length_applyResults (slots : List TensorInfo?) (results : List OutputResult) :
    (applyResults slots results).length = slots.length := by
  fun_induction applyResults slots results with
  | case1 slot slots result results ih => simp [ih]
  | case2 => rfl

/-- An inference returns as many slots as it was given. -/
theorem Registry.length_infer {r : Registry} {op : Text} {opset : Int} {attrs : Attributes}
    {inputs slots outputs : List TensorInfo?} (h : r.infer op opset attrs inputs slots = .ok outputs) :
    outputs.length = slots.length := by
  unfold Registry.infer at h
  split at h
  · cases h
  · simp only at h
    split at h
    · cases h
    · cases h
      exact length_applyResults ..

namespace Resolver

/-- The inference of a node from what is shown of its inputs, into new slots; an
operand that is left out is given as nothing. -/
def inferNode (r : Resolver) (n : Node) : Except InferError (List TensorInfo?) :=
  r.registry.infer n.op r.opset n.attributes
    (n.inputs.map fun v => if v.isEmpty then none else r.info? v)
    (n.outputs.map fun v => if v.isEmpty then none else some {})

/-- A value shows a state: what is known of it, if that is anything, and where it
comes from. -/
def Shows (r : Resolver) (v : Text) (s : ValueState) : Prop :=
  r.info? v = (some s.info).filter TensorInfo.isInformative ∧ r.provenance v = s.provenance

/-- The equation that holds between the values of a resolver. -/
structure Dataflow (r : Resolver) : Prop where
  /-- What no node writes shows what is declared. -/
  unwritten : ∀ v, (∀ i, ¬ r.model.graph.Writes i v) → r.Shows v (r.seeded v)
  /-- So do the outputs of a node that is not of the standard domain, and those of
  one whose inference gives an error, be it that the operator is unsupported. -/
  kept : ∀ n ∈ r.model.graph.nodes, (n.isStandard = true → ∃ e, r.inferNode n = .error e) →
    ∀ v ∈ n.namedOutputs, r.Shows v (r.seeded v)
  /-- Every other output shows the merge of what is declared with its slot. -/
  merged : ∀ n ∈ r.model.graph.nodes, n.isStandard = true → ∀ slots, r.inferNode n = .ok slots →
    ∀ (k : Nat) v, n.outputs[k]? = some v → v.isEmpty = false →
      ∃ slot, slots[k]? = some slot ∧ r.Shows v ((r.seeded v).merge slot).value
  failure : ∀ i n, r.model.graph.nodes[i]? = some n → ∀ e, r.failure? i = some e ↔
    n.isStandard = true ∧ r.inferNode n = .error e ∧ e.isUnsupported = false

theorem shows_state (r : Resolver) (v : Text) : r.Shows v (r.values.state v) := by
  refine ⟨Dict.informative_get? r.values v, ?_⟩
  unfold provenance Dict.state
  cases r.values.get? v <;> rfl

theorem shape?_eq_state (r : Resolver) (v : Text) : r.shape? v = (r.values.state v).info.shape := by
  unfold shape? Dict.state
  cases r.values.get? v <;> rfl

/-! ## An attempt is an inference -/

section Attempt

variable {r : Resolver} {n : Node}

theorem attempt_of_not_standard (hs : n.isStandard = false) (inputs : List TensorInfo?) :
    r.attempt n inputs = .unsupported := by
  simp [attempt, hs]

theorem attempt_of_ok (hs : n.isStandard = true) {outputs : List TensorInfo?}
    (h : r.inferNode n = .ok outputs) : r.attempt n (n.inputInfos r.values) = .inferred outputs := by
  change r.registry.infer n.op r.opset n.attributes (n.inputInfos r.values) _ = _ at h
  simp [attempt, hs, h]

theorem attempt_of_error (hs : n.isStandard = true) {e : InferError}
    (h : r.inferNode n = .error e) : r.attempt n (n.inputInfos r.values) =
      if e.isUnsupported then .unsupported else .failed e := by
  change r.registry.infer n.op r.opset n.attributes (n.inputInfos r.values) _ = _ at h
  simp [attempt, hs, h]

/-- An attempt fails when the inference does, with its error. -/
theorem error?_attempt {e : InferError} : (r.attempt n (n.inputInfos r.values)).error? = some e ↔
    n.isStandard = true ∧ r.inferNode n = .error e ∧ e.isUnsupported = false := by
  cases hs : n.isStandard with
  | false => simp [attempt_of_not_standard hs, Attempt.error?]
  | true =>
    cases hi : r.inferNode n with
    | ok outputs => simp [attempt_of_ok hs hi, Attempt.error?]
    | error e' =>
      rw [attempt_of_error hs hi]
      have hsame : e' = e → e.isUnsupported = e'.isUnsupported := fun h => h ▸ rfl
      cases hu : e'.isUnsupported <;> simpa [Attempt.error?, hu] using hsame

/-- With an error there is nothing on offer. -/
theorem offer_attempt_of_error (h : n.isStandard = true → ∃ e, r.inferNode n = .error e) (v : Text) :
    (r.attempt n (n.inputInfos r.values)).offer n v = none := by
  cases hs : n.isStandard with
  | false => rw [attempt_of_not_standard hs]; rfl
  | true =>
    obtain ⟨e, he⟩ := h hs
    rw [attempt_of_error hs he]
    split <;> rfl

/-- Otherwise an output is offered its slot. -/
theorem offer_attempt_of_ok (hn : n.namedOutputs.Nodup) (hs : n.isStandard = true)
    {slots : List TensorInfo?} (h : r.inferNode n = .ok slots) {k : Nat} {v : Text}
    (hk : n.outputs[k]? = some v) (hv : v.isEmpty = false) :
    slots[k]? = some ((r.attempt n (n.inputInfos r.values)).offer n v) := by
  have hlen : slots.length = n.outputs.length := by simpa using Registry.length_infer h
  have hlt : k < slots.length := hlen ▸ (List.getElem?_eq_some_iff.mp hk).1
  have hslot : slots[k]? = some slots[k] := List.getElem?_eq_getElem hlt
  have hzip : (n.outputs.zip slots)[k]? = some (v, slots[k]) :=
    List.getElem?_zip_eq_some.mpr ⟨hk, hslot⟩
  rw [hslot, attempt_of_ok hs h]
  exact congrArg some (slotIn_of_mem (nodup_slotNames hn slots) (List.mem_of_getElem? hzip) hv).symm

end Attempt

/-! ## The equation -/

/-- The equation in terms of attempts: what is kept of a value is what is declared of it,
merged with what an attempt at its writer offers. -/
structure Solved (r : Resolver) : Prop where
  untouched : ∀ v, (∀ i, ¬ r.model.graph.Writes i v) → r.values.state v = r.seeded v
  merged : ∀ n ∈ r.model.graph.nodes, ∀ v ∈ n.namedOutputs, r.values.state v =
    ((r.seeded v).merge ((r.attempt n (n.inputInfos r.values)).offer n v)).value
  failure : ∀ i n, r.model.graph.nodes[i]? = some n →
    r.failure? i = (r.attempt n (n.inputInfos r.values)).error?

/-- **One whole pass solves the equation.** -/
theorem Complete.solved {r : Resolver} (h : r.Complete) : r.Solved := by
  obtain ⟨ls, run, stop, look, changed, hl, hrun, hvalues, hfailures⟩ := h
  have hsettled := settled_firstPass hl hrun
  obtain ⟨hlayers, hlen⟩ := Graph.layers_of_levels hl
  have hnode : ∀ i n, r.model.graph.nodes[i]? = some n → r.NodeSettled run i n := by
    intro i n hn
    refine hsettled.nodes i ?_ n hn
    exact (hlayers.perm hlen).mem_iff.mpr (List.mem_range.mpr (List.getElem?_eq_some_iff.mp hn).1)
  have hattempt : ∀ n, r.attemptIn run n = r.attempt n (n.inputInfos r.values) := by
    intro n
    rw [attemptIn, hvalues]
  refine ⟨fun v hv => ?_, fun n hn v hv => ?_, fun i n hn => ?_⟩
  · rw [hvalues]
    exact hsettled.untouched v fun i _ => hv i
  · obtain ⟨i, hi⟩ := List.mem_iff_getElem?.mp hn
    rw [← hattempt, ← (hnode i n hi).merged v hv, hvalues]
  · rw [← hattempt, ← (hnode i n hn).failure, failure?, hfailures]

theorem Complete.dataflow {r : Resolver} (h : r.Complete) : r.Dataflow := by
  have hsolved := h.solved
  obtain ⟨ls, -, -, -, -, hl, -⟩ := h
  have hg := Graph.uncontested_of_levels hl
  have hshows : ∀ n ∈ r.model.graph.nodes, ∀ v ∈ n.namedOutputs,
      r.Shows v ((r.seeded v).merge ((r.attempt n (n.inputInfos r.values)).offer n v)).value := by
    intro n hn v hv
    rw [← hsolved.merged n hn v hv]
    exact r.shows_state v
  refine ⟨fun v hv => ?_, fun n hn herr v hv => ?_, fun n hn hs slots hslots k v hk hv => ?_,
    fun i n hn e => ?_⟩
  · rw [← hsolved.untouched v hv]
    exact r.shows_state v
  · have := hshows n hn v hv
    rwa [offer_attempt_of_error herr, ValueState.merge_none] at this
  · obtain ⟨i, hi⟩ := List.mem_iff_getElem?.mp hn
    exact ⟨_, offer_attempt_of_ok (nodup_namedOutputs hg hi) hs hslots hk hv,
      hshows n hn v (Node.mem_namedOutputs.mpr ⟨List.mem_of_getElem? hk, hv⟩)⟩
  · rw [← error?_attempt, hsolved.failure i n hn]

/-- **After a propagation that is not interrupted the values solve the
equation**, with the settings that the resolver had. -/
theorem dataflow_propagate {r : Resolver} (h : r.Reachable) {ls : List (List Nat)}
    (hl : r.model.graph.levels = .ok ls) (stop : Nat → Bool) (hu : (r.propagate stop).Uninterrupted) :
    (r.propagate stop).resolver.Dataflow ∧
      ∃ values failures, (r.propagate stop).resolver = { r with values, failures, propagated := true } := by
  obtain ⟨⟨run, hrun⟩, -⟩ := finished_propagate hl hu
  exact ⟨(h.complete_propagate hl hu).dataflow, run.values, run.failures, hrun⟩

theorem dataflow_mixture : (mixture.propagate fun _ => false).Uninterrupted ∧
    (mixture.propagate fun _ => false).resolver.Dataflow ∧
    ((mixture.propagate fun _ => false).resolver.info? "z") =
      some ⟨some .float32, some [.known 2, .known 12]⟩ ∧
    ((mixture.propagate fun _ => false).resolver.failure? 2).isSome = true := by
  have hr : mixture.Reachable := .withMaxPasses 3 (.ofModel _)
  have hl : mixture.model.graph.levels = .ok [[1], [0], [2, 3]] := by cbv
  have hu := uninterrupted_propagate cancels_mixture
  exact ⟨hu, (dataflow_propagate hr hl _ hu).1, by cbv, by cbv⟩

end Resolver

end ShapeFlow
