/-
When two resolvers agree. The dataflow equation has one solution: by induction along the
nodes, resolvers that solve it and start from the same agree on every value that rests on
nothing else (`Solved.state_eq`), and on the failures of the nodes that read such values
(`Solved.failure?_eq`). They may differ in their graphs elsewhere, and in the order of the
nodes. From this, the order of the nodes does not matter (`propagate_reordered`).
-/
import Mathlib
import ShapeFlow.Proofs.Graph.Orderable
import ShapeFlow.Proofs.Resolver.Dataflow
import ShapeFlow.Proofs.Resolver.History

namespace ShapeFlow

namespace Resolver

/-! ## Common ground -/

/-- The rules are the same, and so is what the values of a set rest on: what is declared
of them, and the nodes that write them, which read no others. -/
structure Shared (r r' : Resolver) (S : Text → Prop) : Prop where
  registry : r.registry = r'.registry
  opset : r.opset = r'.opset
  seeded : ∀ v, S v → r.seeded v = r'.seeded v
  written : ∀ v, S v → ∀ n, v ∈ n.namedOutputs →
    (n ∈ r.model.graph.nodes ↔ n ∈ r'.model.graph.nodes)
  read : ∀ v, S v → ∀ n ∈ r.model.graph.nodes, v ∈ n.namedOutputs → ∀ u ∈ n.namedInputs, S u

variable {r r' : Resolver} {S : Text → Prop}

/-- Attempts at a node from the same knowledge are the same. -/
theorem Shared.attempt_eq (hs : Shared r r' S) {n : Node}
    (h : ∀ v ∈ n.namedInputs, r.values.state v = r'.values.state v) :
    r.attempt n (n.inputInfos r.values) = r'.attempt n (n.inputInfos r'.values) := by
  rw [Node.inputInfos_congr h, attempt_congr hs.registry hs.opset]

/-- **Solutions agree on common ground.** -/
theorem Solved.state_eq (h : r.Solved) (h' : r'.Solved) (hg : r.model.graph.Orderable)
    (hs : Shared r r' S) (v : Text) : S v → r.values.state v = r'.values.state v := by
  induction v using Graph.value_induction hg with
  | step v ih =>
    intro hv
    by_cases hw : ∃ n ∈ r.model.graph.nodes, v ∈ n.namedOutputs
    · obtain ⟨n, hn, hout⟩ := hw
      have hinputs : ∀ u ∈ n.namedInputs, r.values.state u = r'.values.state u := fun u hu =>
        ih n hn hout u hu (hs.read v hv n hn hout u hu)
      rw [h.merged n hn v hout, h'.merged n ((hs.written v hv n hout).mp hn) v hout, hs.seeded v hv,
        hs.attempt_eq hinputs]
    · -- no node of either graph writes the value
      have hnone : ∀ i, ¬ r.model.graph.Writes i v := fun i ⟨n, hn, hout⟩ =>
        hw ⟨n, List.mem_of_getElem? hn, hout⟩
      have hnone' : ∀ i, ¬ r'.model.graph.Writes i v := fun i ⟨n, hn, hout⟩ =>
        hw ⟨n, (hs.written v hv n hout).mpr (List.mem_of_getElem? hn), hout⟩
      rw [h.untouched v hnone, h'.untouched v hnone', hs.seeded v hv]

theorem Solved.failure?_eq (h : r.Solved) (h' : r'.Solved) (hg : r.model.graph.Orderable)
    (hs : Shared r r' S) {i j : Nat} {n : Node} (hi : r.model.graph.nodes[i]? = some n)
    (hj : r'.model.graph.nodes[j]? = some n) (hread : ∀ u ∈ n.namedInputs, S u) :
    r.failure? i = r'.failure? j := by
  rw [h.failure i n hi, h'.failure j n hj,
    hs.attempt_eq fun u hu => h.state_eq h' hg hs u (hread u hu)]

theorem info?_of_state_eq {v : Text} (h : r.values.state v = r'.values.state v) :
    r.info? v = r'.info? v := by
  rw [(r.shows_state v).1, (r'.shows_state v).1, h]

theorem provenance_of_state_eq {v : Text} (h : r.values.state v = r'.values.state v) :
    r.provenance v = r'.provenance v := by
  rw [(r.shows_state v).2, (r'.shows_state v).2, h]

/-! ## After any calls -/

theorem Reachable.apply (h : r.Reachable) (c : Call) : (c.apply r).Reachable := by
  cases c with
  | registry rules => exact h.withRegistry rules
  | opset version => exact h.withOpset version
  | parallelism limit => exact h.withParallelism limit
  | maxPasses bound => exact h.withMaxPasses bound
  | overrides infos => exact h.withOverrides infos
  | propagate stop => exact h.propagate stop

theorem Reachable.foldl (h : r.Reachable) (calls : List Call) :
    (calls.foldl Call.apply r).Reachable := by
  induction calls generalizing r with
  | nil => exact h
  | cons c calls ih => exact ih (h.apply c)

theorem reachable_history (m : Model) (calls : List Call) : (history m calls).Reachable :=
  (Reachable.ofModel m).foldl calls

/-- A resolver keeps track of some settings, however it came about. -/
theorem Reachable.tracks (h : r.Reachable) : ∃ s, Tracks r.model s r := by
  have hcall : ∀ {r : Resolver}, (∃ m s, Tracks m s r) → ∀ c, ∃ m s, Tracks m s (Call.apply r c) := by
    rintro r ⟨m, s, ht⟩ c
    exact ⟨m, s.set c, ht.apply c⟩
  suffices ∃ m s, Tracks m s r by
    obtain ⟨m, s, ht⟩ := this
    exact ⟨s, ht.model ▸ ht⟩
  induction h with
  | ofModel m => exact ⟨m, _, tracks_ofModel m⟩
  | withRegistry rules _ ih => exact hcall ih (.registry rules)
  | withOpset version _ ih => exact hcall ih (.opset version)
  | withParallelism limit _ ih => exact hcall ih (.parallelism limit)
  | withMaxPasses bound _ ih => exact hcall ih (.maxPasses bound)
  | withOverrides infos _ ih => exact hcall ih (.overrides infos)
  | propagate stop _ ih => exact hcall ih (.propagate stop)

/-! ## The order of the nodes -/

end Resolver

/-- The model with these nodes in place of its own. -/
def Model.withNodes (m : Model) (nodes : List Node) : Model :=
  { m with graph := { m.graph with nodes } }

namespace Resolver

/-- Propagations of two lists of nodes tell the same of every value and of every node, and
give an error both or neither. -/
structure Propagation.Matches (nodes nodes' : List Node) (p p' : Propagation) : Prop where
  info : ∀ v, p.resolver.info? v = p'.resolver.info? v
  provenance : ∀ v, p.resolver.provenance v = p'.resolver.provenance v
  failure : ∀ i j n, nodes[i]? = some n → nodes'[j]? = some n →
    p.resolver.failure? i = p'.resolver.failure? j
  result : p.result = .ok () ↔ p'.result = .ok ()

variable {m : Model} {nodes : List Node} {s : Settings}

/-- All values are common to two orders of the nodes. -/
theorem Tracks.shared (h : Tracks (m.withNodes nodes) s r) (h' : Tracks m s r')
    (hperm : nodes.Perm m.graph.nodes) : Shared r r' fun _ => True where
  registry := h.registry.trans h'.registry.symm
  opset := h.opset.trans h'.opset.symm
  seeded v _ := by
    unfold Resolver.seeded
    rw [h.model, h'.model, h.overrides, h'.overrides]
    rfl
  written v _ n _ := by
    rw [h.model, h'.model]
    exact hperm.mem_iff
  read _ _ _ _ _ _ _ := trivial

theorem Tracks.matches_of_unordered (h : Tracks (m.withNodes nodes) s r) (h' : Tracks m s r')
    {e e' : GraphError} (he : (m.withNodes nodes).graph.levels = .error e)
    (he' : m.graph.levels = .error e') (stop stop' : Nat → Bool) :
    Propagation.Matches nodes m.graph.nodes (r.propagate stop) (r'.propagate stop') := by
  rw [h.propagate_of_unordered he, h'.propagate_of_unordered he']
  obtain ⟨hvalues, hfailures⟩ := h.unordered e he
  obtain ⟨hvalues', hfailures'⟩ := h'.unordered e' he'
  have hstate : ∀ v, r.values.state v = r'.values.state v := by
    intro v
    rw [hvalues, hvalues']
    rfl
  refine ⟨fun v => info?_of_state_eq (hstate v), fun v => provenance_of_state_eq (hstate v),
    fun i j _ _ _ => ?_, by simp⟩
  rw [failure?, failure?, hfailures, hfailures']
  rfl

theorem Tracks.matches_of_ordered (h : Tracks (m.withNodes nodes) s r) (h' : Tracks m s r')
    (hr : r.Reachable) (hr' : r'.Reachable) (hperm : nodes.Perm m.graph.nodes)
    {ls ls' : List (List Nat)} (hl : (m.withNodes nodes).graph.levels = .ok ls)
    (hl' : m.graph.levels = .ok ls') {stop stop' : Nat → Bool}
    (hu : (r.propagate stop).Uninterrupted) (hu' : (r'.propagate stop').Uninterrupted) :
    Propagation.Matches nodes m.graph.nodes (r.propagate stop) (r'.propagate stop') := by
  have hgraph : r.model.graph.levels = .ok ls := by rw [h.model]; exact hl
  have hgraph' : r'.model.graph.levels = .ok ls' := by rw [h'.model]; exact hl'
  have hsolved := (hr.complete_propagate hgraph hu).solved
  have hsolved' := (hr'.complete_propagate hgraph' hu').solved
  have hshared := (h.propagate stop).shared (h'.propagate stop') hperm
  have hmodel := (h.propagate stop).model
  have hmodel' := (h'.propagate stop').model
  have horderable : (r.propagate stop).resolver.model.graph.Orderable := ⟨ls, by rw [hmodel]; exact hl⟩
  have hstate := fun v => hsolved.state_eq hsolved' horderable hshared v trivial
  have hfailure : ∀ i j n, nodes[i]? = some n → m.graph.nodes[j]? = some n →
      (r.propagate stop).resolver.failure? i = (r'.propagate stop').resolver.failure? j := by
    intro i j n hi hj
    exact hsolved.failure?_eq hsolved' horderable hshared (by rw [hmodel]; exact hi)
      (by rw [hmodel']; exact hj) fun _ _ => trivial
  refine ⟨fun v => info?_of_state_eq (hstate v), fun v => provenance_of_state_eq (hstate v), hfailure, ?_⟩
  rw [(finished_propagate hgraph hu).2, (finished_propagate hgraph' hu').2, failuresError_eq_ok,
    failuresError_eq_ok, hmodel, hmodel']
  constructor
  · intro hnone j n hj
    obtain ⟨i, hi⟩ := List.mem_iff_getElem?.mp (hperm.mem_iff.mpr (List.mem_of_getElem? hj))
    rw [← hfailure i j n hi hj]
    exact hnone i n hi
  · intro hnone i n hi
    obtain ⟨j, hj⟩ := List.mem_iff_getElem?.mp (hperm.mem_iff.mp (List.mem_of_getElem? hi))
    rw [hfailure i j n hi hj]
    exact hnone j n hj

/-- **The order of the nodes does not matter.** A graph has levels in every order of its
nodes or in none. Resolvers of two orders that came to the same settings, by whatever
calls, match after propagations that come to their end. -/
theorem propagate_reordered (m : Model) {nodes : List Node} (hperm : nodes.Perm m.graph.nodes) :
    ((m.withNodes nodes).graph.Orderable ↔ m.graph.Orderable) ∧
    ∀ calls calls', Settings.given (m.withNodes nodes) calls = Settings.given m calls' →
      ∀ stop stop', ((history (m.withNodes nodes) calls).propagate stop).Uninterrupted →
        ((history m calls').propagate stop').Uninterrupted →
        Propagation.Matches nodes m.graph.nodes ((history (m.withNodes nodes) calls).propagate stop)
          ((history m calls').propagate stop') := by
  have horder : (m.withNodes nodes).graph.Orderable ↔ m.graph.Orderable :=
    Graph.orderable_reorder hperm
  refine ⟨horder, fun calls calls' hsettings stop stop' hu hu' => ?_⟩
  have h := tracks_history (m.withNodes nodes) calls
  rw [hsettings] at h
  have h' := tracks_history m calls'
  cases hl : (m.withNodes nodes).graph.levels with
  | ok ls =>
    obtain ⟨ls', hl'⟩ := horder.mp ⟨ls, hl⟩
    exact h.matches_of_ordered h' (reachable_history _ _) (reachable_history _ _) hperm hl hl' hu hu'
  | error e =>
    cases hl' : m.graph.levels with
    | ok ls' =>
      obtain ⟨ls, hok⟩ := horder.mpr ⟨ls', hl'⟩
      rw [hl] at hok
      cases hok
    | error e' => exact h.matches_of_unordered h' hl hl' stop stop'

/-- The nodes of `mixture` from the last to the first. -/
theorem propagate_reordered_mixture :
    let backwards := mixture.model.withNodes mixture.model.graph.nodes.reverse
    backwards.graph.levels = .ok [[2], [3], [0, 1]] ∧
    mixture.model.graph.levels = .ok [[1], [0], [2, 3]] ∧
    ((history backwards []).propagate fun _ => false).Uninterrupted ∧
    ((history mixture.model []).propagate fun _ => false).Uninterrupted ∧
    Propagation.Matches mixture.model.graph.nodes.reverse mixture.model.graph.nodes
      ((history backwards []).propagate fun _ => false)
      ((history mixture.model []).propagate fun _ => false) := by
  intro backwards
  have hu : ((history backwards []).propagate fun _ => false).Uninterrupted :=
    uninterrupted_propagate fun n hn => cancels_mixture n (List.mem_reverse.mp hn)
  have hu' : ((history mixture.model []).propagate fun _ => false).Uninterrupted :=
    uninterrupted_propagate cancels_mixture
  exact ⟨by cbv, by cbv, hu, hu', (propagate_reordered mixture.model (List.reverse_perm _)).2 [] []
    rfl _ _ hu hu'⟩

end Resolver

end ShapeFlow
