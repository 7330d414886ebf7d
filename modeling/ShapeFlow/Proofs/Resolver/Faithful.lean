/-
What holds of the values at every point of a run, also of one that is interrupted later
(`faithful_along_run`). Constants, overrides and what no node writes are as declared, and so
are the outputs of every node that has failed; only outputs of nodes come to be inferred; and
an element type or a shape, once known, is not lost again.

That the outputs of a failed node are as declared is not kept by the steps alone, since a
node that has been merged must not fail later. What is kept is that no node is tried in the
first pass before its level, and that the later passes change nothing.
-/
import Mathlib
import ShapeFlow.Proofs.Graph.Levels
import ShapeFlow.Proofs.Resolver.Points

namespace ShapeFlow

/-! ## One merge -/

theorem ElementType.isSome_merge {current : Option ElementType} (h : current.isSome)
    (inferred : Option ElementType) : (merge current inferred).value.isSome := by
  unfold merge
  split
  · exact h
  · next hnew =>
    simp only [Bool.or_eq_true, not_or, Bool.not_eq_true, Option.isNone_eq_false_iff] at hnew
    exact hnew.1

theorem Shape?.isSome_merge {current : Shape?} (h : current.isSome) (inferred : Shape?) :
    (merge current inferred).value.isSome := by
  cases current with
  | none => cases h
  | some s =>
    cases inferred with
    | none => rfl
    | some t =>
      simp only [merge]
      split <;> rfl

namespace ValueState

/-- Merging loses neither element type nor shape. -/
theorem isSome_merge (v : ValueState) (inferred : TensorInfo?) :
    (v.info.element.isSome → (v.merge inferred).value.info.element.isSome) ∧
      (v.info.shape.isSome → (v.merge inferred).value.info.shape.isSome) := by
  cases inferred with
  | none => exact ⟨id, id⟩
  | some t =>
    simp only [merge]
    split
    · exact ⟨id, id⟩
    · exact ⟨fun h => ElementType.isSome_merge h _, fun h => Shape?.isSome_merge h _⟩

/-- A merge leaves it where a value comes from, or has it inferred. -/
theorem provenance_merge (v : ValueState) (inferred : TensorInfo?) :
    (v.merge inferred).value.provenance = v.provenance ∨
      (v.merge inferred).value.provenance = .inferred ∧ v.provenance.isAuthoritative = false ∧
        inferred.isSome := by
  cases inferred with
  | none => exact .inl rfl
  | some t =>
    cases hauthority : v.provenance.isAuthoritative with
    | true => exact .inl (by simp [merge, hauthority])
    | false =>
      simp only [merge, hauthority, Bool.false_eq_true, if_false, Merged.map]
      cases (v.info.merge t).changed with
      | true => exact .inr (by simp)
      | false => exact .inl rfl

end ValueState

namespace Resolver

/-! ## Entries that are kept -/

/-- A value keeps its entry where no slot for it has anything new. -/
theorem get?_mergeOutputs (n : Node) (run : Run) {slots : List (Text × TensorInfo?)} {v : Text}
    (h : ∀ t, (v, some t) ∈ slots → v.isEmpty = false →
      ∃ s, run.values.get? v = some s ∧ (s.merge (some t)).value = s) :
    (mergeOutputs n run slots).1.values.get? v = run.values.get? v := by
  induction slots generalizing run with
  | nil => rfl
  | cons slot slots ih =>
    obtain ⟨name, info⟩ := slot
    have hrest := fun t ht => h t (List.mem_cons_of_mem _ ht)
    simp only [mergeOutputs]
    split
    · exact ih run hrest
    · next hskip =>
      simp only [Bool.or_eq_true, not_or, Bool.not_eq_true, Option.isNone_eq_false_iff,
        Option.isSome_iff_exists] at hskip
      obtain ⟨hname, t, rfl⟩ := hskip
      have hkeep : (run.values.insert name (((run.values.get? name).getD {}).merge (some t)).value).get? v =
          run.values.get? v := by
        by_cases hv : v = name
        · subst hv
          obtain ⟨s, hs, hmerge⟩ := h t List.mem_cons_self hname
          rw [Dict.get?_insert_self, hs, Option.getD_some, hmerge]
        · exact Dict.get?_insert_other _ hv _
      refine (ih _ fun t ht he => ?_).trans hkeep
      rw [hkeep]
      exact hrest t ht he

/-- The result of a node leaves the entries of other values alone, and those of constants and
overrides. -/
theorem get?_record (run : Run) (n : Node) (i : Nat) (a : Attempt) {v : Text}
    (h : v ∈ n.namedOutputs → ∃ s, run.values.get? v = some s ∧ s.provenance.isAuthoritative = true) :
    (record run (n, i, a)).1.values.get? v = run.values.get? v := by
  cases a with
  | unsupported =>
    simp only [record]
    split <;> rfl
  | failed e =>
    simp only [record]
    split <;> rfl
  | inferred outputs =>
    refine get?_mergeOutputs n run fun t ht he => ?_
    obtain ⟨s, hs, hauthority⟩ := h (Node.mem_namedOutputs.mpr ⟨(List.of_mem_zip ht).1, he⟩)
    exact ⟨s, hs, ValueState.merge_of_isAuthoritative hauthority _⟩

/-! ## What every result keeps -/

/-- What is kept of what is declared, whatever nodes do. -/
structure Rooted (r : Resolver) (run : Run) : Prop where
  authority : ∀ v, (run.values.state v).provenance.isAuthoritative =
    (r.seeded v).provenance.isAuthoritative
  /-- Constants and overrides are as declared, and so is all that no node writes. -/
  declared : ∀ v, (r.seeded v).provenance.isAuthoritative = true ∨ (∀ i, ¬ r.model.graph.Writes i v) →
    run.values.get? v = (seed r.model.graph r.overrides).get? v
  /-- A value that is no longer from where it was declared is an output that was inferred. -/
  inferred : ∀ v, (run.values.state v).provenance ≠ (r.seeded v).provenance →
    (run.values.state v).provenance = .inferred ∧ (r.seeded v).provenance.isAuthoritative = false ∧
      ∃ i, r.model.graph.Writes i v

theorem rooted_start (r : Resolver) : r.Rooted r.start :=
  ⟨fun _ => rfl, fun _ _ => rfl, fun _ h => absurd rfl h⟩

/-- An authoritative value has an entry. -/
theorem exists_of_isAuthoritative {values : Dict ValueState} {v : Text}
    (h : (values.state v).provenance.isAuthoritative = true) :
    ∃ s, values.get? v = some s ∧ s.provenance.isAuthoritative = true := by
  unfold Dict.state at h
  cases hs : values.get? v with
  | none =>
    rw [hs] at h
    cases h
  | some s =>
    rw [hs] at h
    exact ⟨s, rfl, h⟩

theorem Rooted.record {r : Resolver} {run : Run} (h : r.Rooted run) (hg : r.model.graph.Uncontested)
    {i : Nat} {n : Node} (hn : r.model.graph.nodes[i]? = some n) (a : Attempt) :
    r.Rooted (Resolver.record run (n, i, a)).1 := by
  have hstate := state_record run n i a (nodup_namedOutputs hg hn)
  refine ⟨fun v => ?_, fun v hv => ?_, fun v hv => ?_⟩
  · rw [hstate, ValueState.isAuthoritative_merge]
    exact h.authority v
  · refine (get?_record run n i a fun hout => ?_).trans (h.declared v hv)
    rcases hv with hauthority | hunwritten
    · rw [← h.authority v] at hauthority
      exact exists_of_isAuthoritative hauthority
    · exact absurd ⟨n, hn, hout⟩ (hunwritten i)
  · rw [hstate] at hv ⊢
    rcases ValueState.provenance_merge (run.values.state v) (a.offer n v) with hsame | ⟨hnew, hopen, hoffer⟩
    · rw [hsame] at hv ⊢
      exact h.inferred v hv
    · have hout : v ∈ n.namedOutputs := by
        by_contra hout
        rw [Attempt.offer_eq_none hout] at hoffer
        cases hoffer
      exact ⟨hnew, (h.authority v).symm.trans hopen, i, n, hn, hout⟩

theorem kept_rooted {r : Resolver} (hg : r.model.graph.Uncontested) : r.Kept r.Rooted :=
  ⟨fun _ _ h => ⟨h.authority, h.declared, h.inferred⟩, fun _ _ _ h _ _ hn => h.record hg hn _⟩

/-- What was known of a value is still known, though it may be something else. -/
structure Retains (before after : Run) : Prop where
  element : ∀ v, (before.values.state v).info.element.isSome → (after.values.state v).info.element.isSome
  shape : ∀ v, (before.values.state v).info.shape.isSome → (after.values.state v).info.shape.isSome

theorem kept_retains {r : Resolver} (hg : r.model.graph.Uncontested) (before : Run) :
    r.Kept (Retains before) := by
  refine ⟨fun _ _ h => ⟨h.element, h.shape⟩, fun found run _ h i n hn => ?_⟩
  have hstate := state_record run n i (r.outcome found (n, i)) (nodup_namedOutputs hg hn)
  constructor
  · intro v hv
    rw [hstate]
    exact (ValueState.isSome_merge _ _).1 (h.element v hv)
  · intro v hv
    rw [hstate]
    exact (ValueState.isSome_merge _ _).2 (h.shape v hv)

/-! ## What the first pass keeps -/

/-- Of the nodes at `done`, those that failed have left their outputs as declared; no other
node has failed. -/
structure Undisturbed (r : Resolver) (run : Run) (done : List Nat) : Prop where
  declared : ∀ v, (∀ i ∈ done, r.model.graph.Writes i v → (run.failures.lookup i).isSome) →
    run.values.get? v = (seed r.model.graph r.overrides).get? v
  untried : ∀ i, i ∉ done → run.failures.lookup i = none

theorem undisturbed_start (r : Resolver) : r.Undisturbed r.start [] :=
  ⟨fun _ _ => rfl, fun _ _ => rfl⟩

theorem Undisturbed.withEvents {r : Resolver} {run : Run} {done : List Nat} (h : r.Undisturbed run done)
    (es : List Event) : r.Undisturbed { run with events := es } done := ⟨h.declared, h.untried⟩

theorem Undisturbed.record {r : Resolver} {run : Run} {done : List Nat} (h : r.Undisturbed run done)
    (hg : r.model.graph.Uncontested) {i : Nat} {n : Node} (hn : r.model.graph.nodes[i]? = some n)
    (hi : i ∉ done) (a : Attempt) :
    r.Undisturbed (Resolver.record run (n, i, a)).1 (done ++ [i]) := by
  have hfailure := lookup_record run n i a
  refine ⟨fun v hv => ?_, fun j hj => ?_⟩
  · by_cases hout : v ∈ n.namedOutputs
    · -- the node has failed, and nobody else writes the value
      have hfailed := hv i (by simp) ⟨n, hn, hout⟩
      rw [hfailure, if_pos rfl, h.untried i hi, Option.none_or] at hfailed
      cases a with
      | unsupported | inferred => cases hfailed
      | failed e =>
        have hkeep : (Resolver.record run (n, i, .failed e)).1.values = run.values := by
          simp only [Resolver.record]
          split <;> rfl
        rw [hkeep]
        exact h.declared v fun j hj hw => absurd (hg.writer hw ⟨n, hn, hout⟩ ▸ hj) hi
    · rw [get?_record run n i a fun hout' => absurd hout' hout]
      refine h.declared v fun j hj hw => ?_
      have hji : j ≠ i := fun he => hi (he ▸ hj)
      have := hv j (List.mem_append_left _ hj) hw
      rwa [hfailure, if_neg hji, Option.or_none] at this
  · simp only [List.mem_append, List.mem_singleton, not_or] at hj
    rw [hfailure, if_neg hj.2, Option.or_none]
    exact h.untried j hj.1

theorem Undisturbed.recordAll {r : Resolver} {run : Run} {done : List Nat} (h : r.Undisturbed run done)
    (hg : r.model.graph.Uncontested) {level : List (Node × Nat)} (hnodup : (level.map Prod.snd).Nodup)
    (hlevel : ∀ p ∈ level, r.model.graph.nodes[p.2]? = some p.1 ∧ p.2 ∉ done)
    (result : Node × Nat → Attempt) :
    r.Undisturbed (Resolver.recordAll run (level.map fun p => (p.1, p.2, result p))).1
      (done ++ level.map Prod.snd) := by
  induction level generalizing run done with
  | nil => simpa [Resolver.recordAll] using h
  | cons p level ih =>
    obtain ⟨n, i⟩ := p
    obtain ⟨hnot, hnodup⟩ := List.nodup_cons.mp hnodup
    obtain ⟨hn, hi⟩ := hlevel (n, i) List.mem_cons_self
    have hfirst := h.record hg hn hi (result (n, i))
    have hplaces : done ++ ((n, i) :: level).map Prod.snd = done ++ [i] ++ level.map Prod.snd := by simp
    rw [hplaces]
    refine ih hfirst hnodup fun q hq => ?_
    obtain ⟨hm, hq'⟩ := hlevel q (List.mem_cons_of_mem _ hq)
    refine ⟨hm, ?_⟩
    simp only [List.mem_append, List.mem_singleton, not_or]
    exact ⟨hq', fun he => hnot (List.mem_map.mpr ⟨q, hq, he⟩)⟩

theorem Undisturbed.runLevel {r : Resolver} {run : Run} {done : List Nat} (h : r.Undisturbed run done)
    (hg : r.model.graph.Uncontested) {stop : Nat → Bool} {look : Nat} {run' : Run} {changed : Bool}
    (hrun : r.runLevel stop look run (placed r.model.graph (r.model.graph.readyAfter done)) =
      .reached run' changed) :
    r.Undisturbed run' (done ++ r.model.graph.readyAfter done) := by
  have hsnd : (placed r.model.graph (r.model.graph.readyAfter done)).map Prod.snd =
      r.model.graph.readyAfter done :=
    map_snd_placed fun i hi => (Graph.mem_readyAfter.mp hi).1
  have hnodup := hsnd ▸ Graph.nodup_readyAfter r.model.graph done
  obtain ⟨es, -, hes⟩ := runLevel_reached hrun
  have hrecord := (h.withEvents (run.events ++ es)).recordAll hg hnodup (fun p hp => ?_) (r.outcome run)
  · rwa [hes, hsnd] at hrecord
  · obtain ⟨hp, hn⟩ := mem_placed.mp hp
    exact ⟨hn, (Graph.mem_readyAfter.mp hp).2.1⟩

end Resolver

/-! ## At every point -/

theorem Graph.Layers.closed_take {g : Graph} {done : List Nat} {ls : List (List Nat)}
    (h : g.Layers done ls) (hclosed : g.Closed done) (k : Nat) :
    g.Closed (done ++ (ls.take k).flatten) := by
  induction h generalizing k with
  | stop => simpa using hclosed
  | next _ _ ih =>
    cases k with
    | zero => simpa using hclosed
    | succ k =>
      rw [List.take_succ_cons, List.flatten_cons, ← List.append_assoc]
      exact ih hclosed.append_readyAfter k

namespace Resolver

/-- The places of the nodes that have had their turn by a point. -/
def Point.done (p : Point) (ls : List (List Nat)) : List Nat :=
  if p.pass = 0 then (ls.take p.merged).flatten else ls.flatten

variable {r : Resolver} {ls : List (List Nat)} {stop : Nat → Bool}

/-- The level after a point of the first pass consists of the nodes that are ready then. -/
theorem Point.ready_of_first (hl : r.model.graph.levels = .ok ls) {p : Point} (hp : p.pass = 0)
    {places : List Nat} (hplaces : ls[p.merged]? = some places) :
    places = r.model.graph.readyAfter (p.done ls) ∧ r.model.graph.Closed (p.done ls) := by
  have hlayers := (Graph.layers_of_levels hl).1
  have hclosed : r.model.graph.Closed [] := by simp [Graph.Closed]
  rw [Point.done, if_pos hp]
  exact ⟨(hlayers.getElem? hplaces).2, hlayers.closed_take hclosed p.merged⟩

theorem Point.done_next {p : Point} {places : List Nat} (hplaces : ls[p.merged]? = some places)
    (hp : p.pass = 0) (changed : Bool) (run : Run) :
    (p.next changed run).done ls = p.done ls ++ places := by
  unfold Point.done Point.next
  rw [if_pos hp, if_pos hp, List.take_add_one, hplaces, List.flatten_append]
  simp

/-- A step keeps that the nodes that had their turn are settled, and the others untouched. -/
theorem Step.settled (hl : r.model.graph.levels = .ok ls) {p q : Point}
    (hstep : r.Step stop (levelNodes r.model.graph ls) p q) (h : r.Settled p.run (p.done ls))
    (h' : r.Undisturbed p.run (p.done ls)) :
    r.Settled q.run (q.done ls) ∧ r.Undisturbed q.run (q.done ls) := by
  have hg := Graph.uncontested_of_levels hl
  cases hstep with
  | pass hmerged =>
    have hdone : (if p.pass = 0 then (ls.take p.merged).flatten else ls.flatten) = ls.flatten := by
      rw [hmerged, levelNodes, List.length_map, List.take_length, ite_self]
    rw [Point.done, hdone] at h h'
    exact ⟨h.withEvents _, h'.withEvents _⟩
  | @level level run changed hlevel hrun =>
    rw [levelNodes, List.getElem?_map] at hlevel
    obtain ⟨places, hplaces, rfl⟩ := Option.map_eq_some_iff.mp hlevel
    by_cases hp : p.pass = 0
    · obtain ⟨rfl, hclosed⟩ := Point.ready_of_first hl hp hplaces
      rw [Point.done_next hplaces hp]
      exact ⟨h.runLevel hg hclosed hrun, h'.runLevel hg hrun⟩
    · -- every node has had its turn, so that the level changes nothing
      have hdone : p.done ls = ls.flatten := if_neg hp
      have hdone' : (p.next changed run).done ls = ls.flatten := if_neg hp
      have hpass : r.runLevels stop (p.look (levelNodes r.model.graph ls)) p.run
          (levelNodes r.model.graph [places]) = .reached run (changed || false) := by
        rw [levelNodes_cons]
        simp only [runLevels, placed, hrun]
        rfl
      have hsettled : ∀ i ∈ [places].flatten, ∀ n, r.model.graph.nodes[i]? = some n →
          r.NodeSettled p.run i n := by
        intro i hi n hn
        refine h.nodes i ?_ n hn
        rw [hdone]
        exact List.mem_flatten.mpr ⟨places, List.mem_of_getElem? hplaces, by simpa using hi⟩
      obtain ⟨-, es, -, hsame⟩ := runLevels_of_settled hg hsettled hpass
      rw [hdone', ← hdone]
      subst hsame
      exact ⟨h.withEvents _, h'.withEvents _⟩

/-- **The run:** at every point the nodes that had their turn are settled. -/
theorem Reaches.settled (hl : r.model.graph.levels = .ok ls) {p : Point}
    (h : r.Reaches stop (levelNodes r.model.graph ls) p) :
    r.Settled p.run (p.done ls) ∧ r.Undisturbed p.run (p.done ls) := by
  induction h with
  | refl => exact ⟨r.settled_start, r.undisturbed_start⟩
  | tail _ hstep ih => exact hstep.settled hl ih.1 ih.2

/-! ## The values at every point -/

/-- What holds of the values and failures of a run, compared with what is declared. -/
structure Faithful (r : Resolver) (run : Run) : Prop extends r.Rooted run where
  /-- The outputs of a node that has failed are as declared. -/
  failed : ∀ i, (run.failures.lookup i).isSome → ∀ v, r.model.graph.Writes i v →
    run.values.get? v = (seed r.model.graph r.overrides).get? v

theorem Reaches.faithful (hl : r.model.graph.levels = .ok ls) {p : Point}
    (h : r.Reaches stop (levelNodes r.model.graph ls) p) : r.Faithful p.run := by
  have hg := Graph.uncontested_of_levels hl
  refine ⟨(kept_rooted hg).leads h r.rooted_start, fun i hi v hv => ?_⟩
  refine (h.settled hl).2.declared v fun j _ hj => ?_
  rw [hg.writer hj hv]
  exact hi

/-- **At every point of a run the values are faithful to what is declared, and nothing that was
known at an earlier one is lost.** What a propagation leaves behind, interrupted or not, is what
its run has found at a point that it came to. -/
theorem faithful_along_run {r : Resolver} (hr : r.Reachable) {ls : List (List Nat)}
    (hl : r.model.graph.levels = .ok ls) (stop : Nat → Bool) :
    (∀ p q, r.Reaches stop (levelNodes r.model.graph ls) p →
      r.Leads stop (levelNodes r.model.graph ls) p q → r.Faithful q.run ∧ Retains p.run q.run) ∧
    (r.propagated = false → ∃ q, r.Reaches stop (levelNodes r.model.graph ls) q ∧
      (r.propagate stop).resolver.values = q.run.values ∧
      (r.propagate stop).resolver.failures = q.run.failures) := by
  constructor
  · intro p q hp hq
    have hg := Graph.uncontested_of_levels hl
    have hreaches : r.Reaches stop (levelNodes r.model.graph ls) q := Relation.ReflTransGen.trans hp hq
    exact ⟨hreaches.faithful hl, (kept_retains hg p.run).leads hq ⟨fun _ => id, fun _ => id⟩⟩
  · intro hfresh
    obtain ⟨q, hq, ⟨-, -, hend⟩ | ⟨-, -, hend⟩⟩ := propagate_at_point hr.coherent.passes hfresh hl stop
    · exact ⟨q, hq, by rw [hend, adopt], by rw [hend, adopt]⟩
    · exact ⟨q, hq, by rw [hend, adopt], by rw [hend, adopt]⟩

/-- At the end of a run of `mixture` a node has failed and an output was inferred. -/
theorem faithful_mixture : mixture.model.graph.levels = .ok [[1], [0], [2, 3]] ∧
    ∃ q, mixture.Reaches (fun _ => false) (levelNodes mixture.model.graph [[1], [0], [2, 3]]) q ∧
      mixture.Faithful q.run ∧ Retains mixture.start q.run ∧
      (q.run.failures.lookup 2).isSome ∧ (q.run.values.state "z").provenance = .inferred := by
  have hr : mixture.Reachable := .withMaxPasses 3 (.ofModel _)
  have hl : mixture.model.graph.levels = .ok [[1], [0], [2, 3]] := by cbv
  obtain ⟨hpoints, hend⟩ := faithful_along_run hr hl fun _ => false
  obtain ⟨q, hq, hvalues, hfailures⟩ := hend rfl
  obtain ⟨hfaithful, hretains⟩ := hpoints { run := mixture.start } q .refl hq
  refine ⟨hl, q, hq, hfaithful, hretains, ?_, ?_⟩
  · rw [← hfailures]
    cbv
  · rw [← hvalues]
    cbv

end Resolver

end ShapeFlow
