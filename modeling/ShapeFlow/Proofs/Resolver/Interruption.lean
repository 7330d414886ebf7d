/-
Interruption. A propagation is interrupted just when a run comes to a level that is
disturbed, by a look for cancellation before or after it or by a function that it calls. The
values and failures are then those of the levels before it, each merged as a whole, and
nothing of the disturbed level is kept (`interrupted_propagate`).
-/
import Mathlib
import ShapeFlow.Proofs.Resolver.Points
import ShapeFlow.Resolver.Query

namespace ShapeFlow.Resolver

/-- What a level makes of a run when it is merged as a whole: every node of it has a result,
found from what was known before the level, and all results are recorded. -/
def mergeLevel (r : Resolver) (run : Run) (level : List (Node × Nat)) : Run :=
  (recordAll run (level.map fun p => (p.1, p.2, r.outcome run p))).1

/-- What is declared, with some levels merged into it one after the other. -/
def mergedRun (r : Resolver) (sequence : List (List (Node × Nat))) : Run :=
  sequence.foldl r.mergeLevel r.start

/-- The levels on the way to a point: all of them for each pass that is over, and those that
are merged in the pass after these. -/
def Point.sequence (p : Point) (levels : List (List (Node × Nat))) : List (List (Node × Nat)) :=
  (List.replicate p.pass levels).flatten ++ levels.take p.merged

/-! ## Findings -/

/-- The same values and failures. -/
structure SameFindings (a b : Run) : Prop where
  values : a.values = b.values
  failures : a.failures = b.failures

theorem SameFindings.refl (a : Run) : SameFindings a a := ⟨rfl, rfl⟩

theorem SameFindings.trans {a b c : Run} (h : SameFindings a b) (h' : SameFindings b c) :
    SameFindings a c := ⟨h.values.trans h'.values, h.failures.trans h'.failures⟩

theorem SameFindings.mergeOutputs {a b : Run} (h : SameFindings a b) (n : Node)
    (slots : List (Text × TensorInfo?)) :
    SameFindings (Resolver.mergeOutputs n a slots).1 (Resolver.mergeOutputs n b slots).1 := by
  induction slots generalizing a b with
  | nil => exact h
  | cons slot slots ih =>
    simp only [Resolver.mergeOutputs]
    split
    · exact ih h
    · exact ih ⟨by rw [h.values], h.failures⟩

theorem SameFindings.record {a b : Run} (h : SameFindings a b) (result : Node × Nat × Attempt) :
    SameFindings (Resolver.record a result).1 (Resolver.record b result).1 := by
  obtain ⟨n, i, attempt⟩ := result
  cases attempt with
  | unsupported =>
    simp only [Resolver.record]
    split <;> split <;> exact ⟨h.values, h.failures⟩
  | failed e =>
    simp only [Resolver.record, h.failures]
    split
    · exact h
    · exact ⟨h.values, rfl⟩
  | inferred outputs => exact h.mergeOutputs n _

theorem SameFindings.recordAll {a b : Run} (h : SameFindings a b)
    (results : List (Node × Nat × Attempt)) :
    SameFindings (Resolver.recordAll a results).1 (Resolver.recordAll b results).1 := by
  induction results generalizing a b with
  | nil => exact h
  | cons result results ih => exact ih (h.record result)

/-- Merging a level adds the same to the same findings. -/
theorem SameFindings.mergeLevel {a b : Run} (h : SameFindings a b) (r : Resolver)
    (level : List (Node × Nat)) : SameFindings (r.mergeLevel a level) (r.mergeLevel b level) := by
  have houtcome : ∀ p, r.outcome a p = r.outcome b p := by
    intro p
    unfold outcome attemptIn
    rw [h.values, h.failures]
  unfold Resolver.mergeLevel
  simp only [houtcome]
  exact h.recordAll _

/-- A level that is reached is merged as a whole. -/
theorem sameFindings_runLevel {r : Resolver} {stop : Nat → Bool} {look : Nat} {run run' : Run}
    {level : List (Node × Nat)} {changed : Bool}
    (h : r.runLevel stop look run level = .reached run' changed) :
    SameFindings run' (r.mergeLevel run level) := by
  obtain ⟨es, -, hes⟩ := runLevel_reached h
  have hsame : SameFindings { run with events := run.events ++ es } run := ⟨rfl, rfl⟩
  have := hsame.recordAll (level.map fun p => (p.1, p.2, r.outcome run p))
  rwa [hes] at this

/-- For a level that is merged every node has a result. -/
theorem Step.results_inferLevel {r : Resolver} {stop : Nat → Bool} {levels : List (List (Node × Nat))}
    {p q : Point} (h : r.Step stop levels p q) {level : List (Node × Nat)}
    (hlevel : levels[p.merged]? = some level) :
    (r.inferLevel p.run level).results = level.map fun x => (x.1, x.2, r.outcome p.run x) := by
  cases h with
  | level hl hrun =>
    rw [hlevel] at hl
    cases hl
    refine Resolver.results_inferLevel (Bool.eq_false_iff.mpr fun hcancelled => ?_)
    rw [cancelled_inferLevel_iff] at hcancelled
    exact GivesUp.not_step ⟨level, hlevel, .inr (.inl hcancelled)⟩ (.level hlevel hrun)
  | pass hmerged =>
    rw [hmerged] at hlevel
    simp at hlevel

/-! ## The levels on the way to a point -/

variable {r : Resolver} {stop : Nat → Bool} {levels : List (List (Node × Nat))}

theorem Point.sequence_next {p : Point} {level : List (Node × Nat)}
    (h : levels[p.merged]? = some level) (changed : Bool) (run : Run) :
    (p.next changed run).sequence levels = p.sequence levels ++ [level] := by
  unfold Point.sequence Point.next
  rw [List.append_assoc, List.take_add_one, h]
  rfl

/-- The first point of a pass has the way of the last point of the pass before it. -/
theorem Point.sequence_pass {p : Point} (h : p.merged = levels.length) (run : Run) :
    ({ pass := p.pass + 1, run } : Point).sequence levels = p.sequence levels := by
  unfold Point.sequence
  rw [h, List.take_length, List.replicate_succ', List.flatten_append]
  simp

/-- **A run has found, at every point, what whole levels give.** -/
theorem Reaches.sameFindings {p : Point} (h : r.Reaches stop levels p) :
    SameFindings p.run (r.mergedRun (p.sequence levels)) := by
  induction h with
  | refl => exact .refl _
  | tail _ hstep ih =>
    cases hstep with
    | @level level _ _ hlevel hrun =>
      rw [Point.sequence_next hlevel, mergedRun, List.foldl_append]
      exact (sameFindings_runLevel hrun).trans (ih.mergeLevel r level)
    | pass hmerged =>
      rw [Point.sequence_pass hmerged]
      exact ⟨ih.values, ih.failures⟩

/-! ## Interrupted propagations -/

/-- A propagation runs, and its run comes to a point whose next level it gives up. -/
structure InterruptedAt (r : Resolver) (stop : Nat → Bool) (ls : List (List Nat)) (p : Point) : Prop where
  fresh : r.propagated = false
  levels : r.model.graph.levels = .ok ls
  reaches : r.Reaches stop (levelNodes r.model.graph ls) p
  givesUp : r.GivesUp stop (levelNodes r.model.graph ls) p

theorem interruptedAt_of_result (hr : r.Reachable)
    (h : (r.propagate stop).result = .error .interrupted) :
    ∃ ls p, r.InterruptedAt stop ls p := by
  have hruns : r.propagated = false ∧ ∃ ls, r.model.graph.levels = .ok ls := by
    have hend := r.ending_propagate stop
    generalize r.propagate stop = propagation at hend h
    cases hend with
    | spared => exact absurd h (failuresError_ne_interrupted r)
    | unordered => cases h
    | interrupted hfresh hl => exact ⟨hfresh, _, hl⟩
    | finished hfresh hl => exact ⟨hfresh, _, hl⟩
  obtain ⟨hfresh, ls, hl⟩ := hruns
  obtain ⟨p, hp, ⟨hup, -⟩ | ⟨-, hu, -⟩⟩ := propagate_at_point hr.coherent.passes hfresh hl stop
  · exact ⟨ls, p, hfresh, hl, hp, hup⟩
  · exact absurd h hu

/-- A run that gives up a level ends there, with what it had found before the level. -/
theorem InterruptedAt.propagate {ls : List (List Nat)} {p : Point} (h : r.InterruptedAt stop ls p)
    (hr : r.Reachable) :
    (r.propagate stop).result = .error .interrupted ∧
      (r.propagate stop).resolver = r.adopt p.run false := by
  obtain ⟨q, hq, ⟨hup, hend⟩ | ⟨hover, -⟩⟩ :=
    propagate_at_point hr.coherent.passes h.fresh h.levels stop
  · obtain rfl := h.reaches.eq_of_stuck hq (fun _ => h.givesUp.not_step) fun _ => hup.not_step
    exact hend
  · obtain rfl := h.reaches.eq_of_stuck hq (fun _ => h.givesUp.not_step) fun _ => hover.not_step
    exact absurd hover h.givesUp.not_over

/-- Before a level is given up, all nodes of every other level had a result. -/
theorem InterruptedAt.results_inferLevel {ls : List (List Nat)} {p : Point}
    (h : r.InterruptedAt stop ls p) {q : Point} (hq : r.Reaches stop (levelNodes r.model.graph ls) q)
    (hne : q ≠ p) {level : List (Node × Nat)}
    (hlevel : (levelNodes r.model.graph ls)[q.merged]? = some level) :
    (r.inferLevel q.run level).results = level.map fun x => (x.1, x.2, r.outcome q.run x) := by
  by_contra hpartial
  refine hne (hq.eq_of_stuck h.reaches (fun x hstep => ?_) fun x => h.givesUp.not_step)
  exact hpartial (hstep.results_inferLevel hlevel)

/-- **An interrupted propagation keeps whole levels and nothing else.** It is interrupted just
when its run gives up a level. Its values and failures are then those of the levels on the
way there, none of whose nodes was passed over, and the next propagation is not spared. -/
theorem interrupted_propagate {r : Resolver} (hr : r.Reachable) (stop : Nat → Bool) :
    ((r.propagate stop).result = .error .interrupted ↔ ∃ ls p, r.InterruptedAt stop ls p) ∧
    ∀ ls p, r.InterruptedAt stop ls p →
      (r.propagate stop).resolver = { r with
        values := (r.mergedRun (p.sequence (levelNodes r.model.graph ls))).values
        failures := (r.mergedRun (p.sequence (levelNodes r.model.graph ls))).failures
        propagated := false } ∧
      ∀ q level, r.Reaches stop (levelNodes r.model.graph ls) q → q ≠ p →
        (levelNodes r.model.graph ls)[q.merged]? = some level →
        (r.inferLevel q.run level).results = level.map fun x => (x.1, x.2, r.outcome q.run x) := by
  refine ⟨⟨interruptedAt_of_result hr, ?_⟩, ?_⟩
  · rintro ⟨ls, p, h⟩
    exact (h.propagate hr).1
  · intro ls p h
    have hfindings := h.reaches.sameFindings
    refine ⟨?_, fun q level hq hne hlevel => h.results_inferLevel hq hne hlevel⟩
    rw [(h.propagate hr).2, adopt, hfindings.values, hfindings.failures]

/-- The resolver of `mixture`, where the operator without a rule has one that cancels. -/
def cancelling : Resolver :=
  mixture.withRegistry (Registry.standard.register "Mystery" 1 ⟨fun _ _ _ => [], true⟩)

/-- A node of the last level has failed when another one cancels, and that failure is not kept. -/
theorem interrupted_cancelling :
    (cancelling.propagate fun _ => false).result = .error .interrupted ∧
    ∃ ls p, cancelling.InterruptedAt (fun _ => false) ls p ∧
      (cancelling.propagate fun _ => false).resolver = { cancelling with
        values := (cancelling.mergedRun (p.sequence (levelNodes cancelling.model.graph ls))).values
        failures := (cancelling.mergedRun (p.sequence (levelNodes cancelling.model.graph ls))).failures
        propagated := false } ∧
      (cancelling.propagate fun _ => false).resolver.failures.length = 0 ∧
      (cancelling.propagate fun _ => false).resolver.info? "z" =
        some ⟨some .float32, some [.known 2, .known 12]⟩ := by
  have hr : cancelling.Reachable := .withRegistry _ (.withMaxPasses 3 (.ofModel _))
  have hresult : (cancelling.propagate fun _ => false).result = .error .interrupted := by cbv
  obtain ⟨hiff, hkept⟩ := interrupted_propagate hr fun _ => false
  obtain ⟨ls, p, hp⟩ := hiff.mp hresult
  exact ⟨hresult, ls, p, hp, (hkept ls p hp).1, by cbv, by cbv⟩

end ShapeFlow.Resolver
