/-
Invariants of runs. A property that events do not concern, and that the recording of
each result keeps, holds of a run however far it comes, whether it is interrupted or
reaches its end (`Kept.runPasses`). The first use of it: as long as no conflict is
met, nothing that is declared is lost (`declared_below_of_calm`).
-/
import ShapeFlow.Proofs.Information
import ShapeFlow.Proofs.Resolver.Stability

namespace ShapeFlow.Resolver

/-- What a part of a run has found, whether it was interrupted or not. -/
def Progress.run : Progress → Run
  | .interrupted run => run
  | .reached run _ => run

/-- The property is kept when the result of a node is recorded, if it held when the
result was found, and it is kept by events. -/
structure Kept (r : Resolver) (P : Run → Prop) : Prop where
  events : ∀ run es, P run → P { run with events := run.events ++ es }
  record : ∀ before run, P before → P run → ∀ i n, r.model.graph.nodes[i]? = some n →
    P (Resolver.record run (n, i, r.outcome before (n, i))).1

namespace Kept

variable {r : Resolver} {P : Run → Prop} (h : r.Kept P)
include h

theorem recordAll {before run : Run} (hbefore : P before) (hrun : P run) {level : List (Node × Nat)}
    (hlevel : ∀ p ∈ level, r.model.graph.nodes[p.2]? = some p.1) :
    P (Resolver.recordAll run (level.map fun p => (p.1, p.2, r.outcome before p))).1 := by
  induction level generalizing run with
  | nil => exact hrun
  | cons p level ih =>
    have hfirst := h.record before run hbefore hrun p.2 p.1 (hlevel p List.mem_cons_self)
    exact ih hfirst fun q hq => hlevel q (List.mem_cons_of_mem _ hq)

theorem runLevel (stop : Nat → Bool) (look : Nat) {run : Run} (hrun : P run) {level : List (Node × Nat)}
    (hlevel : ∀ p ∈ level, r.model.graph.nodes[p.2]? = some p.1) :
    P (r.runLevel stop look run level).run := by
  unfold Resolver.runLevel
  split
  · exact hrun
  · simp only
    split
    · exact h.events run _ hrun
    · next hgo =>
      simp only [Bool.or_eq_true, not_or, Bool.not_eq_true] at hgo
      rw [results_inferLevel hgo.1]
      exact h.recordAll hrun (h.events run _ hrun) hlevel

theorem runLevels (stop : Nat → Bool) (look : Nat) {run : Run} (hrun : P run)
    {ls : List (List (Node × Nat))} (hls : ∀ level ∈ ls, ∀ p ∈ level, r.model.graph.nodes[p.2]? = some p.1) :
    P (r.runLevels stop look run ls).run := by
  induction ls generalizing look run with
  | nil => exact hrun
  | cons level ls ih =>
    have hfirst := h.runLevel stop look hrun (hls level List.mem_cons_self)
    simp only [Resolver.runLevels]
    generalize r.runLevel stop look run level = progress at hfirst ⊢
    cases progress with
    | interrupted mid => exact hfirst
    | reached mid changed =>
      have hrest : P (r.runLevels stop (look + 2) mid ls).run :=
        ih (look + 2) hfirst fun l hl => hls l (List.mem_cons_of_mem _ hl)
      simp only
      generalize r.runLevels stop (look + 2) mid ls = progress at hrest ⊢
      cases progress <;> exact hrest

/-- **What every recorded result keeps, a whole run keeps.** -/
theorem runPasses (stop : Nat → Bool) (ls : List (List Nat)) (left pass : Nat) {run : Run} (hrun : P run) :
    P (r.runPasses stop (levelNodes r.model.graph ls) left pass run).run := by
  induction left generalizing pass run with
  | zero => exact hrun
  | succ left ih =>
    have hpass := h.runLevels stop (2 * (levelNodes r.model.graph ls).length * pass) hrun
      fun level (hlevel : level ∈ levelNodes r.model.graph ls) => nodes_levelNodes hlevel
    simp only [Resolver.runPasses]
    generalize r.runLevels stop _ run (levelNodes r.model.graph ls) = progress at hpass ⊢
    cases progress with
    | interrupted mid => exact hpass
    | reached mid changed =>
      have hnext := h.events mid [.passDone pass changed] hpass
      simp only
      split
      · exact ih (pass + 1) hnext
      · exact hnext

end Kept

/-! ## Runs without conflicts -/

/-- No conflict was met. -/
def Calm (events : List Event) : Prop :=
  ∀ n inferred v declared, Event.conflict n inferred v declared ∉ events

/-- Only a conflict is shown at any verbosity. -/
theorem calm_of_verbosity? {events : List Event} (h : events.all (·.verbosity?.isSome) = true) :
    Calm events := by
  intro n inferred v declared hmem
  cases List.all_eq_true.mp h _ hmem

theorem Calm.of_append {es fs : List Event} (h : Calm (es ++ fs)) : Calm es :=
  fun n inferred v declared hmem => h n inferred v declared (List.mem_append_left fs hmem)

theorem Calm.of_adds {run run' : Run} (h : Calm run'.events) (hadds : AddsWithin run run') :
    Calm run.events := by
  obtain ⟨es, -, hes⟩ := hadds
  rw [hes] at h
  exact h.of_append

/-- Merging only adds to what is known, if it meets no conflict. -/
theorem below_mergeOutputs {n : Node} {run : Run} {slots : List (Text × TensorInfo?)}
    (h : Calm (mergeOutputs n run slots).1.events) (v : Text) :
    (run.values.state v).info.Below ((mergeOutputs n run slots).1.values.state v).info := by
  induction slots generalizing run with
  | nil => exact .refl _
  | cons slot slots ih =>
    obtain ⟨name, info⟩ := slot
    simp only [mergeOutputs] at h ⊢
    split at h
    · next hskip =>
      rw [if_pos hskip]
      exact ih h
    · next hskip =>
      rw [if_neg hskip]
      refine TensorInfo.Below.trans ?_ (ih h)
      have hcalm := h.of_adds (addsWithin_mergeOutputs n _ slots)
      rw [Dict.state_insert]
      split
      · next hv =>
        subst hv
        refine ValueState.below_merge (Bool.eq_false_iff.mpr fun hconflict => ?_)
        rw [Dict.state] at hconflict
        refine hcalm n info v ((run.values.get? v).getD {}).info (List.mem_append_right run.events ?_)
        rw [if_pos hconflict]
        exact List.mem_singleton_self _
      · exact .refl _

theorem below_record {run : Run} {n : Node} {i : Nat} {a : Attempt}
    (h : Calm (record run (n, i, a)).1.events) (v : Text) :
    (run.values.state v).info.Below ((record run (n, i, a)).1.values.state v).info := by
  cases a with
  | unsupported =>
    simp only [record]
    split <;> exact .refl _
  | failed e =>
    simp only [record]
    split <;> exact .refl _
  | inferred outputs => exact below_mergeOutputs h v

/-- **Without a conflict nothing that is declared is lost.** -/
theorem declared_below_of_calm (r : Resolver) (stop : Nat → Bool) (ls : List (List Nat)) (left : Nat)
    (h : Calm (r.runPasses stop (levelNodes r.model.graph ls) left 0 r.start).run.events) (v : Text) :
    (r.seeded v).info.Below
      ((r.runPasses stop (levelNodes r.model.graph ls) left 0 r.start).run.values.state v).info := by
  have hkept : r.Kept fun run => Calm run.events → (r.seeded v).info.Below (run.values.state v).info := by
    refine ⟨fun run es hrun hcalm => hrun hcalm.of_append, fun before run _ hrun i n _ hcalm => ?_⟩
    exact (hrun (hcalm.of_adds (addsWithin_record run n i _))).trans (below_record hcalm v)
  exact hkept.runPasses stop ls left 0 (fun _ => .refl _) h

end ShapeFlow.Resolver
