/-
The points of a run. From a point a run merges the next level, or opens the next pass
after one that changed a value (`Step`). It has one way to go (`Step.unique`), and what it
leaves behind is what it had found at a point that it came to: at its last one, or, when it
is interrupted, at the one before the level that it gave up (`propagate_at_point`).
-/
import Mathlib
import ShapeFlow.Proofs.Resolver.Invariant

namespace ShapeFlow.Resolver

/-- Where a run stands. -/
structure Point where
  /-- The passes that are over. -/
  pass : Nat := 0
  /-- The levels that are merged in the pass after them. -/
  merged : Nat := 0
  /-- Whether one of these levels changed a value. -/
  changed : Bool := false
  run : Run

/-- The number of the look for cancellation that comes next. -/
def Point.look (p : Point) (levels : List (List (Node × Nat))) : Nat :=
  2 * levels.length * p.pass + 2 * p.merged

/-- The point after one level more. -/
def Point.next (p : Point) (changed : Bool) (run : Run) : Point :=
  { p with merged := p.merged + 1, changed := p.changed || changed, run }

section Definitions

variable (r : Resolver) (stop : Nat → Bool) (levels : List (List (Node × Nat)))

inductive Step : Point → Point → Prop
  | level {p : Point} {level : List (Node × Nat)} {run : Run} {changed : Bool} :
      levels[p.merged]? = some level →
      r.runLevel stop (p.look levels) p.run level = .reached run changed →
      Step p (p.next changed run)
  | pass {p : Point} : p.merged = levels.length → p.changed = true → p.pass + 1 < r.maxPasses →
      Step p { pass := p.pass + 1
               run := { p.run with events := p.run.events ++ [.passDone p.pass true] } }

/-- Steps lead from one point to the other. -/
def Leads : Point → Point → Prop := Relation.ReflTransGen (Step r stop levels)

/-- A run comes to the point. -/
def Reaches : Point → Prop := Leads r stop levels { run := r.start }

/-- A level is disturbed: cancellation is seen before it, comes from a function that is called
for one of its nodes, or is seen after it. -/
def Disturbed (look : Nat) (run : Run) (level : List (Node × Nat)) : Prop :=
  stop look = true ∨ (∃ q ∈ level, run.failures.lookup q.2 = none ∧ r.cancels q.1 = true) ∨
    stop (look + 1) = true

/-- The level that comes next is given up. -/
def GivesUp (p : Point) : Prop :=
  ∃ level, levels[p.merged]? = some level ∧ Disturbed r stop (p.look levels) p.run level

/-- The pass is over, and it is the last one. -/
def Over (p : Point) : Prop :=
  p.merged = levels.length ∧ (p.changed = true → r.maxPasses ≤ p.pass + 1)

/-- What the passes come to when the run halts at the point. -/
inductive Halted (p : Point) : Progress → Prop
  | interrupted (es : List Event) : GivesUp r stop levels p →
      Halted p (.interrupted { p.run with events := p.run.events ++ es })
  | reached (es : List Event) (changed : Bool) : Over r levels p →
      Halted p (.reached { p.run with events := p.run.events ++ es } changed)

end Definitions

variable {r : Resolver} {stop : Nat → Bool} {levels : List (List (Node × Nat))}

/-! ## One level -/

theorem cancelled_inferLevel_iff {run : Run} {level : List (Node × Nat)} :
    (r.inferLevel run level).cancelled = true ↔
      ∃ q ∈ level, run.failures.lookup q.2 = none ∧ r.cancels q.1 = true := by
  induction level with
  | nil => simp [inferLevel]
  | cons q level ih =>
    obtain ⟨n, i⟩ := q
    simp only [inferLevel, List.exists_mem_cons_iff]
    cases hi : run.failures.lookup i with
    | some e => simpa using ih
    | none =>
      cases hc : r.cancels n with
      | true => simp
      | false => simpa using ih

/-- A level that is disturbed leaves nothing but events; any other is merged. -/
theorem runLevel_cases (r : Resolver) (stop : Nat → Bool) (look : Nat) (run : Run)
    (level : List (Node × Nat)) :
    (r.Disturbed stop look run level ∧
      ∃ es, r.runLevel stop look run level = .interrupted { run with events := run.events ++ es }) ∨
    (¬ r.Disturbed stop look run level ∧
      ∃ run' changed, r.runLevel stop look run level = .reached run' changed) := by
  unfold Disturbed
  rw [← cancelled_inferLevel_iff]
  unfold runLevel
  cases hbefore : stop look with
  | true => exact .inl ⟨.inl rfl, [], by simp⟩
  | false =>
    cases hcancelled : (r.inferLevel run level).cancelled with
    | true => exact .inl ⟨.inr (.inl rfl), _, by simp [hcancelled]; rfl⟩
    | false =>
      cases hafter : stop (look + 1) with
      | true => exact .inl ⟨.inr (.inr rfl), _, by simp [hcancelled]; rfl⟩
      | false => exact .inr ⟨by simp, _, _, by simp [hcancelled]; exact ⟨rfl, rfl⟩⟩

theorem disturbed_of_interrupted {look : Nat} {run run' : Run} {level : List (Node × Nat)}
    (h : r.runLevel stop look run level = .interrupted run') :
    r.Disturbed stop look run level ∧ ∃ es, run' = { run with events := run.events ++ es } := by
  rcases runLevel_cases r stop look run level with ⟨hd, es, hes⟩ | ⟨-, _, _, hreached⟩
  · rw [h] at hes
    cases hes
    exact ⟨hd, es, rfl⟩
  · rw [h] at hreached
    cases hreached

/-! ## One way to go -/

theorem Step.unique {p q q' : Point} (h : r.Step stop levels p q) (h' : r.Step stop levels p q') :
    q = q' := by
  cases h with
  | level hl hrun =>
    cases h' with
    | level hl' hrun' =>
      rw [hl] at hl'
      cases hl'
      rw [hrun] at hrun'
      cases hrun'
      rfl
    | pass hm =>
      rw [hm] at hl
      simp at hl
  | pass hm =>
    cases h' with
    | level hl' =>
      rw [hm] at hl'
      simp at hl'
    | pass => rfl

theorem GivesUp.not_step {p q : Point} (h : r.GivesUp stop levels p) : ¬ r.Step stop levels p q := by
  obtain ⟨level, hlevel, hd⟩ := h
  intro hstep
  cases hstep with
  | level hl hrun =>
    rw [hlevel] at hl
    cases hl
    rcases runLevel_cases r stop (p.look levels) p.run level with ⟨-, es, hes⟩ | ⟨hnot, -⟩
    · rw [hrun] at hes
      cases hes
    · exact hnot hd
  | pass hm =>
    rw [hm] at hlevel
    simp at hlevel

theorem Over.not_step {p q : Point} (h : r.Over levels p) : ¬ r.Step stop levels p q := by
  obtain ⟨hm, hlast⟩ := h
  intro hstep
  cases hstep with
  | level hl =>
    rw [hm] at hl
    simp at hl
  | pass _ hc hnext =>
    have := hlast hc
    omega

theorem GivesUp.not_over {p : Point} (h : r.GivesUp stop levels p) : ¬ r.Over levels p := by
  obtain ⟨level, hlevel, -⟩ := h
  intro hover
  rw [hover.1] at hlevel
  simp at hlevel

/-- A run comes to one point at most from which there is no step. -/
theorem Reaches.eq_of_stuck {p q : Point} (hp : r.Reaches stop levels p) (hq : r.Reaches stop levels q)
    (hstuck : ∀ x, ¬ r.Step stop levels p x) (hstuck' : ∀ x, ¬ r.Step stop levels q x) : p = q := by
  rcases Relation.ReflTransGen.total_of_right_unique (fun _ _ _ h h' => h.unique h') hp hq with h | h
  · rcases h.cases_head with heq | ⟨x, hstep, -⟩
    · exact heq
    · exact absurd hstep (hstuck x)
  · rcases h.cases_head with heq | ⟨x, hstep, -⟩
    · exact heq.symm
    · exact absurd hstep (hstuck' x)

/-! ## What the passes come to -/

theorem next_of_drop {k : Nat} {level : List (Node × Nat)} {rest : List (List (Node × Nat))}
    (h : levels.drop k = level :: rest) :
    k < levels.length ∧ levels[k]? = some level ∧ levels.drop (k + 1) = rest := by
  have hnext : levels[k]? = some level := by
    have := congrArg List.head? h
    rwa [List.head?_drop] at this
  refine ⟨(List.getElem?_eq_some_iff.mp hnext).1, hnext, ?_⟩
  rw [← List.tail_drop, h]
  rfl

/-- The rest of a pass that is reached leads to the end of the pass. -/
theorem leads_runLevels {p : Point} {run : Run} {changed : Bool} (hp : p.merged ≤ levels.length)
    (h : r.runLevels stop (p.look levels) p.run (levels.drop p.merged) = .reached run changed) :
    r.Leads stop levels p { p with merged := levels.length, changed := p.changed || changed, run } := by
  generalize hrest : levels.drop p.merged = rest at h
  induction rest generalizing p changed with
  | nil =>
    cases h
    have hm : p.merged = levels.length := Nat.le_antisymm hp (List.drop_eq_nil_iff.mp hrest)
    rw [← hm, Bool.or_false]
    exact .refl
  | cons level rest ih =>
    obtain ⟨hlt, hlevel, hrest⟩ := next_of_drop hrest
    obtain ⟨mid, c, c', hmid, hthen, rfl⟩ := runLevels_cons_reached h
    rw [← Bool.or_assoc]
    exact .head (.level hlevel hmid) (ih (p := p.next c mid) hlt hrest hthen)

theorem runLevels_cons_interrupted {look : Nat} {run run' : Run} {level : List (Node × Nat)}
    {ls : List (List (Node × Nat))}
    (h : r.runLevels stop look run (level :: ls) = .interrupted run') :
    r.runLevel stop look run level = .interrupted run' ∨
      ∃ mid c, r.runLevel stop look run level = .reached mid c ∧
        r.runLevels stop (look + 2) mid ls = .interrupted run' := by
  simp only [runLevels] at h
  split at h
  · next hlevel =>
    cases h
    exact .inl hlevel
  next mid c hmid =>
  split at h
  · next hrest =>
    cases h
    exact .inr ⟨mid, c, hmid, hrest⟩
  · cases h

/-- The rest of a pass that is interrupted leads to a level that is given up. -/
theorem givesUp_runLevels {p : Point} {run : Run}
    (h : r.runLevels stop (p.look levels) p.run (levels.drop p.merged) = .interrupted run) :
    ∃ q, r.Leads stop levels p q ∧ r.GivesUp stop levels q ∧
      ∃ es, run = { q.run with events := q.run.events ++ es } := by
  generalize hrest : levels.drop p.merged = rest at h
  induction rest generalizing p with
  | nil => cases h
  | cons level rest ih =>
    obtain ⟨-, hlevel, hrest⟩ := next_of_drop hrest
    rcases runLevels_cons_interrupted h with hcut | ⟨mid, c, hmid, hthen⟩
    · obtain ⟨hd, hes⟩ := disturbed_of_interrupted hcut
      exact ⟨p, .refl, ⟨level, hlevel, hd⟩, hes⟩
    · obtain ⟨q, hq, hup, hes⟩ := ih (p := p.next c mid) hrest hthen
      exact ⟨q, .head (.level hlevel hmid) hq, hup, hes⟩

/-- A pass leads to a level that is given up, or to its end. -/
theorem leads_pass (pass : Nat) (run : Run) :
    (∃ q es, r.Leads stop levels { pass, run } q ∧ r.GivesUp stop levels q ∧
      r.runLevels stop (2 * levels.length * pass) run levels =
        .interrupted { q.run with events := q.run.events ++ es }) ∨
    ∃ run' changed, r.Leads stop levels { pass, run } { pass, merged := levels.length, changed, run := run' } ∧
      r.runLevels stop (2 * levels.length * pass) run levels = .reached run' changed := by
  cases hpass : r.runLevels stop (2 * levels.length * pass) run levels with
  | interrupted run' =>
    obtain ⟨q, hq, hup, es, rfl⟩ := givesUp_runLevels (p := { pass, run }) hpass
    exact .inl ⟨q, es, hq, hup, rfl⟩
  | reached run' changed =>
    exact .inr ⟨run', changed, leads_runLevels (p := { pass, run }) (Nat.zero_le _) hpass, rfl⟩

/-- The passes that are left lead to the point where the run halts. -/
theorem leads_runPasses (left pass : Nat) (run : Run) (hleft : pass + (left + 1) = r.maxPasses) :
    ∃ q, r.Leads stop levels { pass, run } q ∧
      r.Halted stop levels q (r.runPasses stop levels (left + 1) pass run) := by
  induction left generalizing pass run with
  | zero =>
    rcases leads_pass pass run with ⟨q, es, hq, hup, hrun⟩ | ⟨run', changed, hend, hrun⟩
    · exact ⟨q, hq, by rw [runPasses, hrun]; exact .interrupted es hup⟩
    · refine ⟨_, hend, ?_⟩
      simp only [runPasses, hrun, ite_self]
      exact .reached [.passDone pass changed] false ⟨rfl, fun _ => hleft.ge⟩
  | succ left ih =>
    rcases leads_pass pass run with ⟨q, es, hq, hup, hrun⟩ | ⟨run', changed, hend, hrun⟩
    · exact ⟨q, hq, by rw [runPasses, hrun]; exact .interrupted es hup⟩
    rw [runPasses, hrun]
    cases changed with
    | false =>
      refine ⟨_, hend, .reached [.passDone pass false] false ⟨rfl, fun hchanged => ?_⟩⟩
      cases hchanged
    | true =>
      obtain ⟨q, hq, hhalted⟩ := ih (pass + 1)
        { run' with events := run'.events ++ [.passDone pass true] } (by omega)
      have hstep : r.Step stop levels { pass, merged := levels.length, changed := true, run := run' } _ :=
        .pass rfl rfl (show pass + 1 < r.maxPasses by omega)
      exact ⟨q, hend.trans (.head hstep hq), hhalted⟩

/-- **A run halts at a point that it comes to.** -/
theorem halted_runPasses (h : 0 < r.maxPasses) (stop : Nat → Bool) (levels : List (List (Node × Nat))) :
    ∃ q, r.Reaches stop levels q ∧
      r.Halted stop levels q (r.runPasses stop levels r.maxPasses 0 r.start) := by
  obtain ⟨left, hleft⟩ := Nat.exists_eq_succ_of_ne_zero h.ne'
  rw [hleft]
  exact leads_runPasses left 0 r.start (by omega)

/-- **What a propagation finds is what its run has found at a point.** It is interrupted if the
run gives up a level there, and else the run is over. -/
theorem propagate_at_point (h : 0 < r.maxPasses) (hfresh : r.propagated = false) {ls : List (List Nat)}
    (hl : r.model.graph.levels = .ok ls) (stop : Nat → Bool) :
    ∃ p, r.Reaches stop (levelNodes r.model.graph ls) p ∧
      (r.GivesUp stop (levelNodes r.model.graph ls) p ∧
        (r.propagate stop).result = .error .interrupted ∧
        (r.propagate stop).resolver = r.adopt p.run false ∨
      r.Over (levelNodes r.model.graph ls) p ∧ (r.propagate stop).Uninterrupted ∧
        (r.propagate stop).resolver = r.adopt p.run true) := by
  obtain ⟨p, hp, hhalted⟩ := halted_runPasses h stop (levelNodes r.model.graph ls)
  refine ⟨p, hp, ?_⟩
  have hend := r.ending_propagate stop
  generalize r.propagate stop = propagation at hend
  cases hend with
  | spared hspared =>
    rw [hfresh] at hspared
    cases hspared
  | unordered _ he =>
    rw [hl] at he
    cases he
  | interrupted _ hl' hrun =>
    rw [hl] at hl'
    cases hl'
    rw [hrun] at hhalted
    cases hhalted with
    | interrupted _ hup => exact .inl ⟨hup, rfl, rfl⟩
  | finished _ hl' hrun =>
    rw [hl] at hl'
    cases hl'
    rw [hrun] at hhalted
    cases hhalted with
    | reached _ _ hover => exact .inr ⟨hover, failuresError_ne_interrupted _, rfl⟩

/-! ## Invariants at points -/

/-- What every recorded result keeps is kept from point to point. -/
theorem Kept.leads {P : Run → Prop} (h : r.Kept P) {ls : List (List Nat)} {p q : Point}
    (hleads : r.Leads stop (levelNodes r.model.graph ls) p q) (hp : P p.run) : P q.run := by
  induction hleads with
  | refl => exact hp
  | @tail mid _ _ hstep ih =>
    cases hstep with
    | level hlevel hrun =>
      have := h.runLevel stop (mid.look (levelNodes r.model.graph ls)) ih
        (nodes_levelNodes (List.mem_of_getElem? hlevel))
      rwa [hrun] at this
    | pass => exact h.events _ _ ih

end ShapeFlow.Resolver
