/-
Propagations that complete. However a resolver was set up and propagated before,
a propagation that is not interrupted leaves it with the values and failures of
one pass over the levels from what is declared (`Reachable.complete_propagate`):
passes after the first one are quiet, and the flag that spares a propagation is
set only on such a result.
-/
import ShapeFlow.Proofs.Resolver.Settled

namespace ShapeFlow.Resolver

/-- What a run starts from. -/
def start (r : Resolver) : Run := { values := seed r.model.graph r.overrides }

theorem settled_start (r : Resolver) : r.Settled r.start [] :=
  ⟨fun _ _ => rfl, by simp, fun _ _ => rfl⟩

/-- The values and failures are those of one whole pass over the levels. -/
def Complete (r : Resolver) : Prop :=
  ∃ ls run stop look changed, r.model.graph.levels = .ok ls ∧
    r.runLevels stop look r.start (levelNodes r.model.graph ls) = .reached run changed ∧
    r.values = run.values ∧ r.failures = run.failures

/-! ## A pass depends on the rules and the version alone -/

section Congr

variable {r s : Resolver} (hreg : r.registry = s.registry) (hop : r.opset = s.opset)
include hreg hop

theorem attempt_congr (n : Node) (inputs : List TensorInfo?) :
    r.attempt n inputs = s.attempt n inputs := by
  unfold attempt
  rw [hreg, hop]

theorem cancels_congr (n : Node) : r.cancels n = s.cancels n := by
  unfold cancels
  rw [hreg, hop]

theorem inferLevel_congr (run : Run) (level : List (Node × Nat)) :
    r.inferLevel run level = s.inferLevel run level := by
  induction level with
  | nil => rfl
  | cons p level ih => simp only [inferLevel, attempt_congr hreg hop, cancels_congr hreg hop, ih]

theorem runLevels_congr (stop : Nat → Bool) (look : Nat) (run : Run)
    (ls : List (List (Node × Nat))) :
    r.runLevels stop look run ls = s.runLevels stop look run ls := by
  induction ls generalizing look run with
  | nil => rfl
  | cons level ls ih => simp only [runLevels, runLevel, inferLevel_congr hreg hop, ih]

end Congr

/-- When it is reached, the end of a level does not depend on the looks for
cancellation. -/
theorem runLevel_det {r : Resolver} {stop stop' : Nat → Bool} {look look' : Nat} {run run₁ run₂ : Run}
    {level : List (Node × Nat)} {c₁ c₂ : Bool}
    (h₁ : r.runLevel stop look run level = .reached run₁ c₁)
    (h₂ : r.runLevel stop' look' run level = .reached run₂ c₂) : run₁ = run₂ ∧ c₁ = c₂ := by
  unfold runLevel at h₁ h₂
  split at h₁
  · cases h₁
  split at h₂
  · cases h₂
  simp only at h₁ h₂
  split at h₁
  · cases h₁
  split at h₂
  · cases h₂
  cases h₁
  cases h₂
  exact ⟨rfl, rfl⟩

theorem runLevels_det {r : Resolver} {stop stop' : Nat → Bool} {look look' : Nat}
    {run run₁ run₂ : Run} {ls : List (List (Node × Nat))} {c₁ c₂ : Bool}
    (h₁ : r.runLevels stop look run ls = .reached run₁ c₁)
    (h₂ : r.runLevels stop' look' run ls = .reached run₂ c₂) : run₁ = run₂ ∧ c₁ = c₂ := by
  induction ls generalizing look look' run c₁ c₂ with
  | nil =>
    cases h₁
    cases h₂
    exact ⟨rfl, rfl⟩
  | cons level ls ih =>
    obtain ⟨mid, b, b', hl₁, hr₁, rfl⟩ := runLevels_cons_reached h₁
    obtain ⟨mid', d, d', hl₂, hr₂, rfl⟩ := runLevels_cons_reached h₂
    obtain ⟨rfl, rfl⟩ := runLevel_det hl₁ hl₂
    obtain ⟨rfl, rfl⟩ := ih hr₁ hr₂
    exact ⟨rfl, rfl⟩

/-! ## Passes -/

/-- **All nodes are settled by the first pass.** -/
theorem settled_firstPass {r : Resolver} {ls : List (List Nat)} (hl : r.model.graph.levels = .ok ls)
    {stop : Nat → Bool} {look : Nat} {run : Run} {changed : Bool}
    (h : r.runLevels stop look r.start (levelNodes r.model.graph ls) = .reached run changed) :
    r.Settled run ls.flatten := by
  have hclosed : r.model.graph.Closed [] := by simp [Graph.Closed]
  exact r.settled_start.runLevels (Graph.uncontested_of_levels hl) (Graph.layers_of_levels hl).1
    hclosed h

/-- The run at the end of the first pass, and what happens after it: nothing, or
one more pass that is quiet. -/
theorem runPasses_reached {r : Resolver} {ls : List (List Nat)} (hl : r.model.graph.levels = .ok ls)
    {stop : Nat → Bool} {left : Nat} {run : Run} {b : Bool}
    (h : r.runPasses stop (levelNodes r.model.graph ls) (left + 1) 0 r.start = .reached run b) :
    ∃ first changed later,
      r.runLevels stop 0 r.start (levelNodes r.model.graph ls) = .reached first changed ∧
      run = { first with events := first.events ++ .passDone 0 changed :: later } ∧
      (later = [] ∧ (changed = true → left = 0) ∨
        changed = true ∧ ∃ es, Quiet es ∧ later = es ++ [.passDone 1 false]) := by
  simp only [runPasses, Nat.mul_zero] at h
  split at h
  · cases h
  next first changed hfirst =>
  refine ⟨first, changed, ?_⟩
  split at h
  · next hchanged =>
    cases left with
    | zero =>
      cases h
      exact ⟨[], hfirst, rfl, .inl ⟨rfl, fun _ => rfl⟩⟩
    | succ left =>
      simp only [runPasses] at h
      split at h
      · cases h
      next second c hsecond =>
      have hsettled := (settled_firstPass hl hfirst).withEvents
        (first.events ++ [.passDone 0 changed])
      obtain ⟨rfl, es, hes, rfl⟩ := runLevels_of_settled (Graph.uncontested_of_levels hl)
        hsettled.nodes hsecond
      cases h
      exact ⟨es ++ [.passDone 1 false], hfirst, by simp, .inr ⟨hchanged, es, hes, rfl⟩⟩
  · next hchanged =>
    cases h
    exact ⟨[], hfirst, rfl, .inl ⟨rfl, fun h => absurd h hchanged⟩⟩

/-! ## Whole propagations -/

/-- The resolver with what a run has found. -/
def adopt (r : Resolver) (run : Run) (propagated : Bool) : Resolver :=
  { r with values := run.values, failures := run.failures, propagated }

theorem runLevels_adopt (r : Resolver) (found : Run) (b : Bool) (stop : Nat → Bool) (look : Nat)
    (run : Run) (ls : List (List (Node × Nat))) :
    (r.adopt found b).runLevels stop look run ls = r.runLevels stop look run ls :=
  runLevels_congr (r := r.adopt found b) (s := r) rfl rfl stop look run ls

/-- All the ways in which a propagation can end. -/
inductive Ending (r : Resolver) (stop : Nat → Bool) : Propagation → Prop
  | spared : r.propagated = true → Ending r stop ⟨r, r.failuresError, []⟩
  | unordered {e : GraphError} : r.propagated = false → r.model.graph.levels = .error e →
      Ending r stop ⟨r, .error (.graph e), []⟩
  | interrupted {ls : List (List Nat)} {run : Run} : r.propagated = false →
      r.model.graph.levels = .ok ls →
      r.runPasses stop (levelNodes r.model.graph ls) r.maxPasses 0 r.start = .interrupted run →
      Ending r stop ⟨r.adopt run false, .error .interrupted, run.events⟩
  | finished {ls : List (List Nat)} {run : Run} {changed : Bool} : r.propagated = false →
      r.model.graph.levels = .ok ls →
      r.runPasses stop (levelNodes r.model.graph ls) r.maxPasses 0 r.start = .reached run changed →
      Ending r stop ⟨r.adopt run true, (r.adopt run true).failuresError, run.events⟩

theorem ending_propagate (r : Resolver) (stop : Nat → Bool) : r.Ending stop (r.propagate stop) := by
  unfold propagate
  split
  · next hp => exact .spared hp
  next hp =>
  rw [Bool.not_eq_true] at hp
  split
  · next hl => exact .unordered hp hl
  next ls hl =>
  simp only
  split
  · next run hrun =>
    have := Ending.interrupted hp hl hrun
    rwa [adopt, ← hp] at this
  · next hrun => exact .finished hp hl hrun

/-- The propagation came to its end, whether nodes failed or not. -/
def Propagation.Uninterrupted (p : Propagation) : Prop := p.result ≠ .error .interrupted

theorem failuresError_ne_interrupted (r : Resolver) : r.failuresError ≠ .error .interrupted := by
  unfold failuresError
  simp only
  split <;> nofun

/-- There is no error to sum up just when no node has failed. -/
theorem failuresError_eq_ok {r : Resolver} : r.failuresError = .ok () ↔
    ∀ i n, r.model.graph.nodes[i]? = some n → r.failure? i = none := by
  have hfirst : r.failuresError = .ok () ↔ (r.model.graph.nodes.zipIdx.findSome? fun p =>
      (r.failure? p.2).map fun error => (p.1.label, error)) = none := by
    unfold failuresError
    simp only
    split
    · next hnone => simp [hnone]
    · next hsome => simp [hsome]
  rw [hfirst, List.findSome?_eq_none_iff]
  constructor
  · intro h i n hn
    simpa using h (n, i) (List.mem_zipIdx_iff_getElem?.mpr hn)
  · intro h p hp
    rw [h p.2 p.1 (List.mem_zipIdx_iff_getElem?.mp hp)]
    rfl

/-- What setting up and propagating can make of a resolver, in any order. -/
inductive Reachable : Resolver → Prop
  | ofModel (m : Model) : Reachable (ofModel m)
  | withRegistry {r : Resolver} (registry : Registry) : Reachable r → Reachable (r.withRegistry registry)
  | withOpset {r : Resolver} (opset : Int) : Reachable r → Reachable (r.withOpset opset)
  | withParallelism {r : Resolver} (parallelism : Int) :
      Reachable r → Reachable (r.withParallelism parallelism)
  | withMaxPasses {r : Resolver} (maxPasses : Int) :
      Reachable r → Reachable (r.withMaxPasses maxPasses)
  | withOverrides {r : Resolver} (overrides : Dict TensorInfo) :
      Reachable r → Reachable (r.withOverrides overrides)
  | propagate {r : Resolver} (stop : Nat → Bool) : Reachable r → Reachable (r.propagate stop).resolver

/-- What holds of a resolver at all times. -/
structure Coherent (r : Resolver) : Prop where
  passes : 0 < r.maxPasses
  complete : r.propagated = true → r.Complete

theorem Complete.withParallelism {r : Resolver} (h : r.Complete) (parallelism : Int) :
    (r.withParallelism parallelism).Complete := by
  obtain ⟨ls, run, stop, look, changed, hl, hrun, hv, hf⟩ := h
  have hsame := runLevels_congr (r := r.withParallelism parallelism) (s := r) rfl rfl stop look
    r.start (levelNodes r.model.graph ls)
  exact ⟨ls, run, stop, look, changed, hl, hsame.trans hrun, hv, hf⟩

/-- Passes that come to their end have found what the first of them found. -/
theorem Coherent.complete_adopt {r : Resolver} (h : r.Coherent) {ls : List (List Nat)}
    (hl : r.model.graph.levels = .ok ls) {stop : Nat → Bool} {run : Run} {b : Bool}
    (hrun : r.runPasses stop (levelNodes r.model.graph ls) r.maxPasses 0 r.start = .reached run b) :
    (r.adopt run true).Complete := by
  obtain ⟨left, hleft⟩ := Nat.exists_eq_succ_of_ne_zero h.passes.ne'
  rw [hleft] at hrun
  obtain ⟨first, changed, later, hfirst, rfl, -⟩ := runPasses_reached hl hrun
  exact ⟨ls, first, stop, 0, changed, hl, (runLevels_adopt ..).trans hfirst, rfl, rfl⟩

theorem Coherent.propagate {r : Resolver} (h : r.Coherent) (stop : Nat → Bool) :
    (r.propagate stop).resolver.Coherent := by
  have ho := r.ending_propagate stop
  generalize r.propagate stop = p at ho
  cases ho with
  | spared => exact h
  | unordered => exact h
  | interrupted => exact ⟨h.passes, nofun⟩
  | finished _ hl hrun => exact ⟨h.passes, fun _ => h.complete_adopt hl hrun⟩

theorem Reachable.coherent {r : Resolver} (h : r.Reachable) : r.Coherent := by
  induction h with
  | ofModel => exact ⟨Nat.zero_lt_succ 9, nofun⟩
  | withRegistry _ _ ih => exact ⟨ih.passes, nofun⟩
  | withOpset _ _ ih => exact ⟨ih.passes, nofun⟩
  | withParallelism p _ ih => exact ⟨ih.passes, fun hp => (ih.complete hp).withParallelism p⟩
  | withMaxPasses k _ ih => exact ⟨by simp only [Resolver.withMaxPasses]; omega, nofun⟩
  | withOverrides _ _ ih => exact ⟨ih.passes, nofun⟩
  | propagate stop _ ih => exact ih.propagate stop

/-- A propagation of a graph with levels that is not interrupted was spared, or
went through its passes. -/
theorem spared_or_finished {r : Resolver} {ls : List (List Nat)} (hl : r.model.graph.levels = .ok ls)
    {stop : Nat → Bool} (hu : (r.propagate stop).Uninterrupted) :
    r.propagated = true ∧ r.propagate stop = ⟨r, r.failuresError, []⟩ ∨
    r.propagated = false ∧ ∃ run changed,
      r.runPasses stop (levelNodes r.model.graph ls) r.maxPasses 0 r.start = .reached run changed ∧
      r.propagate stop = ⟨r.adopt run true, (r.adopt run true).failuresError, run.events⟩ := by
  have ho := r.ending_propagate stop
  generalize r.propagate stop = p at ho hu
  cases ho with
  | spared hp => exact .inl ⟨hp, rfl⟩
  | unordered _ he => rw [hl] at he; cases he
  | interrupted => exact absurd rfl hu
  | finished hp hl' hrun =>
    rw [hl] at hl'
    cases hl'
    exact .inr ⟨hp, _, _, hrun, rfl⟩

/-- **A propagation that is not interrupted is complete**, whatever was done with
the resolver before. -/
theorem Reachable.complete_propagate {r : Resolver} (h : r.Reachable) {ls : List (List Nat)}
    (hl : r.model.graph.levels = .ok ls) {stop : Nat → Bool}
    (hu : (r.propagate stop).Uninterrupted) : (r.propagate stop).resolver.Complete := by
  rcases spared_or_finished hl hu with ⟨hp, heq⟩ | ⟨-, run, changed, hrun, heq⟩
  · rw [heq]
    exact h.coherent.complete hp
  · rw [heq]
    exact h.coherent.complete_adopt hl hrun

/-- What a propagation leaves as it was, and the error that it gives. -/
theorem finished_propagate {r : Resolver} {ls : List (List Nat)}
    (hl : r.model.graph.levels = .ok ls) {stop : Nat → Bool}
    (hu : (r.propagate stop).Uninterrupted) :
    (∃ run, (r.propagate stop).resolver = r.adopt run true) ∧
      (r.propagate stop).result = (r.propagate stop).resolver.failuresError := by
  rcases spared_or_finished hl hu with ⟨hp, heq⟩ | ⟨-, run, changed, -, heq⟩
  · rw [heq]
    exact ⟨⟨{ values := r.values, failures := r.failures }, by rw [adopt, ← hp]⟩, rfl⟩
  · rw [heq]
    exact ⟨⟨run, rfl⟩, rfl⟩

/-! ## What is never interrupted -/

theorem cancelled_inferLevel {r : Resolver} {level : List (Node × Nat)}
    (h : ∀ p ∈ level, r.cancels p.1 = false) (run : Run) :
    (r.inferLevel run level).cancelled = false := by
  induction level with
  | nil => rfl
  | cons p level ih =>
    have ih := ih fun q hq => h q (List.mem_cons_of_mem _ hq)
    simp only [inferLevel, h p List.mem_cons_self]
    split <;> exact ih

theorem runLevels_never {r : Resolver} {ls : List (List (Node × Nat))}
    (h : ∀ level ∈ ls, ∀ p ∈ level, r.cancels p.1 = false) (look : Nat) (run : Run) :
    ∃ run' changed, r.runLevels (fun _ => false) look run ls = .reached run' changed := by
  induction ls generalizing look run with
  | nil => exact ⟨run, false, rfl⟩
  | cons level ls ih =>
    have hlevel := cancelled_inferLevel (h level List.mem_cons_self) run
    simp only [runLevels, runLevel, hlevel]
    obtain ⟨run', changed, hrest⟩ := ih (fun l hl => h l (List.mem_cons_of_mem _ hl)) (look + 2)
      (recordAll { run with events := run.events ++ (r.inferLevel run level).events }
        (r.inferLevel run level).results).1
    simp [hrest]

theorem runPasses_never {r : Resolver} {ls : List (List (Node × Nat))}
    (h : ∀ level ∈ ls, ∀ p ∈ level, r.cancels p.1 = false) (left pass : Nat) (run : Run) :
    ∃ run' changed, r.runPasses (fun _ => false) ls left pass run = .reached run' changed := by
  induction left generalizing pass run with
  | zero => exact ⟨run, false, rfl⟩
  | succ left ih =>
    obtain ⟨run', changed, hrun⟩ := runLevels_never h (2 * ls.length * pass) run
    simp only [runPasses, hrun]
    split
    · exact ih _ _
    · exact ⟨_, _, rfl⟩

/-- Only a look for cancellation or a function that cancels interrupts. -/
theorem uninterrupted_propagate {r : Resolver}
    (h : ∀ n ∈ r.model.graph.nodes, r.cancels n = false) :
    (r.propagate fun _ => false).Uninterrupted := by
  have hnodes : ∀ ls, ∀ level ∈ levelNodes r.model.graph ls, ∀ p ∈ level, r.cancels p.1 = false := by
    intro ls level hlevel p hp
    exact h p.1 (List.mem_of_getElem? (nodes_levelNodes hlevel p hp))
  have ho := r.ending_propagate fun _ => false
  generalize r.propagate (fun _ => false) = p at ho
  cases ho with
  | spared => exact failuresError_ne_interrupted r
  | unordered => nofun
  | interrupted _ _ hrun =>
    obtain ⟨run, changed, hreached⟩ := runPasses_never (hnodes _) r.maxPasses 0 r.start
    rw [hrun] at hreached
    cases hreached
  | finished => exact failuresError_ne_interrupted _

/-- Nodes of every kind: two that are inferred, the output of one of them declared
otherwise, one that fails and one of an operator without a rule. -/
def mixture : Resolver := (ofModel { graph := {
  inputs := [⟨"x", ⟨some .float32, some [.known 2, .known 3, .known 4]⟩⟩]
  outputs := [⟨"z", ⟨none, some [.known 7]⟩⟩]
  nodes := [
    { op := "Dropout", inputs := ["y"], outputs := ["z"] },
    { op := "Flatten", inputs := ["x"], outputs := ["y"] },
    { op := "Flatten", inputs := ["z"], outputs := ["u"], attributes := ⟨[("axis", .int 5)]⟩ },
    { op := "Mystery", inputs := ["z"], outputs := ["v"] }] } }).withMaxPasses 3

theorem cancels_mixture : ∀ n ∈ mixture.model.graph.nodes, mixture.cancels n = false := by
  decide +kernel

end ShapeFlow.Resolver
