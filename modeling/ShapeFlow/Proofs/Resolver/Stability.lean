/-
Stability. The first pass of a propagation finds all there is to find: a second
one changes nothing, records no failure and meets no conflict, there is no third,
and the outcome is the same for every bound on their number (`stable_propagate`).
-/
import Mathlib
import ShapeFlow.Proofs.Resolver.Completion

namespace ShapeFlow.Resolver

/-- No pass ends with these events. -/
def Within (events : List Event) : Prop := ∀ e ∈ events, ∀ pass changed, e ≠ .passDone pass changed

/-- What passes bounded in number tell: a first one, and a quiet second one if the
first changed a value and the bound leaves room for it. -/
inductive Passes (bound : Nat) : List Event → Prop
  | one {first : List Event} {changed : Bool} : Within first → (changed = true → bound = 1) →
      Passes bound (first ++ [.passDone 0 changed])
  | two {first second : List Event} : Within first → Quiet second →
      Passes bound (first ++ .passDone 0 true :: (second ++ [.passDone 1 false]))

/-! ## The events of a pass -/

/-- Only events within a pass were added. -/
def AddsWithin (run run' : Run) : Prop := ∃ es, Within es ∧ run'.events = run.events ++ es

theorem AddsWithin.rfl {run : Run} : AddsWithin run run := ⟨[], by simp [Within], by simp⟩

theorem AddsWithin.trans {run₁ run₂ run₃ : Run} (h : AddsWithin run₁ run₂) (h' : AddsWithin run₂ run₃) :
    AddsWithin run₁ run₃ := by
  obtain ⟨es, hes, heq⟩ := h
  obtain ⟨fs, hfs, heq'⟩ := h'
  refine ⟨es ++ fs, fun e he => ?_, by rw [heq', heq, List.append_assoc]⟩
  rcases List.mem_append.mp he with he | he
  · exact hes e he
  · exact hfs e he

theorem Quiet.within {es : List Event} (h : Quiet es) : Within es := by
  intro e he pass changed heq
  obtain ⟨n, inputs, outputs, rfl⟩ := h e he
  cases heq

theorem addsWithin_mergeOutputs (n : Node) (run : Run) (slots : List (Text × TensorInfo?)) :
    AddsWithin run (mergeOutputs n run slots).1 := by
  induction slots generalizing run with
  | nil => exact .rfl
  | cons slot slots ih =>
    simp only [mergeOutputs]
    split
    · exact ih run
    · refine .trans ⟨_, ?_, rfl⟩ (ih _)
      split <;> simp [Within]

theorem addsWithin_record (run : Run) (n : Node) (i : Nat) (a : Attempt) :
    AddsWithin run (record run (n, i, a)).1 := by
  cases a with
  | unsupported =>
    simp only [record]
    split
    · exact .rfl
    · exact ⟨_, by simp [Within], rfl⟩
  | failed e =>
    simp only [record]
    split
    · exact .rfl
    · exact ⟨_, by simp [Within], rfl⟩
  | inferred outputs => exact addsWithin_mergeOutputs n run _

theorem addsWithin_recordAll (run : Run) (results : List (Node × Nat × Attempt)) :
    AddsWithin run (recordAll run results).1 := by
  induction results generalizing run with
  | nil => exact .rfl
  | cons result results ih =>
    obtain ⟨n, i, a⟩ := result
    exact (addsWithin_record run n i a).trans (ih _)

theorem addsWithin_runLevels {r : Resolver} {stop : Nat → Bool} {look : Nat} {run run' : Run}
    {ls : List (List (Node × Nat))} {changed : Bool}
    (h : r.runLevels stop look run ls = .reached run' changed) : AddsWithin run run' := by
  induction ls generalizing look run changed with
  | nil =>
    cases h
    exact .rfl
  | cons level ls ih =>
    obtain ⟨mid, c, c', hmid, hrest, -⟩ := runLevels_cons_reached h
    obtain ⟨es, hes, hrecord⟩ := runLevel_reached hmid
    have hlevel := addsWithin_recordAll { run with events := run.events ++ es }
      (level.map fun p => (p.1, p.2, r.outcome run p))
    rw [hrecord] at hlevel
    exact (AddsWithin.trans ⟨es, hes.within, rfl⟩ hlevel).trans (ih hrest)

/-! ## Stability -/

theorem passes_runPasses {r : Resolver} {ls : List (List Nat)} (hl : r.model.graph.levels = .ok ls)
    (hbound : 0 < r.maxPasses) {stop : Nat → Bool} {run : Run} {b : Bool}
    (h : r.runPasses stop (levelNodes r.model.graph ls) r.maxPasses 0 r.start = .reached run b) :
    Passes r.maxPasses run.events := by
  obtain ⟨left, hleft⟩ := Nat.exists_eq_succ_of_ne_zero hbound.ne'
  rw [hleft] at h ⊢
  obtain ⟨first, changed, later, hfirst, rfl, hlater⟩ := runPasses_reached hl h
  obtain ⟨es, hes, heq⟩ := addsWithin_runLevels hfirst
  have heq : first.events = es := heq
  rcases hlater with ⟨rfl, hone⟩ | ⟨rfl, second, hsecond, rfl⟩
  · exact heq ▸ .one hes fun hc => by rw [hone hc]
  · exact heq ▸ .two hes hsecond

/-- Two resolvers that differ in what was found, or in how many passes may be
made, have found the same once they are complete. -/
theorem Complete.unique {r s : Resolver} (hr : r.Complete) (hs : s.Complete)
    (hmodel : r.model = s.model) (hreg : r.registry = s.registry) (hop : r.opset = s.opset)
    (hover : r.overrides = s.overrides) : r.values = s.values ∧ r.failures = s.failures := by
  obtain ⟨ls, run₁, stop₁, look₁, c₁, hl₁, hrun₁, hv₁, hf₁⟩ := hr
  obtain ⟨ls', run₂, stop₂, look₂, c₂, hl₂, hrun₂, hv₂, hf₂⟩ := hs
  have hstart : s.start = r.start := by rw [start, start, hmodel, hover]
  rw [← hmodel] at hl₂ hrun₂
  rw [hl₁] at hl₂
  cases hl₂
  rw [hstart, ← runLevels_congr hreg hop] at hrun₂
  obtain ⟨rfl, -⟩ := runLevels_det hrun₁ hrun₂
  exact ⟨hv₁.trans hv₂.symm, hf₁.trans hf₂.symm⟩

theorem failuresError_congr {r s : Resolver} (hmodel : r.model = s.model)
    (hfailures : r.failures = s.failures) : r.failuresError = s.failuresError := by
  unfold failuresError failure?
  rw [hmodel, hfailures]

/-- Two propagations found the same and ended in the same way. -/
structure Propagation.Agrees (p q : Propagation) : Prop where
  values : p.resolver.values = q.resolver.values
  failures : p.resolver.failures = q.resolver.failures
  result : p.result = q.result

theorem agrees_withMaxPasses {r : Resolver} (h : r.Reachable) {ls : List (List Nat)}
    (hl : r.model.graph.levels = .ok ls) {stop stop' : Nat → Bool} {bound : Int}
    (hu : (r.propagate stop).Uninterrupted)
    (hu' : ((r.withMaxPasses bound).propagate stop').Uninterrupted) :
    ((r.withMaxPasses bound).propagate stop').Agrees (r.propagate stop) := by
  have hc := h.complete_propagate hl hu
  have hc' := (h.withMaxPasses bound).complete_propagate hl hu'
  obtain ⟨⟨run, hrun⟩, hresult⟩ := finished_propagate hl hu
  obtain ⟨⟨run', hrun'⟩, hresult'⟩ := finished_propagate (r := r.withMaxPasses bound) hl hu'
  have hmodel : ((r.withMaxPasses bound).propagate stop').resolver.model =
      (r.propagate stop).resolver.model := by
    rw [hrun, hrun']
    rfl
  obtain ⟨hvalues, hfailures⟩ := hc'.unique hc hmodel (by rw [hrun, hrun']; rfl)
    (by rw [hrun, hrun']; rfl) (by rw [hrun, hrun']; rfl)
  exact ⟨hvalues, hfailures, by rw [hresult, hresult', failuresError_congr hmodel hfailures]⟩

/-- **The first pass is the last that matters:** a second one is quiet, there is
no third, and any bound on their number gives the same. -/
theorem stable_propagate {r : Resolver} (h : r.Reachable) {ls : List (List Nat)}
    (hl : r.model.graph.levels = .ok ls) (stop : Nat → Bool) (hu : (r.propagate stop).Uninterrupted) :
    (r.propagated = false → Passes r.maxPasses (r.propagate stop).events) ∧
    ∀ bound stop', ((r.withMaxPasses bound).propagate stop').Uninterrupted →
      ((r.withMaxPasses bound).propagate stop').Agrees (r.propagate stop) := by
  refine ⟨fun hp => ?_, fun bound stop' hu' => agrees_withMaxPasses h hl hu hu'⟩
  rcases spared_or_finished hl hu with ⟨hp', -⟩ | ⟨-, run, changed, hrun, heq⟩
  · rw [hp] at hp'
    cases hp'
  · rw [heq]
    exact passes_runPasses hl h.coherent.passes hrun

theorem stable_mixture : (mixture.propagate fun _ => false).Uninterrupted ∧
    Passes 3 (mixture.propagate fun _ => false).events ∧
    ((mixture.withMaxPasses 1).propagate fun _ => false).Agrees (mixture.propagate fun _ => false) := by
  have hr : mixture.Reachable := .withMaxPasses 3 (.ofModel _)
  have hl : mixture.model.graph.levels = .ok [[1], [0], [2, 3]] := by cbv
  have hu := uninterrupted_propagate cancels_mixture
  obtain ⟨hpasses, hbounds⟩ := stable_propagate hr hl _ hu
  have hu' : ((mixture.withMaxPasses 1).propagate fun _ => false).Uninterrupted :=
    uninterrupted_propagate cancels_mixture
  exact ⟨hu, hpasses rfl, hbounds 1 _ hu'⟩

end ShapeFlow.Resolver
