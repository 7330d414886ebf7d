/-
A resolver has no memory but its settings. Whatever calls were made on it, in any
order and with propagations interrupted anywhere, the next propagation that comes to
its end finds what a resolver finds that was just made and given the same settings
(`history_independent`). The flag that spares a propagation is set only while the
values and failures are that result.
-/
import ShapeFlow.Proofs.Resolver.Stability

namespace ShapeFlow.Resolver

/-! ## Calls and settings -/

/-- A call on a resolver. -/
inductive Call where
  | registry (rules : Registry)
  | opset (version : Int)
  | parallelism (limit : Int)
  | maxPasses (bound : Int)
  | overrides (infos : Dict TensorInfo)
  /-- A propagation, and what it sees when it looks for cancellation. -/
  | propagate (stop : Nat → Bool)

def Call.apply (r : Resolver) : Call → Resolver
  | .registry rules => r.withRegistry rules
  | .opset version => r.withOpset version
  | .parallelism limit => r.withParallelism limit
  | .maxPasses bound => r.withMaxPasses bound
  | .overrides infos => r.withOverrides infos
  | .propagate stop => (r.propagate stop).resolver

/-- The resolver of a model after some calls. -/
def history (m : Model) (calls : List Call) : Resolver := calls.foldl Call.apply (ofModel m)

/-- What a result depends on, beside the model. -/
structure Settings where
  registry : Registry := .standard
  opset : Int
  maxPasses : Int := 10
  overrides : Dict TensorInfo := {}

namespace Settings

/-- The settings after a call: a propagation leaves them alone. -/
def set (s : Settings) : Call → Settings
  | .registry rules => { s with registry := rules }
  | .opset version => { s with opset := version }
  | .maxPasses bound => { s with maxPasses := bound }
  | .overrides infos => { s with overrides := infos }
  | .parallelism _ | .propagate _ => s

/-- The last settings that were given. -/
def given (m : Model) (calls : List Call) : Settings := calls.foldl set { opset := m.opset.toInt }

/-- A new resolver with these settings. -/
def resolver (s : Settings) (m : Model) : Resolver :=
  ((((ofModel m).withRegistry s.registry).withOpset s.opset).withMaxPasses s.maxPasses).withOverrides
    s.overrides

/-- What passes find with these settings, if nothing stops them. -/
def Finds (s : Settings) (m : Model) (values : Dict ValueState) (failures : List (Nat × InferError)) :
    Prop :=
  ∃ ls run changed, m.graph.levels = .ok ls ∧
    (s.resolver m).runPasses (fun _ => false) (levelNodes m.graph ls) (s.resolver m).maxPasses 0
      (s.resolver m).start = .reached run changed ∧
    values = run.values ∧ failures = run.failures

theorem Finds.unique {s : Settings} {m : Model} {values values' : Dict ValueState}
    {failures failures' : List (Nat × InferError)} (h : s.Finds m values failures)
    (h' : s.Finds m values' failures') : values = values' ∧ failures = failures' := by
  obtain ⟨ls, run, changed, hl, hrun, rfl, rfl⟩ := h
  obtain ⟨ls', run', changed', hl', hrun', rfl, rfl⟩ := h'
  rw [hl] at hl'
  cases hl'
  rw [hrun] at hrun'
  cases hrun'
  exact ⟨rfl, rfl⟩

end Settings

/-! ## What is reached is reached without looking -/

theorem runLevel_of_reached {r : Resolver} {stop : Nat → Bool} {look : Nat} {run run' : Run}
    {level : List (Node × Nat)} {changed : Bool}
    (h : r.runLevel stop look run level = .reached run' changed) :
    r.runLevel (fun _ => false) look run level = .reached run' changed := by
  unfold runLevel at h ⊢
  split at h
  · cases h
  simp only [Bool.or_eq_true] at h ⊢
  split at h
  · cases h
  · next hgo => simpa [not_or.mp hgo] using h

theorem runLevels_of_reached {r : Resolver} {stop : Nat → Bool} {look : Nat} {run run' : Run}
    {ls : List (List (Node × Nat))} {changed : Bool}
    (h : r.runLevels stop look run ls = .reached run' changed) :
    r.runLevels (fun _ => false) look run ls = .reached run' changed := by
  induction ls generalizing look run changed with
  | nil => exact h
  | cons level ls ih =>
    obtain ⟨mid, c, c', hmid, hrest, rfl⟩ := runLevels_cons_reached h
    simp only [runLevels, runLevel_of_reached hmid, ih hrest]

theorem runPasses_of_reached {r : Resolver} {stop : Nat → Bool} {ls : List (List (Node × Nat))}
    {left pass : Nat} {run run' : Run} {changed : Bool}
    (h : r.runPasses stop ls left pass run = .reached run' changed) :
    r.runPasses (fun _ => false) ls left pass run = .reached run' changed := by
  induction left generalizing pass run with
  | zero => exact h
  | succ left ih =>
    simp only [runPasses] at h ⊢
    split at h
    · cases h
    next mid c hmid =>
    simp only [runLevels_of_reached hmid]
    split
    · next hc => exact ih (by rwa [if_pos hc] at h)
    · next hc => rwa [if_neg hc] at h

theorem runPasses_congr {r s : Resolver} (hreg : r.registry = s.registry) (hop : r.opset = s.opset)
    (stop : Nat → Bool) (ls : List (List (Node × Nat))) (left pass : Nat) (run : Run) :
    r.runPasses stop ls left pass run = s.runPasses stop ls left pass run := by
  induction left generalizing pass run with
  | zero => rfl
  | succ left ih => simp only [runPasses, runLevels_congr hreg hop, ih]

/-! ## What holds after every call -/

/-- The resolver is that of the model and the settings, with what they find if it is
marked so. Of a graph without levels nothing is ever found. -/
structure Tracks (m : Model) (s : Settings) (r : Resolver) : Prop where
  model : r.model = m
  registry : r.registry = s.registry
  opset : r.opset = s.opset
  passes : r.maxPasses = (max s.maxPasses 1).toNat
  overrides : r.overrides = s.overrides
  found : r.propagated = true → s.Finds m r.values r.failures
  unordered : ∀ e, m.graph.levels = .error e → r.values = seed m.graph {} ∧ r.failures = []

variable {m : Model} {s : Settings} {r r' : Resolver}

theorem tracks_ofModel (m : Model) : Tracks m { opset := m.opset.toInt } (ofModel m) :=
  ⟨rfl, rfl, rfl, rfl, rfl, nofun, fun _ _ => ⟨rfl, rfl⟩⟩

theorem tracks_resolver (m : Model) (s : Settings) : Tracks m s (s.resolver m) :=
  ⟨rfl, rfl, rfl, rfl, rfl, nofun, fun _ _ => ⟨rfl, rfl⟩⟩

/-- The passes are those of a new resolver. -/
theorem Tracks.runPasses_eq (h : Tracks m s r) (stop : Nat → Bool) (ls : List (List (Node × Nat))) :
    r.runPasses stop ls r.maxPasses 0 r.start =
      (s.resolver m).runPasses stop ls (s.resolver m).maxPasses 0 (s.resolver m).start := by
  have hstart : r.start = (s.resolver m).start := by
    rw [start, start, h.model, h.overrides]
    rfl
  rw [hstart, h.passes]
  exact runPasses_congr h.registry h.opset stop ls _ 0 _

/-- Passes that come to their end find what the settings find. -/
theorem Tracks.finds (h : Tracks m s r) {ls : List (List Nat)} (hl : m.graph.levels = .ok ls)
    {stop : Nat → Bool} {run : Run} {changed : Bool}
    (hrun : r.runPasses stop (levelNodes m.graph ls) r.maxPasses 0 r.start = .reached run changed) :
    s.Finds m run.values run.failures := by
  rw [h.runPasses_eq] at hrun
  exact ⟨ls, run, changed, hl, runPasses_of_reached hrun, rfl, rfl⟩

theorem Tracks.propagate (h : Tracks m s r) (stop : Nat → Bool) :
    Tracks m s (r.propagate stop).resolver := by
  have hend := r.ending_propagate stop
  generalize r.propagate stop = p at hend
  cases hend with
  | spared => exact h
  | unordered => exact h
  | interrupted _ hl =>
    rw [h.model] at hl
    exact ⟨h.model, h.registry, h.opset, h.passes, h.overrides, nofun, fun e he => by simp [hl] at he⟩
  | finished _ hl hrun =>
    rw [h.model] at hl hrun
    exact ⟨h.model, h.registry, h.opset, h.passes, h.overrides, fun _ => h.finds hl hrun,
      fun e he => by simp [hl] at he⟩

/-- **Every call keeps track of the settings.** -/
theorem Tracks.apply (h : Tracks m s r) (c : Call) : Tracks m (s.set c) (c.apply r) := by
  cases c with
  | registry _ => exact ⟨h.model, rfl, h.opset, h.passes, h.overrides, nofun, h.unordered⟩
  | opset _ => exact ⟨h.model, h.registry, rfl, h.passes, h.overrides, nofun, h.unordered⟩
  | maxPasses _ => exact ⟨h.model, h.registry, h.opset, rfl, h.overrides, nofun, h.unordered⟩
  | overrides _ => exact ⟨h.model, h.registry, h.opset, h.passes, rfl, nofun, h.unordered⟩
  -- the result stays what it is, and so do the settings it depends on
  | parallelism _ => exact ⟨h.model, h.registry, h.opset, h.passes, h.overrides, h.found, h.unordered⟩
  | propagate stop => exact h.propagate stop

theorem Tracks.foldl (h : Tracks m s r) (calls : List Call) :
    Tracks m (calls.foldl Settings.set s) (calls.foldl Call.apply r) := by
  induction calls generalizing s r with
  | nil => exact h
  | cons c calls ih => exact ih (h.apply c)

theorem tracks_history (m : Model) (calls : List Call) :
    Tracks m (.given m calls) (history m calls) := (tracks_ofModel m).foldl calls

/-! ## History independence -/

/-- Of a graph without levels a propagation says so, and does nothing. -/
theorem Tracks.propagate_of_unordered (h : Tracks m s r) {e : GraphError}
    (he : m.graph.levels = .error e) (stop : Nat → Bool) :
    r.propagate stop = ⟨r, .error (.graph e), []⟩ := by
  have hp : r.propagated = false := by
    by_contra hp
    obtain ⟨ls, -, -, hl, -⟩ := h.found (by simpa using hp)
    rw [he] at hl
    cases hl
  simp [Resolver.propagate, hp, h.model, he]

/-- A propagation that comes to its end has found what the settings find. -/
theorem Tracks.finds_propagate (h : Tracks m s r) {ls : List (List Nat)} (hl : m.graph.levels = .ok ls)
    {stop : Nat → Bool} (hu : (r.propagate stop).Uninterrupted) :
    s.Finds m (r.propagate stop).resolver.values (r.propagate stop).resolver.failures := by
  rw [← h.model] at hl
  obtain ⟨⟨run, hrun⟩, -⟩ := finished_propagate hl hu
  exact (h.propagate stop).found (by rw [hrun]; rfl)

/-- If the settings find something, a propagation that is not stopped comes to its end. -/
theorem Tracks.uninterrupted (h : Tracks m s r) {values : Dict ValueState}
    {failures : List (Nat × InferError)} (hfinds : s.Finds m values failures) :
    (r.propagate fun _ => false).Uninterrupted := by
  obtain ⟨ls, run, changed, hl, hrun, -⟩ := hfinds
  have hend := r.ending_propagate fun _ => false
  generalize r.propagate (fun _ => false) = p at hend
  cases hend with
  | spared => exact failuresError_ne_interrupted r
  | unordered => nofun
  | finished => exact failuresError_ne_interrupted _
  | interrupted _ hl' hrun' =>
    rw [h.model] at hl' hrun'
    rw [hl] at hl'
    cases hl'
    rw [h.runPasses_eq, hrun] at hrun'
    cases hrun'

/-- Two resolvers that track the same settings find the same. -/
theorem Tracks.agrees (h : Tracks m s r) (h' : Tracks m s r') {stop stop' : Nat → Bool}
    (hu : (r.propagate stop).Uninterrupted) (hu' : (r'.propagate stop').Uninterrupted) :
    (r.propagate stop).Agrees (r'.propagate stop') := by
  cases hl : m.graph.levels with
  | error e =>
    rw [h.propagate_of_unordered hl, h'.propagate_of_unordered hl]
    obtain ⟨hv, hf⟩ := h.unordered e hl
    obtain ⟨hv', hf'⟩ := h'.unordered e hl
    exact ⟨hv.trans hv'.symm, hf.trans hf'.symm, rfl⟩
  | ok ls =>
    obtain ⟨hvalues, hfailures⟩ := (h.finds_propagate hl hu).unique (h'.finds_propagate hl hu')
    have hmodel := (h.propagate stop).model.trans (h'.propagate stop').model.symm
    obtain ⟨-, hresult⟩ := finished_propagate (h.model ▸ hl) hu
    obtain ⟨-, hresult'⟩ := finished_propagate (h'.model ▸ hl) hu'
    exact ⟨hvalues, hfailures, by rw [hresult, hresult', failuresError_congr hmodel hfailures]⟩

/-- What came to its end once does so in a new resolver that is not stopped. -/
theorem Tracks.uninterrupted_resolver (h : Tracks m s r) {stop : Nat → Bool}
    (hu : (r.propagate stop).Uninterrupted) :
    ((s.resolver m).propagate fun _ => false).Uninterrupted := by
  cases hl : m.graph.levels with
  | error e =>
    rw [(tracks_resolver m s).propagate_of_unordered hl]
    nofun
  | ok ls => exact (tracks_resolver m s).uninterrupted (h.finds_propagate hl hu)

/-- **A resolver has no memory but its settings.** After any calls, values and failures
that are marked as found are those of a new resolver with the last settings given, and
a propagation that comes to its end finds and says what that resolver's does. -/
theorem history_independent (m : Model) (calls : List Call) :
    ((history m calls).propagated = true →
      (((Settings.given m calls).resolver m).propagate fun _ => false).Uninterrupted ∧
      (history m calls).values =
        (((Settings.given m calls).resolver m).propagate fun _ => false).resolver.values ∧
      (history m calls).failures =
        (((Settings.given m calls).resolver m).propagate fun _ => false).resolver.failures) ∧
    ∀ stop, ((history m calls).propagate stop).Uninterrupted →
      (((Settings.given m calls).resolver m).propagate fun _ => false).Uninterrupted ∧
      ∀ stop', (((Settings.given m calls).resolver m).propagate stop').Uninterrupted →
        ((history m calls).propagate stop).Agrees
          (((Settings.given m calls).resolver m).propagate stop') := by
  have h := tracks_history m calls
  have hnew := tracks_resolver m (.given m calls)
  constructor
  · intro hp
    have hfinds := h.found hp
    have hu := hnew.uninterrupted hfinds
    obtain ⟨ls, -, -, hl, -⟩ := hfinds
    exact ⟨hu, (h.found hp).unique (hnew.finds_propagate hl hu)⟩
  · intro stop hu
    exact ⟨h.uninterrupted_resolver hu, fun stop' hu' => h.agrees hnew hu hu'⟩

/-- Overrides, a propagation that is stopped at once, a new bound, a propagation that
is not stopped, and a setting that does not matter. -/
def disturbed : List Call := [
  .overrides ⟨[("x", ⟨none, some [.known 5, .known 6]⟩)]⟩, .propagate fun _ => true, .maxPasses 2,
  .propagate fun _ => false, .parallelism 4]

theorem propagated_disturbed : (history mixture.model disturbed).propagated = true := by
  have h := tracks_history mixture.model (disturbed.take 3)
  have hl : (history mixture.model (disturbed.take 3)).model.graph.levels = .ok [[1], [0], [2, 3]] := by
    rw [h.model]
    cbv
  have hu : ((history mixture.model (disturbed.take 3)).propagate fun _ => false).Uninterrupted := by
    refine uninterrupted_propagate fun n hn => ?_
    rw [h.model] at hn
    rw [cancels_congr (s := mixture) h.registry h.opset]
    exact cancels_mixture n hn
  obtain ⟨⟨run, hrun⟩, -⟩ := finished_propagate hl hu
  exact congrArg propagated hrun

/-- One more propagation is spared, and so it is not interrupted either. -/
theorem history_disturbed : (history mixture.model disturbed).propagated = true ∧
    (history mixture.model disturbed).values =
      (((Settings.given mixture.model disturbed).resolver mixture.model).propagate
        fun _ => false).resolver.values ∧
    ((history mixture.model disturbed).propagate fun _ => true).Uninterrupted ∧
    ((history mixture.model disturbed).propagate fun _ => true).Agrees
      (((Settings.given mixture.model disturbed).resolver mixture.model).propagate fun _ => false) := by
  have hp := propagated_disturbed
  have hu : ((history mixture.model disturbed).propagate fun _ => true).Uninterrupted := by
    rw [propagate, if_pos hp]
    exact failuresError_ne_interrupted _
  obtain ⟨hfound, hends⟩ := history_independent mixture.model disturbed
  obtain ⟨hu', hagrees⟩ := hends _ hu
  exact ⟨hp, (hfound hp).2.1, hu, hagrees _ hu'⟩

end ShapeFlow.Resolver
