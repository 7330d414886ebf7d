/-
Nodes that have had their say. A node is settled in a run when the states of its
outputs, its failure and its report are what an attempt gives at what the run now
knows of its inputs. One pass over the levels settles every node, since nothing
that a node reads changes after its own level (`Settled.runLevels`); a pass over
settled nodes changes nothing (`runLevels_of_settled`).
-/
import ShapeFlow.Proofs.Graph.Countdown
import ShapeFlow.Proofs.Resolver.Record

namespace ShapeFlow.Resolver

/-! ## The results of a level -/

/-- An attempt at a node from what the run knows. -/
def attemptIn (r : Resolver) (run : Run) (n : Node) : Attempt :=
  r.attempt n (n.inputInfos run.values)

/-- The result of a node in a level: a failure that it had before, or else an
attempt. -/
def outcome (r : Resolver) (run : Run) (p : Node × Nat) : Attempt :=
  match run.failures.lookup p.2 with
  | some e => .failed e
  | none => r.attemptIn run p.1

/-- Nothing but successful inferences. -/
def Quiet (events : List Event) : Prop :=
  ∀ e ∈ events, ∃ n inputs outputs, e = .inferred n inputs outputs

theorem Quiet.append {es fs : List Event} (h : Quiet es) (h' : Quiet fs) : Quiet (es ++ fs) := by
  intro e he
  rcases List.mem_append.mp he with he | he
  · exact h e he
  · exact h' e he

theorem results_inferLevel {r : Resolver} {run : Run} {level : List (Node × Nat)}
    (h : (r.inferLevel run level).cancelled = false) :
    (r.inferLevel run level).results = level.map fun p => (p.1, p.2, r.outcome run p) := by
  induction level with
  | nil => rfl
  | cons p level ih =>
    obtain ⟨n, i⟩ := p
    simp only [inferLevel] at h ⊢
    split at h
    · next e he =>
      simp only [he, List.map_cons, outcome]
      rw [ih h]
      rfl
    · next he =>
      simp only [he, List.map_cons, outcome]
      split at h
      · cases h
      · next hc =>
        rw [if_neg hc]
        simp only [ih h]
        rfl

theorem quiet_inferLevel (r : Resolver) (run : Run) (level : List (Node × Nat)) :
    Quiet (r.inferLevel run level).events := by
  induction level with
  | nil => simp [inferLevel, Quiet]
  | cons p level ih =>
    obtain ⟨n, i⟩ := p
    simp only [inferLevel]
    split
    · exact ih
    · split
      · simp only
        split <;> simp [Quiet]
      · refine Quiet.append ?_ ih
        split <;> simp [Quiet]

/-- A level that is reached records the results of its nodes. -/
theorem runLevel_reached {r : Resolver} {stop : Nat → Bool} {look : Nat} {run run' : Run}
    {level : List (Node × Nat)} {changed : Bool}
    (h : r.runLevel stop look run level = .reached run' changed) :
    ∃ es, Quiet es ∧ recordAll { run with events := run.events ++ es }
      (level.map fun p => (p.1, p.2, r.outcome run p)) = (run', changed) := by
  refine ⟨(r.inferLevel run level).events, quiet_inferLevel r run level, ?_⟩
  unfold runLevel at h
  split at h
  · cases h
  · simp only at h
    split at h
    · cases h
    · next hc =>
      simp only [Bool.or_eq_true, not_or, Bool.not_eq_true] at hc
      rw [results_inferLevel hc.1] at h
      cases h
      rfl

/-- A pass that is reached reaches its first level and the others after it. -/
theorem runLevels_cons_reached {r : Resolver} {stop : Nat → Bool} {look : Nat} {run run' : Run}
    {level : List (Node × Nat)} {ls : List (List (Node × Nat))} {changed : Bool}
    (h : r.runLevels stop look run (level :: ls) = .reached run' changed) :
    ∃ mid c c', r.runLevel stop look run level = .reached mid c ∧
      r.runLevels stop (look + 2) mid ls = .reached run' c' ∧ changed = (c || c') := by
  simp only [runLevels] at h
  split at h
  · cases h
  next mid c hmid =>
  split at h
  · cases h
  next c' hrest =>
  cases h
  exact ⟨mid, c, c', hmid, hrest, rfl⟩

/-! ## Settled nodes -/

/-- What is declared of a value. -/
def seeded (r : Resolver) (v : Text) : ValueState := (seed r.model.graph r.overrides).state v

/-- The node has had its say, on the grounds of what is now known. -/
structure NodeSettled (r : Resolver) (run : Run) (i : Nat) (n : Node) : Prop where
  merged : ∀ v ∈ n.namedOutputs,
    run.values.state v = ((r.seeded v).merge ((r.attemptIn run n).offer n v)).value
  failure : run.failures.lookup i = (r.attemptIn run n).error?
  reported : r.attemptIn run n = .unsupported → n.op ∈ run.reported
  entered : ∀ v, ((r.attemptIn run n).offer n v).isSome → (run.values.get? v).isSome

/-- The nodes at `done` have had their say, and no others. -/
structure Settled (r : Resolver) (run : Run) (done : List Nat) : Prop where
  untouched : ∀ v, (∀ i ∈ done, ¬ r.model.graph.Writes i v) → run.values.state v = r.seeded v
  nodes : ∀ i ∈ done, ∀ n, r.model.graph.nodes[i]? = some n → r.NodeSettled run i n
  untried : ∀ i, i ∉ done → run.failures.lookup i = none

variable {r : Resolver} {run : Run} {done : List Nat}

theorem NodeSettled.withEvents {i : Nat} {n : Node} (h : r.NodeSettled run i n) (es : List Event) :
    r.NodeSettled { run with events := es } i n :=
  ⟨h.merged, h.failure, h.reported, h.entered⟩

theorem Settled.withEvents (h : r.Settled run done) (es : List Event) :
    r.Settled { run with events := es } done :=
  ⟨h.untouched, fun i hi n hn => (h.nodes i hi n hn).withEvents es, h.untried⟩

/-- Whoever feeds a node that lacks nothing has been taken off. -/
theorem mem_of_feeds {g : Graph} (hg : g.Uncontested) {i j : Nat} (h : g.missing done i = [])
    (hf : g.Feeds j i) : j ∈ done := by
  obtain ⟨v, hw, hr⟩ := hf
  obtain ⟨k, hk, hw'⟩ := Graph.missing_eq_nil.mp h v (Graph.mem_awaitedAt.mpr ⟨hr, j, hw⟩)
  exact hg.writer hw' hw ▸ hk

theorem nodup_namedOutputs {g : Graph} (hg : g.Uncontested) {i : Nat} {n : Node}
    (hn : g.nodes[i]? = some n) : n.namedOutputs.Nodup := by
  have := hg.nodup i
  rwa [Graph.outputsAt, hn] at this

/-- A result that concerns nothing a node reads leaves its attempt as it is. -/
theorem attemptIn_record (r : Resolver) (run : Run) {n m : Node} (hn : n.namedOutputs.Nodup) (i : Nat) (a : Attempt)
    (h : ∀ v ∈ m.namedInputs, v ∉ n.namedOutputs) :
    r.attemptIn (record run (n, i, a)).1 m = r.attemptIn run m := by
  unfold attemptIn
  rw [Node.inputInfos_congr fun v hv => ?_]
  rw [state_record run n i a hn, Attempt.offer_eq_none (h v hv), ValueState.merge_none]

/-- A settled node stays settled when a result is recorded that concerns nothing it
reads or writes. -/
theorem NodeSettled.record {i j : Nat} {n m : Node} (h : r.NodeSettled run j m)
    (hn : n.namedOutputs.Nodup) (hji : j ≠ i) (hreads : ∀ v ∈ m.namedInputs, v ∉ n.namedOutputs)
    (hwrites : ∀ v ∈ m.namedOutputs, v ∉ n.namedOutputs) (a : Attempt) :
    r.NodeSettled (record run (n, i, a)).1 j m := by
  have hsame := attemptIn_record r run hn i a hreads
  refine ⟨fun v hv => ?_, ?_, fun hu => ?_, fun v hv => ?_⟩
  · rw [hsame, state_record run n i a hn, Attempt.offer_eq_none (hwrites v hv),
      ValueState.merge_none]
    exact h.merged v hv
  · rw [hsame, lookup_record, if_neg hji, Option.or_none]
    exact h.failure
  · rw [hsame] at hu
    exact reported_record run n i a (.inl (h.reported hu))
  · rw [hsame] at hv
    exact isSome_get?_record run n i a (.inl (h.entered v hv))

/-- A node that has not been tried is settled by recording an attempt at it, if it
does not read what it writes itself. -/
theorem nodeSettled_record {i : Nat} {n : Node} (hn : n.namedOutputs.Nodup)
    (hreads : ∀ v ∈ n.namedInputs, v ∉ n.namedOutputs)
    (hseeded : ∀ v ∈ n.namedOutputs, run.values.state v = r.seeded v)
    (hfailure : run.failures.lookup i = none) :
    r.NodeSettled (record run (n, i, r.attemptIn run n)).1 i n := by
  have hsame := attemptIn_record r run hn i (r.attemptIn run n) hreads
  refine ⟨fun v hv => ?_, ?_, fun hu => ?_, fun v hv => ?_⟩
  · rw [hsame, state_record run n i _ hn, hseeded v hv]
  · rw [hsame, lookup_record, if_pos rfl, hfailure, Option.none_or]
  · rw [hsame] at hu
    exact reported_record run n i _ (.inr ⟨hu, rfl⟩)
  · rw [hsame] at hv
    exact isSome_get?_record run n i _ (.inr hv)

/-- **The step:** a node whose feeders are settled is settled by recording an
attempt at it, and nothing else is unsettled. -/
theorem Settled.record (hg : r.model.graph.Uncontested) (h : r.Settled run done)
    (hclosed : r.model.graph.Closed done) {i : Nat} {n : Node}
    (hn : r.model.graph.nodes[i]? = some n) (hi : i ∉ done)
    (hlacks : r.model.graph.missing done i = []) :
    r.Settled (record run (n, i, r.attemptIn run n)).1 (done ++ [i]) := by
  have hnodup := nodup_namedOutputs hg hn
  -- Nobody at `done` reads what the node writes, and neither does the node itself.
  have hunread : ∀ k m, r.model.graph.nodes[k]? = some m → r.model.graph.missing done k = [] →
      ∀ v ∈ m.namedInputs, v ∉ n.namedOutputs := fun k m hm hk v hv hv' =>
    hi (mem_of_feeds hg hk ⟨v, ⟨n, hn, hv'⟩, ⟨m, hm, hv⟩⟩)
  refine ⟨fun v hv => ?_, fun k hk m hm => ?_, fun k hk => ?_⟩
  · have hnot : v ∉ n.namedOutputs := fun hv' => hv i (by simp) ⟨n, hn, hv'⟩
    rw [state_record run n i _ hnodup, Attempt.offer_eq_none hnot, ValueState.merge_none]
    exact h.untouched v fun k hk => hv k (List.mem_append_left _ hk)
  · rcases List.mem_append.mp hk with hk | hk
    · have hki : k ≠ i := fun he => hi (he ▸ hk)
      exact (h.nodes k hk m hm).record hnodup hki (hunread k m hm (hclosed k hk))
        (fun v hv hv' => hki (hg.writer ⟨m, hm, hv⟩ ⟨n, hn, hv'⟩)) _
    · obtain rfl := List.mem_singleton.mp hk
      obtain rfl : n = m := by rw [hn] at hm; exact Option.some.inj hm
      refine nodeSettled_record hnodup (hunread k n hn hlacks) (fun v hv => ?_) (h.untried k hi)
      exact h.untouched v fun j hj hw => hi (hg.writer hw ⟨n, hn, hv⟩ ▸ hj)
  · simp only [List.mem_append, List.mem_singleton, not_or] at hk
    rw [lookup_record, if_neg hk.2, Option.or_none]
    exact h.untried k hk.1

/-! ## A pass settles -/

/-- A level that waits for nothing outside `done` is settled by its results,
though they were found before any of them was recorded. -/
theorem Settled.recordAll (hg : r.model.graph.Uncontested) (before : Run)
    (level : List (Node × Nat)) (hnodup : (level.map Prod.snd).Nodup) (h : r.Settled run done)
    (hclosed : r.model.graph.Closed done)
    (hlevel : ∀ p ∈ level, r.model.graph.nodes[p.2]? = some p.1 ∧ p.2 ∉ done ∧
      r.model.graph.missing done p.2 = [])
    (hbefore : ∀ p ∈ level, r.outcome before p = r.attemptIn run p.1) :
    r.Settled (recordAll run (level.map fun p => (p.1, p.2, r.outcome before p))).1
      (done ++ level.map Prod.snd) := by
  induction level generalizing run done with
  | nil => simpa [Resolver.recordAll] using h
  | cons p level ih =>
    obtain ⟨n, i⟩ := p
    obtain ⟨hnot, hnodup⟩ := List.nodup_cons.mp hnodup
    obtain ⟨hn, hi, hlacks⟩ := hlevel (n, i) List.mem_cons_self
    have hfirst := h.record hg hclosed hn hi hlacks
    have hclosed' : r.model.graph.Closed (done ++ [i]) := by
      intro k hk
      refine Graph.missing_append_eq_nil _ ?_
      rcases List.mem_append.mp hk with hk | hk
      · exact hclosed k hk
      · exact List.mem_singleton.mp hk ▸ hlacks
    have hstep : Resolver.recordAll run (((n, i) :: level).map fun p => (p.1, p.2, r.outcome before p)) =
        ((Resolver.recordAll (Resolver.record run (n, i, r.outcome before (n, i))).1
          (level.map fun p => (p.1, p.2, r.outcome before p))).1, _) := rfl
    rw [hstep, hbefore (n, i) List.mem_cons_self, List.map_cons, List.append_cons]
    refine ih hnodup hfirst hclosed' (fun q hq => ?_) (fun q hq => ?_)
    · obtain ⟨hm, hq', hlacks'⟩ := hlevel q (List.mem_cons_of_mem _ hq)
      refine ⟨hm, ?_, Graph.missing_append_eq_nil _ hlacks'⟩
      simp only [List.mem_append, List.mem_singleton, not_or]
      exact ⟨hq', fun he => hnot (List.mem_map.mpr ⟨q, hq, he⟩)⟩
    · obtain ⟨hm, -, hlacks'⟩ := hlevel q (List.mem_cons_of_mem _ hq)
      rw [hbefore q (List.mem_cons_of_mem _ hq)]
      exact (attemptIn_record r run (nodup_namedOutputs hg hn) i _ fun v hv hv' =>
        hi (mem_of_feeds hg hlacks' ⟨v, ⟨n, hn, hv'⟩, ⟨q.1, hm, hv⟩⟩)).symm

/-- The nodes at the places of a level. -/
def placed (g : Graph) (level : List Nat) : List (Node × Nat) :=
  level.filterMap fun i => (g.nodes[i]?).map fun n => (n, i)

theorem levelNodes_cons (g : Graph) (level : List Nat) (ls : List (List Nat)) :
    levelNodes g (level :: ls) = placed g level :: levelNodes g ls := rfl

theorem mem_placed {g : Graph} {level : List Nat} {p : Node × Nat} :
    p ∈ placed g level ↔ p.2 ∈ level ∧ g.nodes[p.2]? = some p.1 := by
  obtain ⟨n, i⟩ := p
  simp only [placed, List.mem_filterMap, Option.map_eq_some_iff, Prod.mk.injEq]
  constructor
  · rintro ⟨j, hj, m, hm, rfl, rfl⟩
    exact ⟨hj, hm⟩
  · rintro ⟨hi, hn⟩
    exact ⟨i, hi, n, hn, rfl, rfl⟩

theorem nodes_levelNodes {g : Graph} {ls : List (List Nat)} {level : List (Node × Nat)}
    (h : level ∈ levelNodes g ls) : ∀ p ∈ level, g.nodes[p.2]? = some p.1 := by
  obtain ⟨places, -, rfl⟩ := List.mem_map.mp h
  exact fun p hp => (mem_placed.mp hp).2

theorem map_snd_placed {g : Graph} {level : List Nat} (h : ∀ i ∈ level, i < g.nodes.length) :
    (placed g level).map Prod.snd = level := by
  induction level with
  | nil => rfl
  | cons i level ih =>
    have hi := List.getElem?_eq_getElem (h i List.mem_cons_self)
    have ih := ih fun j hj => h j (List.mem_cons_of_mem _ hj)
    simp only [placed, List.filterMap_cons, hi, Option.map_some, List.map_cons] at ih ⊢
    rw [ih]

theorem Settled.runLevel (hg : r.model.graph.Uncontested) (h : r.Settled run done)
    (hclosed : r.model.graph.Closed done) {stop : Nat → Bool} {look : Nat} {run' : Run}
    {changed : Bool}
    (hrun : r.runLevel stop look run (placed r.model.graph (r.model.graph.readyAfter done)) =
      .reached run' changed) :
    r.Settled run' (done ++ r.model.graph.readyAfter done) := by
  have hsnd : (placed r.model.graph (r.model.graph.readyAfter done)).map Prod.snd =
      r.model.graph.readyAfter done :=
    map_snd_placed fun i hi => (Graph.mem_readyAfter.mp hi).1
  have hnodup := hsnd ▸ Graph.nodup_readyAfter r.model.graph done
  obtain ⟨es, -, hes⟩ := runLevel_reached hrun
  have hrecord := (h.withEvents (run.events ++ es)).recordAll hg run
    (placed r.model.graph (r.model.graph.readyAfter done)) hnodup hclosed
    (fun p hp => by
      obtain ⟨hp, hn⟩ := mem_placed.mp hp
      obtain ⟨-, hi, hlacks⟩ := Graph.mem_readyAfter.mp hp
      exact ⟨hn, hi, hlacks⟩)
    (fun p hp => by
      obtain ⟨hp, -⟩ := mem_placed.mp hp
      simp only [outcome, h.untried p.2 (Graph.mem_readyAfter.mp hp).2.1]
      rfl)
  rwa [hes, hsnd] at hrecord

/-- **The run:** a pass over all that is left settles all that is left. -/
theorem Settled.runLevels (hg : r.model.graph.Uncontested) {ls : List (List Nat)}
    (hlayers : r.model.graph.Layers done ls) (h : r.Settled run done)
    (hclosed : r.model.graph.Closed done) {stop : Nat → Bool} {look : Nat} {run' : Run}
    {changed : Bool}
    (hrun : r.runLevels stop look run (levelNodes r.model.graph ls) = .reached run' changed) :
    r.Settled run' (done ++ ls.flatten) := by
  induction hlayers generalizing run look changed with
  | stop =>
    cases hrun
    simpa using h
  | @next done ls _ _ ih =>
    rw [levelNodes_cons] at hrun
    obtain ⟨mid, c, c', hmid, hrest, -⟩ := runLevels_cons_reached hrun
    rw [List.flatten_cons, ← List.append_assoc]
    exact ih (h.runLevel hg hclosed hmid) hclosed.append_readyAfter hrest

/-! ## A pass over settled nodes -/

/-- Recording the result of a settled node once more changes nothing: a merge of
the same inference is not a change, and failures and reports are kept. -/
theorem record_of_settled {i : Nat} {n : Node} (hn : n.namedOutputs.Nodup)
    (h : r.NodeSettled run i n) : record run (n, i, r.outcome run (n, i)) = (run, false) := by
  unfold outcome
  split
  · next e he => simp only [record, he, Option.isSome_some, if_true]
  · next he =>
    have hfailure := h.failure
    rw [he] at hfailure
    cases ha : r.attemptIn run n with
    | unsupported => simp [record, h.reported ha]
    | failed e => simp [ha, Attempt.error?] at hfailure
    | inferred outputs =>
      refine mergeOutputs_of_unchanged n run _ fun v t hm hv => ?_
      have hslot : (r.attemptIn run n).offer n v = some t := by
        rw [ha]
        exact slotIn_of_mem (nodup_slotNames hn outputs) hm hv
      obtain ⟨s, hs⟩ := Option.isSome_iff_exists.mp (h.entered v (by simp [hslot]))
      have hmerged := h.merged v (Node.mem_namedOutputs.mpr ⟨(List.of_mem_zip hm).1, hv⟩)
      rw [hslot, Dict.state, hs, Option.getD_some] at hmerged
      refine ⟨s, hs, ?_⟩
      rw [hmerged]
      exact ValueState.merge_merge _ _

theorem recordAll_of_settled (hg : r.model.graph.Uncontested) {level : List (Node × Nat)}
    (h : ∀ p ∈ level, r.model.graph.nodes[p.2]? = some p.1 ∧ r.NodeSettled run p.2 p.1) :
    recordAll run (level.map fun p => (p.1, p.2, r.outcome run p)) = (run, false) := by
  induction level with
  | nil => rfl
  | cons p level ih =>
    obtain ⟨hn, hp⟩ := h p List.mem_cons_self
    have hfirst := record_of_settled (nodup_namedOutputs hg hn) hp
    simp only [List.map_cons, recordAll, hfirst, ih fun q hq => h q (List.mem_cons_of_mem _ hq),
      Bool.or_self]

/-- **A pass over settled nodes changes nothing**, records no failure, meets no
conflict and reports no operator. -/
theorem runLevels_of_settled (hg : r.model.graph.Uncontested) {ls : List (List Nat)}
    (h : ∀ i ∈ ls.flatten, ∀ n, r.model.graph.nodes[i]? = some n → r.NodeSettled run i n)
    {stop : Nat → Bool} {look : Nat} {run' : Run} {changed : Bool}
    (hrun : r.runLevels stop look run (levelNodes r.model.graph ls) = .reached run' changed) :
    changed = false ∧ ∃ es, Quiet es ∧ run' = { run with events := run.events ++ es } := by
  induction ls generalizing run look changed with
  | nil =>
    cases hrun
    exact ⟨rfl, [], by simp [Quiet], by simp⟩
  | cons level ls ih =>
    rw [levelNodes_cons] at hrun
    obtain ⟨mid, c, c', hmid, hrest, rfl⟩ := runLevels_cons_reached hrun
    obtain ⟨es, hes, hlevel⟩ := runLevel_reached hmid
    have hsettled : ∀ p ∈ placed r.model.graph level, r.model.graph.nodes[p.2]? = some p.1 ∧
        r.NodeSettled { run with events := run.events ++ es } p.2 p.1 := by
      intro p hp
      obtain ⟨hp, hn⟩ := mem_placed.mp hp
      exact ⟨hn, (h p.2 (by simp [hp]) p.1 hn).withEvents _⟩
    obtain ⟨rfl, rfl⟩ := Prod.mk.inj (hlevel.symm.trans (recordAll_of_settled hg hsettled))
    obtain ⟨rfl, fs, hfs, rfl⟩ := ih (fun i hi n hn =>
      (h i (by simp [hi]) n hn).withEvents _) hrest
    exact ⟨rfl, es ++ fs, hes.append hfs, by simp⟩

end ShapeFlow.Resolver
