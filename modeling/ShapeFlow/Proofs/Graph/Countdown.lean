/-
Counting down finds the levels. What a node lacks after the nodes at some places
have been taken off is the number of awaited values that none of them writes
(`missing`); telling every dependant of a level once for each value keeps that
count exact, because a value has one writer and a node waits for a value once.
So each level is the list of all nodes that lack nothing and have not been taken
off before (`takeLevels_layers`).
-/
import Mathlib.Data.List.Sort
import ShapeFlow.Proofs.Graph.Feeding

namespace ShapeFlow.Graph

/-! ## Telling -/

namespace Countdown

theorem getElem?_tell (c : Countdown) (i j : Nat) :
    (c.tell i).lacking[j]? = (c.lacking[j]?).map fun k => if i = j then k - 1 else k := by
  unfold tell
  split
  · rename_i k hk
    rw [List.getElem?_set]
    split
    · rename_i hij
      subst hij
      rw [if_pos (List.getElem?_eq_some_iff.mp hk).1, hk]
      simp
    · simp
  · rename_i hk
    cases hj : c.lacking[j]? with
    | none => rfl
    | some k =>
      by_cases hij : i = j
      · subst hij
        cases k with
        | zero => simp
        | succ k => exact absurd hj (hk k)
      · simp [hij]

/-- Every telling takes one off what a node lacks. -/
theorem getElem?_tellAll (c : Countdown) (places : List Nat) (j : Nat) :
    (c.tellAll places).lacking[j]? = (c.lacking[j]?).map (· - places.count j) := by
  induction places generalizing c with
  | nil => simp [tellAll]
  | cons i places ih =>
    have hstep : (c.tellAll (i :: places)) = (c.tell i).tellAll places := rfl
    rw [hstep, ih, getElem?_tell, Option.map_map]
    congr 1
    funext k
    by_cases hij : i = j
    · simp only [hij, Function.comp_apply, if_true, List.count_cons_self]
      omega
    · simp [hij]

theorem mem_ready_tell {c : Countdown} {i j : Nat} :
    j ∈ (c.tell i).ready ↔ j ∈ c.ready ∨ j = i ∧ c.lacking[i]? = some 1 := by
  unfold tell
  split
  · rename_i k hk
    by_cases hz : k = 0 <;> simp [hz, hk]
  · rename_i hk
    have : c.lacking[i]? ≠ some 1 := fun h => hk 0 h
    simp [this]

/-- A node becomes ready when it has been told of all it lacked. -/
theorem mem_ready_tellAll {c : Countdown} {places : List Nat} {j : Nat} :
    j ∈ (c.tellAll places).ready ↔
      j ∈ c.ready ∨ ∃ k, c.lacking[j]? = some (k + 1) ∧ k + 1 ≤ places.count j := by
  induction places generalizing c with
  | nil => simp [tellAll]
  | cons i places ih =>
    have hstep : (c.tellAll (i :: places)) = (c.tell i).tellAll places := rfl
    rw [hstep, ih, mem_ready_tell, getElem?_tell, or_assoc]
    refine or_congr_right ?_
    by_cases hij : i = j
    · subst hij
      simp only [List.count_cons_self, true_and, if_true]
      cases hk : c.lacking[i]? with
      | none => simp
      | some k =>
        simp only [Option.some.injEq, Option.map_some]
        constructor
        · rintro (rfl | ⟨l, hl, hle⟩)
          · exact ⟨0, rfl, by omega⟩
          · exact ⟨l + 1, by omega, by omega⟩
        · rintro ⟨l, rfl, hle⟩
          cases l with
          | zero => exact .inl rfl
          | succ l => exact .inr ⟨l, by omega, by omega⟩
    · have hji : j ≠ i := Ne.symm hij
      simp [hji, hij]

/-- Who is ready lacks nothing, and is listed once. -/
structure Sound (c : Countdown) : Prop where
  nodup : c.ready.Nodup
  lacksNothing : ∀ j ∈ c.ready, c.lacking[j]? = some 0

theorem Sound.tell {c : Countdown} (h : c.Sound) (i : Nat) : (c.tell i).Sound := by
  refine ⟨?_, fun j hj => ?_⟩
  · unfold Countdown.tell
    split
    · rename_i k hk
      by_cases hz : k = 0
      · have hi : i ∉ c.ready := fun hi => by simp [h.lacksNothing i hi] at hk
        simp only [hz, if_true]
        exact List.nodup_append.mpr ⟨h.nodup, by simp, fun a ha b hb => by
          rw [List.mem_singleton.mp hb]
          exact fun he => hi (he ▸ ha)⟩
      · simpa [hz] using h.nodup
    · exact h.nodup
  · rw [getElem?_tell]
    rcases mem_ready_tell.mp hj with hj | ⟨rfl, hj⟩
    · simp [h.lacksNothing j hj]
    · simp [hj]

theorem Sound.tellAll {c : Countdown} (h : c.Sound) (places : List Nat) : (c.tellAll places).Sound := by
  induction places generalizing c with
  | nil => exact h
  | cons i places ih => exact ih (h.tell i)

end Countdown

/-! ## What a node lacks -/

/-- The values that a node waits for and that no node at a place in `done`
writes. -/
def missing (g : Graph) (done : List Nat) (i : Nat) : List Text :=
  (g.awaitedAt i).filter fun v => v ∉ done.flatMap g.outputsAt

theorem mem_missing {g : Graph} {done : List Nat} {i : Nat} {v : Text} :
    v ∈ g.missing done i ↔ v ∈ g.awaitedAt i ∧ ∀ j ∈ done, ¬ g.Writes j v := by
  simp [missing, mem_outputsAt]

theorem missing_eq_nil {g : Graph} {done : List Nat} {i : Nat} :
    g.missing done i = [] ↔ ∀ v ∈ g.awaitedAt i, ∃ j ∈ done, g.Writes j v := by
  simp only [List.eq_nil_iff_forall_not_mem, mem_missing, not_and, not_forall, not_not, exists_prop]

theorem missing_append_eq_nil {g : Graph} {done : List Nat} (more : List Nat) {i : Nat}
    (h : g.missing done i = []) : g.missing (done ++ more) i = [] := by
  rw [missing_eq_nil] at h ⊢
  intro v hv
  obtain ⟨j, hj, hw⟩ := h v hv
  exact ⟨j, List.mem_append_left _ hj, hw⟩

theorem mem_dependants {g : Graph} {v : Text} {i : Nat} :
    i ∈ dependants g.awaits v ↔ v ∈ g.awaitedAt i := by
  simp only [dependants, List.mem_map, List.mem_filter, Prod.exists, exists_eq_right,
    List.mem_zipIdx_iff_getElem?, List.contains_eq_mem, decide_eq_true_eq, awaitedAt]
  cases g.awaits[i]? <;> simp

theorem nodup_dependants (awaits : List (List Text)) (v : Text) : (dependants awaits v).Nodup := by
  have h : (awaits.zipIdx.map Prod.snd).Nodup := by
    rw [List.zipIdx_map_snd]
    exact List.nodup_range'
  exact h.sublist (List.filter_sublist.map _)

/-- A node is told of each value of the level that it waits for. -/
theorem count_arrivals (g : Graph) (level : List Nat) (i : Nat) :
    (g.arrivals g.awaits level).count i =
      (level.flatMap g.outputsAt).countP fun v => v ∈ g.awaitedAt i := by
  unfold arrivals
  rw [← List.flatMap_assoc]
  induction level.flatMap g.outputsAt with
  | nil => rfl
  | cons v vs ih =>
    rw [List.flatMap_cons, List.count_append, ih, (nodup_dependants _ v).count, List.countP_cons]
    simp only [mem_dependants, decide_eq_true_eq]
    exact Nat.add_comm _ _

/-- **Counting is exact:** taking a level off leaves a node with what it lacked
before, less what it is told of. -/
theorem length_missing_append {g : Graph} (hg : g.Uncontested) {done level : List Nat}
    (hlevel : level.Nodup) (hnew : ∀ i ∈ level, i ∉ done) (i : Nat) :
    (g.missing (done ++ level) i).length =
      (g.missing done i).length - (g.arrivals g.awaits level).count i := by
  -- The values of the level that the node waits for, listed from either side.
  have hperm : ((g.missing done i).filter (· ∈ level.flatMap g.outputsAt)).Perm
      ((level.flatMap g.outputsAt).filter (· ∈ g.awaitedAt i)) := by
    refine (List.perm_ext_iff_of_nodup (((nodup_awaitedAt g i).filter _).filter _)
      ((hg.nodup_flatMap hlevel).filter _)).mpr fun v => ?_
    simp only [List.mem_filter, decide_eq_true_eq, List.mem_flatMap, mem_outputsAt]
    constructor
    · rintro ⟨⟨hv, -⟩, hw⟩
      exact ⟨hw, hv⟩
    · rintro ⟨⟨j, hj, hw⟩, hv⟩
      exact ⟨⟨hv, fun ⟨k, hk, hw'⟩ => hnew j hj (hg.writer hw hw' ▸ hk)⟩, j, hj, hw⟩
  have hrest : (g.missing done i).filter (· ∉ level.flatMap g.outputsAt) = g.missing (done ++ level) i := by
    simp only [missing, List.filter_filter, List.flatMap_append, List.mem_append, not_or]
    congr 1
    funext v
    simp [Bool.and_comm]
  have hsplit := List.length_eq_countP_add_countP (· ∈ level.flatMap g.outputsAt) (l := g.missing done i)
  rw [count_arrivals, List.countP_eq_length_filter, ← hperm.length_eq, ← hrest]
  simp only [List.countP_eq_length_filter, decide_eq_true_eq] at hsplit
  omega

/-! ## Levels -/

/-- What the nodes lack, by place, when those at `done` have been taken off. -/
def lackingAfter (g : Graph) (done : List Nat) : List Nat :=
  (List.range g.nodes.length).map fun i => (g.missing done i).length

/-- The places outside `done` whose nodes lack nothing. -/
def readyAfter (g : Graph) (done : List Nat) : List Nat :=
  (List.range g.nodes.length).filter fun i => i ∉ done ∧ g.missing done i = []

theorem mem_readyAfter {g : Graph} {done : List Nat} {i : Nat} :
    i ∈ g.readyAfter done ↔ i < g.nodes.length ∧ i ∉ done ∧ g.missing done i = [] := by
  simp [readyAfter]

theorem sorted_readyAfter (g : Graph) (done : List Nat) : (g.readyAfter done).Pairwise (· < ·) :=
  List.pairwise_lt_range.filter _

theorem nodup_readyAfter (g : Graph) (done : List Nat) : (g.readyAfter done).Nodup :=
  (sorted_readyAfter g done).imp fun h => Nat.ne_of_lt h

theorem getElem?_lackingAfter (g : Graph) (done : List Nat) (i : Nat) :
    (g.lackingAfter done)[i]? =
      if i < g.nodes.length then some (g.missing done i).length else none := by
  unfold lackingAfter
  split
  · rename_i hi
    simp [hi]
  · rename_i hi
    simpa using hi

/-- Nodes that were taken off lacked nothing. -/
def Closed (g : Graph) (done : List Nat) : Prop := ∀ i ∈ done, g.missing done i = []

theorem Closed.append_readyAfter {g : Graph} {done : List Nat} (h : g.Closed done) :
    g.Closed (done ++ g.readyAfter done) := by
  intro i hi
  rcases List.mem_append.mp hi with hi | hi
  · exact missing_append_eq_nil _ (h i hi)
  · exact missing_append_eq_nil _ (mem_readyAfter.mp hi).2.2

section

variable {g : Graph} {done : List Nat}

theorem lacking_tellAll (hg : g.Uncontested) :
    (Countdown.tellAll ⟨g.lackingAfter done, []⟩ (g.arrivals g.awaits (g.readyAfter done))).lacking =
      g.lackingAfter (done ++ g.readyAfter done) := by
  refine List.ext_getElem? fun i => ?_
  rw [Countdown.getElem?_tellAll, getElem?_lackingAfter, getElem?_lackingAfter,
    length_missing_append hg (nodup_readyAfter g done) (fun i hi => (mem_readyAfter.mp hi).2.1)]
  split <;> rfl

/-- The nodes that count down to nothing are the next level. -/
theorem ready_tellAll (hg : g.Uncontested) (hdone : g.Closed done) :
    (Countdown.tellAll ⟨g.lackingAfter done, []⟩
      (g.arrivals g.awaits (g.readyAfter done))).ready.mergeSort (· ≤ ·) =
      g.readyAfter (done ++ g.readyAfter done) := by
  have hsound : Countdown.Sound ⟨g.lackingAfter done, []⟩ := ⟨List.nodup_nil, by simp⟩
  refine ((List.mergeSort_perm _ _).trans ?_).eq_of_pairwise'
    (List.pairwise_mergeSort' (· ≤ ·) _) ((sorted_readyAfter g _).imp Nat.le_of_lt)
  refine (List.perm_ext_iff_of_nodup (hsound.tellAll _).nodup (nodup_readyAfter g _)).mpr fun i => ?_
  have hcount := length_missing_append hg (nodup_readyAfter g done)
    (fun i hi => (mem_readyAfter.mp hi).2.1) i
  rw [Countdown.mem_ready_tellAll, getElem?_lackingAfter, mem_readyAfter, List.mem_append,
    mem_readyAfter, ← List.length_eq_zero_iff (l := g.missing (done ++ _) i), hcount]
  split
  · rename_i hi
    simp only [List.not_mem_nil, false_or, Option.some.injEq, hi, true_and]
    constructor
    · rintro ⟨k, hk, hle⟩
      have hne : g.missing done i ≠ [] := List.ne_nil_of_length_pos (by omega)
      refine ⟨?_, by omega⟩
      rintro (hmem | ⟨-, hnil⟩)
      · exact hne (hdone i hmem)
      · exact hne hnil
    · rintro ⟨hnot, hzero⟩
      have hne : g.missing done i ≠ [] := fun hnil => hnot (.inr ⟨fun hm => hnot (.inl hm), hnil⟩)
      have := List.length_pos_iff.mpr hne
      exact ⟨(g.missing done i).length - 1, by omega, by omega⟩
  · rename_i hi
    simp [hi]

end

/-- Lists of levels in which each level holds all that is ready after `done` and
the levels before it, until nothing is. -/
inductive Layers (g : Graph) : List Nat → List (List Nat) → Prop
  | stop {done} : g.readyAfter done = [] → Layers g done []
  | next {done ls} : g.readyAfter done ≠ [] → Layers g (done ++ g.readyAfter done) ls →
    Layers g done (g.readyAfter done :: ls)

/-- **Counting down finds the levels**, and the counts that are left. -/
theorem takeLevels_layers {g : Graph} (hg : g.Uncontested) {done level lacking : List Nat}
    (hdone : g.Closed done) (hlevel : level = g.readyAfter done)
    (hlacking : lacking = g.lackingAfter done) :
    g.Layers done (g.takeLevels g.awaits level lacking).1 ∧
      (g.takeLevels g.awaits level lacking).2 =
        g.lackingAfter (done ++ (g.takeLevels g.awaits level lacking).1.flatten) := by
  fun_induction takeLevels g g.awaits level lacking generalizing done with
  | case1 lacking =>
    exact ⟨.stop hlevel.symm, by simpa using hlacking⟩
  | case2 level lacking hne c levels left hrec =>
    rename_i ih
    subst hlevel hlacking
    have ih := ih hdone.append_readyAfter (ready_tellAll hg hdone) (lacking_tellAll hg)
    rw [hrec] at ih
    refine ⟨.next hne ih.1, ?_⟩
    rw [ih.2, List.flatten_cons, List.append_assoc]

theorem total_map_length (ls : List (List Nat)) : total (ls.map List.length) = ls.flatten.length := by
  induction ls with
  | nil => rfl
  | cons l ls ih => simp [total, ih]

theorem mem_zeros {counts : List Nat} {i : Nat} : i ∈ zeros counts ↔ counts[i]? = some 0 := by
  simp only [zeros, List.mem_map, List.mem_filter, Prod.exists, exists_eq_right,
    List.mem_zipIdx_iff_getElem?, beq_iff_eq]

theorem sorted_zeros (counts : List Nat) : (zeros counts).Pairwise (· < ·) := by
  have h : (counts.zipIdx.map Prod.snd).Pairwise (· < ·) := by
    rw [List.zipIdx_map_snd]
    exact List.pairwise_lt_range'
  exact h.sublist (List.filter_sublist.map _)

theorem missing_nil (g : Graph) (i : Nat) : g.missing [] i = g.awaitedAt i := by simp [missing]

/-- At the start a node lacks all that it waits for. -/
theorem map_length_awaits (g : Graph) : g.awaits.map List.length = g.lackingAfter [] := by
  refine List.ext_getElem? fun i => ?_
  rw [List.getElem?_map, getElem?_awaits, getElem?_lackingAfter, missing_nil]
  split <;> rfl

theorem zeros_lackingAfter (g : Graph) : zeros (g.lackingAfter []) = g.readyAfter [] := by
  have hperm : (zeros (g.lackingAfter [])).Perm (g.readyAfter []) := by
    refine (List.perm_ext_iff_of_nodup ((sorted_zeros _).imp Nat.ne_of_lt)
      (nodup_readyAfter g [])).mpr fun i => ?_
    rw [mem_zeros, getElem?_lackingAfter, mem_readyAfter]
    split <;> simp [*]
  exact hperm.eq_of_pairwise' ((sorted_zeros _).imp Nat.le_of_lt)
    ((sorted_readyAfter g []).imp Nat.le_of_lt)

/-- The levels of a graph are its layers, and hold as many places as there are
nodes. -/
theorem layers_of_levels {g : Graph} {ls : List (List Nat)} (h : g.levels = .ok ls) :
    g.Layers [] ls ∧ ls.flatten.length = g.nodes.length := by
  have hclosed : g.Closed [] := by simp [Closed]
  have hlayers := (takeLevels_layers (uncontested_of_levels h) hclosed (zeros_lackingAfter g) rfl).1
  unfold levels at h
  split at h
  · cases h
  · simp only [map_length_awaits] at h
    split at h
    · rename_i hlen
      cases h
      exact ⟨hlayers, by rw [← total_map_length]; exact hlen⟩
    · cases h

end ShapeFlow.Graph
