/-
The levels of a graph. Every node is in one level; it reads nothing that its own
level or a later one writes, and something that the level just below writes, so
that its level is the length of the longest chain of nodes that leads to it.
-/
import Mathlib
import ShapeFlow.Proofs.Graph.Countdown

namespace ShapeFlow.Graph

/-- The place is in the k-th level. -/
def InLevel (ls : List (List Nat)) (k i : Nat) : Prop := ∃ level, ls[k]? = some level ∧ i ∈ level

/-- So many steps, from a node to one that it feeds, lead to the node at a
place. -/
inductive Chain (g : Graph) : Nat → Nat → Prop
  | start {i} : i < g.nodes.length → Chain g 0 i
  | feed {k i j} : Chain g k i → g.Feeds i j → Chain g (k + 1) j

/-- What makes lists of places the levels of a graph. -/
structure Leveling (g : Graph) (ls : List (List Nat)) : Prop where
  nonempty : ∀ level ∈ ls, level ≠ []
  /-- Every node is in one level. -/
  perm : ls.flatten.Perm (List.range g.nodes.length)
  increasing : ∀ level ∈ ls, level.Pairwise (· < ·)
  /-- What a node reads is written below its level, if it is written. -/
  below : ∀ {k i v}, InLevel ls k i → g.Reads i v → (∃ j, g.Writes j v) →
    ∃ l < k, ∃ j, InLevel ls l j ∧ g.Writes j v
  /-- Something that it reads is written just below. -/
  above : ∀ {k i}, InLevel ls (k + 1) i → ∃ j, InLevel ls k j ∧ g.Feeds j i
  longest : ∀ {k i}, InLevel ls k i → IsGreatest {m | g.Chain m i} k

/-! ## Layers, by their number -/

namespace Layers

variable {g : Graph} {done : List Nat} {ls : List (List Nat)}

theorem getElem? (h : g.Layers done ls) {k : Nat} {level : List Nat} (hk : ls[k]? = some level) :
    level ≠ [] ∧ level = g.readyAfter (done ++ (ls.take k).flatten) := by
  induction h generalizing k with
  | stop => simp at hk
  | next hne _ ih =>
    cases k with
    | zero =>
      simp only [List.getElem?_cons_zero, Option.some.injEq] at hk
      subst hk
      exact ⟨hne, by simp⟩
    | succ k =>
      rw [List.getElem?_cons_succ] at hk
      simpa [List.append_assoc] using ih hk

theorem of_mem (h : g.Layers done ls) {level : List Nat} (hl : level ∈ ls) :
    level ≠ [] ∧ ∃ before, level = g.readyAfter before := by
  obtain ⟨k, hk⟩ := List.mem_iff_getElem?.mp hl
  exact ⟨(h.getElem? hk).1, _, (h.getElem? hk).2⟩

/-- The layers hold each place once, and none of those before them. -/
theorem nodup (h : g.Layers done ls) :
    ls.flatten.Nodup ∧ ∀ i ∈ ls.flatten, i < g.nodes.length ∧ i ∉ done := by
  induction h with
  | stop => simp
  | @next done ls _ _ ih =>
    obtain ⟨hnodup, hnew⟩ := ih
    simp only [List.mem_append, not_or] at hnew
    rw [List.flatten_cons]
    refine ⟨List.nodup_append.mpr ⟨nodup_readyAfter g done, hnodup, ?_⟩, fun i hi => ?_⟩
    · rintro i hi j hj rfl
      exact (hnew i hj).2.2 hi
    · rcases List.mem_append.mp hi with hi | hi
      · exact ⟨(mem_readyAfter.mp hi).1, (mem_readyAfter.mp hi).2.1⟩
      · exact ⟨(hnew i hi).1, (hnew i hi).2.1⟩

theorem perm (h : g.Layers [] ls) (hlen : ls.flatten.length = g.nodes.length) :
    ls.flatten.Perm (List.range g.nodes.length) := by
  have hsub : ls.flatten ⊆ List.range g.nodes.length := fun i hi =>
    List.mem_range.mpr (h.nodup.2 i hi).1
  exact (List.subperm_of_subset h.nodup.1 hsub).perm_of_length_le (by simp [hlen])

/-- What a node of a layer reads is written in an earlier one. -/
theorem written_below (h : g.Layers [] ls) {k i : Nat} {v : Text} (hi : InLevel ls k i) (hr : g.Reads i v)
    (hw : ∃ j, g.Writes j v) : ∃ l < k, ∃ j, InLevel ls l j ∧ g.Writes j v := by
  obtain ⟨level, hk, hi⟩ := hi
  rw [(h.getElem? hk).2, mem_readyAfter, missing_eq_nil] at hi
  obtain ⟨j, hj, hw⟩ := hi.2.2 v (mem_awaitedAt.mpr ⟨hr, hw⟩)
  obtain ⟨earlier, he, hj⟩ := List.mem_flatten.mp hj
  obtain ⟨l, hl⟩ := List.mem_iff_getElem?.mp he
  rw [List.getElem?_take] at hl
  split at hl
  · rename_i hlk
    exact ⟨l, hlk, j, ⟨earlier, hl, hj⟩, hw⟩
  · cases hl

/-- A node that was not ready for a layer waited for a node of it, if it is
ready after it. -/
theorem fed_from_below (h : g.Layers [] ls) {k i : Nat} (hi : InLevel ls (k + 1) i) :
    ∃ j, InLevel ls k j ∧ g.Feeds j i := by
  obtain ⟨level, hk, hi⟩ := hi
  have hlt : k < ls.length := Nat.lt_of_succ_lt (List.getElem?_eq_some_iff.mp hk).1
  have hprev : ls[k]? = some ls[k] := List.getElem?_eq_getElem hlt
  rw [(h.getElem? hk).2, mem_readyAfter, List.take_succ_eq_append_getElem hlt] at hi
  simp only [List.nil_append, List.flatten_append, List.flatten_cons, List.flatten_nil,
    List.append_nil, List.mem_append, not_or] at hi
  obtain ⟨hlen, ⟨hbefore, hnot⟩, hnone⟩ := hi
  rw [(h.getElem? hprev).2, mem_readyAfter] at hnot
  have hmissing : g.missing (ls.take k).flatten i ≠ [] := fun hnil => hnot ⟨hlen, hbefore, hnil⟩
  obtain ⟨v, hv⟩ := List.exists_mem_of_ne_nil _ hmissing
  obtain ⟨hawait, hunwritten⟩ := mem_missing.mp hv
  obtain ⟨j, hj, hw⟩ := missing_eq_nil.mp hnone v hawait
  refine ⟨j, ⟨ls[k], hprev, ?_⟩, v, hw, (mem_awaitedAt.mp hawait).1⟩
  rcases List.mem_append.mp hj with hj | hj
  · exact absurd hw (hunwritten j hj)
  · exact hj

end Layers

/-! ## Chains -/

theorem InLevel.mem_flatten {ls : List (List Nat)} {k i : Nat} (h : InLevel ls k i) :
    i ∈ ls.flatten := by
  obtain ⟨level, hk, hi⟩ := h
  exact List.mem_flatten.mpr ⟨level, List.mem_of_getElem? hk, hi⟩

/-- A chain to a place climbs by a level with every step. -/
theorem Chain.le {g : Graph} {ls : List (List Nat)} (hg : g.Uncontested) (h : g.Layers [] ls)
    {m i : Nat} (hc : g.Chain m i) {k : Nat} (hi : InLevel ls k i) : m ≤ k := by
  induction hc generalizing k with
  | start => exact Nat.zero_le _
  | feed _ hf ih =>
    obtain ⟨v, hw, hr⟩ := hf
    obtain ⟨l, hlk, j, hj, hw'⟩ := h.written_below hi hr ⟨_, hw⟩
    rw [hg.writer hw' hw] at hj
    exact Nat.lt_of_le_of_lt (ih hj) hlk

theorem chain_of_inLevel {g : Graph} {ls : List (List Nat)} (h : g.Layers [] ls) {k i : Nat}
    (hi : InLevel ls k i) : g.Chain k i := by
  induction k generalizing i with
  | zero => exact .start (h.nodup.2 i hi.mem_flatten).1
  | succ k ih =>
    obtain ⟨j, hj, hf⟩ := h.fed_from_below hi
    exact .feed (ih hj) hf

/-- **A graph that has levels has a leveling in them.** -/
theorem leveling_of_levels {g : Graph} {ls : List (List Nat)} (h : g.levels = .ok ls) :
    g.Leveling ls := by
  obtain ⟨hlayers, hlen⟩ := layers_of_levels h
  refine ⟨fun level hl => (hlayers.of_mem hl).1, hlayers.perm hlen, fun level hl => ?_,
    hlayers.written_below, hlayers.fed_from_below, fun hi => ?_⟩
  · obtain ⟨before, rfl⟩ := (hlayers.of_mem hl).2
    exact sorted_readyAfter g before
  · exact ⟨chain_of_inLevel hlayers hi, fun m hc => hc.le (uncontested_of_levels h) hlayers hi⟩

/-- Two outputs for one reader, a value that is read twice, one that no node
writes, and operands that are left out. -/
def diamond : Graph where
  nodes := [
    { op := "Join", inputs := ["b", "c"] },
    { op := "Split", outputs := ["a", "", "d"] },
    { op := "Left", inputs := ["a", "d", "a"], outputs := ["b"] },
    { op := "Right", inputs := ["", "d", "x"], outputs := ["c"] }]

theorem leveling_diamond : diamond.levels = .ok [[1], [2, 3], [0]] ∧
    diamond.Leveling [[1], [2, 3], [0]] :=
  ⟨by cbv, leveling_of_levels (by cbv)⟩

end ShapeFlow.Graph
