/-
Which graphs have levels: those that write no value twice and whose chains of nodes are
bounded (`orderable_iff`). Nodes that are left over when no more is ready feed one another,
so that a chain of any length leads to each of them. In a graph with levels a statement
about all values can be proved along the nodes that write them (`value_induction`), and
whether there are levels does not depend on the order of the nodes
(`orderable_reorder`).
-/
import Mathlib
import ShapeFlow.Proofs.Graph.Levels

namespace ShapeFlow.Graph

def Orderable (g : Graph) : Prop := ∃ ls, g.levels = .ok ls

/-! ## What the levels say -/

theorem Chain.lt {g : Graph} {k i : Nat} (h : g.Chain k i) : i < g.nodes.length := by
  cases h with
  | start hi => exact hi
  | feed _ hf =>
    obtain ⟨v, -, n, hn, -⟩ := hf
    exact (List.getElem?_eq_some_iff.mp hn).1

theorem exists_inLevel {g : Graph} {ls : List (List Nat)} (hl : g.levels = .ok ls) {i : Nat}
    (hi : i < g.nodes.length) : ∃ k < ls.length, InLevel ls k i := by
  obtain ⟨hlayers, hlen⟩ := layers_of_levels hl
  obtain ⟨level, hlevel, hi⟩ :=
    List.mem_flatten.mp ((hlayers.perm hlen).mem_iff.mpr (List.mem_range.mpr hi))
  obtain ⟨k, hk⟩ := List.mem_iff_getElem?.mp hlevel
  exact ⟨k, (List.getElem?_eq_some_iff.mp hk).1, level, hk, hi⟩

/-- To prove something of all values it may be supposed of what their writers read. -/
theorem value_induction {g : Graph} (hg : g.Orderable) {P : Text → Prop}
    (step : ∀ v, (∀ n ∈ g.nodes, v ∈ n.namedOutputs → ∀ u ∈ n.namedInputs, P u) → P v) (v : Text) :
    P v := by
  obtain ⟨ls, hl⟩ := hg
  obtain ⟨hlayers, -⟩ := layers_of_levels hl
  -- by induction on a bound of the levels whose nodes write the value
  have hbelow : ∀ k v, (∀ i, g.Writes i v → ∃ l < k, InLevel ls l i) → P v := by
    intro k
    induction k with
    | zero =>
      intro v hv
      refine step v fun n hn hout => ?_
      obtain ⟨i, hi⟩ := List.mem_iff_getElem?.mp hn
      obtain ⟨l, hl, -⟩ := hv i ⟨n, hi, hout⟩
      cases hl
    | succ k ih =>
      intro v hv
      refine step v fun n hn hout u hu => ih u fun j hj => ?_
      obtain ⟨i, hi⟩ := List.mem_iff_getElem?.mp hn
      obtain ⟨l, hlk, hlevel⟩ := hv i ⟨n, hi, hout⟩
      obtain ⟨l', hl', j', hlevel', hj'⟩ := hlayers.written_below hlevel ⟨n, hi, hu⟩ ⟨j, hj⟩
      rw [(uncontested_of_levels hl).writer hj hj']
      exact ⟨l', by omega, hlevel'⟩
  exact hbelow ls.length v fun i hi => exists_inLevel hl hi.lt

/-! ## When there are levels -/

theorem clash?_of_nodup {seen ws : List (Text × Node)} (hnodup : (ws.map Prod.fst).Nodup)
    (hnew : ∀ v ∈ ws.map Prod.fst, v ∉ seen.map Prod.fst) : clash? seen ws = none := by
  induction ws generalizing seen with
  | nil => rfl
  | cons w ws ih =>
    obtain ⟨v, n⟩ := w
    simp only [List.map_cons, List.nodup_cons] at hnodup
    simp only [clash?, Dict.lookup_eq_none.mpr (hnew v List.mem_cons_self)]
    refine ih hnodup.2 fun u hu => ?_
    simp only [List.map_cons, List.mem_cons, not_or]
    exact ⟨fun he => hnodup.1 (he ▸ hu), hnew u (List.mem_cons_of_mem _ hu)⟩

theorem Layers.readyAfter_flatten {g : Graph} {done : List Nat} {ls : List (List Nat)}
    (h : g.Layers done ls) : g.readyAfter (done ++ ls.flatten) = [] := by
  induction h with
  | stop h => simpa using h
  | next _ _ ih => rwa [List.flatten_cons, ← List.append_assoc]

/-- When nothing is ready, whatever is left is fed from what is left. -/
theorem exists_feeder {g : Graph} {done : List Nat} (h : g.readyAfter done = []) {i : Nat}
    (hi : i < g.nodes.length) (hleft : i ∉ done) :
    ∃ j, j < g.nodes.length ∧ j ∉ done ∧ g.Feeds j i := by
  have hmissing : g.missing done i ≠ [] := fun hnil =>
    List.ne_nil_of_mem (mem_readyAfter.mpr ⟨hi, hleft, hnil⟩) h
  obtain ⟨v, hv⟩ := List.exists_mem_of_ne_nil _ hmissing
  obtain ⟨hawaited, hunwritten⟩ := mem_missing.mp hv
  obtain ⟨hr, j, hw⟩ := mem_awaitedAt.mp hawaited
  exact ⟨j, hw.lt, fun hj => hunwritten j hj hw, v, hw, hr⟩

theorem chain_of_left {g : Graph} {done : List Nat} (h : g.readyAfter done = []) (k : Nat) {i : Nat}
    (hi : i < g.nodes.length) (hleft : i ∉ done) : g.Chain k i := by
  induction k generalizing i with
  | zero => exact .start hi
  | succ k ih =>
    obtain ⟨j, hj, hleft', hf⟩ := exists_feeder h hi hleft
    exact .feed (ih hj hleft') hf

/-- **A graph has levels just when no value is written twice and its chains are bounded.** -/
theorem orderable_iff {g : Graph} : g.Orderable ↔
    (g.writes.map Prod.fst).Nodup ∧ ∃ bound, ∀ k i, g.Chain k i → k ≤ bound := by
  constructor
  · rintro ⟨ls, hl⟩
    constructor
    · exact (clash?_eq_none (clash?_of_levels hl)).1
    · refine ⟨ls.length, fun k i hc => ?_⟩
      obtain ⟨l, hlt, hi⟩ := exists_inLevel hl hc.lt
      exact Nat.le_of_lt (Nat.lt_of_le_of_lt
        (hc.le (uncontested_of_levels hl) (layers_of_levels hl).1 hi) hlt)
  · rintro ⟨hnodup, bound, hbound⟩
    have hclash : clash? [] g.writes = none := clash?_of_nodup hnodup (by simp)
    have hclosed : g.Closed [] := by simp [Closed]
    have hlayers := (takeLevels_layers (uncontested_of_clash? hclash) hclosed
      (zeros_lackingAfter g) rfl).1
    obtain ⟨⟨ls, left⟩, htake⟩ : ∃ taken, g.takeLevels g.awaits (zeros (g.lackingAfter []))
        (g.lackingAfter []) = taken := ⟨_, rfl⟩
    rw [htake] at hlayers
    have hall : ∀ i < g.nodes.length, i ∈ ls.flatten := by
      intro i hi
      by_contra hleft
      have := hbound _ i (chain_of_left hlayers.readyAfter_flatten (bound + 1) hi hleft)
      omega
    have hperm := (List.perm_ext_iff_of_nodup hlayers.nodup.1 List.nodup_range).mpr fun i =>
      ⟨fun hi => List.mem_range.mpr (hlayers.nodup.2 i hi).1, fun hi => hall i (List.mem_range.mp hi)⟩
    have hlength : total (ls.map List.length) = g.nodes.length := by
      rw [total_map_length, hperm.length_eq, List.length_range]
    exact ⟨ls, by simp only [levels, hclash, map_length_awaits, htake, hlength, if_true]⟩

/-! ## The order of the nodes -/

/-- A chain leads to the same node in a graph that has the same nodes in another order. -/
theorem Chain.reorder {g g' : Graph} (h : ∀ n ∈ g.nodes, n ∈ g'.nodes) {k i : Nat} (hc : g.Chain k i)
    {n : Node} (hn : g.nodes[i]? = some n) {j : Nat} (hj : g'.nodes[j]? = some n) : g'.Chain k j := by
  induction hc generalizing n j with
  | start => exact .start (List.getElem?_eq_some_iff.mp hj).1
  | feed _ hf ih =>
    obtain ⟨v, ⟨f, hf, hw⟩, n', hn', hr⟩ := hf
    obtain rfl : n' = n := by rw [hn'] at hn; exact Option.some.inj hn
    obtain ⟨i', hi'⟩ := List.mem_iff_getElem?.mp (h f (List.mem_of_getElem? hf))
    exact .feed (ih hf hi') ⟨v, ⟨f, hi', hw⟩, n', hj, hr⟩

theorem Orderable.reorder {g g' : Graph} (h : g'.nodes.Perm g.nodes) (hg : g.Orderable) :
    g'.Orderable := by
  obtain ⟨hnodup, bound, hbound⟩ := orderable_iff.mp hg
  refine orderable_iff.mpr ⟨?_, bound, fun k i hc => ?_⟩
  · exact (((h.flatMap_right _).map Prod.fst).nodup_iff).mpr hnodup
  · have hn := List.getElem?_eq_getElem hc.lt
    obtain ⟨j, hj⟩ := List.mem_iff_getElem?.mp (h.mem_iff.mp (List.mem_of_getElem? hn))
    exact hbound k j (hc.reorder (fun n hn => h.mem_iff.mp hn) hn hj)

/-- Whether there are levels does not depend on the order of the nodes. -/
theorem orderable_reorder {g g' : Graph} (h : g'.nodes.Perm g.nodes) : g'.Orderable ↔ g.Orderable :=
  ⟨.reorder h.symm, .reorder h⟩

end ShapeFlow.Graph
