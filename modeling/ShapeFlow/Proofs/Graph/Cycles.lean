/-
Which graphs have no levels, and what is then reported. A graph is turned down if a value
is written twice, or else if its nodes feed each other in a circle; in the second case
the report lists just the nodes on a cycle and those that depend on one (`rejection_levels`).

What the countdown leaves over is fed from what it leaves over. There are finitely many
nodes, so whoever follows the feeders back from one of them comes upon a node again
(`entangled_of_left`). A node in a level has all its feeders in lower levels, so it is on
no cycle and depends on none (`not_inLevel_of_entangled`).
-/
import Mathlib
import ShapeFlow.Proofs.Graph.Orderable

namespace ShapeFlow.Graph

open Relation

/-- Some name, not an empty one, is more than once among the outputs of the nodes. -/
def Contested (g : Graph) : Prop :=
  ∃ v : Text, v.isEmpty = false ∧ 1 < (g.nodes.flatMap Node.outputs).count v

/-- The node at a place feeds itself, directly or through other nodes. -/
def OnCycle (g : Graph) (i : Nat) : Prop := TransGen g.Feeds i i

/-- The node at a place is on a cycle, or depends on one that is, directly or through
other nodes. -/
def Entangled (g : Graph) (i : Nat) : Prop := ∃ j, g.OnCycle j ∧ ReflTransGen g.Feeds j i

/-- What it means that a graph is turned down just when it must be, and what is told. -/
structure Rejection (g : Graph) : Prop where
  rejected : (∃ e, g.levels = .error e) ↔ g.Contested ∨ ¬ g.Contested ∧ ∃ i, g.OnCycle i
  /-- The value that is told is written twice, and by the nodes that are told. -/
  contested : g.Contested → ∃ v first second, g.levels = .error (.twoWriters v first second) ∧
    v.isEmpty = false ∧ 1 < (g.nodes.flatMap Node.outputs).count v ∧
    first ∈ g.nodes ∧ v ∈ first.outputs ∧ second ∈ g.nodes ∧ v ∈ second.outputs
  /-- The nodes that are told, in graph order, are the entangled ones, and so is their
  number. -/
  circular : ¬ g.Contested → (∃ i, g.OnCycle i) → ∃ places : List Nat,
    places.Pairwise (· < ·) ∧ (∀ i, i ∈ places ↔ g.Entangled i) ∧
    g.levels = .error (.cycle places.length g.nodes.length (places.filterMap (g.nodes[·]?)))
  /-- The text of the second report has the number of entangled nodes and their texts. -/
  message : ∀ e, g.levels = .error e → ¬ g.Contested → ∃ places : List Nat,
    places.Pairwise (· < ·) ∧ (∀ i, i ∈ places ↔ g.Entangled i) ∧
    e.message = "sorting operations graph failed: " ++ Text.ofNat places.length ++ " of " ++
      Text.ofNat g.nodes.length ++ " nodes are part of or depend on a cycle: " ++
      Text.join "; " ((places.filterMap (g.nodes[·]?)).map Node.text)

/-! ## Values that are written twice -/

theorem map_fst_writes (g : Graph) :
    g.writes.map Prod.fst = (g.nodes.flatMap Node.outputs).filter (!·.isEmpty) := by
  simp only [writes, List.map_flatMap, List.map_map, Function.comp_def, List.map_id',
    List.filter_flatMap]
  rfl

theorem contested_iff {g : Graph} : g.Contested ↔ ¬ (g.writes.map Prod.fst).Nodup := by
  rw [map_fst_writes, List.nodup_iff_count_le_one]
  push Not
  refine exists_congr fun v => ?_
  cases hv : v.isEmpty with
  | false => simp [List.count_filter, hv]
  | true =>
    have hnot : v ∉ (g.nodes.flatMap Node.outputs).filter (!·.isEmpty) := by simp [hv]
    simp [List.count_eq_zero_of_not_mem hnot]

/-- The clash that is told is between an earlier entry and a later one. -/
theorem clash?_eq_some {seen ws : List (Text × Node)} {e : GraphError} (h : clash? seen ws = some e) :
    ∃ v first second, e = .twoWriters v first second ∧ (v, first) ∈ seen ++ ws ∧ (v, second) ∈ ws ∧
      1 < ((seen ++ ws).map Prod.fst).count v := by
  induction ws generalizing seen with
  | nil => cases h
  | cons w ws ih =>
    obtain ⟨v, n⟩ := w
    simp only [clash?] at h
    split at h
    · next other hother =>
      have hmem := Dict.mem_of_lookup hother
      have hseen : 0 < (seen.map Prod.fst).count v :=
        List.count_pos_iff.mpr (List.mem_map.mpr ⟨_, hmem, rfl⟩)
      refine ⟨v, other, n, (Option.some.inj h).symm, List.mem_append_left _ hmem, List.mem_cons_self, ?_⟩
      simp only [List.map_append, List.map_cons, List.count_append, List.count_cons_self]
      omega
    · obtain ⟨u, first, second, he, hfirst, hsecond, hcount⟩ := ih h
      have hperm : ((v, n) :: seen ++ ws).Perm (seen ++ (v, n) :: ws) := List.perm_middle.symm
      exact ⟨u, first, second, he, hperm.mem_iff.mp hfirst, List.mem_cons_of_mem _ hsecond,
        (hperm.map Prod.fst).count_eq u ▸ hcount⟩

theorem mem_nodes_of_mem_writes {g : Graph} {v : Text} {n : Node} (h : (v, n) ∈ g.writes) :
    n ∈ g.nodes ∧ v ∈ n.outputs := by
  simp only [writes, List.mem_flatMap, List.mem_map, Prod.mk.injEq] at h
  obtain ⟨n, hn, v, hv, rfl, rfl⟩ := h
  exact ⟨hn, (List.mem_filter.mp hv).1⟩

theorem contested_iff_clash? {g : Graph} : g.Contested ↔ clash? [] g.writes ≠ none := by
  rw [contested_iff, not_iff_not]
  exact ⟨fun hnodup => clash?_of_nodup hnodup (by simp), fun hnone => (clash?_eq_none hnone).1⟩

/-- The report of a value that is written twice names it and two nodes that write it. -/
theorem twoWriters_of_contested {g : Graph} (h : g.Contested) : ∃ v first second,
    g.levels = .error (.twoWriters v first second) ∧
    v.isEmpty = false ∧ 1 < (g.nodes.flatMap Node.outputs).count v ∧
    first ∈ g.nodes ∧ v ∈ first.outputs ∧ second ∈ g.nodes ∧ v ∈ second.outputs := by
  obtain ⟨e, he⟩ := Option.ne_none_iff_exists'.mp (contested_iff_clash?.mp h)
  obtain ⟨v, first, second, rfl, hfirst, hsecond, hcount⟩ := clash?_eq_some he
  rw [List.nil_append] at hfirst hcount
  rw [map_fst_writes] at hcount
  have hv : v.isEmpty = false := by
    have hmem := List.count_pos_iff.mp (Nat.zero_lt_of_lt hcount)
    simpa using (List.mem_filter.mp hmem).2
  rw [List.count_filter (by simp [hv])] at hcount
  exact ⟨v, first, second, by simp only [levels, he], hv, hcount,
    (mem_nodes_of_mem_writes hfirst).1, (mem_nodes_of_mem_writes hfirst).2,
    (mem_nodes_of_mem_writes hsecond).1, (mem_nodes_of_mem_writes hsecond).2⟩

/-! ## What is left over -/

section Left

variable {g : Graph} {done : List Nat} {ls : List (List Nat)} {i j k : Nat}

theorem Feeds.lt (h : g.Feeds i j) : i < g.nodes.length ∧ j < g.nodes.length := by
  obtain ⟨v, hw, n, hn, -⟩ := h
  exact ⟨hw.lt, (List.getElem?_eq_some_iff.mp hn).1⟩

theorem Entangled.lt (h : g.Entangled i) : i < g.nodes.length := by
  obtain ⟨j, hcycle, hpath⟩ := h
  obtain ⟨_, -, hstep⟩ := TransGen.tail'_iff.mp (hcycle.trans_left hpath)
  exact hstep.lt.2

/-- **What is left over when nothing is ready is entangled.** Among the nodes that lead to
it there would otherwise be a first one, but each is fed by another. -/
theorem entangled_of_left (h : g.readyAfter done = []) (hi : i < g.nodes.length) (hleft : i ∉ done) :
    g.Entangled i := by
  by_contra hfree
  let before (a b : Fin g.nodes.length) : Prop := TransGen g.Feeds a b ∧ ReflTransGen g.Feeds b i
  have htrans : IsTrans _ before :=
    ⟨fun a b c hab hbc => ⟨hab.1.trans hbc.1, hbc.2⟩⟩
  have hirrefl : Std.Irrefl before := ⟨fun a ha => hfree ⟨a, ha⟩⟩
  have hwf := Finite.wellFounded_of_trans_of_irrefl before
  obtain ⟨m, ⟨hm, hpath⟩, hfirst⟩ := hwf.has_min
    {m : Fin g.nodes.length | m.val ∉ done ∧ ReflTransGen g.Feeds m.val i} ⟨⟨i, hi⟩, hleft, .refl⟩
  obtain ⟨j, hj, hleft', hfeeds⟩ := exists_feeder h m.isLt hm
  exact hfirst ⟨j, hj⟩ ⟨hleft', .head hfeeds hpath⟩ ⟨.single hfeeds, hpath⟩

/-- A node of a level is fed from lower levels only. -/
theorem Layers.inLevel_of_feeds (h : g.Layers [] ls) (hg : g.Uncontested) (hf : g.Feeds j i)
    (hi : InLevel ls k i) : ∃ l < k, InLevel ls l j := by
  obtain ⟨v, hw, hr⟩ := hf
  obtain ⟨l, hl, j', hj', hw'⟩ := h.written_below hi hr ⟨j, hw⟩
  exact ⟨l, hl, hg.writer hw' hw ▸ hj'⟩

theorem Layers.inLevel_of_transGen (h : g.Layers [] ls) (hg : g.Uncontested)
    (hpath : TransGen g.Feeds j i) (hi : InLevel ls k i) : ∃ l < k, InLevel ls l j := by
  induction hpath using TransGen.head_induction_on with
  | single hf => exact h.inLevel_of_feeds hg hf hi
  | head hf _ ih =>
    obtain ⟨l, hl, hmid⟩ := ih
    obtain ⟨m, hm, hj⟩ := h.inLevel_of_feeds hg hf hmid
    exact ⟨m, by omega, hj⟩

/-- No node of a level is entangled: from level to level the way back would go down
without end. -/
theorem Layers.not_inLevel_of_entangled (h : g.Layers [] ls) (hg : g.Uncontested)
    (hi : g.Entangled i) : ¬ InLevel ls k i := by
  obtain ⟨j, hcycle, hpath⟩ := hi
  have hnone : ∀ l, ¬ InLevel ls l j := by
    intro l
    induction l using Nat.strong_induction_on with
    | h l ih =>
      intro hj
      obtain ⟨m, hm, hj⟩ := h.inLevel_of_transGen hg hcycle hj
      exact ih m hm hj
  intro hk
  obtain ⟨l, -, hj⟩ := h.inLevel_of_transGen hg (hcycle.trans_left hpath) hk
  exact hnone l hj

/-- **The countdown leaves over just what is entangled.** -/
theorem Layers.not_mem_flatten_iff (h : g.Layers [] ls) (hg : g.Uncontested) (hi : i < g.nodes.length) :
    i ∉ ls.flatten ↔ g.Entangled i := by
  constructor
  · exact entangled_of_left h.readyAfter_flatten hi
  · intro hentangled hmem
    obtain ⟨level, hlevel, hi⟩ := List.mem_flatten.mp hmem
    obtain ⟨k, hk⟩ := List.mem_iff_getElem?.mp hlevel
    exact h.not_inLevel_of_entangled hg hentangled ⟨level, hk, hi⟩

end Left

/-! ## The report -/

/-- The places of the nodes that lack something when those at `done` have been taken
off. -/
def stuckAfter (g : Graph) (done : List Nat) : List Nat :=
  (List.range g.nodes.length).filter fun i => g.missing done i ≠ []

/-- The nodes that are told are those whose count is not zero. -/
theorem map_fst_stuck (g : Graph) (done : List Nat) :
    ((g.nodes.zip (g.lackingAfter done)).filter fun e => 0 < e.2).map Prod.fst =
      (g.stuckAfter done).filterMap (g.nodes[·]?) := by
  have hplaces : List.range g.nodes.length = g.nodes.zipIdx.map Prod.snd := by
    rw [List.zipIdx_map_snd, List.range_eq_range']
  have hnodes : g.nodes.zip (g.lackingAfter done) =
      g.nodes.zipIdx.map fun e => (e.1, (g.missing done e.2).length) := by
    rw [lackingAfter, hplaces, List.map_map, ← List.zip_map']
    simp [Function.comp_def]
  rw [stuckAfter, hnodes, hplaces, List.filter_map, List.filter_map, List.map_map, List.filterMap_map,
    ← List.filterMap_eq_map]
  have hcount : (fun e : Node × Nat => decide (0 < (g.missing done e.2).length)) =
      fun e => decide (g.missing done e.2 ≠ []) := by
    funext e
    exact decide_eq_decide.mpr List.length_pos_iff
  simp only [Function.comp_def, hcount]
  refine List.filterMap_congr fun e he => ?_
  exact (List.mem_zipIdx_iff_getElem?.mp (List.mem_filter.mp he).1).symm

theorem Layers.closed {g : Graph} {done : List Nat} {ls : List (List Nat)} (h : g.Layers done ls)
    (hdone : g.Closed done) : g.Closed (done ++ ls.flatten) := by
  induction h with
  | stop => simpa using hdone
  | next _ _ ih =>
    rw [List.flatten_cons, ← List.append_assoc]
    exact ih hdone.append_readyAfter

section Report

variable {g : Graph} {ls : List (List Nat)}

theorem Layers.mem_stuckAfter (h : g.Layers [] ls) {i : Nat} :
    i ∈ g.stuckAfter ls.flatten ↔ i < g.nodes.length ∧ i ∉ ls.flatten := by
  have hclosed : g.Closed ls.flatten := h.closed (by simp [Closed])
  simp only [stuckAfter, List.mem_filter, List.mem_range, decide_eq_true_eq]
  refine and_congr_right fun hi => ⟨fun hlacks hmem => hlacks (hclosed i hmem), fun hleft hnil => ?_⟩
  exact List.ne_nil_of_mem (mem_readyAfter.mpr ⟨hi, hleft, hnil⟩) h.readyAfter_flatten

theorem Layers.mem_stuckAfter_iff_entangled (h : g.Layers [] ls) (hg : g.Uncontested) {i : Nat} :
    i ∈ g.stuckAfter ls.flatten ↔ g.Entangled i := by
  rw [h.mem_stuckAfter]
  constructor
  · rintro ⟨hi, hleft⟩
    exact (h.not_mem_flatten_iff hg hi).mp hleft
  · intro hi
    exact ⟨hi.lt, (h.not_mem_flatten_iff hg hi.lt).mpr hi⟩

/-- Every node is in a level or stuck. -/
theorem Layers.length_stuckAfter (h : g.Layers [] ls) :
    ls.flatten.length + (g.stuckAfter ls.flatten).length = g.nodes.length := by
  have hstuck : (g.stuckAfter ls.flatten).Nodup := List.nodup_range.filter _
  have hperm : (ls.flatten ++ g.stuckAfter ls.flatten).Perm (List.range g.nodes.length) := by
    refine (List.perm_ext_iff_of_nodup (List.nodup_append.mpr ⟨h.nodup.1, hstuck, ?_⟩)
      List.nodup_range).mpr fun i => ?_
    · rintro i hi j hj rfl
      exact (h.mem_stuckAfter.mp hj).2 hi
    · rw [List.mem_append, h.mem_stuckAfter, List.mem_range]
      constructor
      · rintro (hi | hi)
        · exact (h.nodup.2 i hi).1
        · exact hi.1
      · intro hi
        by_cases hmem : i ∈ ls.flatten
        · exact .inl hmem
        · exact .inr ⟨hi, hmem⟩
  simpa using hperm.length_eq

/-- Without a value that is written twice, there are levels if no node is stuck. -/
theorem levels_eq (h : clash? [] g.writes = none) : ∃ ls, g.Layers [] ls ∧
    g.levels = if g.stuckAfter ls.flatten = [] then .ok ls
      else .error (.cycle (g.stuckAfter ls.flatten).length g.nodes.length
        ((g.stuckAfter ls.flatten).filterMap (g.nodes[·]?))) := by
  have hclosed : g.Closed [] := by simp [Closed]
  obtain ⟨hlayers, hleft⟩ := takeLevels_layers (uncontested_of_clash? h) hclosed
    (zeros_lackingAfter g) rfl
  obtain ⟨⟨ls, left⟩, htake⟩ : ∃ taken, g.takeLevels g.awaits (zeros (g.lackingAfter []))
      (g.lackingAfter []) = taken := ⟨_, rfl⟩
  rw [htake] at hlayers hleft
  simp only [List.nil_append] at hlayers hleft
  have hlength := hlayers.length_stuckAfter
  refine ⟨ls, hlayers, ?_⟩
  simp only [levels, h, map_length_awaits, htake, total_map_length, hleft, map_fst_stuck]
  by_cases hstuck : g.stuckAfter ls.flatten = []
  · rw [if_pos hstuck, if_pos (by simpa [hstuck] using hlength)]
  · have hpos := List.length_pos_iff.mpr hstuck
    rw [if_neg hstuck, if_neg (by omega), ← hlength, Nat.add_sub_cancel_left]

end Report

/-- If no value is written twice, there are levels and nothing is entangled, or the
entangled nodes are told. -/
theorem ordered_or_entangled {g : Graph} (h : ¬ g.Contested) :
    g.Orderable ∧ (∀ i, ¬ g.Entangled i) ∨
    ∃ places : List Nat, places ≠ [] ∧ places.Pairwise (· < ·) ∧ (∀ i, i ∈ places ↔ g.Entangled i) ∧
      g.levels = .error (.cycle places.length g.nodes.length (places.filterMap (g.nodes[·]?))) := by
  have hnone := not_not.mp (mt contested_iff_clash?.mpr h)
  obtain ⟨ls, hlayers, heq⟩ := levels_eq hnone
  have hmem := fun i => hlayers.mem_stuckAfter_iff_entangled (uncontested_of_clash? hnone) (i := i)
  split at heq
  · next hnil =>
    refine .inl ⟨⟨ls, heq⟩, fun i hi => ?_⟩
    simpa [hnil] using (hmem i).mpr hi
  · next hne => exact .inr ⟨_, hne, List.pairwise_lt_range.filter _, hmem, heq⟩

/-- **A graph is turned down just when a value is written twice or nodes feed each other
in a circle**, and the report of the second lists just the entangled nodes. -/
theorem rejection_levels (g : Graph) : g.Rejection := by
  have hcircular : ¬ g.Contested → (∃ i, g.OnCycle i) → ∃ places : List Nat,
      places.Pairwise (· < ·) ∧ (∀ i, i ∈ places ↔ g.Entangled i) ∧
      g.levels = .error (.cycle places.length g.nodes.length (places.filterMap (g.nodes[·]?))) := by
    rintro hg ⟨i, hi⟩
    rcases ordered_or_entangled hg with ⟨-, hfree⟩ | ⟨places, -, hplaces⟩
    · exact absurd ⟨i, hi, .refl⟩ (hfree i)
    · exact ⟨places, hplaces⟩
  refine ⟨⟨?_, ?_⟩, twoWriters_of_contested, hcircular, fun e he hg => ?_⟩
  · rintro ⟨e, he⟩
    by_cases hg : g.Contested
    · exact .inl hg
    rcases ordered_or_entangled hg with ⟨⟨ls, hls⟩, -⟩ | ⟨places, hne, -, hmem, -⟩
    · rw [hls] at he
      cases he
    · obtain ⟨i, hi⟩ := List.exists_mem_of_ne_nil places hne
      obtain ⟨j, hj, -⟩ := (hmem i).mp hi
      exact .inr ⟨hg, j, hj⟩
  · rintro (hg | ⟨hg, hcycle⟩)
    · obtain ⟨v, first, second, he, -⟩ := twoWriters_of_contested hg
      exact ⟨_, he⟩
    · obtain ⟨places, -, -, he⟩ := hcircular hg hcycle
      exact ⟨_, he⟩
  · rcases ordered_or_entangled hg with ⟨⟨ls, hls⟩, -⟩ | ⟨places, -, hsorted, hmem, hlevels⟩
    · rw [hls] at he
      cases he
    · rw [hlevels] at he
      cases he
      exact ⟨places, hsorted, hmem, rfl⟩

/-- Two nodes that feed each other, one that depends on them, one that they depend on, and
one apart. -/
def tangle : Graph where
  nodes := [
    { op := "Relu", inputs := ["x"], outputs := ["y"] },
    { op := "Add", inputs := ["y", "z"], outputs := ["w"] },
    { op := "Relu", inputs := ["w"], outputs := ["z"] },
    { op := "Relu", inputs := ["q"], outputs := ["r"] },
    { op := "Sum", inputs := ["r", "w", ""] }]

example : tangle.levels = .error (.cycle 3 5 ([1, 2, 4].filterMap (tangle.nodes[·]?))) := by cbv

end ShapeFlow.Graph
