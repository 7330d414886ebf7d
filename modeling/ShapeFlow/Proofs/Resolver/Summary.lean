/-
The summary of what is not resolved. One traversal of the graph lists the outputs of nodes that
have no shape and another counts them by operator, and they agree: each operator with such an
output stands in the summary once, with their number, and the numbers add up to the length of the
list. The counts are in the order of the operators before they are sorted by number. That sort
leaves equal numbers in the order in which they were (`filter_mergeSort`), so both orders hold in
the line (`summarizes_unresolvedSummary`).
-/
import Mathlib
import ShapeFlow.Proofs.Text
import ShapeFlow.Resolver.Query

namespace ShapeFlow

/-! ## Sorting by rank -/

section Rank

variable {α : Type} (rank : α → Nat)

/-- The greatest rank first. -/
def byRank (a b : α) : Bool := decide (rank b ≤ rank a)

theorem byRank_trans (a b c : α) (hab : byRank rank a b = true) (hbc : byRank rank b c = true) :
    byRank rank a c = true := by
  simp only [byRank, decide_eq_true_eq] at hab hbc ⊢
  omega

theorem byRank_total (a b : α) : (byRank rank a b || byRank rank b a) = true := by
  simp only [byRank, Bool.or_eq_true, decide_eq_true_eq]
  omega

/-- Elements of one rank stay in their order. -/
theorem filter_mergeSort (k : Nat) (l : List α) :
    (l.mergeSort (byRank rank)).filter (rank · == k) = l.filter (rank · == k) := by
  have hequal : (l.filter (rank · == k)).Pairwise fun a b => byRank rank a b = true := by
    refine List.pairwise_of_forall_mem_list fun a ha b hb => ?_
    simp only [List.mem_filter, beq_iff_eq] at ha hb
    simp only [byRank, decide_eq_true_eq]
    omega
  have hsub : (l.filter (rank · == k)).Sublist (l.mergeSort (byRank rank)) :=
    List.sublist_mergeSort (byRank_trans rank) (byRank_total rank) hequal List.filter_sublist
  have hsub' := hsub.filter (rank · == k)
  simp only [List.filter_filter, Bool.and_self] at hsub'
  have hlength := ((List.mergeSort_perm l (byRank rank)).filter (rank · == k)).length_eq
  exact (hsub'.eq_of_length_le hlength.le).symm

/-- Sorted by rank, and among equal ranks as before. -/
theorem pairwise_mergeSort_byRank {R : α → α → Prop} {l : List α} (h : l.Pairwise R) :
    (l.mergeSort (byRank rank)).Pairwise fun a b => rank b < rank a ∨ rank a = rank b ∧ R a b := by
  rw [List.pairwise_iff_forall_sublist]
  intro a b hab
  have hsorted := List.pairwise_mergeSort (byRank_trans rank) (byRank_total rank) l
  have hle := List.pairwise_iff_forall_sublist.mp hsorted hab
  simp only [byRank, decide_eq_true_eq] at hle
  rcases hle.lt_or_eq with hlt | heq
  · exact .inl hlt
  · -- the two stand in this order among the elements of their rank
    have hfilter := hab.filter (rank · == rank a)
    rw [filter_mergeSort] at hfilter
    have hpair : [a, b].filter (rank · == rank a) = [a, b] := by simp [heq]
    rw [hpair] at hfilter
    exact .inr ⟨heq.symm, List.pairwise_iff_forall_sublist.mp (h.filter _) hfilter⟩

end Rank

/-! ## Counting -/

/-- The numbers of occurrences add up. -/
theorem Text.sum_count_distinct (ts : List Text) : ((distinct ts).map (ts.count ·)).sum = ts.length := by
  have hperm : (distinct ts).Perm ts.dedup :=
    (List.perm_ext_iff_of_nodup (nodup_distinct ts) ts.nodup_dedup).mpr fun t => by simp
  rw [(hperm.map _).sum_nat]
  exact List.sum_map_count_dedup_eq_length ts

namespace Resolver

/-- A name that has no shape. -/
def lacksShape (r : Resolver) (output : Text) : Bool := !output.isEmpty && (r.shape? output).isNone

/-- How many outputs of the nodes of an operator have no shape. -/
def lacking (r : Resolver) (op : Text) : Nat :=
  ((r.model.graph.nodes.filter (·.op == op)).flatMap Node.outputs).countP r.lacksShape

theorem unresolvedOf_eq (r : Resolver) (n : Node) : r.unresolvedOf n = n.outputs.filter r.lacksShape := by
  rw [unresolvedOf, Node.namedOutputs, List.filter_filter]
  exact List.filter_congr fun output _ => Bool.and_comm _ _

/-- The operators of the outputs that have no shape, once for each. -/
def lackingOps (r : Resolver) : List Text :=
  r.model.graph.nodes.flatMap fun n => (r.unresolvedOf n).map fun _ => n.op

theorem unresolvedCounts_eq (r : Resolver) :
    r.unresolvedCounts = (Text.sort (Text.distinct r.lackingOps)).map fun op => (op, r.lackingOps.count op) := rfl

theorem mem_lackingOps {r : Resolver} {op : Text} :
    op ∈ r.lackingOps ↔
      ∃ n ∈ r.model.graph.nodes, n.op = op ∧ ∃ output ∈ n.outputs, r.lacksShape output = true := by
  simp only [lackingOps, unresolvedOf_eq, List.mem_flatMap, List.mem_map, List.mem_filter]
  constructor
  · rintro ⟨n, hn, output, houtput, rfl⟩
    exact ⟨n, hn, rfl, output, houtput⟩
  · rintro ⟨n, hn, rfl, output, houtput⟩
    exact ⟨n, hn, output, houtput, rfl⟩

theorem count_lackingOps (r : Resolver) (op : Text) : r.lackingOps.count op = r.lacking op := by
  unfold lackingOps lacking
  induction r.model.graph.nodes with
  | nil => rfl
  | cons n nodes ih =>
    rw [List.flatMap_cons, List.count_append, ih, List.map_const', List.count_replicate, List.filter_cons]
    by_cases h : n.op = op
    · simp [h, unresolvedOf_eq, List.countP_eq_length_filter, List.filter_append]
    · simp [h]

theorem length_lackingOps (r : Resolver) : r.lackingOps.length = r.unresolved.length := by
  simp [lackingOps, unresolved, List.length_flatMap]

/-- What the items of a summary are to say. -/
structure Summarizes (r : Resolver) (items : List (Text × Nat)) : Prop where
  ops : ∀ op, op ∈ items.map Prod.fst ↔
    ∃ n ∈ r.model.graph.nodes, n.op = op ∧ ∃ output ∈ n.outputs, r.lacksShape output = true
  once : (items.map Prod.fst).Nodup
  counts : ∀ item ∈ items, item.2 = r.lacking item.1
  total : (items.map Prod.snd).sum = r.unresolved.length
  ordered : items.Pairwise fun a b => b.2 < a.2 ∨ a.2 = b.2 ∧ a.1.bytes < b.1.bytes

theorem map_fst_unresolvedCounts (r : Resolver) :
    r.unresolvedCounts.map Prod.fst = Text.sort (Text.distinct r.lackingOps) := by
  simp [unresolvedCounts_eq, Function.comp_def]

theorem sum_unresolvedCounts (r : Resolver) : (r.unresolvedCounts.map Prod.snd).sum = r.unresolved.length := by
  have hperm : (Text.sort (Text.distinct r.lackingOps)).Perm (Text.distinct r.lackingOps) :=
    List.mergeSort_perm _ _
  calc (r.unresolvedCounts.map Prod.snd).sum
    _ = ((Text.sort (Text.distinct r.lackingOps)).map (r.lackingOps.count ·)).sum := by
      simp [unresolvedCounts_eq, Function.comp_def]
    _ = ((Text.distinct r.lackingOps).map (r.lackingOps.count ·)).sum := (hperm.map _).sum_nat
    _ = r.lackingOps.length := Text.sum_count_distinct _
    _ = r.unresolved.length := r.length_lackingOps

theorem unresolvedCounts_eq_nil {r : Resolver} : r.unresolvedCounts = [] ↔ r.unresolved = [] := by
  rw [← List.length_eq_zero_iff (l := r.unresolved), ← length_lackingOps, List.length_eq_zero_iff,
    unresolvedCounts_eq, List.map_eq_nil_iff]
  simp only [List.eq_nil_iff_forall_not_mem, Text.mem_sort, Text.mem_distinct]

theorem ordered_unresolvedCounts (r : Resolver) :
    r.unresolvedCounts.Pairwise fun a b => a.1.bytes < b.1.bytes := by
  rw [unresolvedCounts_eq, List.pairwise_map]
  exact (Text.increasing_sort (Text.nodup_distinct _)).imp fun h => Text.precedes_iff.mp h

theorem summarizes_mergeSort (r : Resolver) :
    Summarizes r (r.unresolvedCounts.mergeSort (byRank Prod.snd)) := by
  have hperm := List.mergeSort_perm r.unresolvedCounts (byRank Prod.snd)
  refine ⟨fun op => ?_, ?_, fun item hitem => ?_, ?_, ?_⟩
  · rw [(hperm.map Prod.fst).mem_iff, map_fst_unresolvedCounts, Text.mem_sort, Text.mem_distinct,
      mem_lackingOps]
  · rw [(hperm.map Prod.fst).nodup_iff, map_fst_unresolvedCounts]
    exact (List.mergeSort_perm _ _).nodup_iff.mpr (Text.nodup_distinct _)
  · rw [hperm.mem_iff, unresolvedCounts_eq, List.mem_map] at hitem
    obtain ⟨op, -, rfl⟩ := hitem
    exact r.count_lackingOps op
  · rw [(hperm.map Prod.snd).sum_nat, sum_unresolvedCounts]
  · exact pairwise_mergeSort_byRank Prod.snd r.ordered_unresolvedCounts

/-- An item of the summary. -/
def itemText (item : Text × Nat) : Text := item.1 ++ "=" ++ Text.ofNat item.2

theorem join_itemText_eq_empty {items : List (Text × Nat)} :
    Text.join ", " (items.map itemText) = .empty ↔ items = [] := by
  have hequals : (Text.ofString "=").bytes = [0x3D] := by decide
  refine ⟨fun h => ?_, fun h => h ▸ rfl⟩
  have hbytes := congrArg Text.bytes h
  cases items with
  | nil => rfl
  | cons item items =>
    cases items <;> simp [Text.join, itemText, Text.append_bytes, hequals, Text.empty] at hbytes

/-- **The summary has an item for each operator with outputs that have no shape, with their number;
the numbers add up to that of all, the greatest comes first and equal ones go by operator. It is
empty when every output has a shape.** -/
theorem summarizes_unresolvedSummary (r : Resolver) :
    (∃ items, Summarizes r items ∧ r.unresolvedSummary = Text.join ", " (items.map itemText)) ∧
    (r.unresolvedSummary = .empty ↔ r.unresolved = []) := by
  have htext : r.unresolvedSummary =
      Text.join ", " ((r.unresolvedCounts.mergeSort (byRank Prod.snd)).map itemText) := rfl
  refine ⟨⟨_, r.summarizes_mergeSort, htext⟩, ?_⟩
  rw [htext, join_itemText_eq_empty, ← List.length_eq_zero_iff, List.length_mergeSort,
    List.length_eq_zero_iff, unresolvedCounts_eq_nil]

end Resolver

end ShapeFlow
