/-
Which node feeds which. A node is known by its place in the graph: it reads and
writes values, and feeds the nodes that read what it writes. When no value is
written twice (`Uncontested`), a value has one writer at most, and what a level
of nodes writes is a list without repetition.
-/
import Mathlib.Data.List.Nodup
import ShapeFlow.Graph.Levels

namespace ShapeFlow.Graph

/-- The node at a place writes the value. -/
def Writes (g : Graph) (i : Nat) (v : Text) : Prop :=
  ∃ n, g.nodes[i]? = some n ∧ v ∈ n.namedOutputs

/-- The node at a place reads the value. -/
def Reads (g : Graph) (i : Nat) (v : Text) : Prop :=
  ∃ n, g.nodes[i]? = some n ∧ v ∈ n.namedInputs

/-- The node at `i` writes a value that the node at `j` reads. -/
def Feeds (g : Graph) (i j : Nat) : Prop := ∃ v, g.Writes i v ∧ g.Reads j v

theorem Writes.lt {g : Graph} {i : Nat} {v : Text} (h : g.Writes i v) : i < g.nodes.length := by
  obtain ⟨n, hn, -⟩ := h
  exact (List.getElem?_eq_some_iff.mp hn).1

theorem mem_outputsAt {g : Graph} {i : Nat} {v : Text} : v ∈ g.outputsAt i ↔ g.Writes i v := by
  unfold outputsAt Writes
  cases g.nodes[i]? <;> simp

/-- The values that nodes write are those that some place writes. -/
theorem mem_writes {g : Graph} {v : Text} : v ∈ g.writes.map Prod.fst ↔ ∃ i, g.Writes i v := by
  simp only [writes, List.map_flatMap, List.map_map, Function.comp_def, List.map_id', List.mem_flatMap]
  constructor
  · rintro ⟨n, hn, hv⟩
    obtain ⟨i, hi⟩ := List.mem_iff_getElem?.mp hn
    exact ⟨i, n, hi, hv⟩
  · rintro ⟨i, n, hi, hv⟩
    exact ⟨n, List.mem_of_getElem? hi, hv⟩

/-! ## One writer -/

/-- No value is written twice, be it by one node or by two. -/
structure Uncontested (g : Graph) : Prop where
  nodup : ∀ i, (g.outputsAt i).Nodup
  writer : ∀ {i j v}, g.Writes i v → g.Writes j v → i = j

theorem clash?_eq_none {seen ws : List (Text × Node)} (h : clash? seen ws = none) :
    (ws.map Prod.fst).Nodup ∧ ∀ v ∈ ws.map Prod.fst, v ∉ seen.map Prod.fst := by
  induction ws generalizing seen with
  | nil => simp
  | cons w ws ih =>
    obtain ⟨v, n⟩ := w
    simp only [clash?] at h
    split at h
    · cases h
    · rename_i hv
      obtain ⟨hnodup, hnew⟩ := ih h
      rw [Dict.lookup_eq_none] at hv
      simp only [List.map_cons, List.mem_cons, not_or] at hnew
      refine ⟨List.nodup_cons.mpr ⟨fun hm => (hnew v hm).1 rfl, hnodup⟩, fun u hu => ?_⟩
      rcases List.mem_cons.mp hu with rfl | hu
      · exact hv
      · exact (hnew u hu).2

theorem uncontested_of_clash? {g : Graph} (h : clash? [] g.writes = none) : g.Uncontested := by
  have hnodup := (clash?_eq_none h).1
  rw [writes, List.map_flatMap] at hnodup
  simp only [List.map_map, Function.comp_def, List.map_id'] at hnodup
  obtain ⟨heach, hpair⟩ := List.nodup_flatMap.mp hnodup
  have hne : ∀ {i j v}, i < j → g.Writes i v → ¬ g.Writes j v := by
    rintro i j v hij ⟨n, hn, hv⟩ ⟨m, hm, hv'⟩
    obtain ⟨hi, rfl⟩ := List.getElem?_eq_some_iff.mp hn
    obtain ⟨hj, rfl⟩ := List.getElem?_eq_some_iff.mp hm
    exact List.pairwise_iff_getElem.mp hpair i j hi hj hij hv hv'
  refine ⟨fun i => ?_, fun {i j v} hi hj => ?_⟩
  · unfold outputsAt
    cases hn : g.nodes[i]? with
    | none => simp
    | some n => exact heach n (List.mem_of_getElem? hn)
  · rcases Nat.lt_trichotomy i j with hij | hij | hij
    · exact absurd hj (hne hij hi)
    · exact hij
    · exact absurd hi (hne hij hj)

theorem clash?_of_levels {g : Graph} {ls : List (List Nat)} (h : g.levels = .ok ls) :
    clash? [] g.writes = none := by
  unfold levels at h
  split at h
  · cases h
  · assumption

/-- The graph of levels has one writer for each value. -/
theorem uncontested_of_levels {g : Graph} {ls : List (List Nat)} (h : g.levels = .ok ls) :
    g.Uncontested := uncontested_of_clash? (clash?_of_levels h)

namespace Uncontested

variable {g : Graph}

/-- Different nodes write no value twice between them. -/
theorem nodup_flatMap (hg : g.Uncontested) {places : List Nat} (h : places.Nodup) :
    (places.flatMap g.outputsAt).Nodup := by
  refine List.nodup_flatMap.mpr ⟨fun i _ => hg.nodup i, h.imp fun {i j} hne v hi hj => hne ?_⟩
  exact hg.writer (mem_outputsAt.mp hi) (mem_outputsAt.mp hj)

end Uncontested

/-! ## What a node waits for -/

/-- The values that the node at a place waits for. -/
def awaitedAt (g : Graph) (i : Nat) : List Text := (g.awaits[i]?).getD []

theorem getElem?_awaits (g : Graph) (i : Nat) :
    g.awaits[i]? = if i < g.nodes.length then some (g.awaitedAt i) else none := by
  have hlen : g.awaits.length = g.nodes.length := by simp [awaits]
  unfold awaitedAt
  split
  · rename_i hi
    rw [List.getElem?_eq_getElem (hlen ▸ hi)]
    rfl
  · rename_i hi
    exact List.getElem?_eq_none (by omega)

theorem nodup_awaitedAt (g : Graph) (i : Nat) : (g.awaitedAt i).Nodup := by
  simp only [awaitedAt, awaits, List.getElem?_map]
  cases g.nodes[i]? with
  | none => simp
  | some n => exact Text.nodup_distinct _

theorem mem_awaitedAt {g : Graph} {i : Nat} {v : Text} :
    v ∈ g.awaitedAt i ↔ g.Reads i v ∧ ∃ j, g.Writes j v := by
  simp only [awaitedAt, awaits, List.getElem?_map, Reads]
  cases g.nodes[i]? with
  | none => simp
  | some n => simp [awaited, ← mem_writes]

end ShapeFlow.Graph
