/-
The table of failures. A failed node stands in it under its label, followed by the place of
the node if an earlier node has taken the label. Such a key can be the label of an earlier
node itself, and then the later of the two failures replaces the earlier one. That is the
only way to lose a failure (`failureTable_propagate`): a key that ends in a place is no
other node's such key, and a label is only used as it stands when it is free.
-/
import Mathlib
import ShapeFlow.Proofs.Resolver.Invariant
import ShapeFlow.Proofs.Text
import ShapeFlow.Resolver.Query

namespace ShapeFlow

/-! ## Dictionaries of entries -/

namespace Text

theorem distinct_concat (ts : List Text) (t : Text) : distinct (ts ++ [t]) = addNew (distinct ts) t := by
  simp [distinct]

/-- Nothing is left out just when nothing is repeated. -/
theorem length_distinct {ts : List Text} : (distinct ts).length = ts.length ↔ ts.Nodup := by
  constructor
  · intro h
    have hsub : distinct ts ⊆ ts := fun t ht => mem_distinct.mp ht
    have hperm := (List.subperm_of_subset (nodup_distinct ts) hsub).perm_of_length_le h.ge
    exact hperm.nodup_iff.mp (nodup_distinct ts)
  · intro h
    exact ((List.perm_ext_iff_of_nodup (nodup_distinct ts) h).mpr fun t => mem_distinct).length_eq

end Text

namespace Dict

variable {α : Type}

theorem ofList_concat (es : List (Text × α)) (e : Text × α) :
    ofList (es ++ [e]) = (ofList es).insert e.1 e.2 := by
  simp [ofList]

theorem keys_ofList (es : List (Text × α)) : (ofList es).keys = Text.distinct (es.map Prod.fst) := by
  induction es using List.reverseRecOn with
  | nil => rfl
  | append_singleton es e ih =>
    rw [ofList_concat, keys_insert, ih, List.map_append, List.map_singleton, Text.distinct_concat]

theorem size_ofList {es : List (Text × α)} : (ofList es).size = es.length ↔ (es.map Prod.fst).Nodup := by
  have hsize : (ofList es).size = (Text.distinct (es.map Prod.fst)).length := by
    rw [← keys_ofList, keys, List.length_map, size]
  rw [hsize, ← Text.length_distinct, List.length_map]

/-- The last entry of a key is the one that is found. -/
theorem get?_ofList_append (before after : List (Text × α)) {key : Text} (a : α)
    (h : key ∉ after.map Prod.fst) : (ofList (before ++ (key, a) :: after)).get? key = some a := by
  induction after using List.reverseRecOn with
  | nil => rw [ofList_concat, get?_insert_self]
  | append_singleton after e ih =>
    simp only [List.map_append, List.map_singleton, List.mem_append, List.mem_singleton, not_or] at h
    rw [← List.cons_append, ← List.append_assoc, ofList_concat, get?_insert_other _ h.2, ih h.1]

end Dict

/-! ## Keys -/

/-- The key of a node at a place, if these are taken. -/
def Node.keyAfter (n : Node) (taken : List Text) (i : Nat) : Text :=
  if n.label ∈ taken then n.label.numbered i else n.label

/-- The keys of nodes, in their order. -/
def tableKeys (nodes : List Node) : List Text :=
  nodes.zipIdx.foldl (fun keys p => keys ++ [p.1.keyAfter keys p.2]) []

theorem tableKeys_concat (nodes : List Node) (n : Node) :
    tableKeys (nodes ++ [n]) = tableKeys nodes ++ [n.keyAfter (tableKeys nodes) nodes.length] := by
  simp [tableKeys, List.zipIdx_append]

@[simp] theorem length_tableKeys (nodes : List Node) : (tableKeys nodes).length = nodes.length := by
  induction nodes using List.reverseRecOn with
  | nil => rfl
  | append_singleton nodes n ih => simp [tableKeys_concat, ih]

/-- Every key is made from the keys before it. -/
theorem getElem?_tableKeys {nodes : List Node} {i : Nat} {n : Node} (h : nodes[i]? = some n) :
    (tableKeys nodes)[i]? = some (n.keyAfter ((tableKeys nodes).take i) i) := by
  induction nodes using List.reverseRecOn with
  | nil => simp at h
  | append_singleton nodes m ih =>
    have hlt : i < nodes.length + 1 := by simpa using (List.getElem?_eq_some_iff.mp h).1
    rw [tableKeys_concat]
    rcases Nat.lt_succ_iff_lt_or_eq.mp hlt with hi | rfl
    · have hkeys : i < (tableKeys nodes).length := by simpa using hi
      rw [List.getElem?_append_left hi] at h
      rw [List.getElem?_append_left hkeys, List.take_append_of_le_length hkeys.le, ih h]
    · obtain rfl : m = n := by simpa using h
      simp

/-- **Keys are shared in one way only:** the label of a node is the key that a later node is
given to tell it apart. -/
theorem tableKeys_shared {nodes : List Node} {i j : Nat} (hij : i < j) {n n' : Node}
    (hi : nodes[i]? = some n) (hj : nodes[j]? = some n') :
    (tableKeys nodes)[i]? = (tableKeys nodes)[j]? ↔ n.label = n'.label.numbered j ∧
      n.label ∉ (tableKeys nodes).take i ∧ n'.label ∈ (tableKeys nodes).take j := by
  have hkey := getElem?_tableKeys hi
  have hkey' := getElem?_tableKeys hj
  -- whatever the key of the first node is, it is taken when the turn of the second comes
  have hearlier : n.keyAfter ((tableKeys nodes).take i) i ∈ (tableKeys nodes).take j := by
    refine List.mem_of_getElem? (i := i) ?_
    rw [List.getElem?_take, if_pos hij, hkey]
  rw [hkey, hkey', Option.some.injEq]
  constructor
  · intro heq
    have htaken : n'.label ∈ (tableKeys nodes).take j := by
      by_contra hfree
      rw [heq, Node.keyAfter, if_neg hfree] at hearlier
      exact hfree hearlier
    rw [Node.keyAfter, Node.keyAfter, if_pos htaken] at heq
    split at heq
    · exact absurd (Text.numbered_inj heq).2 hij.ne
    · next hfree => exact ⟨heq, hfree, htaken⟩
  · rintro ⟨hlabel, hfree, htaken⟩
    rw [Node.keyAfter, Node.keyAfter, if_neg hfree, if_pos htaken, hlabel]

namespace Resolver

/-! ## One failure for each failed node -/

/-- Failures are those of different places of the graph. -/
structure Accounted (g : Graph) (failures : List (Nat × InferError)) : Prop where
  nodup : (failures.map Prod.fst).Nodup
  lt : ∀ i ∈ failures.map Prod.fst, i < g.nodes.length

theorem isSome_lookup {failures : List (Nat × InferError)} {i : Nat} :
    (failures.lookup i).isSome = true ↔ i ∈ failures.map Prod.fst := by
  simp [List.lookup_isSome_iff]

theorem accounted_nil (g : Graph) : Accounted g [] := ⟨List.nodup_nil, by simp⟩

/-- A failure is recorded once for each place. -/
theorem kept_accounted (r : Resolver) : r.Kept fun run => Accounted r.model.graph run.failures where
  events _ _ h := h
  record before run _ h i n hn := by
    cases r.outcome before (n, i) with
    | unsupported =>
      simp only [Resolver.record]
      split <;> exact h
    | inferred outputs =>
      simp only [Resolver.record, failures_mergeOutputs]
      exact h
    | failed e =>
      simp only [Resolver.record]
      split
      · exact h
      · next hnew =>
        rw [isSome_lookup] at hnew
        simp only
        refine ⟨?_, fun j hj => ?_⟩
        · rw [List.map_append]
          exact h.nodup.append (List.nodup_singleton i) (by simpa using hnew)
        · rw [List.map_append, List.mem_append] at hj
          rcases hj with hj | hj
          · exact h.lt j hj
          · rw [List.mem_singleton.mp hj]
            exact (List.getElem?_eq_some_iff.mp hn).1

theorem Accounted.propagate {r : Resolver} (h : Accounted r.model.graph r.failures) (stop : Nat → Bool) :
    Accounted (r.propagate stop).resolver.model.graph (r.propagate stop).resolver.failures := by
  have hpasses : ∀ ls, Accounted r.model.graph (r.runPasses stop (levelNodes r.model.graph ls)
      r.maxPasses 0 r.start).run.failures := fun ls =>
    r.kept_accounted.runPasses stop ls r.maxPasses 0 (accounted_nil _)
  have hend := r.ending_propagate stop
  generalize r.propagate stop = p at hend
  cases hend with
  | spared => exact h
  | unordered => exact h
  | @interrupted ls _ _ _ hrun =>
    have := hpasses ls
    rwa [hrun] at this
  | @finished ls _ _ _ _ hrun =>
    have := hpasses ls
    rwa [hrun] at this

theorem Reachable.accounted {r : Resolver} (h : r.Reachable) : Accounted r.model.graph r.failures := by
  induction h with
  | ofModel => exact accounted_nil _
  | withRegistry _ _ ih => exact ih
  | withOpset _ _ ih => exact ih
  | withParallelism _ _ ih => exact ih
  | withMaxPasses _ _ ih => exact ih
  | withOverrides _ _ ih => exact ih
  | propagate stop _ ih => exact ih.propagate stop

/-- The places of the failed nodes, in graph order. -/
def failedPlaces (r : Resolver) : List Nat :=
  (List.range r.model.graph.nodes.length).filter fun i => (r.failure? i).isSome

theorem mem_failedPlaces {r : Resolver} {i : Nat} :
    i ∈ r.failedPlaces ↔ i < r.model.graph.nodes.length ∧ (r.failure? i).isSome = true := by
  simp [failedPlaces]

theorem nodup_failedPlaces (r : Resolver) : r.failedPlaces.Nodup := List.nodup_range.filter _

theorem Accounted.length_eq {r : Resolver} (h : Accounted r.model.graph r.failures) :
    r.failures.length = r.failedPlaces.length := by
  have hperm : (r.failures.map Prod.fst).Perm r.failedPlaces := by
    refine (List.perm_ext_iff_of_nodup h.nodup r.nodup_failedPlaces).mpr fun i => ?_
    rw [mem_failedPlaces, failure?, isSome_lookup]
    exact ⟨fun hi => ⟨h.lt i hi, hi⟩, fun hi => hi.2⟩
  rw [← hperm.length_eq, List.length_map]

/-! ## The table -/

/-- The key of the node at a place. -/
def key (r : Resolver) (i : Nat) : Text := (tableKeys r.model.graph.nodes).getD i Text.empty

/-- The failures with the keys of their places. -/
def keyed (failure? : Nat → Option InferError) (keys : List Text) : List (Text × InferError) :=
  (List.range keys.length).filterMap fun i => (failure? i).map fun e => (keys.getD i Text.empty, e)

theorem keyed_concat (failure? : Nat → Option InferError) (keys : List Text) (key : Text) :
    keyed failure? (keys ++ [key]) =
      keyed failure? keys ++ ((failure? keys.length).map fun e => (key, e)).toList := by
  have hsame : ∀ i ∈ List.range keys.length,
      ((failure? i).map fun e => ((keys ++ [key]).getD i Text.empty, e)) =
        (failure? i).map fun e => (keys.getD i Text.empty, e) := by
    intro i hi
    rw [List.getD_append _ _ _ _ (List.mem_range.mp hi)]
  rw [keyed, List.length_append, List.length_singleton, List.range_succ, List.filterMap_append,
    List.filterMap_congr hsame, keyed]
  congr 1
  cases h : failure? keys.length <;> simp [h]

/-- One node in the making of the table. -/
def tableStep (r : Resolver) (acc : List Text × Dict InferError) (p : Node × Nat) :
    List Text × Dict InferError :=
  let label := p.1.label
  let key := if acc.1.contains label then label ++ "#" ++ Text.ofNat p.2 else label
  (key :: acc.1,
    match r.failure? p.2 with
    | some error => acc.2.insert key error
    | none => acc.2)

theorem foldl_tableStep (r : Resolver) (nodes : List Node) :
    nodes.zipIdx.foldl r.tableStep ([], {}) =
      ((tableKeys nodes).reverse, Dict.ofList (keyed r.failure? (tableKeys nodes))) := by
  induction nodes using List.reverseRecOn with
  | nil => rfl
  | append_singleton nodes n ih =>
    have hkey : (if (tableKeys nodes).reverse.contains n.label then
        n.label ++ "#" ++ Text.ofNat nodes.length else n.label) =
        n.keyAfter (tableKeys nodes) nodes.length := by
      simp [Node.keyAfter, Text.numbered]
    rw [List.zipIdx_append, List.foldl_append, ih, tableKeys_concat, keyed_concat]
    simp only [List.zipIdx_singleton, List.foldl_cons, List.foldl_nil, tableStep, hkey,
      length_tableKeys, Nat.zero_add, List.reverse_append, List.reverse_singleton, List.singleton_append]
    cases r.failure? nodes.length with
    | none => simp
    | some e => simp [Dict.ofList_concat]

/-- The table is the dictionary of the failures with their keys. -/
theorem failureTable_eq (r : Resolver) :
    r.failureTable = Dict.ofList (keyed r.failure? (tableKeys r.model.graph.nodes)) :=
  congrArg Prod.snd (r.foldl_tableStep r.model.graph.nodes)

/-- The node at `i` is overwritten by that at `j`: both have failed, the label of `j` is
taken when its turn comes, and followed by its place it is the label of `i`, which was
free. -/
structure Overwritten (r : Resolver) (i j : Nat) : Prop where
  lt : i < j
  failed : i ∈ r.failedPlaces
  failed' : j ∈ r.failedPlaces
  label : ∃ n n', r.model.graph.nodes[i]? = some n ∧ r.model.graph.nodes[j]? = some n' ∧
    n.label = n'.label.numbered j ∧ n.label ∉ (tableKeys r.model.graph.nodes).take i ∧
    n'.label ∈ (tableKeys r.model.graph.nodes).take j

theorem key_eq_iff {r : Resolver} {i j : Nat} (hij : i < j) (hi : i ∈ r.failedPlaces)
    (hj : j ∈ r.failedPlaces) : r.key i = r.key j ↔ r.Overwritten i j := by
  obtain ⟨hlt, -⟩ := mem_failedPlaces.mp hi
  obtain ⟨hlt', -⟩ := mem_failedPlaces.mp hj
  have hkey : ∀ k < r.model.graph.nodes.length,
      (tableKeys r.model.graph.nodes)[k]? = some (r.key k) := by
    intro k hk
    rw [key, List.getD_eq_getElem?_getD, List.getElem?_eq_getElem (by simpa using hk), Option.getD_some]
  have hn := List.getElem?_eq_getElem hlt
  have hn' := List.getElem?_eq_getElem hlt'
  have hshared := tableKeys_shared hij hn hn'
  rw [hkey i hlt, hkey j hlt', Option.some.injEq] at hshared
  rw [hshared]
  constructor
  · intro h
    exact ⟨hij, hi, hj, _, _, hn, hn', h⟩
  · intro h
    obtain ⟨m, m', hm, hm', hlabel⟩ := h.label
    rw [hn] at hm
    rw [hn'] at hm'
    cases hm
    cases hm'
    exact hlabel

/-- The keys of failures are those of the places that have failed. -/
theorem map_fst_filterMap (failure? : Nat → Option InferError) (key : Nat → Text) (places : List Nat) :
    (places.filterMap fun i => (failure? i).map fun e => (key i, e)).map Prod.fst =
      (places.filter fun i => (failure? i).isSome).map key := by
  induction places with
  | nil => rfl
  | cons i places ih => cases h : failure? i <;> simp [h, ih]

theorem keyed_eq (r : Resolver) : keyed r.failure? (tableKeys r.model.graph.nodes) =
    (List.range r.model.graph.nodes.length).filterMap fun i => (r.failure? i).map fun e => (r.key i, e) := by
  rw [keyed, length_tableKeys]
  rfl

theorem map_fst_keyed (r : Resolver) :
    (keyed r.failure? (tableKeys r.model.graph.nodes)).map Prod.fst = r.failedPlaces.map r.key := by
  rw [keyed_eq, map_fst_filterMap]
  rfl

/-- Different failed nodes have different keys just when none is overwritten. -/
theorem injOn_key {r : Resolver} :
    (∀ i ∈ r.failedPlaces, ∀ j ∈ r.failedPlaces, r.key i = r.key j → i = j) ↔
      ∀ i j, ¬ r.Overwritten i j := by
  constructor
  · intro h i j ho
    exact ho.lt.ne (h i ho.failed j ho.failed' ((key_eq_iff ho.lt ho.failed ho.failed').mpr ho))
  · intro h i hi j hj heq
    rcases Nat.lt_trichotomy i j with hij | hij | hij
    · exact absurd ((key_eq_iff hij hi hj).mp heq) (h i j)
    · exact hij
    · exact absurd ((key_eq_iff hij hj hi).mp heq.symm) (h j i)

/-- What the table holds of the failures. -/
structure Tabulated (r : Resolver) : Prop where
  keys : ∀ t, t ∈ r.failureTable.keys ↔ ∃ i ∈ r.failedPlaces, r.key i = t
  size : r.failureTable.size = r.failedPlaces.length ↔ ∀ i j, ¬ r.Overwritten i j
  distinct : (∀ i ∈ r.failedPlaces, ∀ j ∈ r.failedPlaces, r.key i = r.key j → i = j) ↔
    ∀ i j, ¬ r.Overwritten i j
  found : ∀ i ∈ r.failedPlaces, (∀ j, ¬ r.Overwritten i j) →
    r.failureTable.get? (r.key i) = r.failure? i

theorem size_failureTable {r : Resolver} : r.failureTable.size = r.failedPlaces.length ↔
    ∀ i ∈ r.failedPlaces, ∀ j ∈ r.failedPlaces, r.key i = r.key j → i = j := by
  have hlength : (keyed r.failure? (tableKeys r.model.graph.nodes)).length = r.failedPlaces.length := by
    rw [← List.length_map Prod.fst, map_fst_keyed, List.length_map]
  rw [failureTable_eq, ← hlength, Dict.size_ofList, map_fst_keyed]
  exact ⟨fun h i hi j hj => List.inj_on_of_nodup_map h hi hj,
    fun h => r.nodup_failedPlaces.map_on fun i hi j hj => h i hi j hj⟩

/-- The last failure of a key is found. -/
theorem get?_failureTable {r : Resolver} {i : Nat} (hi : i ∈ r.failedPlaces)
    (hlast : ∀ j, ¬ r.Overwritten i j) : r.failureTable.get? (r.key i) = r.failure? i := by
  obtain ⟨hlt, hfailed⟩ := mem_failedPlaces.mp hi
  obtain ⟨e, he⟩ := Option.isSome_iff_exists.mp hfailed
  obtain ⟨before, after, hsplit⟩ := List.append_of_mem (List.mem_range.mpr hlt)
  -- the entries after that of `i` are those of later places
  have hlater : ∀ j ∈ after, i < j := by
    have hsorted := List.pairwise_lt_range (n := r.model.graph.nodes.length)
    rw [hsplit] at hsorted
    exact (List.pairwise_cons.mp (List.pairwise_append.mp hsorted).2.1).1
  rw [failureTable_eq, keyed_eq, hsplit, List.filterMap_append, List.filterMap_cons, he]
  refine Dict.get?_ofList_append _ _ e fun hmem => ?_
  rw [map_fst_filterMap] at hmem
  obtain ⟨j, hj, heq⟩ := List.mem_map.mp hmem
  obtain ⟨hj, hfailed'⟩ := List.mem_filter.mp hj
  have hplace : j ∈ r.failedPlaces := by
    refine mem_failedPlaces.mpr ⟨List.mem_range.mp ?_, hfailed'⟩
    rw [hsplit]
    exact List.mem_append_right _ (List.mem_cons_of_mem _ hj)
  exact hlast j ((key_eq_iff (hlater j hj) hi hplace).mp heq.symm)

theorem tabulated (r : Resolver) : r.Tabulated := by
  refine ⟨fun t => ?_, size_failureTable.trans injOn_key, injOn_key, fun i hi => get?_failureTable hi⟩
  rw [failureTable_eq, Dict.keys_ofList, Text.mem_distinct, map_fst_keyed, List.mem_map]

/-- The error of a propagation counts the failed nodes. -/
theorem Reachable.count_propagate {r : Resolver} (h : r.Reachable) {stop : Nat → Bool} {count : Nat}
    {label : Text} {e : InferError} (hresult : (r.propagate stop).result = .error (.failures count label e)) :
    count = (r.propagate stop).resolver.failedPlaces.length := by
  have hcount : ∀ s : Resolver, s.failuresError = .error (.failures count label e) →
      count = s.failures.length := by
    intro s hs
    unfold failuresError at hs
    simp only at hs
    split at hs
    · cases hs
    · cases hs
      rfl
  rw [← (h.accounted.propagate stop).length_eq]
  have hend := r.ending_propagate stop
  generalize r.propagate stop = p at hend hresult
  cases hend with
  | spared => exact hcount _ hresult
  | unordered => cases hresult
  | interrupted => cases hresult
  | finished => exact hcount _ hresult

/-- **The table holds the failures of a propagation but for those that are overwritten.**
The error of the propagation counts them all. -/
theorem failureTable_propagate {r : Resolver} (h : r.Reachable) (stop : Nat → Bool) :
    (∀ count label e, (r.propagate stop).result = .error (.failures count label e) →
      count = (r.propagate stop).resolver.failedPlaces.length) ∧
    (r.propagate stop).resolver.Tabulated :=
  ⟨fun _ _ _ => h.count_propagate, tabulated _⟩

/-- A node that fails, since its input has two axes. -/
def overlong (name output : Text) (axis : Int64) : Node :=
  { name, op := "Flatten", inputs := ["x"], outputs := [output], attributes := ⟨[("axis", .int axis)]⟩ }

/-- Two nodes of one name; another has the name that tells the last of them apart. -/
def namesakes : Resolver := ofModel { graph := {
  inputs := [⟨"x", ⟨some .float32, some [.known 2, .known 3]⟩⟩]
  nodes := [overlong "a" "u" 5, overlong "a#2" "v" 6, overlong "a" "w" 7] } }

theorem failureTable_namesakes :
    (∃ label e, (namesakes.propagate fun _ => false).result = .error (.failures 3 label e)) ∧
    3 = (namesakes.propagate fun _ => false).resolver.failedPlaces.length ∧
    (namesakes.propagate fun _ => false).resolver.Tabulated := by
  obtain ⟨label, e, hresult⟩ : ∃ label e, (namesakes.propagate fun _ => false).result =
      .error (.failures 3 label e) := ⟨_, _, by cbv⟩
  obtain ⟨hcount, htable⟩ := failureTable_propagate (.ofModel _) fun _ => false
  exact ⟨⟨label, e, hresult⟩, hcount 3 label e hresult, htable⟩

/-- All three fail, and one failure is lost: under the label of the second node stands the
failure of the third. -/
theorem lost_namesakes :
    let r := (namesakes.propagate fun _ => false).resolver
    r.failedPlaces = [0, 1, 2] ∧ r.failureTable.size = 2 ∧ r.key 1 = r.key 2 ∧
      r.failureTable.get? "a#2" = r.failure? 2 := by
  cbv

end Resolver

end ShapeFlow
