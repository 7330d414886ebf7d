/-
What recording the result of one node does to a run. Seen through the state of
each value, a result merges into every value what it has to offer for it, and
that is nothing for a value that the node does not write (`state_record`). A
failure is kept for the node's place alone and only once (`lookup_record`).
-/
import ShapeFlow.Proofs.Graph.Feeding
import ShapeFlow.Proofs.Merge
import ShapeFlow.Resolver.Run

namespace ShapeFlow

/-! ## The state of a value -/

/-- The state of a value; the empty state if there is no entry for it. -/
def Dict.state (values : Dict ValueState) (v : Text) : ValueState := (values.get? v).getD {}

theorem Dict.state_insert (values : Dict ValueState) (name v : Text) (s : ValueState) :
    (values.insert name s).state v = if v = name then s else values.state v := by
  unfold Dict.state
  split
  · next h => rw [h, Dict.get?_insert_self, Option.getD_some]
  · next h => rw [Dict.get?_insert_other _ h]

/-- What is known of a value is known from its state. -/
theorem Dict.informative_get? (values : Dict ValueState) (v : Text) :
    ((values.get? v).map ValueState.info).filter TensorInfo.isInformative =
      (some (values.state v).info).filter TensorInfo.isInformative := by
  unfold Dict.state
  cases values.get? v <;> rfl

theorem Node.mem_namedOutputs {n : Node} {v : Text} :
    v ∈ n.namedOutputs ↔ v ∈ n.outputs ∧ v.isEmpty = false := by
  simp [Node.namedOutputs]

theorem Node.mem_namedInputs {n : Node} {v : Text} :
    v ∈ n.namedInputs ↔ v ∈ n.inputs ∧ v.isEmpty = false := by
  simp [Node.namedInputs]

/-- What is known about the inputs of a node depends on the states of the values
that it reads. -/
theorem Node.inputInfos_congr {n : Node} {values values' : Dict ValueState}
    (h : ∀ v ∈ n.namedInputs, values.state v = values'.state v) :
    n.inputInfos values = n.inputInfos values' := by
  unfold Node.inputInfos
  refine List.map_congr_left fun v hv => ?_
  cases he : v.isEmpty with
  | true => rfl
  | false =>
    have hv := h v (Node.mem_namedInputs.mpr ⟨hv, he⟩)
    simp only [Bool.false_eq_true, if_false, Dict.informative_get?, hv]

/-! ## What a result offers -/

/-- What a list of named slots holds for a value. -/
def slotIn (slots : List (Text × TensorInfo?)) (v : Text) : TensorInfo? :=
  if v.isEmpty then none else (Dict.lookup v slots).join

theorem slotIn_eq_none {slots : List (Text × TensorInfo?)} {v : Text} (h : v ∉ slots.map Prod.fst) :
    slotIn slots v = none := by
  simp [slotIn, Dict.lookup_eq_none.mpr h]

theorem slotIn_of_isEmpty {slots : List (Text × TensorInfo?)} {v : Text} (h : v.isEmpty = true) :
    slotIn slots v = none := by
  simp [slotIn, h]

theorem slotIn_cons_self {slots : List (Text × TensorInfo?)} {v : Text} {info : TensorInfo?}
    (h : v.isEmpty = false) : slotIn ((v, info) :: slots) v = info := by
  simp [slotIn, Dict.lookup, h]

theorem slotIn_cons_of_ne {slots : List (Text × TensorInfo?)} {name v : Text} {info : TensorInfo?}
    (h : v ≠ name) : slotIn ((name, info) :: slots) v = slotIn slots v := by
  simp [slotIn, Dict.lookup, Ne.symm h]

/-- When no name stands twice, what stands beside a name is what it holds. -/
theorem slotIn_of_mem {slots : List (Text × TensorInfo?)} {v : Text} {info : TensorInfo?}
    (h : ((slots.map Prod.fst).filter (!·.isEmpty)).Nodup) (hm : (v, info) ∈ slots)
    (he : v.isEmpty = false) : slotIn slots v = info := by
  induction slots with
  | nil => simp at hm
  | cons slot slots ih =>
    obtain ⟨name, first⟩ := slot
    rcases List.mem_cons.mp hm with heq | hrest
    · cases heq
      exact slotIn_cons_self he
    · simp only [List.map_cons, List.filter_cons] at h
      split at h
      · have hv : v ≠ name := by
          rintro rfl
          exact (List.nodup_cons.mp h).1
            (List.mem_filter.mpr ⟨List.mem_map_of_mem hrest, by simp [he]⟩)
        rw [slotIn_cons_of_ne hv]
        exact ih (List.nodup_cons.mp h).2 hrest
      · next hname =>
        have hv : v ≠ name := by
          rintro rfl
          exact hname (by simp [he])
        rw [slotIn_cons_of_ne hv]
        exact ih h hrest

namespace Attempt

/-- What the result of a node says about a value. -/
def offer (a : Attempt) (n : Node) (v : Text) : TensorInfo? :=
  match a with
  | .inferred outputs => slotIn (n.outputs.zip outputs) v
  | _ => none

def error? : Attempt → Option InferError
  | .failed e => some e
  | _ => none

/-- Of values that the node does not write it says nothing. -/
theorem offer_eq_none {a : Attempt} {n : Node} {v : Text} (h : v ∉ n.namedOutputs) :
    a.offer n v = none := by
  cases a with
  | unsupported | failed => rfl
  | inferred outputs =>
    cases he : v.isEmpty with
    | true => exact slotIn_of_isEmpty he
    | false =>
      refine slotIn_eq_none fun hv => h (Node.mem_namedOutputs.mpr ⟨?_, he⟩)
      obtain ⟨⟨u, t⟩, hm, rfl⟩ := List.mem_map.mp hv
      exact (List.of_mem_zip hm).1

end Attempt

namespace Resolver

/-! ## Merging the outputs of a node -/

section MergeOutputs

variable (n : Node) (run : Run) (slots : List (Text × TensorInfo?))

theorem failures_mergeOutputs : (mergeOutputs n run slots).1.failures = run.failures := by
  induction slots generalizing run with
  | nil => rfl
  | cons slot slots ih =>
    simp only [mergeOutputs]
    split
    · exact ih run
    · exact ih _

theorem reported_mergeOutputs : (mergeOutputs n run slots).1.reported = run.reported := by
  induction slots generalizing run with
  | nil => rfl
  | cons slot slots ih =>
    simp only [mergeOutputs]
    split
    · exact ih run
    · exact ih _

/-- When no name stands twice, each value takes in its own slot. -/
theorem state_mergeOutputs (h : ((slots.map Prod.fst).filter (!·.isEmpty)).Nodup) (v : Text) :
    (mergeOutputs n run slots).1.values.state v =
      ((run.values.state v).merge (slotIn slots v)).value := by
  induction slots generalizing run with
  | nil => simp [mergeOutputs, slotIn, Dict.lookup]
  | cons slot slots ih =>
    obtain ⟨name, info⟩ := slot
    simp only [mergeOutputs]
    cases he : name.isEmpty with
    | true =>
      have hslot : slotIn ((name, info) :: slots) v = slotIn slots v := by
        by_cases hv : v = name
        · subst hv
          rw [slotIn_of_isEmpty he, slotIn_of_isEmpty he]
        · exact slotIn_cons_of_ne hv
      rw [hslot]
      exact ih run (by simpa [he] using h)
    | false =>
      simp only [List.map_cons, List.filter_cons, he, Bool.not_false, if_true, List.nodup_cons,
        List.mem_filter, and_true] at h
      have hname : slotIn slots name = none := slotIn_eq_none h.1
      cases info with
      | none =>
        simp only [Bool.false_or, Option.isNone_none, if_true]
        rw [ih run h.2]
        by_cases hv : v = name
        · subst hv
          rw [hname, slotIn_cons_self he]
        · rw [slotIn_cons_of_ne hv]
      | some t =>
        simp only [Bool.false_or, Option.isNone_some, Bool.false_eq_true, if_false]
        rw [ih _ h.2, Dict.state_insert]
        by_cases hv : v = name
        · subst hv
          rw [hname, if_pos rfl, slotIn_cons_self he]
          rfl
        · rw [if_neg hv, slotIn_cons_of_ne hv]

/-- A value that has an entry, or is given one, has one in the end. -/
theorem isSome_get?_mergeOutputs {v : Text}
    (h : (run.values.get? v).isSome ∨ (slotIn slots v).isSome) :
    ((mergeOutputs n run slots).1.values.get? v).isSome := by
  induction slots generalizing run with
  | nil => simpa [slotIn, Dict.lookup, mergeOutputs] using h
  | cons slot slots ih =>
    obtain ⟨name, info⟩ := slot
    simp only [mergeOutputs]
    split
    · next hskip =>
      refine ih run (h.imp_right fun hs => ?_)
      have hv : v ≠ name := by
        rintro rfl
        simp only [Bool.or_eq_true, Option.isNone_iff_eq_none] at hskip
        rcases hskip with he | rfl
        · simp [slotIn_of_isEmpty he] at hs
        · simp [slotIn, Dict.lookup] at hs
      rwa [slotIn_cons_of_ne hv] at hs
    · refine ih _ ?_
      by_cases hv : v = name
      · subst hv
        simp [Dict.get?_insert_self]
      · rw [slotIn_cons_of_ne hv] at h
        simpa only [Dict.get?_insert_other _ hv] using h

/-- Slots that have been merged before do nothing. -/
theorem mergeOutputs_of_unchanged
    (h : ∀ v t, (v, some t) ∈ slots → v.isEmpty = false →
      ∃ s, run.values.get? v = some s ∧ s.merge (some t) = { value := s }) :
    mergeOutputs n run slots = (run, false) := by
  induction slots with
  | nil => rfl
  | cons slot slots ih =>
    have ih := ih fun v t hm => h v t (List.mem_cons_of_mem _ hm)
    obtain ⟨name, info⟩ := slot
    simp only [mergeOutputs]
    split
    · exact ih
    · next hskip =>
      simp only [Bool.or_eq_true, not_or, Bool.not_eq_true, Option.isNone_eq_false_iff,
        Option.isSome_iff_exists] at hskip
      obtain ⟨he, t, rfl⟩ := hskip
      obtain ⟨s, hs, hm⟩ := h name t (List.mem_cons_self) he
      simp [hs, hm, Dict.insert_of_get? hs, ih]

end MergeOutputs

/-! ## Recording a result -/

theorem map_fst_zip_sublist {α β : Type} : ∀ (l : List α) (m : List β),
    ((l.zip m).map Prod.fst).Sublist l
  | [], _ => by simp
  | _ :: _, [] => List.nil_sublist _
  | _ :: l, _ :: m => (map_fst_zip_sublist l m).cons_cons _

/-- The names of a node's slots are among its outputs. -/
theorem nodup_slotNames {n : Node} (h : n.namedOutputs.Nodup) (outputs : List TensorInfo?) :
    (((n.outputs.zip outputs).map Prod.fst).filter (!·.isEmpty)).Nodup :=
  h.sublist ((map_fst_zip_sublist n.outputs outputs).filter _)

section Record

variable (run : Run) (n : Node) (i : Nat) (a : Attempt)

/-- **Recording a result merges what it offers**, and changes no other value. -/
theorem state_record (h : n.namedOutputs.Nodup) (v : Text) :
    (record run (n, i, a)).1.values.state v = ((run.values.state v).merge (a.offer n v)).value := by
  cases a with
  | unsupported =>
    simp only [record]
    split <;> rfl
  | failed e =>
    simp only [record]
    split <;> rfl
  | inferred outputs => exact state_mergeOutputs n run _ (nodup_slotNames h outputs) v

/-- The first failure of a node is kept, and concerns no other node. -/
theorem lookup_record (j : Nat) : (record run (n, i, a)).1.failures.lookup j =
    (run.failures.lookup j).or (if j = i then a.error? else none) := by
  cases a with
  | unsupported =>
    simp only [record, Attempt.error?]
    split <;> simp
  | failed e =>
    simp only [record, Attempt.error?]
    split
    · next hi =>
      by_cases hj : j = i
      · subst hj
        rw [if_pos rfl, Option.or_of_isSome hi]
      · simp [hj]
    · rw [List.lookup_append]
      by_cases hj : j = i
      · simp [hj]
      · simp [hj, List.lookup_cons, beq_false_of_ne hj]
  | inferred outputs =>
    simp only [record, Attempt.error?, failures_mergeOutputs]
    split <;> simp

theorem reported_record {op : Text} (h : op ∈ run.reported ∨ a = .unsupported ∧ op = n.op) :
    op ∈ (record run (n, i, a)).1.reported := by
  cases a with
  | unsupported =>
    simp only [record]
    split
    · next hop =>
      rcases h with h | ⟨-, rfl⟩
      · exact h
      · simpa using hop
    · rcases h with h | ⟨-, rfl⟩
      · exact List.mem_cons_of_mem _ h
      · exact List.mem_cons_self
  | failed e =>
    simp only [record]
    split <;> simpa using h
  | inferred outputs =>
    simp only [record, reported_mergeOutputs]
    simpa using h

theorem isSome_get?_record {v : Text} (h : (run.values.get? v).isSome ∨ (a.offer n v).isSome) :
    ((record run (n, i, a)).1.values.get? v).isSome := by
  cases a with
  | unsupported =>
    simp only [record]
    split <;> simpa [Attempt.offer] using h
  | failed e =>
    simp only [record]
    split <;> simpa [Attempt.offer] using h
  | inferred outputs => exact isSome_get?_mergeOutputs n run _ h

end Record

end Resolver

end ShapeFlow
