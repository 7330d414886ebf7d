/-
Which function a lookup finds. Whatever registrations made a registry, in any order
and with repetitions, it holds the versions of each operator in increasing order, each
once and with the function that was registered for it last (`represents_ofHistory`).
So a lookup selects the greatest version that is not above the one asked for, or the
greatest of all (`selection_ofHistory`), and what is registered for other operators does
not matter.
-/
import Mathlib.Data.List.Induction
import Mathlib.Order.Bounds.Defs
import ShapeFlow.Proofs.Registry
import ShapeFlow.Proofs.Text

namespace ShapeFlow.Registry

/-! ## Histories -/

/-- A function that is registered for an operator, since a version. -/
structure Registration where
  op : Text
  since : Int
  function : Operator

/-- The registry that registrations make of the empty one. -/
def ofHistory (calls : List Registration) : Registry :=
  calls.foldl (fun r c => r.register c.op c.since c.function) empty

variable {calls : List Registration} {r : Registry} {op : Text} {opset since : Int} {f : Operator}

/-- The version was registered for the operator. -/
def Registered (calls : List Registration) (op : Text) (since : Int) : Prop :=
  ∃ c ∈ calls, c.op = op ∧ c.since = since

/-- The function was registered last for the operator and the version. -/
def Latest (calls : List Registration) (op : Text) (since : Int) (f : Operator) : Prop :=
  ∃ before after, calls = before ++ ⟨op, since, f⟩ :: after ∧
    ∀ c ∈ after, ¬ (c.op = op ∧ c.since = since)

/-- A lookup can take the version: any if none is asked for, else one that is not above
the one asked for. -/
def Eligible (calls : List Registration) (op : Text) (opset since : Int) : Prop :=
  Registered calls op since ∧ (opset ≤ 0 ∨ since ≤ opset)

theorem ofHistory_append (calls : List Registration) (c : Registration) :
    ofHistory (calls ++ [c]) = (ofHistory calls).register c.op c.since c.function := by
  simp [ofHistory]

theorem registered_append {c : Registration} :
    Registered (calls ++ [c]) op since ↔ Registered calls op since ∨ c.op = op ∧ c.since = since := by
  simp [Registered, or_and_right, exists_or]

theorem Latest.registered (h : Latest calls op since f) : Registered calls op since := by
  obtain ⟨before, after, rfl, -⟩ := h
  exact ⟨_, List.mem_append_right _ List.mem_cons_self, rfl, rfl⟩

/-- One more call is the last for its version, and leaves the others as they are. -/
theorem latest_append {c : Registration} : Latest (calls ++ [c]) op since f ↔
    c = ⟨op, since, f⟩ ∨ ¬ (c.op = op ∧ c.since = since) ∧ Latest calls op since f := by
  constructor
  · rintro ⟨before, after, heq, hafter⟩
    rcases List.eq_nil_or_concat after with rfl | ⟨init, last, rfl⟩
    · exact .inl (List.singleton_inj.mp (List.append_inj' heq rfl).2)
    · rw [List.concat_eq_append, ← List.cons_append, ← List.append_assoc] at heq
      obtain ⟨rfl, hlast⟩ := List.append_inj' heq rfl
      obtain rfl := List.singleton_inj.mp hlast
      simp only [List.concat_eq_append, List.forall_mem_append, List.forall_mem_singleton] at hafter
      exact .inr ⟨hafter.2, before, init, rfl, hafter.1⟩
  · rintro (rfl | ⟨hne, before, after, rfl, hafter⟩)
    · exact ⟨calls, [], rfl, by simp⟩
    · refine ⟨before, after ++ [c], by simp, ?_⟩
      simp only [List.forall_mem_append, List.forall_mem_singleton]
      exact ⟨hafter, hne⟩

/-- What was registered was registered by some last call. -/
theorem Registered.latest (h : Registered calls op since) : ∃ f, Latest calls op since f := by
  induction calls using List.reverseRecOn with
  | nil =>
    obtain ⟨c, hc, -⟩ := h
    cases hc
  | append_singleton calls c ih =>
    by_cases hc : c.op = op ∧ c.since = since
    · obtain ⟨rfl, rfl⟩ := hc
      exact ⟨c.function, latest_append.mpr (.inl rfl)⟩
    · obtain ⟨f, hf⟩ := ih ((registered_append.mp h).resolve_right hc)
      exact ⟨f, latest_append.mpr (.inr ⟨hc, hf⟩)⟩

/-! ## Versions in order -/

/-- Versions in increasing order, each once. -/
def Increasing (versions : List (Int × Operator)) : Prop := versions.Pairwise fun p q => p.1 < q.1

theorem mem_place_iff {versions : List (Int × Operator)} (h : Increasing versions) {p : Int × Operator} :
    p ∈ place since f versions ↔ p = (since, f) ∨ p ∈ versions ∧ p.1 ≠ since := by
  induction versions with
  | nil => simp [place]
  | cons q versions ih =>
    obtain ⟨v, g⟩ := q
    obtain ⟨hfirst, hrest⟩ := List.pairwise_cons.mp h
    have ih := ih hrest
    simp only [place]
    split
    · next hlt =>
      have hv : v ≠ since := Int.ne_of_lt hlt
      simp only [List.mem_cons, ih]
      constructor
      · rintro (rfl | rfl | ⟨hp, hne⟩)
        · exact .inr ⟨.inl rfl, hv⟩
        · exact .inl rfl
        · exact .inr ⟨.inr hp, hne⟩
      · rintro (rfl | ⟨rfl | hp, hne⟩)
        · exact .inr (.inl rfl)
        · exact .inl rfl
        · exact .inr (.inr ⟨hp, hne⟩)
    · next hge =>
      -- the versions after the place are all greater than the new one
      have hlater : ∀ p ∈ versions, p.1 ≠ since := fun p hp => by
        have := hfirst p hp
        simp only at this
        omega
      split
      · next heq =>
        simp only [List.mem_cons]
        refine or_congr_right ⟨fun hp => ⟨.inr hp, hlater p hp⟩, ?_⟩
        rintro ⟨rfl | hp, hne⟩
        · exact absurd heq hne
        · exact hp
      · next hne =>
        simp only [List.mem_cons]
        refine or_congr_right ⟨fun hp => ⟨hp, ?_⟩, fun hp => hp.1⟩
        rcases hp with rfl | hp
        · exact hne
        · exact hlater p hp

theorem Increasing.place {versions : List (Int × Operator)} (h : Increasing versions) (since : Int)
    (f : Operator) : Increasing (place since f versions) := by
  induction versions with
  | nil => exact List.pairwise_singleton _ _
  | cons q versions ih =>
    obtain ⟨v, g⟩ := q
    obtain ⟨hfirst, hrest⟩ := List.pairwise_cons.mp h
    simp only [Registry.place]
    split
    · next hlt =>
      refine List.pairwise_cons.mpr ⟨fun p hp => ?_, ih hrest⟩
      rcases (mem_place_iff hrest).mp hp with rfl | ⟨hp, -⟩
      · exact hlt
      · exact hfirst p hp
    · next hge =>
      split
      · next heq => exact List.pairwise_cons.mpr ⟨fun p hp => heq ▸ hfirst p hp, hrest⟩
      · next hne =>
        refine List.pairwise_cons.mpr ⟨fun p hp => ?_, h⟩
        rcases List.mem_cons.mp hp with rfl | hp
        · exact Int.lt_iff_le_and_ne.mpr ⟨Int.not_lt.mp hge, Ne.symm hne⟩
        · exact Int.lt_of_le_of_lt (Int.not_lt.mp hge) (hfirst p hp)

/-- The last of increasing versions is the greatest. -/
theorem Increasing.getLast? {versions : List (Int × Operator)} (h : Increasing versions)
    {p : Int × Operator} :
    versions.getLast? = some p ↔ p ∈ versions ∧ ∀ q ∈ versions, q.1 ≤ p.1 := by
  induction versions using List.reverseRecOn with
  | nil => simp
  | append_singleton versions last =>
    have hlast : ∀ q ∈ versions, q.1 < last.1 := fun q hq =>
      (List.pairwise_append.mp h).2.2 q hq last (List.mem_singleton_self last)
    rw [List.getLast?_concat, Option.some.injEq]
    constructor
    · rintro rfl
      refine ⟨List.mem_append_right _ (List.mem_singleton_self _), fun q hq => ?_⟩
      rcases List.mem_append.mp hq with hq | hq
      · exact Int.le_of_lt (hlast q hq)
      · exact Int.le_of_eq (congrArg Prod.fst (List.mem_singleton.mp hq))
    · rintro ⟨hp, hmax⟩
      rcases List.mem_append.mp hp with hp | hp
      · have := hmax last (List.mem_append_right _ (List.mem_singleton_self _))
        exact absurd (hlast p hp) (Int.not_lt.mpr this)
      · exact (List.mem_singleton.mp hp).symm

/-! ## What a history leaves -/

/-- The versions of an operator with their functions. -/
def versionsOf (r : Registry) (op : Text) : List (Int × Operator) := (r.versions.get? op).getD []

theorem versionsOf_register_self (r : Registry) (op : Text) (since : Int) (f : Operator) :
    (r.register op since f).versionsOf op = place since f (r.versionsOf op) := by
  simp only [versionsOf, register, Dict.get?_insert_self, Option.getD_some]

theorem versionsOf_register_other (r : Registry) {op other : Text} (h : other ≠ op) (since : Int)
    (f : Operator) : (r.register op since f).versionsOf other = r.versionsOf other := by
  simp only [versionsOf, register, Dict.get?_insert_other _ h]

/-- The registry holds what the history says. -/
structure Represents (calls : List Registration) (r : Registry) : Prop where
  increasing : ∀ op, Increasing (r.versionsOf op)
  holds : ∀ op since f, (since, f) ∈ r.versionsOf op ↔ Latest calls op since f
  nodup : r.versions.keys.Nodup
  keys : ∀ op, op ∈ r.versions.keys ↔ ∃ since, Registered calls op since

theorem represents_empty : Represents [] empty where
  increasing _ := List.Pairwise.nil
  holds op since f := by
    refine ⟨fun h => ?_, fun h => ?_⟩
    · cases h
    · obtain ⟨c, hc, -⟩ := h.registered
      cases hc
  nodup := List.nodup_nil
  keys op := by simp [empty, Dict.keys, Registered]

/-- **The step:** a registration is represented beside those before it. -/
theorem Represents.register (h : Represents calls r) (c : Registration) :
    Represents (calls ++ [c]) (r.register c.op c.since c.function) where
  increasing op := by
    by_cases ho : op = c.op
    · subst ho
      rw [versionsOf_register_self]
      exact (h.increasing c.op).place c.since c.function
    · rw [versionsOf_register_other r ho]
      exact h.increasing op
  holds op since f := by
    rw [latest_append]
    by_cases ho : op = c.op
    · subst ho
      rw [versionsOf_register_self, mem_place_iff (h.increasing c.op), h.holds]
      obtain ⟨cop, csince, cf⟩ := c
      simp [and_comm, eq_comm]
    · rw [versionsOf_register_other r ho, h.holds]
      obtain ⟨cop, csince, cf⟩ := c
      simp [Ne.symm ho]
  nodup := by
    rw [Registry.register, Dict.keys_insert]
    exact Text.nodup_addNew _ h.nodup
  keys op := by
    rw [Registry.register, Dict.keys_insert, Text.mem_addNew, h.keys]
    simp only [registered_append, exists_or, exists_and_left, exists_eq', and_true]
    exact or_congr_right eq_comm

/-- **The run:** a registry represents the registrations that made it. -/
theorem represents_ofHistory (calls : List Registration) : Represents calls (ofHistory calls) := by
  induction calls using List.reverseRecOn with
  | nil => exact represents_empty
  | append_singleton calls c ih =>
    rw [ofHistory_append]
    exact ih.register c

/-! ## Selection -/

/-- The versions that a lookup chooses from. -/
def candidates (r : Registry) (op : Text) (opset : Int) : List (Int × Operator) :=
  if opset ≤ 0 then r.versionsOf op else (r.versionsOf op).filter (·.1 ≤ opset)

theorem lookup_eq (r : Registry) (op : Text) (opset : Int) :
    r.lookup op opset = (r.candidates op opset).getLast?.map Prod.snd := rfl

theorem Represents.increasing_candidates (h : Represents calls r) (op : Text) (opset : Int) :
    Increasing (r.candidates op opset) := by
  unfold candidates
  split
  · exact h.increasing op
  · exact (h.increasing op).filter _

theorem Represents.mem_candidates (h : Represents calls r) :
    (since, f) ∈ r.candidates op opset ↔ Latest calls op since f ∧ (opset ≤ 0 ∨ since ≤ opset) := by
  unfold candidates
  split
  · next hopset => simp [h.holds, hopset]
  · next hopset => simp [h.holds, hopset]

/-- A lookup finds the last function of the greatest version it can take. -/
theorem Represents.lookup_eq_some (h : Represents calls r) :
    r.lookup op opset = some f ↔
      ∃ since, IsGreatest {v | Eligible calls op opset v} since ∧ Latest calls op since f := by
  rw [lookup_eq, Option.map_eq_some_iff]
  simp only [Prod.exists, exists_eq_right, (h.increasing_candidates op opset).getLast?]
  refine exists_congr fun since => ⟨?_, ?_⟩
  · rintro ⟨hmem, hmax⟩
    obtain ⟨hlatest, hle⟩ := h.mem_candidates.mp hmem
    refine ⟨⟨⟨hlatest.registered, hle⟩, ?_⟩, hlatest⟩
    rintro v ⟨hv, hvle⟩
    obtain ⟨g, hg⟩ := hv.latest
    exact hmax (v, g) (h.mem_candidates.mpr ⟨hg, hvle⟩)
  · rintro ⟨⟨⟨-, hle⟩, hmax⟩, hlatest⟩
    refine ⟨h.mem_candidates.mpr ⟨hlatest, hle⟩, fun q hq => ?_⟩
    obtain ⟨hq, hqle⟩ := h.mem_candidates.mp hq
    exact hmax ⟨hq.registered, hqle⟩

theorem Represents.lookup_eq_none (h : Represents calls r) :
    r.lookup op opset = none ↔ ∀ since, ¬ Eligible calls op opset since := by
  rw [lookup_eq, Option.map_eq_none_iff, List.getLast?_eq_none_iff, List.eq_nil_iff_forall_not_mem]
  constructor
  · rintro hnone since ⟨hregistered, hle⟩
    obtain ⟨f, hf⟩ := hregistered.latest
    exact hnone (since, f) (h.mem_candidates.mpr ⟨hf, hle⟩)
  · rintro hnone ⟨since, f⟩ hmem
    obtain ⟨hlatest, hle⟩ := h.mem_candidates.mp hmem
    exact hnone since ⟨hlatest.registered, hle⟩

theorem lookup_ofHistory_filter (calls : List Registration) (op : Text) (opset : Int) :
    (ofHistory (calls.filter fun c => c.op = op)).lookup op opset = (ofHistory calls).lookup op opset := by
  have hversions : (ofHistory (calls.filter fun c => c.op = op)).versionsOf op =
      (ofHistory calls).versionsOf op := by
    induction calls using List.reverseRecOn with
    | nil => rfl
    | append_singleton calls c ih =>
      rw [List.filter_append, ofHistory_append]
      by_cases hc : c.op = op
      · subst hc
        rw [List.filter_cons_of_pos (by simp), List.filter_nil, ofHistory_append,
          versionsOf_register_self, versionsOf_register_self, ih]
      · rw [List.filter_cons_of_neg (by simpa using hc), List.filter_nil, List.append_nil,
          versionsOf_register_other _ (Ne.symm hc), ih]
  simp only [lookup_eq, candidates, hversions]

/-- What can be asked of a registry, told from the registrations that made it. -/
structure Selection (calls : List Registration) (r : Registry) : Prop where
  found : ∀ op opset f, r.lookup op opset = some f ↔
    ∃ since, IsGreatest {v | Eligible calls op opset v} since ∧ Latest calls op since f
  missing : ∀ op opset, r.lookup op opset = none ↔ ∀ since, ¬ Eligible calls op opset since
  /-- The operators are in order, each once. -/
  ordered : r.ops.Pairwise Text.Precedes
  listed : ∀ op, op ∈ r.ops ↔ ∃ since, Registered calls op since
  /-- What is registered for other operators does not matter. -/
  separate : ∀ op opset,
    r.lookup op opset = (ofHistory (calls.filter fun c => c.op = op)).lookup op opset

/-- **A lookup selects by the registrations**, whatever they were. -/
theorem selection_ofHistory (calls : List Registration) : Selection calls (ofHistory calls) := by
  have h := represents_ofHistory calls
  refine ⟨fun _ _ _ => h.lookup_eq_some, fun _ _ => h.lookup_eq_none, Text.increasing_sort h.nodup,
    fun op => ?_, fun op opset => (lookup_ofHistory_filter calls op opset).symm⟩
  rw [ops, Text.mem_sort]
  exact h.keys op

end ShapeFlow.Registry
