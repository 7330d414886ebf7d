/-
What a registry holds. A property that every registered function has, for the
operator it is registered for, is a property of whatever a lookup finds
(`Holds.lookup`). In the standard registry a lookup finds the function of a
standard rule for that operator (`lookup_standard`).
-/
import ShapeFlow.Registry

namespace ShapeFlow.Registry

/-- Every function has the property, for the operator it is registered for. -/
def Holds (P : Text → Operator → Prop) (r : Registry) : Prop :=
  ∀ op, ∀ p ∈ (r.versions.get? op).getD [], P op p.2

theorem mem_place {since : Int} {f : Operator} {versions : List (Int × Operator)} {p : Int × Operator}
    (h : p ∈ place since f versions) : p = (since, f) ∨ p ∈ versions := by
  induction versions with
  | nil => exact .inl (List.mem_singleton.mp h)
  | cons q versions ih =>
    obtain ⟨v, g⟩ := q
    simp only [place] at h
    split at h
    · rcases List.mem_cons.mp h with rfl | h
      · exact .inr List.mem_cons_self
      · exact (ih h).imp_right (List.mem_cons_of_mem _)
    · split at h
      · exact (List.mem_cons.mp h).imp_right (List.mem_cons_of_mem _)
      · exact List.mem_cons.mp h

variable {P : Text → Operator → Prop} {r : Registry}

theorem holds_empty : Holds P empty := by
  intro op p hp
  cases hp

theorem Holds.register (h : r.Holds P) {op : Text} {f : Operator} (hf : P op f) (since : Int) :
    (r.register op since f).Holds P := by
  intro op' p hp
  by_cases ho : op' = op
  · subst ho
    simp only [Registry.register, Dict.get?_insert_self, Option.getD_some] at hp
    rcases mem_place hp with rfl | hp
    · exact hf
    · exact h op' p hp
  · rw [Registry.register, Dict.get?_insert_other _ ho] at hp
    exact h op' p hp

theorem Holds.lookup (h : r.Holds P) {op : Text} {opset : Int} {f : Operator}
    (hf : r.lookup op opset = some f) : P op f := by
  simp only [Registry.lookup, Option.map_eq_some_iff] at hf
  obtain ⟨p, hp, rfl⟩ := hf
  refine h op p ?_
  have hmem := List.mem_of_getLast? hp
  split at hmem
  · exact hmem
  · exact (List.mem_filter.mp hmem).1

/-- The function is that of a standard rule for the operator. -/
def IsStandard (op : Text) (f : Operator) : Prop :=
  ∃ since rule, (op, since, rule) ∈ standardRules ∧ f = ⟨rule.infer op, false⟩

theorem holds_standard : standard.Holds IsStandard := by
  unfold standard
  refine List.foldlRecOn standardRules _ holds_empty fun r h e he => ?_
  obtain ⟨op, since, rule⟩ := e
  exact h.register ⟨since, rule, he, rfl⟩ since

/-- **A lookup in the standard registry finds a standard rule.** -/
theorem lookup_standard {op : Text} {opset : Int} {f : Operator}
    (h : standard.lookup op opset = some f) :
    ∃ since rule, (op, since, rule) ∈ standardRules ∧ f = ⟨rule.infer op, false⟩ :=
  holds_standard.lookup h

end ShapeFlow.Registry
