/-
The order of information. What is known of one tensor is below what is known of
another when the other knows all of it: an unknown element type, rank or dimension
is below everything, and a known one below itself alone. The names of unknown
dimensions do not count.

`ValueState.merge_below`: what two things below a bound merge to is below it.
`ValueState.below_merge`: a merge without a conflict loses nothing.
`ValueState.inferred_below_merge`: what was inferred is known after the merge.
-/
import Mathlib.Data.List.Forall2
import ShapeFlow.Proofs.Merge

namespace ShapeFlow

inductive Dim.Below : Dim → Dim → Prop
  | unknown {name : Text} {d : Dim} : Below (.unknown name) d
  | known {n : Int64} : Below (.known n) (.known n)

/-- Of one rank, and each dimension below its counterpart. -/
def Shape.Below : Shape → Shape → Prop := List.Forall₂ Dim.Below

structure TensorInfo.Below (a b : TensorInfo) : Prop where
  element : Option.le Eq a.element b.element
  shape : Option.le Shape.Below a.shape b.shape

/-- No information at all counts as information in which nothing is known. -/
def TensorInfo?.Below (a b : TensorInfo?) : Prop := TensorInfo.Below (a.getD {}) (b.getD {})

/-! ## An order -/

section Lifted

variable {α : Type} {R : α → α → Prop}

theorem le_of_none (b : Option α) : Option.le R none b := by
  cases b <;> trivial

theorem le_of_refl (h : ∀ a, R a a) (a : Option α) : Option.le R a a := by
  cases a with
  | none => trivial
  | some a => exact h a

theorem le_of_trans (h : ∀ a b c, R a b → R b c → R a c) {a b c : Option α}
    (hab : Option.le R a b) (hbc : Option.le R b c) : Option.le R a c := by
  cases a with
  | none => exact le_of_none c
  | some a =>
    cases b with
    | none => exact hab.elim
    | some b =>
      cases c with
      | none => exact hbc.elim
      | some c => exact h a b c hab hbc

/-- What is known below is known above. -/
theorem exists_of_le {a : α} {b : Option α} (h : Option.le R (some a) b) : ∃ c, b = some c ∧ R a c := by
  cases b with
  | none => exact h.elim
  | some c => exact ⟨c, rfl, h⟩

/-- Entries that are there are related, and so is what stands for missing ones. -/
theorem getD_forall₂ {l m : List α} (h : List.Forall₂ R l m) {d e : α} (hde : R d e) (i : Nat) :
    R (l.getD i d) (m.getD i e) := by
  induction h generalizing i with
  | nil => simpa using hde
  | cons hab _ ih =>
    cases i with
    | zero => exact hab
    | succ i => exact ih i

end Lifted

theorem Dim.Below.refl (d : Dim) : d.Below d := by
  cases d with
  | known n => exact .known
  | unknown name => exact .unknown

theorem Dim.Below.trans {c d e : Dim} (h : c.Below d) (h' : d.Below e) : c.Below e := by
  cases h with
  | unknown => exact .unknown
  | known => exact h'

theorem Shape.Below.refl (s : Shape) : Shape.Below s s :=
  List.forall₂_same.mpr fun d _ => .refl d

theorem Shape.Below.trans {s t u : Shape} (h : Shape.Below s t) (h' : Shape.Below t u) :
    Shape.Below s u := by
  induction h generalizing u with
  | nil => exact h'
  | cons hd _ ih =>
    cases h' with
    | cons he hrest => exact .cons (hd.trans he) (ih hrest)

theorem TensorInfo.Below.refl (a : TensorInfo) : a.Below a :=
  ⟨le_of_refl (fun _ => rfl) _, le_of_refl Shape.Below.refl _⟩

theorem TensorInfo.Below.trans {a b c : TensorInfo} (h : a.Below b) (h' : b.Below c) : a.Below c :=
  ⟨le_of_trans (R := Eq) (fun _ _ _ => .trans) h.element h'.element,
    le_of_trans (R := Shape.Below) (fun _ _ _ => .trans) h.shape h'.shape⟩

theorem TensorInfo.below_of_empty (b : TensorInfo) : TensorInfo.Below {} b :=
  ⟨le_of_none _, le_of_none _⟩

theorem TensorInfo?.below_of_none (b : TensorInfo?) : TensorInfo?.Below none b :=
  TensorInfo.below_of_empty _

/-- What is not informative counts as nothing. -/
theorem TensorInfo?.getD_filter (a : TensorInfo) :
    ((some a).filter TensorInfo.isInformative).getD {} = a := by
  obtain ⟨element, shape⟩ := a
  cases element <;> cases shape <;> rfl

/-! ## Merging -/

section Bound

theorem ElementType.merge_below {a t u : Option ElementType} (ha : Option.le Eq a u)
    (ht : Option.le Eq t u) : Option.le Eq (merge a t).value u := by
  unfold merge
  split
  · exact ha
  · exact ht

theorem Dim.merge_below {d e u : Dim} (hd : d.Below u) (he : e.Below u) : (d.merge e).value.Below u := by
  cases e with
  | unknown name => exact hd
  | known n =>
    cases d with
    | unknown name => exact he
    | known m =>
      simp only [merge]
      split
      · exact hd
      · exact he

theorem Shape.merge_below {s t u : Shape} (hs : Shape.Below s u) (ht : Shape.Below t u) :
    Shape.Below (merge s t).value u := by
  induction hs generalizing t with
  | nil => exact .nil
  | cons hd hrest ih =>
    cases ht with
    | cons he hrest' => exact .cons (Dim.merge_below hd he) (ih hrest')

theorem Shape?.merge_below {s t u : Shape?} (hs : Option.le Shape.Below s u)
    (ht : Option.le Shape.Below t u) : Option.le Shape.Below (merge s t).value u := by
  cases t with
  | none => cases s <;> exact hs
  | some t =>
    cases s with
    | none => exact ht
    | some s =>
      obtain ⟨u, rfl, hu⟩ := exists_of_le hs
      simp only [merge]
      split
      · exact Shape.merge_below hu ht
      · exact ht

theorem TensorInfo.merge_below {a t u : TensorInfo} (ha : a.Below u) (ht : t.Below u) :
    (a.merge t).value.Below u :=
  ⟨ElementType.merge_below ha.element ht.element, Shape?.merge_below ha.shape ht.shape⟩

end Bound

section Conflict

theorem ElementType.below_merge {a t : Option ElementType} (h : (merge a t).conflict = false) :
    Option.le Eq a (merge a t).value := by
  unfold merge at h ⊢
  split at h
  · next hsame =>
    rw [if_pos hsame]
    exact le_of_refl (fun _ => rfl) a
  · obtain rfl : a = none := by simpa using h
    exact le_of_none _

theorem Dim.below_merge {d e : Dim} (h : (d.merge e).conflict = false) : d.Below (d.merge e).value := by
  cases e with
  | unknown name => exact .refl d
  | known n =>
    cases d with
    | unknown name => exact .unknown
    | known m =>
      simp only [merge] at h ⊢
      split at h
      · next hsame =>
        rw [if_pos hsame]
        exact .refl _
      · cases h

theorem Shape.below_merge {s t : Shape} (h : (merge s t).conflict = false) :
    Shape.Below s (merge s t).value := by
  fun_induction merge s t with
  | case1 d s e t ih =>
    simp only [Merged.pair, Bool.or_eq_false_iff] at h
    exact .cons (Dim.below_merge h.1) (ih h.2)
  | case2 s t hno => exact .refl s

theorem Shape?.below_merge {s t : Shape?} (h : (merge s t).conflict = false) :
    Option.le Shape.Below s (merge s t).value := by
  cases s with
  | none => exact le_of_none _
  | some s =>
    cases t with
    | none => exact Shape.Below.refl s
    | some t =>
      simp only [merge] at h ⊢
      split at h
      · next hlen =>
        rw [if_pos hlen]
        exact Shape.below_merge h
      · cases h

theorem TensorInfo.below_merge {a t : TensorInfo} (h : (a.merge t).conflict = false) :
    a.Below (a.merge t).value := by
  simp only [merge, Merged.pair, Bool.or_eq_false_iff] at h
  exact ⟨ElementType.below_merge h.1, Shape?.below_merge h.2⟩

end Conflict

section Inferred

theorem ElementType.inferred_below_merge (a t : Option ElementType) :
    Option.le Eq t (merge a t).value := by
  unfold merge
  split
  · next h =>
    cases t with
    | none => exact le_of_none a
    | some t =>
      obtain rfl : some t = a := by simpa using h
      exact rfl
  · exact le_of_refl (fun _ => rfl) t

theorem Dim.inferred_below_merge (d e : Dim) : e.Below (d.merge e).value := by
  cases e with
  | unknown name => exact .unknown
  | known n =>
    cases d with
    | unknown name => exact .known
    | known m =>
      simp only [merge]
      split
      · next h => exact h ▸ .known
      · exact .known

theorem Shape.inferred_below_merge {s t : Shape} (h : s.length = t.length) :
    Shape.Below t (merge s t).value := by
  induction s generalizing t with
  | nil =>
    obtain rfl := List.length_eq_zero_iff.mp h.symm
    exact .nil
  | cons d s ih =>
    cases t with
    | nil => cases h
    | cons e t => exact .cons (Dim.inferred_below_merge d e) (ih (Nat.succ.inj h))

theorem Shape?.inferred_below_merge (s t : Shape?) : Option.le Shape.Below t (merge s t).value := by
  cases t with
  | none => exact le_of_none _
  | some t =>
    cases s with
    | none => exact Shape.Below.refl t
    | some s =>
      simp only [merge]
      split
      · next h => exact Shape.inferred_below_merge h
      · exact Shape.Below.refl t

theorem TensorInfo.inferred_below_merge (a t : TensorInfo) : t.Below (a.merge t).value :=
  ⟨ElementType.inferred_below_merge a.element t.element,
    Shape?.inferred_below_merge a.shape t.shape⟩

end Inferred

namespace ValueState

/-- **Merging stays below a common bound.** -/
theorem merge_below {v : ValueState} {inferred : TensorInfo?} {u : TensorInfo} (hv : v.info.Below u)
    (hi : TensorInfo?.Below inferred (some u)) : (v.merge inferred).value.info.Below u := by
  cases inferred with
  | none => exact hv
  | some t =>
    simp only [merge]
    split
    · exact hv
    · exact TensorInfo.merge_below hv hi

/-- **A merge without a conflict only adds.** -/
theorem below_merge {v : ValueState} {inferred : TensorInfo?} (h : (v.merge inferred).conflict = false) :
    v.info.Below (v.merge inferred).value.info := by
  cases inferred with
  | none => exact .refl _
  | some t =>
    simp only [merge] at h ⊢
    split at h
    · next ha =>
      rw [if_pos ha]
      exact .refl _
    · next ha =>
      rw [if_neg ha]
      exact TensorInfo.below_merge h

theorem merge_of_isAuthoritative {v : ValueState} (h : v.provenance.isAuthoritative = true)
    (inferred : TensorInfo?) : (v.merge inferred).value = v := by
  cases inferred with
  | none => rfl
  | some t => simp only [merge, h, if_true]

/-- A value that is not authoritative knows what was inferred. -/
theorem inferred_below_merge {v : ValueState} (h : v.provenance.isAuthoritative = false)
    (inferred : TensorInfo?) :
    TensorInfo?.Below inferred (some (v.merge inferred).value.info) := by
  cases inferred with
  | none => exact TensorInfo?.below_of_none _
  | some t =>
    simp only [merge, h, Bool.false_eq_true, if_false]
    exact TensorInfo.inferred_below_merge v.info t

end ValueState

end ShapeFlow
