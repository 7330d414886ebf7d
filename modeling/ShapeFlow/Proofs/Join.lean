/-
What a merge computes and what it reports. The information after it is a join in which what
was inferred comes first (`TensorInfo.join`). It reports a change just when the element type
or the shape is another one, names aside, and a conflict just when something known was
replaced by something else (`ValueState.joins_merge`).
-/
import ShapeFlow.Proofs.Names

namespace ShapeFlow

/-! ## The join -/

def Dim.join (current inferred : Dim) : Dim := if inferred.isKnown then inferred else current

/-- An inferred shape of another rank is taken as it stands. -/
def Shape?.join (current inferred : Shape?) : Shape? :=
  match current, inferred with
  | _, none => current
  | none, some t => some t
  | some s, some t => if s.length = t.length then some (List.zipWith Dim.join s t) else some t

def TensorInfo.join (current inferred : TensorInfo) : TensorInfo :=
  ⟨inferred.element.or current.element, Shape?.join current.shape inferred.shape⟩

theorem ElementType.value_merge (current inferred : Option ElementType) :
    (merge current inferred).value = inferred.or current := by
  cases inferred with
  | none => rfl
  | some t =>
    by_cases h : some t = current
    · simp [merge, h]
    · simp [merge, h]

theorem Dim.value_merge (d e : Dim) : (d.merge e).value = d.join e := by
  cases e with
  | unknown name => rfl
  | known n =>
    cases d with
    | unknown name => rfl
    | known m =>
      by_cases h : m = n
      · simp [merge, join, isKnown, h]
      · simp [merge, join, isKnown, h]

theorem Shape.value_merge {s t : Shape} (h : s.length = t.length) :
    (merge s t).value = List.zipWith Dim.join s t := by
  induction s generalizing t with
  | nil => rfl
  | cons d s ih =>
    cases t with
    | nil => simp at h
    | cons e t =>
      have hrest : s.length = t.length := by simpa using h
      simp only [merge, Merged.pair, Dim.value_merge, ih hrest, List.zipWith_cons_cons]

theorem Shape?.value_merge (current inferred : Shape?) :
    (merge current inferred).value = join current inferred := by
  cases inferred with
  | none => cases current <;> rfl
  | some t =>
    cases current with
    | none => rfl
    | some s =>
      by_cases h : s.length = t.length
      · simp [merge, join, h, Merged.map, Shape.value_merge h]
      · simp [merge, join, h]

theorem TensorInfo.value_merge (current inferred : TensorInfo) :
    (current.merge inferred).value = current.join inferred := by
  simp only [merge, join, Merged.pair, ElementType.value_merge, Shape?.value_merge]

/-! ## What is reported -/

/-- The element type is the same, and the shape but for names. -/
def TensorInfo.Agrees (a b : TensorInfo) : Prop :=
  a.element = b.element ∧ Shape?.agrees a.shape b.shape = true

theorem TensorInfo.agrees_refl (t : TensorInfo) : t.Agrees t := ⟨rfl, Shape?.agrees_iff.mpr rfl⟩

def ElementType.Replaced (before after : Option ElementType) : Prop :=
  ∃ e, before = some e ∧ after ≠ some e

def Dim.Replaced (before after : Dim) : Prop := ∃ n, before = .known n ∧ after ≠ .known n

/-- A known dimension is not there any more. -/
def Shape.Replaced (before after : Shape) : Prop :=
  ∃ (i : Nat) (n : Int64), before[i]? = some (.known n) ∧ after[i]? ≠ some (.known n)

/-- A known rank or a known dimension is not there any more. -/
def Shape?.Replaced (before after : Shape?) : Prop :=
  ∃ s, before = some s ∧ ∀ t, after = some t → s.length ≠ t.length ∨ Shape.Replaced s t

def TensorInfo.Replaced (before after : TensorInfo) : Prop :=
  ElementType.Replaced before.element after.element ∨ Shape?.Replaced before.shape after.shape

/-- A merge into a value tells whether it is another one and whether something was replaced. -/
structure Merged.Reports {α : Type} (Same Replaced : α → α → Prop) (before : α) (m : Merged α) :
    Prop where
  same : Same m.value before → m.changed = false
  kept : m.changed = false → m.value = before
  conflict : m.conflict = true ↔ Replaced before m.value

section Reports

variable {α β γ : Type} {Same Replaced : α → α → Prop}

theorem Merged.reports_refl {a : α} (h : ¬Replaced a a) :
    Reports Same Replaced a { value := a } where
  same _ := rfl
  kept _ := rfl
  conflict := by simpa using h

theorem Merged.reports_change {a b : α} {conflict : Bool} (hsame : ¬Same b a)
    (hconflict : conflict = true ↔ Replaced a b) :
    Reports Same Replaced a { value := b, changed := true, conflict := conflict } where
  same h := absurd h hsame
  kept h := by cases h
  conflict := hconflict

/-- **The step:** what is made of two parts is reported by the reports of both. -/
theorem Merged.Reports.pair {SameB ReplacedB : β → β → Prop} {SameC ReplacedC : γ → γ → Prop}
    {f : α → β → γ} {a : α} {b : β} {m : Merged α} {n : Merged β}
    (hm : m.Reports Same Replaced a) (hn : n.Reports SameB ReplacedB b)
    (hsame : SameC (f m.value n.value) (f a b) → Same m.value a ∧ SameB n.value b)
    (hreplaced : ReplacedC (f a b) (f m.value n.value) ↔
      Replaced a m.value ∨ ReplacedB b n.value) :
    (Merged.pair f m n).Reports SameC ReplacedC (f a b) where
  same h := by
    obtain ⟨ha, hb⟩ := hsame h
    simp [Merged.pair, hm.same ha, hn.same hb]
  kept h := by
    obtain ⟨ha, hb⟩ : m.changed = false ∧ n.changed = false := by simpa [Merged.pair] using h
    simp [Merged.pair, hm.kept ha, hn.kept hb]
  conflict := by
    rw [Merged.pair, hreplaced, ← hm.conflict, ← hn.conflict, Bool.or_eq_true]

end Reports

theorem ElementType.reports_merge (current inferred : Option ElementType) :
    (merge current inferred).Reports Eq Replaced current := by
  unfold merge
  split
  · exact Merged.reports_refl (by simp [Replaced])
  · next h =>
    have hother : inferred ≠ current := by simp_all
    refine Merged.reports_change hother ?_
    cases current with
    | none => simp [Replaced]
    | some e => simpa [Replaced] using hother

theorem Dim.not_replaced_self (d : Dim) : ¬d.Replaced d := by
  rintro ⟨n, hbefore, hafter⟩
  exact hafter hbefore

theorem Dim.reports_merge (d e : Dim) :
    (d.merge e).Reports (fun a b => a.agrees b = true) Replaced d := by
  cases e with
  | unknown name => exact Merged.reports_refl d.not_replaced_self
  | known n =>
    cases d with
    | unknown name =>
      exact Merged.reports_change (by simp [agrees, size?]) (by simp [Replaced])
    | known m =>
      by_cases h : m = n
      · rw [merge, if_pos h]
        exact Merged.reports_refl (not_replaced_self _)
      · rw [merge, if_neg h]
        refine Merged.reports_change ?_ ?_
        · simpa [agrees, size?] using Ne.symm h
        · simpa [Replaced] using Ne.symm h

namespace Shape

theorem not_replaced_self (s : Shape) : ¬Replaced s s := by
  rintro ⟨i, n, hbefore, hafter⟩
  exact hafter hbefore

theorem replaced_cons {d e : Dim} {s t : Shape} :
    Replaced (d :: s) (e :: t) ↔ d.Replaced e ∨ Replaced s t := by
  constructor
  · rintro ⟨i, n, hbefore, hafter⟩
    cases i with
    | zero => exact .inl ⟨n, by simpa using hbefore, by simpa using hafter⟩
    | succ i => exact .inr ⟨i, n, by simpa using hbefore, by simpa using hafter⟩
  · rintro (⟨n, rfl, hafter⟩ | ⟨i, n, hbefore, hafter⟩)
    · exact ⟨0, n, rfl, by simpa using hafter⟩
    · exact ⟨i + 1, n, by simpa using hbefore, by simpa using hafter⟩

/-- **The run:** the dimensions one after the other. -/
theorem reports_merge (s t : Shape) :
    (merge s t).Reports (fun a b => agrees a b = true) Replaced s := by
  induction s generalizing t with
  | nil => exact Merged.reports_refl (not_replaced_self [])
  | cons d s ih =>
    cases t with
    | nil => exact Merged.reports_refl (not_replaced_self (d :: s))
    | cons e t =>
      exact (Dim.reports_merge d e).pair (ih t) (by simp [agrees]) replaced_cons

end Shape

theorem Shape?.not_replaced_self (s : Shape?) : ¬Replaced s s := by
  rintro ⟨s, rfl, h⟩
  rcases h s rfl with hrank | hdim
  · exact hrank rfl
  · exact Shape.not_replaced_self s hdim

theorem Shape.length_of_agrees {s t : Shape} (h : agrees s t = true) : s.length = t.length := by
  rw [← length_bare s, ← length_bare t, agrees_iff.mp h]

theorem Shape?.reports_merge (current inferred : Shape?) :
    (merge current inferred).Reports (fun a b => agrees a b = true) Replaced current := by
  cases inferred with
  | none =>
    cases current with
    | none => exact Merged.reports_refl (not_replaced_self none)
    | some s => exact Merged.reports_refl (not_replaced_self (some s))
  | some t =>
    cases current with
    | none => exact Merged.reports_change (by simp [agrees]) (by simp [Replaced])
    | some s =>
      by_cases h : s.length = t.length
      · obtain ⟨hsame, hkept, hconflict⟩ := Shape.reports_merge s t
        have hlength := Shape.length_merge s t
        rw [merge, if_pos h]
        refine ⟨hsame, fun hchanged => congrArg some (hkept hchanged), ?_⟩
        -- of one rank, so that only a dimension can be replaced
        simp [Merged.map, Replaced, hconflict, hlength]
      · rw [merge, if_neg h]
        refine Merged.reports_change (fun hagrees => h (Shape.length_of_agrees hagrees).symm) ?_
        simp [Replaced, h]

theorem TensorInfo.reports_merge (current inferred : TensorInfo) :
    (current.merge inferred).Reports Agrees Replaced current :=
  Merged.Reports.pair (f := TensorInfo.mk)
    (ElementType.reports_merge current.element inferred.element)
    (Shape?.reports_merge current.shape inferred.shape) id Iff.rfl

/-! ## Values -/

namespace ValueState

/-- A value that takes in what was inferred, and what is told of it. -/
structure Joins (v : ValueState) (inferred : TensorInfo?) (m : Merged ValueState) : Prop where
  /-- An authoritative value stays as it is, and so does any if nothing was inferred. -/
  fixed : v.provenance.isAuthoritative = true ∨ inferred = none → m = ⟨v, false, false⟩
  info : v.provenance.isAuthoritative = false → ∀ t, inferred = some t →
    m.value.info = v.info.join t
  changed : m.changed = true ↔ ¬m.value.info.Agrees v.info
  provenance : m.changed = true → m.value.provenance = .inferred
  unchanged : m.changed = false → m.value = v
  conflict : m.conflict = true ↔ v.info.Replaced m.value.info
  again : m.value.merge inferred = ⟨m.value, false, false⟩

theorem merge_of_fixed {v : ValueState} {inferred : TensorInfo?}
    (h : v.provenance.isAuthoritative = true ∨ inferred = none) :
    v.merge inferred = ⟨v, false, false⟩ := by
  rcases h with hauth | rfl
  · cases inferred with
    | none => rfl
    | some t => simp [merge, hauth]
  · rfl

theorem merge_some {v : ValueState} (h : v.provenance.isAuthoritative = false) (t : TensorInfo) :
    v.merge (some t) = (v.info.merge t).map fun info =>
      ⟨info, if (v.info.merge t).changed then .inferred else v.provenance⟩ := by
  simp [merge, h]

/-- A merge reports what became of the information. -/
theorem reports_merge (v : ValueState) (inferred : TensorInfo?) :
    ((v.merge inferred).map info).Reports TensorInfo.Agrees TensorInfo.Replaced v.info := by
  by_cases h : v.provenance.isAuthoritative = true ∨ inferred = none
  · rw [merge_of_fixed h]
    refine Merged.reports_refl ?_
    rintro (⟨e, hbefore, hafter⟩ | hshape)
    · exact hafter hbefore
    · exact Shape?.not_replaced_self _ hshape
  · obtain ⟨hauth, hsome⟩ := not_or.mp h
    obtain ⟨t, rfl⟩ := Option.ne_none_iff_exists'.mp hsome
    rw [merge_some (eq_false_of_ne_true hauth)]
    exact TensorInfo.reports_merge v.info t

/-- The provenance is kept, or the value is an inferred one. -/
theorem provenance_of_merge (v : ValueState) (inferred : TensorInfo?) :
    (v.merge inferred).value.provenance =
      if (v.merge inferred).changed then .inferred else v.provenance := by
  by_cases h : v.provenance.isAuthoritative = true ∨ inferred = none
  · rw [merge_of_fixed h]
    rfl
  · obtain ⟨hauth, hsome⟩ := not_or.mp h
    obtain ⟨t, rfl⟩ := Option.ne_none_iff_exists'.mp hsome
    rw [merge_some (eq_false_of_ne_true hauth)]
    rfl

/-- **A merge is a join and reports exactly what it did.** -/
theorem joins_merge (v : ValueState) (inferred : TensorInfo?) :
    v.Joins inferred (v.merge inferred) := by
  obtain ⟨hsame, hkept, hconflict⟩ := reports_merge v inferred
  have hprovenance := provenance_of_merge v inferred
  refine ⟨merge_of_fixed, ?_, ?_, ?_, ?_, hconflict, merge_merge v inferred⟩
  · rintro hauth t rfl
    rw [merge_some hauth, ← TensorInfo.value_merge]
    rfl
  · constructor
    · intro hchanged hagrees
      have hunchanged : (v.merge inferred).changed = false := hsame hagrees
      simp [hchanged] at hunchanged
    · intro hother
      by_contra hunchanged
      have hinfo : (v.merge inferred).value.info = v.info := hkept (eq_false_of_ne_true hunchanged)
      apply hother
      rw [hinfo]
      exact v.info.agrees_refl
  · intro hchanged
    rw [hprovenance, if_pos hchanged]
  · intro hunchanged
    have hinfo : (v.merge inferred).value.info = v.info := hkept hunchanged
    rw [hunchanged] at hprovenance
    generalize (v.merge inferred).value = w at hinfo hprovenance
    obtain ⟨info, provenance⟩ := w
    obtain rfl : info = v.info := hinfo
    obtain rfl : provenance = v.provenance := hprovenance
    rfl

end ValueState

end ShapeFlow
