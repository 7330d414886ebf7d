/-
Texts in order, and numbers in texts. The byte order is a linear order (`le_total`,
`le_trans`, `le_antisymm`), so texts that are all different are strictly increasing
once they are sorted (`increasing_sort`). A number that stands after the last `#` of a
text can be told from the text (`numbered_inj`).
-/
import ShapeFlow.Text

namespace ShapeFlow.Text

/-! ## The byte order -/

theorem bytesLe_total (as bs : List UInt8) : bytesLe as bs = true ∨ bytesLe bs as = true := by
  fun_induction bytesLe as bs with
  | case1 bs => exact .inl rfl
  | case2 a as => exact .inr rfl
  | case3 a as b bs ih =>
    simp only [bytesLe, Bool.or_eq_true, Bool.and_eq_true, decide_eq_true_eq, beq_iff_eq]
    by_cases hab : a = b
    · exact ih.imp (fun h => .inr ⟨hab, h⟩) fun h => .inr ⟨hab.symm, h⟩
    · exact (UInt8.lt_or_lt_of_ne hab).imp .inl .inl

theorem bytesLe_trans {as bs cs : List UInt8} (h : bytesLe as bs = true) (h' : bytesLe bs cs = true) :
    bytesLe as cs = true := by
  induction as generalizing bs cs with
  | nil => rfl
  | cons a as ih =>
    cases bs with
    | nil => cases h
    | cons b bs =>
      cases cs with
      | nil => cases h'
      | cons c cs =>
        simp only [bytesLe, Bool.or_eq_true, Bool.and_eq_true, decide_eq_true_eq, beq_iff_eq] at h h' ⊢
        rcases h with hab | ⟨rfl, h⟩
        · rcases h' with hbc | ⟨rfl, -⟩
          · exact .inl (UInt8.lt_trans hab hbc)
          · exact .inl hab
        · exact h'.imp_right fun h' => ⟨h'.1, ih h h'.2⟩

theorem bytesLe_antisymm {as bs : List UInt8} (h : bytesLe as bs = true) (h' : bytesLe bs as = true) :
    as = bs := by
  induction as generalizing bs with
  | nil =>
    cases bs with
    | nil => rfl
    | cons b bs => cases h'
  | cons a as ih =>
    cases bs with
    | nil => cases h
    | cons b bs =>
      simp only [bytesLe, Bool.or_eq_true, Bool.and_eq_true, decide_eq_true_eq, beq_iff_eq] at h h'
      rcases h with hab | ⟨rfl, h⟩
      · rcases h' with hba | ⟨rfl, -⟩
        · exact absurd hba (UInt8.lt_asymm hab)
        · exact absurd hab (UInt8.lt_irrefl _)
      · rcases h' with haa | ⟨-, h'⟩
        · exact absurd haa (UInt8.lt_irrefl _)
        · rw [ih h h']

theorem le_total (a b : Text) : a.le b = true ∨ b.le a = true := bytesLe_total a.bytes b.bytes

theorem le_trans {a b c : Text} (h : a.le b = true) (h' : b.le c = true) : a.le c = true :=
  bytesLe_trans h h'

theorem le_antisymm {a b : Text} (h : a.le b = true) (h' : b.le a = true) : a = b :=
  congrArg Text.mk (bytesLe_antisymm h h')

/-- The text comes before another one. -/
def Precedes (a b : Text) : Prop := a.le b = true ∧ a ≠ b

/-- At the first difference the smaller byte decides. -/
theorem precedes_iff {a b : Text} : Precedes a b ↔ a.bytes < b.bytes := by
  suffices h : ∀ as bs : List UInt8, bytesLe as bs = true ∧ as ≠ bs ↔ as < bs by
    rw [← h, Precedes, le]
    exact and_congr_right fun _ => not_congr ⟨fun he => he ▸ rfl, fun he => congrArg Text.mk he⟩
  intro as
  induction as with
  | nil =>
    intro bs
    cases bs with
    | nil => simp
    | cons b bs => simp [bytesLe]
  | cons a as ih =>
    intro bs
    cases bs with
    | nil => simp [bytesLe]
    | cons b bs =>
      simp only [bytesLe, Bool.or_eq_true, Bool.and_eq_true, decide_eq_true_eq, beq_iff_eq,
        List.cons_lt_cons_iff, ← ih bs]
      by_cases hab : a = b
      · subst hab
        simp [UInt8.lt_irrefl]
      · simp [hab]

theorem mem_sort {t : Text} {ts : List Text} : t ∈ sort ts ↔ t ∈ ts :=
  (List.mergeSort_perm ts le).mem_iff

/-- Texts that are all different are strictly increasing once they are sorted. -/
theorem increasing_sort {ts : List Text} (h : ts.Nodup) : (sort ts).Pairwise Precedes := by
  have hsorted : (sort ts).Pairwise fun a b => a.le b = true :=
    List.pairwise_mergeSort (fun a b c => @le_trans a b c)
      (fun a b => (Bool.or_eq_true _ _).mpr (le_total a b)) ts
  have hnodup : (sort ts).Nodup := (List.mergeSort_perm ts le).nodup_iff.mpr h
  exact hsorted.and hnodup

/-! ## Numbers -/

theorem ofNat_inj {m n : Nat} : ofNat m = ofNat n ↔ m = n := by
  refine ⟨fun h => ?_, fun h => h ▸ rfl⟩
  have hdigits : m.repr = n.repr := ofString_inj.mp h
  rw [Nat.repr_eq_ofList_toDigits, Nat.repr_eq_ofList_toDigits, String.ofList_inj] at hdigits
  rw [← Nat.ofDigitChars_toDigits (b := 10) (n := m) (by decide) (by decide), hdigits,
    Nat.ofDigitChars_toDigits (by decide) (by decide)]

theorem code_of_isDigit {c : Char} (h : c.isDigit = true) : 48 ≤ c.val.toNat ∧ c.val.toNat ≤ 57 := by
  simp only [Char.isDigit, ge_iff_le, Bool.and_eq_true, decide_eq_true_eq, UInt32.le_iff_toNat_le] at h
  exact h

theorem utf8EncodeChar_of_isDigit {c : Char} (h : c.isDigit = true) :
    String.utf8EncodeChar c = [c.val.toUInt8] ∧ 0x30 ≤ c.val.toUInt8 ∧ c.val.toUInt8 ≤ 0x39 := by
  have h := code_of_isDigit h
  refine ⟨String.utf8EncodeChar_eq_singleton (Char.utf8Size_eq_one_iff.mpr ?_), ?_, ?_⟩
  · exact UInt32.le_iff_toNat_le.mpr (Nat.le_trans h.2 (by decide))
  all_goals
    rw [UInt8.le_iff_toNat_le, UInt32.toNat_toUInt8, Nat.mod_eq_of_lt (by omega)]
  · exact h.1
  · exact h.2

theorem ofNat_eq_ofChars (n : Nat) : ofNat n = ofChars (Nat.toDigits 10 n) := by
  simp only [ofNat, ofString, ofChars, Nat.repr_eq_ofList_toDigits, String.toByteArray_ofList,
    List.utf8Encode, List.data_toByteArray]

/-- A decimal number is made of digits. -/
theorem digit_of_mem_ofNat {n : Nat} {b : UInt8} (h : b ∈ (ofNat n).bytes) : 0x30 ≤ b ∧ b ≤ 0x39 := by
  rw [ofNat_eq_ofChars] at h
  obtain ⟨c, hc, hb⟩ := List.mem_flatMap.mp h
  have hdigit := utf8EncodeChar_of_isDigit (Nat.isDigit_of_mem_toDigits (by decide) (by decide) hc)
  rw [hdigit.1, List.mem_singleton] at hb
  exact hb ▸ hdigit.2

/-- Lists are cut in the same way after the last place of an element. -/
theorem cut_inj {as bs xs ys : List UInt8} {c : UInt8} (hx : c ∉ xs) (hy : c ∉ ys)
    (h : as ++ c :: xs = bs ++ c :: ys) : as = bs ∧ xs = ys := by
  rcases List.append_eq_append_iff.mp h with ⟨cs, rfl, hrest⟩ | ⟨cs, rfl, hrest⟩
  · cases cs with
    | nil => simpa using hrest
    | cons d cs =>
      simp only [List.cons_append, List.cons.injEq] at hrest
      exact absurd (hrest.2 ▸ List.mem_append_right cs List.mem_cons_self) hx
  · cases cs with
    | nil => simpa using hrest.symm
    | cons d cs =>
      simp only [List.cons_append, List.cons.injEq] at hrest
      exact absurd (hrest.2 ▸ List.mem_append_right cs List.mem_cons_self) hy

/-- A text with a number after a mark. -/
def numbered (t : Text) (n : Nat) : Text := t ++ "#" ++ ofNat n

/-- The number that stands after the last mark can be told from the text. -/
theorem numbered_inj {s t : Text} {m n : Nat} (h : s.numbered m = t.numbered n) : s = t ∧ m = n := by
  have hmark : ∀ k, (0x23 : UInt8) ∉ (ofNat k).bytes := fun k hk =>
    absurd (digit_of_mem_ofNat hk).1 (by decide)
  have hbytes : s.bytes ++ 0x23 :: (ofNat m).bytes = t.bytes ++ 0x23 :: (ofNat n).bytes := by
    have hsign : (ofString "#").bytes = [0x23] := by decide
    have := congrArg Text.bytes h
    simpa [numbered, append_bytes, hsign] using this
  obtain ⟨hst, hmn⟩ := cut_inj (hmark m) (hmark n) hbytes
  exact ⟨congrArg Text.mk hst, ofNat_inj.mp (congrArg Text.mk hmn)⟩

end ShapeFlow.Text
