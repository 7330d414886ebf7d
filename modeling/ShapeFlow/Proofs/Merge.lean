/-
Merging the same inference twice. A value that has taken in what was inferred
takes in nothing when that is merged again, also where the first merge replaced
a declared element type, rank or dimension (`ValueState.merge_merge`). So a value
does not change while its node infers the same.
-/
import ShapeFlow.Value

namespace ShapeFlow

theorem ElementType.merge_merge (current inferred : Option ElementType) :
    merge (merge current inferred).value inferred = { value := (merge current inferred).value } := by
  cases inferred with
  | none => rfl
  | some t =>
    by_cases h : some t = current
    · simp [merge, h]
    · simp [merge, h]

theorem Dim.merge_self (d : Dim) : d.merge d = { value := d } := by
  cases d <;> simp [merge]

theorem Dim.merge_merge (d e : Dim) : (d.merge e).value.merge e = { value := (d.merge e).value } := by
  cases e with
  | unknown name => rfl
  | known n =>
    cases d with
    | unknown name => simp [merge]
    | known m =>
      by_cases h : m = n
      · simp [merge, h]
      · simp [merge, h]

theorem Shape.merge_self (s : Shape) : merge s s = { value := s } := by
  induction s with
  | nil => rfl
  | cons d s ih => simp [merge, ih, Dim.merge_self, Merged.pair]

theorem Shape.length_merge (s t : Shape) : (merge s t).value.length = s.length := by
  fun_induction merge s t with
  | case1 d s e t ih => simp [Merged.pair, ih]
  | case2 => rfl

theorem Shape.merge_merge (s t : Shape) :
    merge (merge s t).value t = { value := (merge s t).value } := by
  fun_induction merge s t with
  | case1 d s e t ih => simp [merge, Merged.pair, ih, Dim.merge_merge]
  | case2 s t hno => simp [merge]

theorem Shape?.merge_merge (current inferred : Shape?) :
    merge (merge current inferred).value inferred = { value := (merge current inferred).value } := by
  cases inferred with
  | none => cases current <;> rfl
  | some t =>
    cases current with
    | none => simp [merge, Shape.merge_self, Merged.map]
    | some s =>
      by_cases h : s.length = t.length
      · simp [merge, h, Merged.map, Shape.length_merge, Shape.merge_merge]
      · simp [merge, h, Shape.merge_self, Merged.map]

theorem TensorInfo.merge_merge (current inferred : TensorInfo) :
    (current.merge inferred).value.merge inferred = { value := (current.merge inferred).value } := by
  simp only [merge, Merged.pair, ElementType.merge_merge, Shape?.merge_merge, Bool.or_self]

namespace ValueState

@[simp] theorem merge_none (v : ValueState) : v.merge none = { value := v } := rfl

/-- A value is authoritative after a merge if it was before. -/
theorem isAuthoritative_merge (v : ValueState) (inferred : TensorInfo?) :
    (v.merge inferred).value.provenance.isAuthoritative = v.provenance.isAuthoritative := by
  cases inferred with
  | none => rfl
  | some t =>
    cases h : v.provenance.isAuthoritative with
    | true => simp [merge, h]
    | false =>
      simp only [merge, h, Bool.false_eq_true, if_false, Merged.map]
      split
      · rfl
      · exact h

/-- **The second merge of an inference changes nothing** and finds no conflict. -/
theorem merge_merge (v : ValueState) (inferred : TensorInfo?) :
    (v.merge inferred).value.merge inferred = { value := (v.merge inferred).value } := by
  cases inferred with
  | none => rfl
  | some t =>
    have hauth := isAuthoritative_merge v (some t)
    cases h : v.provenance.isAuthoritative with
    | true => simp [merge, h]
    | false =>
      rw [h] at hauth
      generalize hw : (v.merge (some t)).value = w at hauth ⊢
      have hinfo : w.info = (v.info.merge t).value := by
        rw [← hw]
        simp [merge, h, Merged.map]
      have hagain : w.info.merge t = { value := w.info } := by
        rw [hinfo]
        exact TensorInfo.merge_merge v.info t
      simp [merge, hauth, Merged.map, hagain]

end ValueState

end ShapeFlow
