/-
Lists of numbers in descriptions. A whole number may be written in a base of its own, and is read
so when it stands alone or among whole numbers. One fraction in the list makes all of it
fractions, whose literals have no such bases: a whole number with a base is then refused, although
it is a number on its own, and every other number is taken (`mixedReading_attributeOf`).
-/
import Mathlib
import ShapeFlow.Proofs.Description.Attributes
import ShapeFlow.Proofs.Number.Decimal

namespace ShapeFlow

namespace Description

/-- A scalar that has the tag of a number and is one on its own. -/
structure Item.IsNumber (i : Item) : Prop where
  tag : i.tag = "!!int" ∨ i.tag = "!!float"
  accepted : ∃ a, attributeOf i.node = .ok a

/-- A whole number whose literal names a base. -/
def Item.isBased (i : Item) : Bool := i.tag == "!!int" && Number.isBased (Number.unsigned i.value.bytes)

section Item

variable {i : Item}

theorem Item.IsNumber.readLiteral (h : i.IsNumber) (htag : i.tag = "!!int") :
    ∃ n, ShapeFlow.readLiteral i.value = .ok n := by
  obtain ⟨a, ha⟩ := h.accepted
  simp only [attributeOf, Item.node, htag, beq_self_eq_true, if_true, map_eq_ok_iff, intValue_eq_ok] at ha
  obtain ⟨n, hn, -⟩ := ha
  exact ⟨n, hn⟩

theorem Item.IsNumber.readSingle (h : i.IsNumber) (htag : i.tag = "!!float") :
    ∃ x, ShapeFlow.readSingle i.value = .ok x := by
  have hint : (Text.ofString "!!float" == "!!int") = false := by decide
  obtain ⟨a, ha⟩ := h.accepted
  simp only [attributeOf, Item.node, htag, hint, beq_self_eq_true, Bool.false_eq_true, if_false, if_true,
    map_eq_ok_iff, floatValue_eq_ok] at ha
  obtain ⟨x, hx, -⟩ := ha
  exact ⟨x, hx⟩

theorem Item.IsNumber.floatValue (h : i.IsNumber) (hbased : i.isBased = false) :
    ∃ x, Description.floatValue i.line i.value = .ok x := by
  simp only [floatValue_eq_ok]
  rcases h.tag with htag | htag
  · obtain ⟨n, hn⟩ := h.readLiteral htag
    have hplain : Number.isBased (Number.unsigned i.value.bytes) = false := by
      simpa [Item.isBased, htag] using hbased
    exact (readSingle_of_readLiteral hn).1 hplain
  · exact h.readSingle htag

theorem Item.IsNumber.floatValue_of_isBased (h : i.IsNumber) (hbased : i.isBased = true) :
    Description.floatValue i.line i.value = .error (.float i.line i.value .form) := by
  obtain ⟨htag, hvalue⟩ : i.tag = "!!int" ∧ Number.isBased (Number.unsigned i.value.bytes) = true := by
    simpa [Item.isBased] using hbased
  obtain ⟨n, hn⟩ := h.readLiteral htag
  rw [Description.floatValue, (readSingle_of_readLiteral hn).2 hvalue]
  rfl

end Item

/-- What a list of numbers is read as. -/
structure MixedReading (items : List Item) (result : Except ValueError Attribute) : Prop where
  accepted : (∃ a, result = .ok a) ↔ (∀ i ∈ items, i.tag = "!!int") ∨ ∀ i ∈ items, i.isBased = false
  /-- Beside a fraction the first whole number that names a base is an error, as no fraction. -/
  refused : ∀ first, items.find? Item.isBased = some first → (∃ i ∈ items, i.tag = "!!float") →
    result = .error (.float first.line first.value .form)

section List

variable {items : List Item}

theorem listValue_ints (h : ∀ i ∈ items, i.IsNumber) (htags : ∀ i ∈ items, i.tag = "!!int") :
    ∃ a, listValue .ints items = .ok a := by
  have hread : ∀ i ∈ items, ∃ n, intValue i.line i.value = .ok n := fun i hi => by
    simpa only [intValue_eq_ok] using (h i hi).readLiteral (htags i hi)
  obtain ⟨ns, hns⟩ := exists_mapM_eq_ok hread
  exact ⟨.ints ns, map_eq_ok_iff.mpr ⟨ns, hns, rfl⟩⟩

theorem listValue_floats (h : ∀ i ∈ items, i.IsNumber) (hbased : ∀ i ∈ items, i.isBased = false) :
    ∃ a, listValue .floats items = .ok a := by
  obtain ⟨xs, hxs⟩ := exists_mapM_eq_ok fun i hi => (h i hi).floatValue (hbased i hi)
  exact ⟨.floats xs, map_eq_ok_iff.mpr ⟨xs, hxs, rfl⟩⟩

/-- A whole number that names a base is no fraction. -/
theorem listValue_floats_of_find? (h : ∀ i ∈ items, i.IsNumber) {first : Item}
    (hfirst : items.find? Item.isBased = some first) :
    listValue .floats items = .error (.float first.line first.value .form) := by
  have hmem := List.mem_of_find?_eq_some hfirst
  have herror := (h first hmem).floatValue_of_isBased (List.find?_some hfirst)
  have hlist : items.mapM (fun i => Description.floatValue i.line i.value) =
      .error (.float first.line first.value .form) :=
    mapM_eq_error (fun i hi hbased => (h i hi).floatValue hbased) hfirst herror
  rw [listValue, hlist]
  rfl

theorem listType_numbers (h : ∀ i ∈ items, i.IsNumber) :
    ((∀ i ∈ items, i.tag = "!!int") ∧ listType (items.map Item.tag) = .ints) ∨
    ((∃ i ∈ items, i.tag = "!!float") ∧ listType (items.map Item.tag) = .floats) := by
  have htyping := typing (items.map Item.tag)
  by_cases hfloat : ∃ i ∈ items, i.tag = "!!float"
  · refine .inr ⟨hfloat, htyping.floats.mpr ⟨?_, ?_⟩⟩
    · exact List.forall_mem_map.mpr fun i hi => (h i hi).tag
    · obtain ⟨i, hi, htag⟩ := hfloat
      exact List.mem_map.mpr ⟨i, hi, htag⟩
  · have hints : ∀ i ∈ items, i.tag = "!!int" := fun i hi =>
      (h i hi).tag.resolve_right fun htag => hfloat ⟨i, hi, htag⟩
    exact .inl ⟨hints, htyping.ints.mpr (List.forall_mem_map.mpr hints)⟩

theorem not_ints (h : ∃ i ∈ items, i.tag = "!!float") : ¬ ∀ i ∈ items, i.tag = "!!int" := by
  intro hints
  obtain ⟨i, hi, htag⟩ := h
  exact absurd ((hints i hi).symm.trans htag) (by decide)

end List

/-- **A list of numbers is read if they are all whole, or if no whole one names a base.** -/
theorem mixedReading_attributeOf (tag : Text) (items : List Item) (line : Nat)
    (h : ∀ i ∈ items, i.IsNumber) :
    MixedReading items (attributeOf (.sequence tag (items.map Item.node) line)) := by
  rw [attributeOf_sequence]
  rcases listType_numbers h with ⟨hints, htype⟩ | ⟨hfloat, htype⟩
  · rw [htype]
    refine ⟨iff_of_true (listValue_ints h hints) (.inl hints), fun first _ hfloat => ?_⟩
    exact absurd hints (not_ints hfloat)
  · rw [htype]
    refine ⟨⟨fun haccepted => .inr fun i hi => ?_, fun hread => ?_⟩, fun first hfirst _ => ?_⟩
    · by_contra hbased
      have hsome : (items.find? Item.isBased).isSome = true :=
        List.find?_isSome.mpr ⟨i, hi, Bool.eq_true_of_not_eq_false hbased⟩
      obtain ⟨first, hfirst⟩ := Option.isSome_iff_exists.mp hsome
      obtain ⟨a, ha⟩ := haccepted
      rw [listValue_floats_of_find? h hfirst] at ha
      cases ha
    · exact listValue_floats h (hread.resolve_left (not_ints hfloat))
    · exact listValue_floats_of_find? h hfirst

/-- A hexadecimal number beside a fraction. -/
def hexAndFraction : List Item := [⟨"!!int", "0x10", 3⟩, ⟨"!!float", "1.5", 3⟩]

theorem isNumber_hexAndFraction : ∀ i ∈ hexAndFraction, i.IsNumber := by
  intro i hi
  simp only [hexAndFraction, List.mem_cons, List.not_mem_nil, or_false] at hi
  rcases hi with rfl | rfl
  · exact ⟨.inl rfl, .int 16, by rfl⟩
  · exact ⟨.inr rfl, .float ⟨0x3FC00000⟩, by rfl⟩

theorem mixedReading_hexAndFraction :
    (∀ i ∈ hexAndFraction, i.IsNumber) ∧
    attributeOf (.sequence "!!seq" (hexAndFraction.map Item.node) 3) = .error (.float 3 "0x10" .form) := by
  refine ⟨isNumber_hexAndFraction, ?_⟩
  refine (mixedReading_attributeOf "!!seq" hexAndFraction 3 isNumber_hexAndFraction).refused
    ⟨"!!int", "0x10", 3⟩ ?_ ⟨⟨"!!float", "1.5", 3⟩, ?_, rfl⟩
  · rfl
  · exact List.mem_cons_of_mem _ List.mem_cons_self

/-- Numbers that are accepted one by one need not be accepted together. -/
theorem refused_hexAndFraction :
    ¬ ∀ (tag : Text) (items : List Item) (line : Nat), (∀ i ∈ items, i.IsNumber) →
      ∃ a, attributeOf (.sequence tag (items.map Item.node) line) = .ok a := by
  intro h
  obtain ⟨a, ha⟩ := h "!!seq" hexAndFraction 3 isNumber_hexAndFraction
  have herror : attributeOf (.sequence "!!seq" (hexAndFraction.map Item.node) 3) =
    .error (.float 3 "0x10" .form) := by rfl
  rw [herror] at ha
  cases ha

end Description

end ShapeFlow
