/-
The types of attribute lists in descriptions. The items are looked at one after the other, and
each may widen the type: from whole numbers to fractions, and from either to texts, never back.
So the type is the least that fits all items, whatever their order (`listType_eq`). A list that is
accepted has one value for each item, and one of texts always is; an item that is no scalar is
refused (`listReading_attributeOf`).
-/
import Mathlib
import ShapeFlow.Description.Model
import ShapeFlow.Proofs.Except

namespace ShapeFlow

namespace Description

/-! ## The type of a list -/

/-- A tag of no number. -/
def isOther (tag : Text) : Bool := tag != "!!int" && tag != "!!float"

theorem isOther_iff {tag : Text} : isOther tag = true ↔ tag ≠ "!!int" ∧ tag ≠ "!!float" := by
  simp [isOther]

theorem widen_float (type : AttributeType) :
    widen type "!!float" = if type == .strings then .strings else .floats := by
  have htag : ((Text.ofString "!!float") == "!!int") = false := by decide
  by_cases htype : type = .strings <;> simp [widen, htag, htype]

theorem widen_other {tag : Text} (h : isOther tag = true) (type : AttributeType) :
    widen type tag = .strings := by
  obtain ⟨hint, hfloat⟩ := isOther_iff.mp h
  simp [widen, beq_false_of_ne hint, beq_false_of_ne hfloat]

/-- **The scan:** another tag makes the list one of texts, for good; else a fraction makes it one
of fractions, and without either the type stays. -/
theorem foldl_widen (type : AttributeType) (tags : List Text) :
    tags.foldl widen type =
      if type == .strings || tags.any isOther then .strings
      else if tags.contains "!!float" then .floats else type := by
  induction tags generalizing type with
  | nil => by_cases htype : type = .strings <;> simp [htype]
  | cons tag tags ih =>
    rw [List.foldl_cons, ih, List.any_cons, List.contains_cons]
    by_cases hint : tag = "!!int"
    · subst hint
      rfl
    · by_cases hfloat : tag = "!!float"
      · subst hfloat
        by_cases htype : type = .strings
        · subst htype
          rfl
        · have hsame : (Text.ofString "!!float" == Text.ofString "!!float") = true := beq_self_eq_true _
          have hnumber : isOther "!!float" = false := by decide
          rw [widen_float, beq_false_of_ne htype, hsame, hnumber]
          simp
      · rw [widen_other (isOther_iff.mpr ⟨hint, hfloat⟩), isOther_iff.mpr ⟨hint, hfloat⟩]
        simp

theorem listType_eq (tags : List Text) :
    listType tags =
      if tags.any isOther then .strings
      else if tags.contains "!!float" then .floats else .ints := foldl_widen .ints tags

example : listType ["!!float", "!!str", "!!float", "!!int"] = .strings := by decide

theorem listType_cases (tags : List Text) :
    listType tags = .ints ∨ listType tags = .floats ∨ listType tags = .strings := by
  rw [listType_eq]
  cases tags.any isOther <;> cases tags.contains "!!float" <;> simp

/-- How the type of a list depends on the tags of its items. -/
structure Typing (tags : List Text) : Prop where
  ints : listType tags = .ints ↔ ∀ tag ∈ tags, tag = "!!int"
  floats : listType tags = .floats ↔
    (∀ tag ∈ tags, tag = "!!int" ∨ tag = "!!float") ∧ Text.ofString "!!float" ∈ tags
  strings : listType tags = .strings ↔ ∃ tag ∈ tags, tag ≠ "!!int" ∧ tag ≠ "!!float"
  /-- The order of the items does not matter. -/
  perm : ∀ tags', tags'.Perm tags → listType tags' = listType tags

theorem typing (tags : List Text) : Typing tags := by
  have hnumbers : (∀ tag ∈ tags, tag = "!!int" ∨ tag = "!!float") ↔ tags.any isOther = false := by
    simp [isOther, or_iff_not_imp_left]
  have hints : (∀ tag ∈ tags, tag = "!!int") ↔
      tags.any isOther = false ∧ Text.ofString "!!float" ∉ tags := by
    rw [← hnumbers]
    constructor
    · intro h
      exact ⟨fun tag htag => .inl (h tag htag), fun hfloat => absurd (h _ hfloat) (by decide)⟩
    · rintro ⟨h, hfloat⟩ tag htag
      exact (h tag htag).resolve_right fun he => hfloat (he ▸ htag)
  have hothers : (∃ tag ∈ tags, tag ≠ "!!int" ∧ tag ≠ "!!float") ↔ tags.any isOther = true := by
    simp [isOther]
  refine ⟨?_, ?_, ?_, fun tags' h => ?_⟩
  · rw [listType_eq, hints]
    cases tags.any isOther <;> by_cases hfloat : Text.ofString "!!float" ∈ tags <;> simp [hfloat]
  · rw [listType_eq, hnumbers]
    cases tags.any isOther <;> by_cases hfloat : Text.ofString "!!float" ∈ tags <;> simp [hfloat]
  · rw [listType_eq, hothers]
    cases tags.any isOther <;> by_cases hfloat : Text.ofString "!!float" ∈ tags <;> simp [hfloat]
  · rw [listType_eq, listType_eq, h.any_eq, h.contains_eq]

/-! ## Lists of scalars -/

/-- The scalar with a tag, a text and a line. -/
def Item.node (i : Item) : Yaml.Node := .scalar i.tag i.value i.line

/-- Whether a node is a scalar; an alias is not, whatever it stands for. -/
def isScalar : Yaml.Node → Bool
  | .scalar _ _ _ => true
  | _ => false

theorem item_node (i : Item) : item i.node = .ok i := rfl

theorem item_of_not_isScalar {n : Yaml.Node} (h : isScalar n = false) : item n = .error (.nested n.line) := by
  cases n with
  | scalar tag value line => cases h
  | sequence | mapping | reference => rfl

theorem mapM_item (items : List Item) : (items.map Item.node).mapM item = .ok items := by
  rw [mapM_eq_ok, List.forall₂_map_left_iff, List.forall₂_same]
  exact fun i _ => item_node i

theorem attributeOf_sequence (tag : Text) (items : List Item) (line : Nat) :
    attributeOf (.sequence tag (items.map Item.node) line) = listValue (listType (items.map Item.tag)) items := by
  simp only [attributeOf, mapM_item]
  rfl

/-- The first item that is no scalar is refused. -/
theorem mapM_item_of_find? {nodes : List Yaml.Node} {n : Yaml.Node}
    (h : nodes.find? (!isScalar ·) = some n) : nodes.mapM item = .error (.nested n.line) := by
  have hn : isScalar n = false := by simpa using List.find?_some h
  refine mapM_eq_error (fun m _ hm => ?_) h (item_of_not_isScalar hn)
  cases m with
  | scalar tag value line => exact ⟨_, rfl⟩
  | sequence | mapping | reference => cases hm

/-- The attribute has one value for each item, in their order, read from its text. -/
def Holds (items : List Item) : Attribute → Prop
  | .ints ns => List.Forall₂ (fun i n => readLiteral i.value = .ok n) items ns
  | .floats xs => List.Forall₂ (fun i x => readSingle i.value = .ok x) items xs
  | .strings ts => items.map Item.value = ts
  | _ => False

theorem intValue_eq_ok {line : Nat} {value : Text} {n : Int64} :
    intValue line value = .ok n ↔ readLiteral value = .ok n := by
  unfold intValue
  cases readLiteral value <;> simp [Except.mapError]

theorem floatValue_eq_ok {line : Nat} {value : Text} {x : Single} :
    floatValue line value = .ok x ↔ readSingle value = .ok x := by
  unfold floatValue
  cases readSingle value <;> simp [Except.mapError]

/-- Reading as a type gives a list of that type, and only what the items hold. -/
theorem listValue_eq_ok {type : AttributeType} (htype : type = .ints ∨ type = .floats ∨ type = .strings)
    {items : List Item} {a : Attribute} :
    listValue type items = .ok a ↔ a.type = type ∧ Holds items a := by
  rcases htype with rfl | rfl | rfl <;> cases a <;>
    simp [listValue, map_eq_ok_iff, mapM_eq_ok, intValue_eq_ok, floatValue_eq_ok, Holds, Attribute.type]

/-- What a sequence is read as: a list of the type that its items ask for, if they are scalars. -/
structure ListReading (nodes : List Yaml.Node) (result : Except ValueError Attribute) : Prop where
  /-- An item that is no scalar is an error, which names the line of the first one. -/
  nested : ∀ n ∈ nodes, isScalar n = false →
    ∃ first, nodes.find? (!isScalar ·) = some first ∧ result = .error (.nested first.line)
  typing : ∀ items : List Item, nodes = items.map Item.node → Typing (items.map Item.tag)
  /-- The list has the type that was chosen, and one value for each item. -/
  values : ∀ items : List Item, nodes = items.map Item.node → ∀ a, result = .ok a ↔
    a.type = listType (items.map Item.tag) ∧ Holds items a
  texts : ∀ items : List Item, nodes = items.map Item.node → listType (items.map Item.tag) = .strings →
    result = .ok (.strings (items.map Item.value))

/-- **A list of scalars has the least type that fits all of them, in whatever order, and a value for
each; nothing else is a list.** -/
theorem listReading_attributeOf (tag : Text) (nodes : List Yaml.Node) (line : Nat) :
    ListReading nodes (attributeOf (.sequence tag nodes line)) := by
  have hread {items : List Item} (h : nodes = items.map Item.node) :
      attributeOf (.sequence tag nodes line) = listValue (listType (items.map Item.tag)) items := by
    rw [h, attributeOf_sequence]
  refine ⟨fun n hn hscalar => ?_, fun items _ => Description.typing _, fun items h a => ?_, fun items h htype => ?_⟩
  · have hsome : (nodes.find? (!isScalar ·)).isSome = true := by
      rw [List.find?_isSome]
      exact ⟨n, hn, by simp [hscalar]⟩
    obtain ⟨first, hfirst⟩ := Option.isSome_iff_exists.mp hsome
    refine ⟨first, hfirst, ?_⟩
    simp only [attributeOf, mapM_item_of_find? hfirst]
    rfl
  · rw [hread h]
    exact listValue_eq_ok (listType_cases _)
  · rw [hread h, htype]
    rfl

end Description

end ShapeFlow
