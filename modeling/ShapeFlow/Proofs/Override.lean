/-
Overrides are read as they are written. A dimension that can be told from its text (`Legible`) is
read back from it, whatever white space stands around (`Part`), and a list of them from the texts
with commas between; the shape replaces what there was under the name, and nothing else. The
override is taken in at the end, when all of it is read, so that one that cannot be read changes
nothing (`replaces_set`).
-/
import Mathlib
import ShapeFlow.Override
import ShapeFlow.Proofs.Except
import ShapeFlow.Proofs.Number.Integer
import ShapeFlow.Proofs.Text.Pieces

namespace ShapeFlow

namespace Overrides

open Number

/-! ## Dimensions -/

/-- A dimension that can be told from its text. -/
inductive Legible : Dim → Prop
  | known {n : Int64} : 0 ≤ n → Legible (.known n)
  | anonymous : Legible .anonymous
  /-- The name is not cut at a comma or at its ends, and is no other dimension's text. -/
  | named {name : Text} : name ≠ .empty → 0x2C ∉ name.bytes → name.trim = name → name ≠ "?" →
      (∀ n : Int64, ¬ IsLiteral name n.toInt) → Legible (.unknown name)

theorem text_known {n : Int64} (h : 0 ≤ n) : (Dim.known n).text = Text.ofNat n.toInt.natAbs := by
  have hn : (0 : Int) ≤ n.toInt := Int64.le_iff_toInt_le.mp h
  exact if_neg (Int.not_lt.mpr hn)

theorem text_named {name : Text} (h : name ≠ .empty) : (Dim.unknown name).text = name :=
  if_neg fun hempty => h (Text.eq_empty_of_isEmpty hempty)

section Legible

variable {d : Dim}

theorem Legible.ne_empty (h : Legible d) : d.text ≠ .empty := by
  cases h with
  | known hn =>
    rw [text_known hn]
    exact fun hempty => (areDigits_ofNat _).1 (congrArg Text.bytes hempty)
  | anonymous => decide
  | named hname =>
    rw [text_named hname]
    exact hname

theorem Legible.comma (h : Legible d) : 0x2C ∉ d.text.bytes := by
  cases h with
  | known hn =>
    rw [text_known hn]
    exact fun hmem => absurd (Text.digit_of_mem_ofNat hmem).1 (by decide)
  | anonymous => decide
  | named hname hcomma =>
    rw [text_named hname]
    exact hcomma

theorem isBlank_of_isDigit {c : Char} (h : c.isDigit = true) : isBlank c = false := by
  have hcode : 48 ≤ c.toNat ∧ c.toNat ≤ 57 := Text.code_of_isDigit h
  simp only [isBlank, isBlankCode, Bool.or_eq_false_iff, Bool.and_eq_false_iff, decide_eq_false_iff_not,
    beq_eq_false_iff_ne]
  omega

theorem Legible.trim (h : Legible d) : d.text.trim = d.text := by
  cases h with
  | known hn =>
    rw [text_known hn, Text.ofNat_eq_ofChars]
    exact Text.trim_ofChars fun c hc =>
      isBlank_of_isDigit (Nat.isDigit_of_mem_toDigits (by decide) (by decide) hc)
  | anonymous => decide
  | named hname _ htrim =>
    rw [text_named hname]
    exact htrim

/-- A part is read as the dimension whose text it is. -/
theorem Legible.dim_eq (h : Legible d) {part : Text} (hpart : part.trim = d.text) : dim part = .ok d := by
  have hempty := h.ne_empty
  unfold Overrides.dim
  rw [hpart]
  cases h with
  | @known n hn =>
    have hmark : (Dim.known n).text ≠ "?" := by
      rw [text_known hn]
      intro hmark
      have hdigits := (areDigits_ofNat n.toInt.natAbs).2
      rw [hmark] at hdigits
      exact absurd (hdigits 0x3F (by decide)) (by decide)
    have hread : readInt (Dim.known n).text = .ok n := readInt_ofInt64 n
    simp only [hmark, hempty, or_self, if_false, hread, Int64.not_lt.mpr hn]
  | anonymous => rfl
  | @named name hname _ _ hmark hliteral =>
    simp only [text_named hname, hmark, hname, or_self, if_false]
    cases hread : readInt name with
    | error e => rfl
    | ok n => exact absurd (readInt_eq_ok.mp hread) (hliteral n)

end Legible

/-! ## Lists of dimensions -/

/-- A dimension with white space around it. -/
structure Part where
  dim : Dim
  before : List Char
  after : List Char
  legible : Legible dim
  blank_before : ∀ c ∈ before, isBlank c = true
  blank_after : ∀ c ∈ after, isBlank c = true

namespace Part

def text (p : Part) : Text := Text.ofChars p.before ++ p.dim.text ++ Text.ofChars p.after

theorem dim_text (p : Part) : Overrides.dim p.text = .ok p.dim :=
  p.legible.dim_eq ((Text.trim_padded p.blank_before p.blank_after p.dim.text).trans p.legible.trim)

theorem comma_blank {cs : List Char} (h : ∀ c ∈ cs, isBlank c = true) : 0x2C ∉ (Text.ofChars cs).bytes := by
  intro hmem
  obtain ⟨c, hc, hcomma⟩ := List.mem_flatMap.mp hmem
  have hcode := Text.toNat_of_mem_utf8EncodeChar hcomma (by decide)
  have hblank := h c hc
  rw [isBlank, hcode] at hblank
  exact absurd hblank (by decide)

theorem comma_text (p : Part) : 0x2C ∉ p.text.bytes := by
  simp only [text, Text.append_bytes, List.mem_append, not_or]
  exact ⟨⟨comma_blank p.blank_before, p.legible.comma⟩, comma_blank p.blank_after⟩

theorem text_ne_empty (p : Part) : p.text ≠ .empty := by
  intro h
  have hbytes := congrArg Text.bytes h
  simp only [text, Text.append_bytes, Text.empty, List.append_eq_nil_iff] at hbytes
  exact p.legible.ne_empty (congrArg Text.mk hbytes.1.2)

end Part

/-- A list of dimensions is read back from their texts with commas between them. -/
theorem dims_join (parts : List Part) :
    dims (Text.join "," (parts.map Part.text)) = .ok (parts.map Part.dim) := by
  cases parts with
  | nil => rfl
  | cons p parts =>
    have hcommas : ∀ t ∈ (p :: parts).map Part.text, 0x2C ∉ t.bytes :=
      List.forall_mem_map.mpr fun q _ => q.comma_text
    have hsplit : (Text.join "," ((p :: parts).map Part.text)).split 0x2C = (p :: parts).map Part.text :=
      Text.split_join hcommas
    have hsome : ¬ (Text.join "," ((p :: parts).map Part.text)).isEmpty = true := by
      intro hnone
      rw [Text.eq_empty_of_isEmpty hnone] at hsplit
      exact p.text_ne_empty (List.cons.inj hsplit).1.symm
    rw [dims, if_neg hsome, hsplit, mapM_eq_ok, List.forall₂_map_left_iff, List.forall₂_map_right_iff]
    exact List.forall₂_same.mpr fun q _ => q.dim_text

/-! ## Setting an override -/

/-- An override of a name. -/
def written (name : Text) (parts : List Part) : Text :=
  name ++ "=" ++ Text.join "," (parts.map Part.text)

theorem entry_written {name : Text} (hname : name ≠ .empty) (hequals : 0x3D ∉ name.bytes)
    (parts : List Part) : entry (written name parts) = .ok (name, parts.map Part.dim) := by
  have hcut : (written name parts).cut? 0x3D = some (name, Text.join "," (parts.map Part.text)) :=
    Text.cut?_append hequals _
  have hsome : ¬ name.isEmpty = true := fun hnone => hname (Text.eq_empty_of_isEmpty hnone)
  simp only [entry, hcut, hsome, Bool.false_eq_true, if_false, dims_join]

/-- What there is after an override of a name with a shape. -/
structure Replaces (name : Text) (shape : Shape) (before after : Overrides) : Prop where
  /-- The element type is left open, and what there was under the name is gone. -/
  stored : after.get? name = some ⟨none, some shape⟩
  others : ∀ other, other ≠ name → after.get? other = before.get? other

theorem replaces_insert (overrides : Overrides) (name : Text) (shape : Shape) :
    Replaces name shape overrides (overrides.insert name ⟨none, some shape⟩) :=
  ⟨overrides.get?_insert_self name _, fun _ hother => overrides.get?_insert_other hother _⟩

/-! ## In place -/

/-- A change of overrides in place. What was changed stays changed when it fails. -/
abbrev Change := ExceptT OverrideError (StateM Overrides)

/-- What is returned, and the overrides afterwards. -/
def Change.on {α : Type} (x : Change α) (overrides : Overrides) : Except OverrideError α × Overrides :=
  x.run.run overrides

/-- Reads the parts of a list one after the other. -/
def takeDims (value : Text) : List Text → Change Shape
  | [] => pure []
  | part :: parts =>
    match dim part with
    | .error size => throw (.negative size value)
    | .ok d => do
      let ds ← takeDims value parts
      return d :: ds

/-- As `set`, in overrides that are there. -/
def setInPlace (value : Text) : Change Unit :=
  match value.cut? 0x3D with
  | none => throw (.form value)
  | some (name, list) =>
    if name.isEmpty then throw (.form value)
    else do
      let shape ← if list.isEmpty then pure [] else takeDims value (list.split 0x2C)
      modify (·.insert name ⟨none, some shape⟩)

section Running

variable {α β : Type} {x : Change α} {overrides after : Overrides}

theorem on_bind_ok {a : α} (h : x.on overrides = (.ok a, after)) (g : α → Change β) :
    (x >>= g).on overrides = (g a).on after := by
  show (ExceptT.bindCont g (x.on overrides).1).run (x.on overrides).2 = (g a).on after
  rw [h]
  rfl

theorem on_bind_error {e : OverrideError} (h : x.on overrides = (.error e, after)) (g : α → Change β) :
    (x >>= g).on overrides = (.error e, after) := by
  show (ExceptT.bindCont g (x.on overrides).1).run (x.on overrides).2 = (.error e, after)
  rw [h]
  rfl

/-- Reading a list changes nothing. -/
theorem on_takeDims (value : Text) (parts : List Text) (overrides : Overrides) :
    (takeDims value parts).on overrides = ((parts.mapM dim).mapError (.negative · value), overrides) := by
  induction parts with
  | nil => rfl
  | cons part parts ih =>
    rw [takeDims, List.mapM_cons]
    cases dim part with
    | error size => rfl
    | ok d =>
      dsimp only
      cases hrest : parts.mapM dim with
      | error size =>
        rw [hrest] at ih
        exact on_bind_error ih _
      | ok ds =>
        rw [hrest] at ih
        exact on_bind_ok ih _

/-- **In place an override is taken in as `set` takes it in, and one that cannot be read leaves the
overrides as they were.** -/
theorem on_setInPlace (value : Text) (overrides : Overrides) :
    (setInPlace value).on overrides =
      ((overrides.set value).map fun _ => (), (overrides.set value).toOption.getD overrides) := by
  unfold setInPlace set entry dims
  cases value.cut? 0x3D with
  | none => rfl
  | some p =>
    dsimp only
    by_cases hname : p.1.isEmpty = true
    · simp only [hname, if_true]
      rfl
    · simp only [hname, Bool.false_eq_true, if_false]
      by_cases hlist : p.2.isEmpty = true
      · simp only [hlist, if_true]
        rfl
      · simp only [hlist, Bool.false_eq_true, if_false]
        have hdims := on_takeDims value (p.2.split 0x2C) overrides
        cases hread : (p.2.split 0x2C).mapM dim with
        | error size =>
          rw [hread] at hdims
          exact on_bind_error hdims _
        | ok shape =>
          rw [hread] at hdims
          exact on_bind_ok hdims _

end Running

/-- **An override that was written is read back: the shape stands under the name instead of what was
there, and all else is as before. One that cannot be read changes nothing.** -/
theorem replaces_set (overrides : Overrides) :
    (∀ name parts, name ≠ .empty → 0x3D ∉ name.bytes →
      ∃ after, (setInPlace (written name parts)).on overrides = (.ok (), after) ∧
        overrides.set (written name parts) = .ok after ∧
        Replaces name (parts.map Part.dim) overrides after) ∧
    ∀ value, ∃ returned after, (setInPlace value).on overrides = (returned, after) ∧
      overrides.set value = returned.map (fun _ => after) ∧ ∀ e, returned = .error e → after = overrides := by
  refine ⟨fun name parts hname hequals => ?_, fun value => ?_⟩
  · have hset : overrides.set (written name parts) =
        .ok (overrides.insert name ⟨none, some (parts.map Part.dim)⟩) := by
      rw [set, entry_written hname hequals]
      rfl
    refine ⟨_, ?_, hset, replaces_insert overrides name _⟩
    rw [on_setInPlace, hset]
    rfl
  · refine ⟨_, _, on_setInPlace value overrides, ?_⟩
    cases overrides.set value with
    | error e => exact ⟨rfl, fun _ _ => rfl⟩
    | ok after => exact ⟨rfl, fun e he => nomatch he⟩

theorem not_isLiteral {t : Text} {e : NumberError} (h : readInt t = .error e) (n : Int64) :
    ¬ IsLiteral t n.toInt := by
  intro hliteral
  rw [readInt_eq_ok.mpr hliteral] at h
  cases h

/-- A name with an equals sign, a size, an unknown dimension and a name of digits that is no number
of 64 bits, with white space around them. -/
def spaced : List Part := [
  ⟨.unknown "batch=n", [' '], ['\t'],
    .named (by decide) (by decide) (by decide) (by decide) (not_isLiteral rfl),
    List.all_eq_true.mp rfl, List.all_eq_true.mp rfl⟩,
  ⟨.known 3, [], [], .known (by decide), List.all_eq_true.mp rfl, List.all_eq_true.mp rfl⟩,
  ⟨.anonymous, ['\u00A0', '\u2003'], [], .anonymous, List.all_eq_true.mp rfl, List.all_eq_true.mp rfl⟩,
  ⟨.unknown "9223372036854775808", [], ['\n'],
    .named (by decide) (by decide) (by decide) (by decide) (not_isLiteral rfl),
    List.all_eq_true.mp rfl, List.all_eq_true.mp rfl⟩]

theorem replaces_spaced :
    let before : Overrides := ⟨[("x", ⟨some .int64, some [.known 7]⟩), ("y", ⟨none, some []⟩)]⟩
    Text.ofString "x" ≠ .empty ∧ 0x3D ∉ (Text.ofString "x").bytes ∧
    ∃ after, before.set "x= batch=n\t,3,\u00A0\u2003?,9223372036854775808\n" = .ok after ∧
      Replaces "x" [.unknown "batch=n", .known 3, .anonymous, .unknown "9223372036854775808"] before after := by
  intro before
  have hname : Text.ofString "x" ≠ .empty := by decide
  have hequals : 0x3D ∉ (Text.ofString "x").bytes := by decide
  have hwritten : written "x" spaced = "x= batch=n\t,3,\u00A0\u2003?,9223372036854775808\n" := by decide
  obtain ⟨after, -, hset, hreplaces⟩ := (replaces_set before).1 "x" spaced hname hequals
  rw [hwritten] at hset
  exact ⟨hname, hequals, after, hset, hreplaces⟩

end Overrides

end ShapeFlow
