/-
Files that end too early. Every reader of the wire format notices when the bytes end within
what it reads (`Cuts`), wherever that is: in a tag, a number, a length, among the bytes of a
value or in a group. So a file that is cut off is either cut between two fields, and then the
fields before the cut are read, or it is no model (`load_truncated`).
-/
import Mathlib
import ShapeFlow.ModelFile
import ShapeFlow.Proofs.Wire.Grammar
import ShapeFlow.Proofs.Wire.Sizes

namespace ShapeFlow.Wire

/-- A reader finds that its input ends within what it reads. -/
def Cuts {α : Type} (read : Bytes → Except WireError (α × Bytes)) (Written : α → Bytes → Prop) :
    Prop :=
  ∀ x p q, Written x (p ++ q) → q ≠ [] → read p = .error .truncated

/-- What is cut of two parts ends in the first or in the second. -/
theorem cut_append {p q a b : Bytes} (h : p ++ q = a ++ b) :
    (∃ r, p = a ++ r ∧ b = r ++ q) ∨ (∃ r, r ≠ [] ∧ a = p ++ r) := by
  rcases List.append_eq_append_iff.mp h with ⟨r, ha, hq⟩ | ⟨r, hp, hb⟩
  · by_cases hr : r = []
    · subst hr
      exact .inl ⟨[], by simpa using ha.symm, by simpa using hq.symm⟩
    · exact .inr ⟨r, hr, ha⟩
  · exact .inl ⟨r, hp, hb⟩

/-! ## Numbers -/

theorem varintUpTo_cut {n more : Nat} {u p q : Bytes} (h : IsDigits n u) (hu : p ++ q = u)
    (hq : q ≠ []) (hlength : u.length ≤ more + 1) : varintUpTo more p = .error .truncated := by
  induction h generalizing p more with
  | last _ =>
    cases p with
    | nil => cases more <;> rfl
    | cons d p =>
      -- One digit leaves nothing to be cut off.
      have hnil : p ++ q = [] := (List.cons.inj hu).2
      exact absurd (List.append_eq_nil_iff.mp hnil).2 hq
  | @more d n b hd hdigits ih =>
    cases p with
    | nil => cases more <;> rfl
    | cons d' p =>
      obtain ⟨rfl, hb⟩ := List.cons.inj hu
      cases more with
      | zero =>
        cases hdigits <;> simp at hlength
      | succ more =>
        have hrest := ih hb (by simpa using hlength : b.length ≤ more + 1)
        simp [varintUpTo, hd, hrest]

theorem cuts_varint : Cuts varint IsVarint := by
  intro n p q h hq
  exact varintUpTo_cut h.digits rfl hq h.length

theorem cuts_fixed (count : Nat) : Cuts (fixed count) (IsFixed count) := by
  intro n p q h hq
  obtain ⟨hlength, rfl⟩ := h
  induction count generalizing p with
  | zero => exact absurd (List.append_eq_nil_iff.mp (List.length_eq_zero_iff.mp hlength)).2 hq
  | succ count ih =>
    cases p with
    | nil => rfl
    | cons d p =>
      have hrest := ih p (by simpa using hlength)
      simp [fixed, hrest]

theorem chunk_cut {p q : Bytes} (hq : q ≠ []) : chunk (p ++ q).length p = .error .truncated := by
  have hpos := List.length_pos_iff.mpr hq
  simp only [chunk]
  rw [if_pos]
  rw [List.length_take, List.length_append]
  omega

/-! ## Tags and values -/

theorem cuts_tag : Cuts tag IsTag := by
  intro t p q h hq
  simp only [tag, cuts_varint _ p q h.digits hq]

theorem cuts_plain (type : Nat) : Cuts (plain type) (IsPlain type) := by
  intro v p q h hq
  generalize hu : p ++ q = u at h
  cases h with
  | varint hn =>
    rw [← hu] at hn
    simp [plain, cuts_varint _ p q hn hq, Except.map]
  | fixed64 hn =>
    rw [← hu] at hn
    simp [plain, cuts_fixed 8 _ p q hn hq, Except.map]
  | @bytes length b hlength =>
    rcases cut_append hu with ⟨r, rfl, rfl⟩ | ⟨r, hr, rfl⟩
    · have hread := reads_varint.append hlength r
      simp only [plain, hread, chunk_cut hq, Except.map]
    · simp only [plain, cuts_varint _ p r hlength hr]
  | fixed32 hn =>
    rw [← hu] at hn
    simp [plain, cuts_fixed 4 _ p q hn hq, Except.map]

/-! ## Groups -/

section Skip

variable {number : Nat} {outer : List Nat} {c after : Bytes}

theorem skipGroups_tag_error {e : WireError} (h : tag c = .error e) :
    skipGroups (number :: outer) c = .error e := by
  rw [skipGroups, h]

theorem skipGroups_plain_error {t : Tag} {v : Value} {u : Bytes} {e : WireError}
    (ht : tag c = .ok (t, after)) (hv : IsPlain t.type v u) (h : plain t.type after = .error e) :
    skipGroups (number :: outer) c = .error e := by
  obtain ⟨hthree, hfour⟩ := hv.not_group
  rw [skipGroups, ht]
  simp only [if_neg hfour, if_neg hthree]
  rw [h]

/-- A group that ends within what it holds, or right after it, is not closed. -/
theorem skipGroups_cut {depth : Nat} {body p q : Bytes} (h : IsContent depth body)
    (hdepth : depth + (outer.length + 1) ≤ depthLimit) (hp : p ++ q = body) :
    skipGroups (number :: outer) p = .error .truncated := by
  induction h generalizing number outer p q with
  | nil =>
    obtain rfl := (List.append_eq_nil_iff.mp hp).1
    exact skipGroups_tag_error rfl
  | @plain depth t v a u b ht hv _ ih =>
    rcases cut_append hp with ⟨r, rfl, hr⟩ | ⟨r, hr, rfl⟩
    · rcases cut_append hr.symm with ⟨r', rfl, hb⟩ | ⟨r', hr', rfl⟩
      · rw [skipGroups_plain (reads_tag.append ht _) ((reads_plain _).append hv _)]
        exact ih hdepth hb.symm
      · exact skipGroups_plain_error (reads_tag.append ht r) hv (cuts_plain _ _ r r' hv hr')
    · exact skipGroups_tag_error (cuts_tag _ p r ht hr)
  | @group depth opened start body stop b hstart hbody hstop _ ihbody ihb =>
    rcases cut_append hp with ⟨r, rfl, hr⟩ | ⟨r, hr, rfl⟩
    · rw [skipGroups_open (reads_tag.append hstart r) (by omega)]
      have hinner : depth + ((number :: outer).length + 1) ≤ depthLimit := by
        rw [List.length_cons]
        omega
      rcases cut_append hr.symm with ⟨r', rfl, hr'⟩ | ⟨r', _, hcut⟩
      · rw [skipGroups_content hbody hinner]
        rcases cut_append hr'.symm with ⟨r'', rfl, hb⟩ | ⟨r'', hne, rfl⟩
        · rw [skipGroups_close (reads_tag.append hstop _)]
          exact ihb hdepth hb.symm
        · exact skipGroups_tag_error (cuts_tag _ r' r'' hstop hne)
      · exact ihbody hinner hcut.symm
    · exact skipGroups_tag_error (cuts_tag _ p r hstart hr)

end Skip

/-! ## Fields and messages -/

/-- What is wrong with the bytes. -/
def FieldError.cause : FieldError → WireError
  | .tag e => e
  | .value _ e => e

/-- **A field that ends too early is none.** -/
theorem field_cut {f : Field} {p q : Bytes} (h : IsField f (p ++ q)) (hq : q ≠ []) :
    ∃ e, field p = .error e ∧ e.cause = .truncated := by
  generalize hu : p ++ q = u at h
  cases h with
  | @plain t v a u ht hv =>
    rcases cut_append hu with ⟨r, rfl, rfl⟩ | ⟨r, hr, rfl⟩
    · refine ⟨.value t.number .truncated, ?_, rfl⟩
      simp only [field, reads_tag.append ht, value, if_neg hv.not_group.1, cuts_plain _ _ r q hv hq]
    · refine ⟨.tag .truncated, ?_, rfl⟩
      simp only [field, cuts_tag _ p r ht hr]
  | @group number start body stop hstart hbody hstop =>
    rcases cut_append hu with ⟨r, rfl, hr⟩ | ⟨r, hr, rfl⟩
    · have hskip : skipGroups [number] r = .error .truncated := by
        rcases cut_append hr.symm with ⟨r', rfl, rfl⟩ | ⟨r', _, hcut⟩
        · rw [skipGroups_content hbody (by decide)]
          exact skipGroups_tag_error (cuts_tag _ r' q hstop hq)
        · exact skipGroups_cut hbody (by decide) hcut.symm
      refine ⟨.value number .truncated, ?_, rfl⟩
      simp only [field, reads_tag.append hstart, value, if_true, hskip, Except.map]
    · refine ⟨.tag .truncated, ?_, rfl⟩
      simp only [field, cuts_tag _ p r hstart hr]

/-- The front of a message is a series of its fields, and the rest those after them or one that
ends too early. -/
theorem series_cut {fs : List Field} {b p q : Bytes} (h : Series IsField fs b) (hb : p ++ q = b) :
    ∃ gs hs c r, fs = gs ++ hs ∧ Series IsField gs c ∧ p = c ++ r ∧
      (r = [] ∧ Series IsField hs q ∨
        r ≠ [] ∧ ∃ e, field r = .error e ∧ e.cause = .truncated) := by
  induction h generalizing p with
  | nil =>
    obtain ⟨rfl, rfl⟩ := List.append_eq_nil_iff.mp hb
    exact ⟨[], [], [], [], rfl, .nil, rfl, .inl ⟨rfl, .nil⟩⟩
  | @cons f fs u b hu hbs ih =>
    rcases cut_append hb with ⟨r, rfl, hr⟩ | ⟨r, hr, rfl⟩
    · obtain ⟨gs, hs, c, r', rfl, hgs, rfl, hend⟩ := ih hr.symm
      exact ⟨f :: gs, hs, u ++ c, r', rfl, .cons hu hgs, (List.append_assoc ..).symm, hend⟩
    · refine ⟨[], f :: fs, [], p, rfl, .nil, rfl, ?_⟩
      by_cases hp : p = []
      · subst hp
        rw [List.nil_append] at hb
        rw [hb]
        exact .inl ⟨rfl, .cons hu hbs⟩
      · exact .inr ⟨hp, field_cut hu hr⟩

/-! ## Files -/

/-- A message is cut between two of its fields, or at one of its ends: so it has the fields `fs`
before the cut and the fields `gs` after it. -/
structure CutBetween (b p : Bytes) (fs gs : List Field) : Prop where
  before : Series IsField fs p
  after : ∃ c, b = p ++ c ∧ Series IsField gs c

theorem CutBetween.fields {b p : Bytes} {fs gs : List Field} (h : CutBetween b p fs gs) :
    split p = ⟨fs, none⟩ ∧ split b = ⟨fs ++ gs, none⟩ := by
  obtain ⟨c, rfl, hc⟩ := h.after
  exact ⟨split_eq_iff.mpr h.before, split_eq_iff.mpr (h.before.append hc)⟩

theorem model_parts {b : Bytes} {m : Model} (h : (model b).value = .ok m) :
    ∃ parts, (message modelStep {} b).value = .ok parts := by
  unfold model at h
  rw [Noted.value_bind] at h
  cases hparts : (message modelStep {} b).value with
  | ok parts => exact ⟨parts, rfl⟩
  | error e =>
    rw [hparts] at h
    cases h

/-- The fields before a cut can be read if all of a message can. -/
theorem readAll_of_append {σ : Type} {step : σ → Field → Noted σ} {fs gs : List Field} {s t : σ}
    (h : readAll step (fs ++ gs) s = some t) : ∃ u, readAll step fs s = some u := by
  unfold readAll at h ⊢
  rw [List.foldlM_append] at h
  obtain ⟨u, hu, -⟩ := Option.bind_eq_some_iff.mp h
  exact ⟨u, hu⟩

/-- **A file that ends too early is noticed.** Cut between two fields it is read up to there,
field by field; cut anywhere else it is no model, for the reason that it ends. -/
theorem load_truncated {b p : Bytes} {m : Model}
    (h : (ModelFormat.wire.load ⟨b⟩).model = .ok m) (hp : p <+: b) :
    (∀ fs gs, CutBetween b p fs gs → split p = ⟨fs, none⟩ ∧ (split b).fields = fs ++ gs) ∧
    ((∀ fs gs, ¬ CutBetween b p fs gs) → ∃ e : FieldError, e.cause = .truncated ∧
      (ModelFormat.wire.load ⟨p⟩).model = .error (.wire (.malformed e))) := by
  obtain ⟨q, rfl⟩ := hp
  refine ⟨fun fs gs hcut => ⟨hcut.fields.1, by rw [hcut.fields.2]⟩, fun hnone => ?_⟩
  have hm : (model (p ++ q)).value = .ok m := mapError_eq_ok.mp h
  obtain ⟨parts, hparts⟩ := model_parts hm
  obtain ⟨all, hall, hread⟩ := messageAt_eq_ok.mp hparts
  obtain ⟨gs, hs, c, r, rfl, hgs, rfl, hend⟩ := series_cut hall rfl
  rcases hend with ⟨rfl, hhs⟩ | ⟨hr, e, he, hcause⟩
  · rw [List.append_nil] at hnone
    exact absurd ⟨hgs, q, rfl, hhs⟩ (hnone gs hs)
  · obtain ⟨t, ht⟩ := readAll_of_append hread
    have hsplit : split (c ++ r) = ⟨gs, some e⟩ := by
      rw [split_append hgs, split_of_error hr he, List.append_nil]
    have hvalue : (message modelStep {} (c ++ r)).value = .error (.malformed e) := by
      simp only [message, messageAt, hsplit]
      exact value_foldFields_error e ht
    refine ⟨e, hcause, ?_⟩
    simp only [ModelFormat.load, model, Noted.value_bind, hvalue]
    rfl

/-- A file with a number that is not read, and a graph last. -/
def assorted : List Field := [intField 1 8, ⟨20, .fixed64 7⟩, part 7 [textField 2 "g"]]

theorem load_assorted_cut :
    (ModelFormat.wire.load ⟨write assorted⟩).model =
      .ok { formatVersion := 8, graph := { name := "g" } } ∧
    split (write (assorted.take 2)) = ⟨assorted.take 2, none⟩ ∧
    ∃ e : FieldError, e.cause = .truncated ∧
      (ModelFormat.wire.load ⟨(write assorted).dropLast⟩).model = .error (.wire (.malformed e)) := by
  have hload : (ModelFormat.wire.load ⟨write assorted⟩).model =
      .ok { formatVersion := 8, graph := { name := "g" } } := by cbv
  have hsplit : write assorted = write (assorted.take 2) ++ write (assorted.drop 2) := by
    decide +kernel
  have hbetween : CutBetween (write assorted) (write (assorted.take 2)) (assorted.take 2)
      (assorted.drop 2) :=
    ⟨series_write (by decide +kernel), _, hsplit, series_write (by decide +kernel)⟩
  have hwithin : (split (write assorted).dropLast).error = some (.value 7 .truncated) := by cbv
  refine ⟨hload, ?_, ?_⟩
  · exact ((load_truncated hload ⟨_, hsplit.symm⟩).1 _ _ hbetween).1
  · refine (load_truncated hload (List.dropLast_prefix _)).2 fun fs gs hcut => ?_
    rw [hcut.fields.1] at hwithin
    cases hwithin

end ShapeFlow.Wire
