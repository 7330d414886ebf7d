/-
The grammar of the wire format, told without its readers: which bytes are a number, a tag, a
value, a field. A number may have more digits than it needs, and a group holds fields of its
own, so that a message can be written in many ways. Each reader takes from the front of its
input just what the grammar allows, and leaves the rest (`Reads`); hence a field tells where it
ends (`reads_field`), and a message is well formed if it is a series of fields
(`split_eq_iff`).
-/
import Mathlib
import ShapeFlow.Proofs.Wire.Order

namespace ShapeFlow.Wire

/-! ## The grammar -/

/-- Digits to the base 128, the lowest first, with a mark on all but the last. -/
inductive IsDigits : Nat → Bytes → Prop
  | last {d : UInt8} : d < 128 → IsDigits d.toNat [d]
  | more {d : UInt8} {n : Nat} {b : Bytes} : ¬ d < 128 → IsDigits n b →
      IsDigits (d.toNat - 128 + 128 * n) (d :: b)

/-- A number of 64 bits in at most ten digits, the highest of which may be zero. -/
structure IsVarint (n : Nat) (b : Bytes) : Prop where
  digits : IsDigits n b
  length : b.length ≤ 10
  word : n < wordLimit

/-- The number that bytes stand for, the lowest first. -/
def ofBytes : Bytes → Nat
  | [] => 0
  | d :: b => d.toNat + 256 * ofBytes b

/-- A number in so many bytes. -/
structure IsFixed (count n : Nat) (b : Bytes) : Prop where
  length : b.length = count
  value : ofBytes b = n

structure IsTag (t : Tag) (b : Bytes) : Prop where
  positive : 0 < t.number
  bounded : t.number < 0x80000000
  type : t.type < 8
  digits : IsVarint (8 * t.number + t.type) b

/-- A value that is not a group, of a type. -/
inductive IsPlain : Nat → Value → Bytes → Prop
  | varint {n : UInt64} {b : Bytes} : IsVarint n.toNat b → IsPlain 0 (.varint n) b
  | fixed64 {n : UInt64} {b : Bytes} : IsFixed 8 n.toNat b → IsPlain 1 (.fixed64 n) b
  | bytes {length b : Bytes} : IsVarint b.length length → IsPlain 2 (.bytes b) (length ++ b)
  | fixed32 {n : UInt32} {b : Bytes} : IsFixed 4 n.toNat b → IsPlain 5 (.fixed32 n) b

/-- The types 3 and 4 open and close groups. -/
theorem IsPlain.not_group {type : Nat} {v : Value} {u : Bytes} (h : IsPlain type v u) :
    type ≠ 3 ∧ type ≠ 4 := by
  cases h <;> decide

/-- What a group holds: fields, among them groups that are nested so deep at most. -/
inductive IsContent : Nat → Bytes → Prop
  | nil {depth : Nat} : IsContent depth []
  | plain {depth : Nat} {t : Tag} {v : Value} {a u b : Bytes} : IsTag t a → IsPlain t.type v u →
      IsContent depth b → IsContent depth (a ++ (u ++ b))
  | group {depth number : Nat} {start body stop b : Bytes} : IsTag ⟨number, 3⟩ start →
      IsContent depth body → IsTag ⟨number, 4⟩ stop → IsContent (depth + 1) b →
      IsContent (depth + 1) (start ++ (body ++ (stop ++ b)))

/-- A field: a tag and a value, or a group with what closes it. -/
inductive IsField : Field → Bytes → Prop
  | plain {t : Tag} {v : Value} {a u : Bytes} : IsTag t a → IsPlain t.type v u →
      IsField ⟨t.number, v⟩ (a ++ u)
  | group {number : Nat} {start body stop : Bytes} : IsTag ⟨number, 3⟩ start →
      IsContent (depthLimit - 1) body → IsTag ⟨number, 4⟩ stop →
      IsField ⟨number, .group⟩ (start ++ (body ++ stop))

/-- Things of one kind, written one after the other. -/
inductive Series {α : Type} (Written : α → Bytes → Prop) : List α → Bytes → Prop
  | nil : Series Written [] []
  | cons {x : α} {xs : List α} {u b : Bytes} : Written x u → Series Written xs b →
      Series Written (x :: xs) (u ++ b)

theorem Series.append {α : Type} {Written : α → Bytes → Prop} {xs ys : List α} {b c : Bytes}
    (h : Series Written xs b) (h' : Series Written ys c) : Series Written (xs ++ ys) (b ++ c) := by
  induction h with
  | nil => exact h'
  | cons hx _ ih =>
    rw [List.cons_append, List.append_assoc]
    exact .cons hx ih

/-! ## Readers of a grammar -/

/-- A reader takes from the front of its input what the grammar allows, and leaves the rest. -/
def Reads {ε α : Type} (read : Bytes → Except ε (α × Bytes)) (Written : α → Bytes → Prop) : Prop :=
  ∀ c x rest, read c = .ok (x, rest) ↔ ∃ u, Written x u ∧ c = u ++ rest

namespace Reads

variable {ε α : Type} {read : Bytes → Except ε (α × Bytes)} {Written : α → Bytes → Prop}
  {c u rest : Bytes} {x : α}

theorem append (h : Reads read Written) (hu : Written x u) (rest : Bytes) :
    read (u ++ rest) = .ok (x, rest) := (h _ x rest).mpr ⟨u, hu, rfl⟩

theorem written (h : Reads read Written) (hc : read c = .ok (x, rest)) :
    ∃ u, Written x u ∧ c = u ++ rest := (h c x rest).mp hc

end Reads

/-! ## Numbers -/

theorem byte_lt_iff {d : UInt8} {n : Nat} (hn : n < 256) : d < UInt8.ofNat n ↔ d.toNat < n := by
  rw [UInt8.lt_iff_toNat_lt, toNat_byte hn]

/-- Digits as a reader with so many bytes to go and one bit takes them. -/
structure IsDigitsUpTo (more n : Nat) (b : Bytes) : Prop where
  digits : IsDigits n b
  length : b.length ≤ more + 1
  limit : n < varintLimit more

theorem two_le_varintLimit (more : Nat) : 2 ≤ varintLimit more := by
  induction more with
  | zero => exact Nat.le_refl 2
  | succ more ih =>
    simp only [varintLimit]
    omega

theorem varintUpTo_sound {more n : Nat} {c rest : Bytes} (h : varintUpTo more c = .ok (n, rest)) :
    ∃ u, IsDigitsUpTo more n u ∧ c = u ++ rest := by
  induction more generalizing c n rest with
  | zero =>
    cases c with
    | nil => cases h
    | cons d c =>
      simp only [varintUpTo] at h
      split at h
      · next hd =>
        cases h
        have hlt : d.toNat < 2 := (byte_lt_iff (n := 2) (by omega)).mp hd
        exact ⟨[d], ⟨.last ((byte_lt_iff (n := 128) (by omega)).mpr (by omega)), by simp, hlt⟩, rfl⟩
      · cases h
  | succ more ih =>
    cases c with
    | nil => cases h
    | cons d c =>
      simp only [varintUpTo] at h
      split at h
      · next hd =>
        cases h
        have hlt : d.toNat < 128 := (byte_lt_iff (n := 128) (by omega)).mp hd
        have hlimit := two_le_varintLimit more
        refine ⟨[d], ⟨.last hd, by simp, ?_⟩, rfl⟩
        simp only [varintLimit]
        omega
      · next hd =>
        split at h
        · cases h
        · next m c' hm =>
          cases h
          obtain ⟨u, hu, rfl⟩ := ih hm
          have hbyte := d.toNat_lt
          have hlimit := hu.limit
          refine ⟨d :: u, ⟨.more hd hu.digits, by simpa using hu.length, ?_⟩, rfl⟩
          simp only [varintLimit]
          omega

theorem varintUpTo_complete {more n : Nat} {u : Bytes} (h : IsDigitsUpTo more n u) (rest : Bytes) :
    varintUpTo more (u ++ rest) = .ok (n, rest) := by
  obtain ⟨hdigits, hlength, hlimit⟩ := h
  induction hdigits generalizing more with
  | @last d hd =>
    cases more with
    | zero =>
      have hbyte : d < 2 := (byte_lt_iff (n := 2) (by omega)).mpr hlimit
      simp [varintUpTo, hbyte]
    | succ more => simp [varintUpTo, hd]
  | @more d n b hd hdigits ih =>
    cases more with
    | zero =>
      -- A marked digit cannot be the last.
      cases hdigits <;> simp at hlength
    | succ more =>
      simp only [varintLimit] at hlimit
      have hshort : b.length ≤ more + 1 := by simpa using hlength
      have hrest := ih hshort (by omega)
      simp [varintUpTo, hd, hrest]

theorem reads_varint : Reads varint IsVarint := by
  intro c n rest
  constructor
  · intro h
    obtain ⟨u, hu, rfl⟩ := varintUpTo_sound h
    exact ⟨u, ⟨hu.digits, hu.length, hu.limit⟩, rfl⟩
  · rintro ⟨u, hu, rfl⟩
    exact varintUpTo_complete ⟨hu.digits, hu.length, hu.word⟩ rest

theorem reads_fixed (count : Nat) : Reads (fixed count) (IsFixed count) := by
  intro c n rest
  induction count generalizing c n with
  | zero =>
    constructor
    · intro h
      cases h
      exact ⟨[], ⟨rfl, rfl⟩, rfl⟩
    · rintro ⟨u, ⟨hlength, rfl⟩, rfl⟩
      obtain rfl := List.length_eq_zero_iff.mp hlength
      rfl
  | succ count ih =>
    constructor
    · intro h
      cases c with
      | nil => cases h
      | cons d c =>
        simp only [fixed] at h
        split at h
        · cases h
        · next m c' hm =>
          cases h
          obtain ⟨u, ⟨hlength, rfl⟩, rfl⟩ := (ih c m).mp hm
          exact ⟨d :: u, ⟨by simp [hlength], rfl⟩, rfl⟩
    · rintro ⟨u, ⟨hlength, rfl⟩, rfl⟩
      cases u with
      | nil => cases hlength
      | cons d u =>
        have hrest := (ih (u ++ rest) (ofBytes u)).mpr ⟨u, ⟨by simpa using hlength, rfl⟩, rfl⟩
        simp only [List.cons_append, fixed, hrest]
        rfl

theorem ofBytes_lt (b : Bytes) : ofBytes b < fixedLimit b.length := by
  induction b with
  | nil => exact Nat.one_pos
  | cons d b ih =>
    have hd := d.toNat_lt
    simp only [ofBytes, List.length_cons, fixedLimit]
    omega

theorem chunk_eq_ok {count : Nat} {c taken rest : Bytes} :
    chunk count c = .ok (taken, rest) ↔ taken.length = count ∧ c = taken ++ rest := by
  constructor
  · intro h
    simp only [chunk] at h
    split at h
    · cases h
    · next hlength =>
      cases h
      rw [List.length_take] at hlength ⊢
      exact ⟨by omega, (List.take_append_drop count c).symm⟩
  · rintro ⟨rfl, rfl⟩
    exact chunk_append taken rest

/-! ## Tags and values -/

theorem reads_tag : Reads tag IsTag := by
  intro c t rest
  constructor
  · intro h
    simp only [tag] at h
    split at h
    · cases h
    · next n c' hn =>
      obtain ⟨u, hu, rfl⟩ := reads_varint.written hn
      split at h
      · cases h
      · next hnumber =>
        cases h
        refine ⟨u, ⟨by simp only; omega, by simp only; omega, by simp only; omega, ?_⟩, rfl⟩
        simp only
        rw [show 8 * (n / 8) + n % 8 = n by omega]
        exact hu
  · rintro ⟨u, hu, rfl⟩
    obtain ⟨number, type⟩ := t
    obtain ⟨hpositive, hbounded, htype, hdigits⟩ := hu
    simp only at hpositive hbounded htype hdigits
    have hdiv : (8 * number + type) / 8 = number := by omega
    have hmod : (8 * number + type) % 8 = type := by omega
    simp only [tag, reads_varint.append hdigits, hdiv, hmod]
    rw [if_neg (by omega)]

theorem reads_plain (type : Nat) : Reads (plain type) (IsPlain type) := by
  intro c v rest
  constructor
  · intro h
    unfold plain at h
    split at h
    · obtain ⟨⟨n, c'⟩, hn, he⟩ := map_eq_ok h
      cases he
      obtain ⟨u, hu, rfl⟩ := reads_varint.written hn
      refine ⟨u, .varint ?_, rfl⟩
      rwa [UInt64.toNat_ofNat_of_lt' hu.word]
    · obtain ⟨⟨n, c'⟩, hn, he⟩ := map_eq_ok h
      cases he
      obtain ⟨u, ⟨hlength, rfl⟩, rfl⟩ := (reads_fixed 8).written hn
      have hlt := ofBytes_lt u
      rw [hlength] at hlt
      refine ⟨u, .fixed64 ⟨hlength, ?_⟩, rfl⟩
      rw [UInt64.toNat_ofNat_of_lt' hlt]
    · split at h
      · cases h
      · next length c' hn =>
        obtain ⟨⟨taken, c''⟩, hc, he⟩ := map_eq_ok h
        cases he
        obtain ⟨u, hu, rfl⟩ := reads_varint.written hn
        obtain ⟨rfl, rfl⟩ := chunk_eq_ok.mp hc
        exact ⟨u ++ taken, .bytes hu, (List.append_assoc ..).symm⟩
    · cases h
    · obtain ⟨⟨n, c'⟩, hn, he⟩ := map_eq_ok h
      cases he
      obtain ⟨u, ⟨hlength, rfl⟩, rfl⟩ := (reads_fixed 4).written hn
      have hlt := ofBytes_lt u
      rw [hlength] at hlt
      refine ⟨u, .fixed32 ⟨hlength, ?_⟩, rfl⟩
      rw [UInt32.toNat_ofNat_of_lt' hlt]
    · cases h
  · rintro ⟨u, hu, rfl⟩
    cases hu with
    | varint hn => simp [plain, reads_varint.append hn, Except.map]
    | fixed64 hn => simp [plain, (reads_fixed 8).append hn, Except.map]
    | bytes hlength =>
      simp [plain, reads_varint.append hlength, chunk_append, Except.map]
    | fixed32 hn => simp [plain, (reads_fixed 4).append hn, Except.map]

/-! ## Groups -/

section Skip

variable {number opened : Nat} {outer : List Nat} {c after rest : Bytes}

theorem skipGroups_plain {t : Tag} {v : Value} (ht : tag c = .ok (t, after))
    (hv : plain t.type after = .ok (v, rest)) :
    skipGroups (number :: outer) c = skipGroups (number :: outer) rest := by
  obtain ⟨u, hu, -⟩ := (reads_plain t.type).written hv
  obtain ⟨hthree, hfour⟩ := hu.not_group
  rw [skipGroups, ht]
  simp only [if_neg hfour, if_neg hthree]
  rw [hv]

theorem skipGroups_open (ht : tag c = .ok (⟨opened, 3⟩, rest))
    (hdepth : outer.length + 1 < depthLimit) :
    skipGroups (number :: outer) c = skipGroups (opened :: number :: outer) rest := by
  rw [skipGroups, ht]
  simp only
  rw [if_neg (by omega), if_pos trivial, if_neg (by rw [List.length_cons]; omega)]

theorem skipGroups_close (ht : tag c = .ok (⟨number, 4⟩, rest)) :
    skipGroups (number :: outer) c = skipGroups outer rest := by
  rw [skipGroups, ht]
  simp only [if_true]

/-- What a group holds is skipped, unless groups in it are nested too deep. -/
theorem skipGroups_content {depth : Nat} {body : Bytes} (h : IsContent depth body)
    (hdepth : depth + (outer.length + 1) ≤ depthLimit) (rest : Bytes) :
    skipGroups (number :: outer) (body ++ rest) = skipGroups (number :: outer) rest := by
  induction h generalizing number outer rest with
  | nil => rfl
  | plain ht hv _ ih =>
    rw [List.append_assoc, List.append_assoc, skipGroups_plain (reads_tag.append ht _)
      ((reads_plain _).append hv _), ih hdepth]
  | group hstart _ hstop _ ihbody ihb =>
    simp only [List.append_assoc]
    rw [skipGroups_open (reads_tag.append hstart _) (by omega),
      ihbody (by rw [List.length_cons]; omega), skipGroups_close (reads_tag.append hstop _),
      ihb hdepth]

end Skip

/-- What closes the open groups, the innermost first. -/
inductive Closes : List Nat → Bytes → Prop
  | nil : Closes [] []
  | cons {number : Nat} {outer : List Nat} {body stop b : Bytes} :
      IsContent (depthLimit - (outer.length + 1)) body → IsTag ⟨number, 4⟩ stop → Closes outer b →
      Closes (number :: outer) (body ++ (stop ++ b))

namespace Closes

variable {number : Nat} {outer : List Nat} {a u b : Bytes}

theorem plain {t : Tag} {v : Value} (ht : IsTag t a) (hv : IsPlain t.type v u)
    (hb : Closes (number :: outer) b) : Closes (number :: outer) (a ++ (u ++ b)) := by
  cases hb with
  | cons hbody hstop hb =>
    have hclosed := Closes.cons (.plain ht hv hbody) hstop hb
    simpa only [List.append_assoc] using hclosed

theorem group {opened : Nat} (ht : IsTag ⟨opened, 3⟩ a) (hdepth : outer.length + 1 < depthLimit)
    (hb : Closes (opened :: number :: outer) b) : Closes (number :: outer) (a ++ b) := by
  cases hb with
  | cons hinner hclose hb =>
    cases hb with
    | cons hbody hstop hb =>
      -- One level more is open outside the group than in it.
      obtain ⟨depth, hd⟩ : ∃ depth, depthLimit - (outer.length + 1) = depth + 1 :=
        ⟨depthLimit - (outer.length + 2), by omega⟩
      have hinside : depthLimit - ((number :: outer).length + 1) = depth := by
        rw [List.length_cons]
        omega
      rw [hinside] at hinner
      rw [hd] at hbody
      have hcontent := IsContent.group ht hinner hclose hbody
      rw [← hd] at hcontent
      have hclosed := Closes.cons hcontent hstop hb
      simpa only [List.append_assoc] using hclosed

end Closes

theorem skipGroups_sound {opened : List Nat} {c rest : Bytes} (h : skipGroups opened c = .ok rest) :
    ∃ u, Closes opened u ∧ c = u ++ rest := by
  fun_induction skipGroups opened c with
  | case1 c =>
    cases h
    exact ⟨[], .nil, rfl⟩
  | case2 => cases h
  | case3 c outer t after ht htype ih =>
    obtain ⟨number, type⟩ := t
    obtain rfl : type = 4 := htype
    obtain ⟨a, ha, rfl⟩ := reads_tag.written ht
    obtain ⟨b, hb, rfl⟩ := ih h
    exact ⟨a ++ b, .cons .nil ha hb, (List.append_assoc ..).symm⟩
  | case4 => cases h
  | case5 _ _ _ _ _ _ _ _ hdepth =>
    rw [if_pos hdepth] at h
    cases h
  | case6 c number outer t after ht hfour hthree hdepth ih =>
    rw [if_neg hdepth] at h
    obtain ⟨opened, type⟩ := t
    obtain rfl : type = 3 := hthree
    obtain ⟨a, ha, rfl⟩ := reads_tag.written ht
    obtain ⟨b, hb, rfl⟩ := ih h
    exact ⟨a ++ b, .group ha (Nat.not_le.mp hdepth) hb, (List.append_assoc ..).symm⟩
  | case7 => cases h
  | case8 c number outer t after ht hfour hthree v left hv ih =>
    obtain ⟨a, ha, rfl⟩ := reads_tag.written ht
    obtain ⟨u, hu, rfl⟩ := (reads_plain t.type).written hv
    obtain ⟨b, hb, rfl⟩ := ih h
    exact ⟨a ++ (u ++ b), .plain ha hu hb, by simp only [List.append_assoc]⟩

/-- **A group is skipped to its end.** -/
theorem skipGroups_eq_ok {number : Nat} {c rest : Bytes} : skipGroups [number] c = .ok rest ↔
    ∃ body stop, IsContent (depthLimit - 1) body ∧ IsTag ⟨number, 4⟩ stop ∧
      c = body ++ (stop ++ rest) := by
  constructor
  · intro h
    obtain ⟨u, hu, rfl⟩ := skipGroups_sound h
    cases hu with
    | @cons _ _ body stop _ hbody hstop hnil =>
      cases hnil
      exact ⟨body, stop, hbody, hstop, by simp only [List.append_assoc, List.nil_append]⟩
  · rintro ⟨body, stop, hbody, hstop, rfl⟩
    rw [skipGroups_content hbody (by decide), skipGroups_close (reads_tag.append hstop rest),
      skipGroups]

/-! ## Fields and messages -/

/-- **A field is told from the bytes at the front**, and nothing of what follows. -/
theorem reads_field : Reads field IsField := by
  intro c f rest
  constructor
  · intro h
    simp only [field] at h
    split at h
    · cases h
    · next t after ht =>
      obtain ⟨a, ha, rfl⟩ := reads_tag.written ht
      split at h
      · cases h
      · next v left hv =>
        cases h
        unfold value at hv
        split at hv
        · next hthree =>
          obtain ⟨left, hskip, he⟩ := map_eq_ok hv
          cases he
          obtain ⟨body, stop, hbody, hstop, rfl⟩ := skipGroups_eq_ok.mp hskip
          obtain ⟨number, type⟩ := t
          obtain rfl : type = 3 := hthree
          exact ⟨a ++ (body ++ stop), .group ha hbody hstop, by simp only [List.append_assoc]⟩
        · obtain ⟨u, hu, rfl⟩ := (reads_plain t.type).written hv
          exact ⟨a ++ u, .plain ha hu, (List.append_assoc ..).symm⟩
  · rintro ⟨u, hu, rfl⟩
    cases hu with
    | @plain t v a u ht hv =>
      rw [List.append_assoc]
      simp only [field, reads_tag.append ht, value, if_neg hv.not_group.1, (reads_plain _).append hv]
    | @group number start body stop hstart hbody hstop =>
      have hskip : skipGroups [number] (body ++ (stop ++ rest)) = .ok rest :=
        skipGroups_eq_ok.mpr ⟨body, stop, hbody, hstop, rfl⟩
      simp only [List.append_assoc, field, reads_tag.append hstart, value, if_true, hskip, Except.map]

theorem split_nil : split [] = ⟨[], none⟩ := by
  rw [split]
  rfl

theorem split_of_field {c rest : Bytes} {f : Field} (h : field c = .ok (f, rest)) :
    split c = ⟨f :: (split rest).fields, (split rest).error⟩ := by
  have hne : c.isEmpty = false := by
    cases c with
    | nil => cases h
    | cons d c => rfl
  rw [split, hne, h]
  rfl

theorem split_of_error {c : Bytes} {e : FieldError} (hne : c ≠ []) (h : field c = .error e) :
    split c = ⟨[], some e⟩ := by
  have hne : c.isEmpty = false := by simpa using hne
  rw [split, hne, h]
  rfl

/-- Fields at the front are split off one by one. -/
theorem split_append {fs : List Field} {b : Bytes} (h : Series IsField fs b) (c : Bytes) :
    split (b ++ c) = ⟨fs ++ (split c).fields, (split c).error⟩ := by
  induction h with
  | nil => rfl
  | cons hu _ ih =>
    rw [List.append_assoc, split_of_field (reads_field.append hu _), ih]
    rfl

theorem series_split {b : Bytes} (h : (split b).error = none) :
    Series IsField (split b).fields b := by
  induction hn : b.length using Nat.strongRecOn generalizing b with
  | ind n ih =>
    by_cases hb : b = []
    · rw [hb, split_nil]
      exact .nil
    · cases hf : field b with
      | error e =>
        rw [split_of_error hb hf] at h
        cases h
      | ok r =>
        have hlength := field_length hf
        obtain ⟨u, hu, rfl⟩ := reads_field.written hf
        rw [split_of_field hf] at h ⊢
        exact .cons hu (ih _ (by omega) h rfl)

/-- **A message is well formed if it is a series of fields.** -/
theorem split_eq_iff {fs : List Field} {b : Bytes} : split b = ⟨fs, none⟩ ↔ Series IsField fs b := by
  constructor
  · intro h
    have hseries := series_split (b := b) (by rw [h])
    rwa [h] at hseries
  · intro h
    have hsplit := split_append h []
    rwa [List.append_nil, split_nil, List.append_nil] at hsplit

theorem isField_of_field {f : Field} {u : Bytes} (h : field u = .ok (f, [])) : IsField f u := by
  obtain ⟨v, hv, rfl⟩ := reads_field.written h
  rwa [List.append_nil]

/-- What is written is one of the ways to write a field. -/
theorem isField_write {f : Field} (h : f.isNumbered = true) (hsize : f.bytes.length < wordLimit) :
    IsField f f.write := by
  have hread := field_write h hsize []
  rw [List.append_nil] at hread
  exact isField_of_field hread

theorem series_write {fs : List Field}
    (h : ∀ f ∈ fs, f.isNumbered = true ∧ f.bytes.length < wordLimit) :
    Series IsField fs (write fs) := split_eq_iff.mp (split_write h)

/-! ## Decoding -/

section Decoding

variable {σ : Type} {locate : σ → DecodeError → DecodeError} {step : σ → Field → Noted σ}
  {s t : σ} {fs : List Field}

/-- After its last field, a message that goes on is an error. -/
theorem value_foldFields_error (e : FieldError) (h : readAll step fs s = some t) :
    (foldFields locate step (some e) s fs).value = .error (locate t (.malformed e)) := by
  induction fs generalizing s with
  | nil =>
    cases h
    rfl
  | cons f fs ih =>
    rw [readAll_cons, Option.bind_eq_some_iff] at h
    obtain ⟨u, hu, h⟩ := h
    simp only [foldFields, Noted.result?_eq_some.mp hu]
    exact ih h

theorem value_foldFields_ne_ok (e : FieldError) :
    (foldFields locate step (some e) s fs).value ≠ .ok t := by
  induction fs generalizing s with
  | nil =>
    intro h
    cases h
  | cons f fs ih =>
    simp only [foldFields]
    split
    · intro h
      cases h
    · exact ih

/-- The fields of a message are read one after the other. -/
theorem result?_of_series (locate : σ → DecodeError → DecodeError) {b : Bytes}
    (h : Series IsField fs b) : (messageAt locate step s b).result? = readAll step fs s := by
  simp only [messageAt, split_eq_iff.mpr h]
  exact result?_foldFields locate fs s

/-- **A message is decoded just when it is a series of fields, each of which can be read.** -/
theorem messageAt_eq_ok {b : Bytes} : (messageAt locate step s b).value = .ok t ↔
    ∃ fs, Series IsField fs b ∧ readAll step fs s = some t := by
  constructor
  · intro h
    cases he : (split b).error with
    | some e =>
      simp only [messageAt, he] at h
      exact absurd h (value_foldFields_ne_ok e)
    | none =>
      have hfs := series_split he
      rw [← Noted.result?_eq_some, result?_of_series locate hfs] at h
      exact ⟨_, hfs, h⟩
  · rintro ⟨fs, hfs, hall⟩
    rw [← Noted.result?_eq_some, result?_of_series locate hfs, hall]

end Decoding

end ShapeFlow.Wire
