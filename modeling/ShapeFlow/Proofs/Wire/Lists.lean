/-
Lists of numbers in messages. A list may be cut into stretches in any way, each of which is
packed into one field or has a field for each of its numbers, and other fields may stand
between them (`Listed`). A decoder gives the list just when it is written so, and so any other
type of such a field is an error (`lists_of_series`).

An attribute has its lists unless it declares a type that is not read, that of tensors or of
graphs: it is then dropped with all its fields. Its value is a list if it declares so, or if it
declares nothing and there is nothing that comes before the list (`HasLists`).
-/
import Mathlib
import ShapeFlow.Proofs.Wire.Grammar
import ShapeFlow.Proofs.Wire.Sizes

namespace ShapeFlow.Wire

/-! ## Packed lists -/

/-- A number of a packed list: 64 bits, with or without a sign. -/
def IsInt (n : Int64) (u : Bytes) : Prop := IsVarint n.toUInt64.toNat u

def IsFloat (x : Single) (u : Bytes) : Prop := IsFixed 4 x.bits.toNat u

theorem packedInts_nil : packedInts [] = .ok [] := by
  rw [packedInts]
  rfl

theorem packedInts_of_varint {b rest : Bytes} {n : Nat} (h : varint b = .ok (n, rest)) :
    packedInts b = (packedInts rest).map ((UInt64.ofNat n).toInt64 :: ·) := by
  have hne : b.isEmpty = false := by
    cases b with
    | nil => cases h
    | cons d b => rfl
  rw [packedInts, hne, h]
  rfl

theorem packedInts_of_error {b : Bytes} {e : WireError} (hne : b ≠ []) (h : varint b = .error e) :
    packedInts b = .error e := by
  have hne : b.isEmpty = false := by simpa using hne
  rw [packedInts, hne, h]
  rfl

theorem series_packedInts {b : Bytes} {ns : List Int64} (h : packedInts b = .ok ns) :
    Series IsInt ns b := by
  induction hn : b.length using Nat.strongRecOn generalizing b ns with
  | ind _ ih =>
    by_cases hb : b = []
    · rw [hb, packedInts_nil] at h
      cases h
      rw [hb]
      exact .nil
    · cases hv : varint b with
      | error e =>
        rw [packedInts_of_error hb hv] at h
        cases h
      | ok r =>
        obtain ⟨n, rest⟩ := r
        rw [packedInts_of_varint hv] at h
        obtain ⟨ms, hms, rfl⟩ := map_eq_ok h
        have hlength := varintUpTo_length hv
        obtain ⟨u, hu, rfl⟩ := reads_varint.written hv
        refine .cons ?_ (ih _ (by omega) hms rfl)
        show IsVarint (UInt64.ofNat n).toInt64.toUInt64.toNat u
        rw [UInt64.toUInt64_toInt64, UInt64.toNat_ofNat_of_lt' hu.word]
        exact hu

theorem packedInts_eq_ok {b : Bytes} {ns : List Int64} :
    packedInts b = .ok ns ↔ Series IsInt ns b := by
  constructor
  · exact series_packedInts
  · intro h
    induction h with
    | nil => exact packedInts_nil
    | cons hu _ ih =>
      rw [packedInts_of_varint (reads_varint.append hu _), ih]
      simp [Except.map]

/-- Four bytes put together are the number that they stand for. -/
theorem toNat_join (a b c d : UInt8) :
    (a.toUInt32 ||| b.toUInt32 <<< 8 ||| c.toUInt32 <<< 16 ||| d.toUInt32 <<< 24).toNat =
      ofBytes [a, b, c, d] := by
  have hlt := ofBytes_lt [a, b, c, d]
  have hword : (UInt32.ofNat (ofBytes [a, b, c, d])).toNat = ofBytes [a, b, c, d] :=
    UInt32.toNat_ofNat_of_lt' hlt
  have hlow : ∀ (d : UInt8) n, UInt8.ofNat (d.toNat + 256 * n) = d := by
    intro d n
    have hd := d.toNat_lt
    apply UInt8.toNat_inj.mp
    rw [UInt8.toNat_ofNat']
    omega
  have hhigh : ∀ (d : UInt8) n, (d.toNat + 256 * n) / 256 = n := by
    intro d n
    have hd := d.toNat_lt
    omega
  have hjoin := join_bytes (UInt32.ofNat (ofBytes [a, b, c, d]))
  rw [hword] at hjoin
  simp only [ofBytes, hhigh, hlow] at hjoin
  rw [hjoin]
  exact hword

theorem packedFloats_eq_ok {b : Bytes} {xs : List Single} :
    packedFloats b = .ok xs ↔ Series IsFloat xs b := by
  constructor
  · intro h
    induction b using packedFloats.induct generalizing xs with
    | case1 =>
      cases h
      exact .nil
    | case2 a b c d rest ih =>
      rw [packedFloats] at h
      obtain ⟨ys, hys, rfl⟩ := map_eq_ok h
      exact .cons (u := [a, b, c, d]) ⟨rfl, (toNat_join a b c d).symm⟩ (ih hys)
    | case3 b hnil hcons =>
      rw [packedFloats] at h
      · cases h
      · exact hnil
      · exact hcons
  · intro h
    induction h with
    | nil => rfl
    | @cons x xs u b hu _ ih =>
      obtain ⟨hlength, hvalue⟩ := hu
      obtain _ | ⟨a, _ | ⟨b, _ | ⟨c, _ | ⟨d, _ | ⟨e, u⟩⟩⟩⟩⟩ := u <;> simp at hlength
      rw [← toNat_join] at hvalue
      simp only [List.cons_append, List.nil_append, packedFloats, ih, UInt32.toNat_inj.mp hvalue]
      rfl

/-! ## Lists as fields -/

/-- Fields of a number that a list is written as: each holds the next element, or as many as
it may, none among them, packed. -/
inductive Listed {α : Type} (IsElement : α → Bytes → Prop) (single : α → Value) (number : Nat) :
    List α → List Field → Prop
  | nil : Listed IsElement single number [] []
  | one {x : α} {ys : List α} {fs : List Field} : Listed IsElement single number ys fs →
      Listed IsElement single number (x :: ys) (⟨number, single x⟩ :: fs)
  | packed {xs ys : List α} {b : Bytes} {fs : List Field} : Series IsElement xs b →
      Listed IsElement single number ys fs →
      Listed IsElement single number (xs ++ ys) (⟨number, .bytes b⟩ :: fs)

def ListedInts : Nat → List Int64 → List Field → Prop := Listed IsInt fun n => .varint n.toUInt64

def ListedFloats : Nat → List Single → List Field → Prop := Listed IsFloat fun x => .fixed32 x.bits

/-- What a field adds to a list: one element, or a packed list. -/
def ReadsList {α : Type} (read : Field → Except DecodeError (List α))
    (IsElement : α → Bytes → Prop) (single : α → Value) : Prop :=
  ∀ f xs, read f = .ok xs ↔
    (∃ x, f.value = single x ∧ xs = [x]) ∨ ∃ b, f.value = .bytes b ∧ Series IsElement xs b

theorem readsList_ints : ReadsList Field.ints IsInt fun n => .varint n.toUInt64 := by
  intro f ns
  obtain ⟨number, v⟩ := f
  cases v with
  | varint n =>
    simp only [Field.ints, Except.ok.injEq, Value.varint.injEq, reduceCtorEq, false_and,
      exists_false, or_false]
    constructor
    · rintro rfl
      exact ⟨n.toInt64, n.toUInt64_toInt64.symm, rfl⟩
    · rintro ⟨m, rfl, rfl⟩
      rw [Int64.toInt64_toUInt64]
  | bytes b => simp [Field.ints, mapError_eq_ok, packedInts_eq_ok]
  | fixed64 n => simp [Field.ints]
  | group => simp [Field.ints]
  | fixed32 n => simp [Field.ints]

theorem readsList_floats : ReadsList Field.floats IsFloat fun x => .fixed32 x.bits := by
  intro f xs
  obtain ⟨number, v⟩ := f
  cases v with
  | fixed32 n =>
    simp only [Field.floats, Except.ok.injEq, Value.fixed32.injEq, reduceCtorEq, false_and,
      exists_false, or_false]
    constructor
    · rintro rfl
      exact ⟨⟨n⟩, rfl, rfl⟩
    · rintro ⟨x, rfl, rfl⟩
      rfl
  | bytes b => simp [Field.floats, mapError_eq_ok, packedFloats_eq_ok]
  | varint n => simp [Field.floats]
  | fixed64 n => simp [Field.floats]
  | group => simp [Field.floats]

section Listed

variable {α : Type} {read : Field → Except DecodeError (List α)} {IsElement : α → Bytes → Prop}
  {single : α → Value} {number : Nat} {xs : List α} {fs : List Field}

/-- All fields of the number can be read as parts of a list. -/
def Readable (read : Field → Except DecodeError (List α)) (number : Nat) (fs : List Field) : Prop :=
  ∀ f ∈ fs, f.number = number → ∃ xs, read f = .ok xs

theorem readable_cons {f : Field} : Readable read number (f :: fs) ↔
    (f.number = number → ∃ xs, read f = .ok xs) ∧ Readable read number fs := List.forall_mem_cons

theorem elementsIn_cons (f : Field) (fs : List Field) : elementsIn read number (f :: fs) =
    (if f.number = number then (read f).toOption.getD [] else []) ++ elementsIn read number fs := rfl

theorem elementsIn_cons_of_read {f : Field} (hf : f.number = number) (h : read f = .ok xs)
    (fs : List Field) : elementsIn read number (f :: fs) = xs ++ elementsIn read number fs := by
  rw [elementsIn_cons, if_pos hf, h]
  rfl

theorem elementsIn_filter (read : Field → Except DecodeError (List α)) (number : Nat)
    (fs : List Field) :
    elementsIn read number (fs.filter (·.number = number)) = elementsIn read number fs := by
  induction fs with
  | nil => rfl
  | cons f fs ih =>
    by_cases hnumber : f.number = number
    · rw [List.filter_cons_of_pos (by simpa using hnumber), elementsIn_cons, elementsIn_cons, ih]
    · rw [List.filter_cons_of_neg (by simpa using hnumber), elementsIn_cons, if_neg hnumber, ih]
      rfl

theorem Listed.elements (hread : ReadsList read IsElement single)
    (h : Listed IsElement single number xs fs) :
    Readable read number fs ∧ elementsIn read number fs = xs := by
  induction h with
  | nil => exact ⟨by simp [Readable], rfl⟩
  | @one x ys fs _ ih =>
    have hfield : read ⟨number, single x⟩ = .ok [x] := (hread _ _).mpr (.inl ⟨x, rfl, rfl⟩)
    refine ⟨readable_cons.mpr ⟨fun _ => ⟨_, hfield⟩, ih.1⟩, ?_⟩
    rw [elementsIn_cons_of_read rfl hfield, ih.2]
    rfl
  | @packed xs ys b fs hb _ ih =>
    have hfield : read ⟨number, .bytes b⟩ = .ok xs := (hread _ _).mpr (.inr ⟨b, rfl, hb⟩)
    refine ⟨readable_cons.mpr ⟨fun _ => ⟨_, hfield⟩, ih.1⟩, ?_⟩
    rw [elementsIn_cons_of_read rfl hfield, ih.2]

/-- Fields of other numbers may stand between those of the list. -/
theorem listed_filter (hread : ReadsList read IsElement single) :
    Listed IsElement single number xs (fs.filter (·.number = number)) ↔
      Readable read number fs ∧ elementsIn read number fs = xs := by
  constructor
  · intro h
    obtain ⟨hreadable, helements⟩ := h.elements hread
    constructor
    · intro f hf hnumber
      exact hreadable f (List.mem_filter.mpr ⟨hf, by simpa using hnumber⟩) hnumber
    · rw [← helements, elementsIn_filter]
  · rintro ⟨hreadable, rfl⟩
    induction fs with
    | nil => exact .nil
    | cons f fs ih =>
      obtain ⟨hf, hfs⟩ := readable_cons.mp hreadable
      by_cases hnumber : f.number = number
      · obtain ⟨ys, hys⟩ := hf hnumber
        rw [List.filter_cons_of_pos (by simpa using hnumber), elementsIn_cons_of_read hnumber hys]
        obtain ⟨k, v⟩ := f
        obtain rfl : k = number := hnumber
        rcases (hread _ _).mp hys with ⟨x, hv, rfl⟩ | ⟨b, hv, hb⟩
        · obtain rfl : v = single x := hv
          exact .one (ih hfs)
        · obtain rfl : v = .bytes b := hv
          exact .packed hb (ih hfs)
      · rw [List.filter_cons_of_neg (by simpa using hnumber), elementsIn_cons, if_neg hnumber]
        exact ih hfs

end Listed

/-! ## Decoders -/

section Decoder

variable {σ : Type} {locate : σ → DecodeError → DecodeError} {step : σ → Field → Noted σ}
  {fs : List Field} {b : Bytes}

theorem isOk_readAll {Fine : Field → Prop}
    (hstep : ∀ s f, (∃ t, (step s f).value = .ok t) ↔ Fine f) (s : σ) :
    (∃ t, readAll step fs s = some t) ↔ ∀ f ∈ fs, Fine f := by
  induction fs generalizing s with
  | nil => exact ⟨fun _ => List.forall_mem_nil _, fun _ => ⟨s, rfl⟩⟩
  | cons f fs ih =>
    rw [List.forall_mem_cons, ← hstep s f, readAll_cons]
    constructor
    · rintro ⟨t, ht⟩
      obtain ⟨u, hu, ht⟩ := Option.bind_eq_some_iff.mp ht
      exact ⟨⟨u, Noted.result?_eq_some.mp hu⟩, (ih u).mp ⟨t, ht⟩⟩
    · rintro ⟨⟨u, hu⟩, hfs⟩
      obtain ⟨t, ht⟩ := (ih u).mpr hfs
      exact ⟨t, by rw [Noted.result?_eq_some.mpr hu]; exact ht⟩

/-- Where it depends on the fields alone which of them can be read, a message is decoded if all
can. -/
theorem isOk_messageAt (h : Series IsField fs b) {Fine : Field → Prop}
    (hstep : ∀ s f, (∃ t, (step s f).value = .ok t) ↔ Fine f) (s : σ) :
    (∃ t, (messageAt locate step s b).value = .ok t) ↔ ∀ f ∈ fs, Fine f := by
  rw [← isOk_readAll hstep s, ← result?_of_series locate h]
  simp only [Noted.result?_eq_some]

end Decoder

theorem isOk_bind_pure {α β : Type} {x : Noted α} {k : α → β} :
    (∃ t, (x >>= fun a => pure (k a)).value = .ok t) ↔ ∃ a, x.value = .ok a := by
  rw [Noted.value_bind]
  cases x.value with
  | error e => simp [Except.bind]
  | ok a => simp [Except.bind]

/-- A list is added to if the field can be read as a part of it. -/
theorem isOk_ofExcept_bind {α β : Type} {x : Except DecodeError α} {k : α → β} :
    (∃ t, (Noted.ofExcept x >>= fun a => pure (k a)).value = .ok t) ↔ ∃ a, x = .ok a :=
  isOk_bind_pure

theorem isOk_attributeStep (a : AttributeParts) (f : Field) :
    (∃ t, (attributeStep a f).value = .ok t) ↔
      (f.number = 7 → ∃ xs, f.floats = .ok xs) ∧ (f.number = 8 → ∃ ns, f.ints = .ok ns) := by
  unfold attributeStep
  split
  case h_5 h =>
    rw [isOk_ofExcept_bind]
    simp [h]
  case h_6 h =>
    rw [isOk_ofExcept_bind]
    simp [h]
  all_goals simp_all

theorem isOk_tensorStep (t : TensorParts) (f : Field) :
    (∃ u, (tensorStep t f).value = .ok u) ↔ (f.number = 1 → ∃ ns, f.ints = .ok ns) := by
  unfold tensorStep
  split
  case h_1 h =>
    rw [isOk_ofExcept_bind]
    simp [h]
  all_goals simp_all

theorem isOk_sparseStep (t : SparseParts) (f : Field) :
    (∃ u, (sparseStep t f).value = .ok u) ↔
      (f.number = 1 → ∃ d, (tensor f.bytes).value = .ok d) ∧
      (f.number = 3 → ∃ ns, f.ints = .ok ns) := by
  unfold sparseStep
  split
  case h_1 h =>
    rw [isOk_bind_pure]
    simp [h]
  case h_2 h =>
    rw [isOk_ofExcept_bind]
    simp [h]
  all_goals simp_all

section Messages

variable {fs : List Field} {b : Bytes}

theorem isOk_namedAttribute (h : Series IsField fs b) :
    (∃ a, (namedAttribute b).value = .ok a) ↔
      Readable Field.floats 7 fs ∧ Readable Field.ints 8 fs := by
  rw [namedAttribute, isOk_bind_pure, attributeParts, isOk_messageAt h isOk_attributeStep]
  exact forall₂_and

theorem isOk_elementType (name : Text) (code : UInt64) :
    ∃ element, (elementType name code).value = .ok element := by
  unfold elementType
  split
  · exact ⟨_, rfl⟩
  · exact ⟨none, rfl⟩

theorem isOk_tensor (h : Series IsField fs b) :
    (∃ d, (tensor b).value = .ok d) ↔ Readable Field.ints 1 fs := by
  have hparts : (∃ t, (message tensorStep {} b).value = .ok t) ↔ Readable Field.ints 1 fs :=
    isOk_messageAt h isOk_tensorStep {}
  rw [← hparts, tensor, Noted.value_bind]
  cases (message tensorStep {} b).value with
  | error e => simp [Except.bind]
  | ok t => exact iff_of_true (isOk_bind_pure.mpr (isOk_elementType t.name t.element)) ⟨t, rfl⟩

theorem isOk_sparseTensor (h : Series IsField fs b) :
    (∃ d, (sparseTensor b).value = .ok d) ↔
      (∀ f ∈ fs, f.number = 1 → ∃ d, (tensor f.bytes).value = .ok d) ∧
      Readable Field.ints 3 fs := by
  rw [sparseTensor, isOk_bind_pure, message, isOk_messageAt h isOk_sparseStep]
  exact forall₂_and

/-! ## Attributes -/

/-- The type that an attribute declares; it is zero where none is declared. -/
def declaredType (fs : List Field) : Int64 := ((lastIn 20 fs).map (·.scalar.toInt64)).getD 0

theorem declaredType_append (fs : List Field) (f : Field) :
    declaredType (fs ++ [f]) = if f.number = 20 then f.scalar.toInt64 else declaredType fs := by
  rw [declaredType, lastIn_append]
  split <;> rfl

/-- There is no single value, no float, integer or string. -/
def AttributeParts.NoSingle (a : AttributeParts) : Prop :=
  a.float = none ∧ a.int = none ∧ a.string = none

/-- No field holds a single value. -/
def NoSingle (fs : List Field) : Prop := ∀ f ∈ fs, f.number ≠ 2 ∧ f.number ≠ 3 ∧ f.number ≠ 4

theorem noSingle_append {f : Field} :
    NoSingle (fs ++ [f]) ↔ NoSingle fs ∧ f.number ≠ 2 ∧ f.number ≠ 3 ∧ f.number ≠ 4 := by
  rw [NoSingle, List.forall_mem_append, List.forall_mem_singleton]
  rfl

/-- What is known of an attribute from its fields. -/
structure Collected (fs : List Field) (a : AttributeParts) : Prop where
  floats : a.floats = elementsIn Field.floats 7 fs
  ints : a.ints = elementsIn Field.ints 8 fs
  type : a.type = declaredType fs
  noSingle : a.NoSingle ↔ NoSingle fs

/-- **The step:** a field adds to a list, declares the type or is a single value. -/
theorem collected_attributeStep {a : AttributeParts} (h : Collected fs a) (f : Field) :
    SatisfiesM (Collected (fs ++ [f])) (attributeStep a f) := by
  have hfloats : f.number ≠ 7 → a.floats = elementsIn Field.floats 7 (fs ++ [f]) := by
    intro hother
    rw [elementsIn_other _ hother, h.floats]
  have hints : f.number ≠ 8 → a.ints = elementsIn Field.ints 8 (fs ++ [f]) := by
    intro hother
    rw [elementsIn_other _ hother, h.ints]
  have htype : f.number ≠ 20 → a.type = declaredType (fs ++ [f]) := by
    intro hother
    rw [declaredType_append, if_neg hother, h.type]
  have hnone : f.number ≠ 2 ∧ f.number ≠ 3 ∧ f.number ≠ 4 →
      (a.NoSingle ↔ NoSingle (fs ++ [f])) := by
    intro hother
    rw [noSingle_append, h.noSingle, and_iff_left hother]
  have hsome : f.number = 2 ∨ f.number = 3 ∨ f.number = 4 → ¬NoSingle (fs ++ [f]) := by
    intro hsingle hnone
    have := (noSingle_append.mp hnone).2
    omega
  unfold attributeStep
  split
  case h_2 hnumber | h_3 hnumber | h_4 hnumber =>
    exact .pure ⟨hfloats (by omega), hints (by omega), htype (by omega),
      iff_of_false (by simp [AttributeParts.NoSingle]) (hsome (by omega))⟩
  case h_5 hnumber =>
    refine (Noted.satisfiesM_ofExcept f.floats).bind fun xs hxs => .pure ?_
    refine ⟨?_, hints (by omega), htype (by omega), hnone (by omega)⟩
    rw [elementsIn_self hnumber hxs, h.floats]
  case h_6 hnumber =>
    refine (Noted.satisfiesM_ofExcept f.ints).bind fun ns hns => .pure ?_
    refine ⟨hfloats (by omega), ?_, htype (by omega), hnone (by omega)⟩
    rw [elementsIn_self hnumber hns, h.ints]
  case h_8 hnumber =>
    refine .pure ⟨hfloats (by omega), hints (by omega), ?_, hnone (by omega)⟩
    rw [declaredType_append, if_pos hnumber]
  all_goals
    exact .pure ⟨hfloats (by omega), hints (by omega), htype (by omega),
      hnone ⟨by omega, by omega, by omega⟩⟩

/-- **The run:** what all fields of an attribute come to. -/
theorem collected_attributeParts (b : Bytes) :
    SatisfiesM (Collected (split b).fields) (attributeParts b) := by
  have hempty : Collected [] {} := ⟨rfl, rfl, rfl, by simp [AttributeParts.NoSingle, NoSingle]⟩
  exact satisfiesM_messageAt hempty (fun _ _ f h => collected_attributeStep h f) b

/-- The types of attributes that are read, and that of an attribute which declares none. -/
def readTypes : List Int64 := [0, 1, 2, 3, 6, 7, 8]

section Value

variable {a : AttributeParts}

theorem code_ofCode (n : Int) : (AttributeType.ofCode n).code = n := by
  unfold AttributeType.ofCode
  split <;> rfl

theorem ofCode_eq_iff {n code : Int64} {t : AttributeType} (h : .ofCode code.toInt = t) :
    AttributeType.ofCode n.toInt = t ↔ n = code := by
  subst h
  refine ⟨fun h => Int64.toInt_inj.mp ?_, fun h => h ▸ rfl⟩
  rw [← code_ofCode n.toInt, h, code_ofCode]

theorem isSome_typed? {n : Int} :
    (a.typed? (.ofCode n)).isSome = true ↔ n ∈ [1, 2, 3, 6, 7, 8] := by
  unfold AttributeType.ofCode
  split <;> simp_all [AttributeParts.typed?]

theorem isRead_iff : a.isRead = true ↔ a.type ∈ readTypes := by
  have hcodes : [1, 2, 3, 6, 7, 8].map Int64.toInt = [1, 2, 3, 6, 7, 8] := by decide
  rw [AttributeParts.isRead, Bool.or_eq_true, beq_iff_eq, isSome_typed?, ← hcodes,
    List.mem_map_of_injective fun _ _ => Int64.toInt_inj.mp]
  exact List.mem_cons.symm

/-- There is no value of a type that is not read, also before its fields are dropped. -/
theorem value?_kept (a : AttributeParts) : a.kept.value? = a.value? := by
  by_cases h : a.isRead = true
  · rw [AttributeParts.kept, if_pos h]
  · rw [AttributeParts.kept, if_neg h]
    simp only [AttributeParts.isRead, Bool.or_eq_true, beq_iff_eq, not_or, Option.not_isSome_iff_eq_none] at h
    rw [AttributeParts.value?, AttributeParts.value?, if_neg h.1, h.2]
    rfl

theorem type_of_typed? {t : AttributeType} {v : Attribute} (h : a.typed? t = some v) : v.type = t := by
  cases t with
  | other code => cases h
  | _ =>
    cases h
    rfl

/-- A value is of the declared type, or it is what is there where none is declared. -/
theorem value?_eq_some {v : Attribute} {code : Int64} (hzero : code ≠ 0)
    (hcode : .ofCode code.toInt = v.type) : a.value? = some v ↔
      a.type = code ∧ a.typed? v.type = some v ∨ a.type = 0 ∧ a.untyped? = some v := by
  by_cases htype : a.type = 0
  · simp [AttributeParts.value?, htype, hzero.symm]
  · simp only [AttributeParts.value?, htype, if_false, false_and, or_false]
    constructor
    · intro h
      have hv := type_of_typed? h
      exact ⟨(ofCode_eq_iff hcode).mp hv.symm, hv ▸ h⟩
    · rintro ⟨rfl, h⟩
      rw [hcode]
      exact h

/-- Single values come first, then the floats, then the integers. -/
theorem untyped?_eq_list :
    (∀ ms, a.untyped? = some (.ints ms) ↔ ms = a.ints ∧ a.NoSingle ∧ a.floats = [] ∧ a.ints ≠ []) ∧
    ∀ ys, a.untyped? = some (.floats ys) ↔ ys = a.floats ∧ a.NoSingle ∧ a.floats ≠ [] := by
  unfold AttributeParts.untyped? AttributeParts.NoSingle
  split
  case h_4 => cases a.floats <;> cases a.ints <;> cases a.strings <;> simp_all [eq_comm]
  all_goals simp_all

theorem value?_eq_ints {ms : List Int64} : a.value? = some (.ints ms) ↔ ms = a.ints ∧
    (a.type = 7 ∨ a.type = 0 ∧ a.NoSingle ∧ a.floats = [] ∧ a.ints ≠ []) := by
  have hseven : (7 : Int64) ≠ 0 := by decide
  have htyped : a.typed? .ints = some (.ints ms) ↔ ms = a.ints := by
    simp [AttributeParts.typed?, eq_comm]
  rw [value?_eq_some hseven rfl, untyped?_eq_list.1, Attribute.type, htyped]
  tauto

theorem value?_eq_floats {ys : List Single} : a.value? = some (.floats ys) ↔ ys = a.floats ∧
    (a.type = 6 ∨ a.type = 0 ∧ a.NoSingle ∧ a.floats ≠ []) := by
  have hsix : (6 : Int64) ≠ 0 := by decide
  have htyped : a.typed? .floats = some (.floats ys) ↔ ys = a.floats := by
    simp [AttributeParts.typed?, eq_comm]
  rw [value?_eq_some hsix rfl, untyped?_eq_list.2, Attribute.type, htyped]
  tauto

end Value

/-- What becomes of the lists of an attribute. -/
structure HasLists (fs : List Field) (ns : List Int64) (xs : List Single) (a : AttributeParts) :
    Prop where
  read : declaredType fs ∈ readTypes → a.ints = ns ∧ a.floats = xs
  /-- Of an attribute of another type nothing is left but the name, and it has no value. -/
  dropped : declaredType fs ∉ readTypes → a = { name := a.name } ∧ a.value? = none
  /-- The value is the list of integers if that is declared, or if nothing is declared and there
  is nothing else but strings. -/
  intsValue (ms : List Int64) : a.value? = some (.ints ms) ↔ ms = ns ∧
    (declaredType fs = 7 ∨ declaredType fs = 0 ∧ NoSingle fs ∧ xs = [] ∧ ns ≠ [])
  floatsValue (ys : List Single) : a.value? = some (.floats ys) ↔ ys = xs ∧
    (declaredType fs = 6 ∨ declaredType fs = 0 ∧ NoSingle fs ∧ xs ≠ [])

theorem Collected.hasLists {a : AttributeParts} (h : Collected fs a) :
    HasLists fs (elementsIn Field.ints 8 fs) (elementsIn Field.floats 7 fs) a.kept where
  read hread := by
    rw [AttributeParts.kept, if_pos (isRead_iff.mpr (h.type ▸ hread))]
    exact ⟨h.ints, h.floats⟩
  dropped hread := by
    rw [AttributeParts.kept, if_neg (mt isRead_iff.mp (h.type ▸ hread))]
    exact ⟨rfl, rfl⟩
  intsValue ms := by
    rw [value?_kept, value?_eq_ints, h.type, h.noSingle, h.ints, h.floats]
  floatsValue ys := by
    rw [value?_kept, value?_eq_floats, h.type, h.noSingle, h.floats]

/-! ## Any other type -/

theorem exists_error {α : Type} {x : Noted α} (h : ¬∃ a, x.value = .ok a) :
    ∃ e, x.value = .error e := by
  cases hx : x.value with
  | error e => exact ⟨e, rfl⟩
  | ok a => exact absurd ⟨a, hx⟩ h

/-- A list cannot be read where one of its fields is neither packed nor of the type of its
elements. -/
theorem not_readable {α : Type} {read : Field → Except DecodeError (List α)}
    {IsElement : α → Bytes → Prop} {single : α → Value} (hread : ReadsList read IsElement single)
    {type : Nat} (hsingle : ∀ x, Field.type ⟨0, single x⟩ = type) {f : Field} (hf : f ∈ fs)
    (htype : f.type ≠ type ∧ f.type ≠ 2) : ¬Readable read f.number fs := by
  intro h
  obtain ⟨xs, hxs⟩ := h f hf rfl
  rcases (hread f xs).mp hxs with ⟨x, hvalue, _⟩ | ⟨b, hvalue, _⟩
  · apply htype.1
    rw [← hsingle x, Field.type, hvalue, Field.type]
  · apply htype.2
    rw [Field.type, hvalue]

theorem not_readable_ints {number : Nat} {f : Field} (hf : f ∈ fs)
    (htype : f.type ≠ 0 ∧ f.type ≠ 2) (hnumber : f.number = number) :
    ¬Readable Field.ints number fs := by
  rw [← hnumber]
  exact not_readable readsList_ints (fun _ => rfl) hf htype

theorem not_readable_floats {number : Nat} {f : Field} (hf : f ∈ fs)
    (htype : f.type ≠ 5 ∧ f.type ≠ 2) (hnumber : f.number = number) :
    ¬Readable Field.floats number fs := by
  rw [← hnumber]
  exact not_readable readsList_floats (fun _ => rfl) hf htype

/-! ## Main statement -/

theorem ofSizes_inj {ns ms : List Int64} : Shape.ofSizes ns = Shape.ofSizes ms ↔ ns = ms :=
  (List.map_injective_iff.mpr fun _ _ h => Dim.known.inj h).eq_iff

/-- What the decoders make of the lists in a message of the given fields. -/
structure GivesLists (fs : List Field) (b : Bytes) : Prop where
  ofAttribute (ns : List Int64) (xs : List Single) : ListedInts 8 ns (fs.filter (·.number = 8)) →
    ListedFloats 7 xs (fs.filter (·.number = 7)) →
    ∃ a, (namedAttribute b).value = .ok a ∧ HasLists fs ns xs a
  /-- No attribute is decoded whose lists are not written so. -/
  listed (a : AttributeParts) : (namedAttribute b).value = .ok a → ∃ ns xs,
    ListedInts 8 ns (fs.filter (·.number = 8)) ∧ ListedFloats 7 xs (fs.filter (·.number = 7))
  ofTensor (ns : List Int64) :
    (∃ d, (tensor b).value = .ok d ∧ d.info.shape = some (Shape.ofSizes ns)) ↔
      ListedInts 1 ns (fs.filter (·.number = 1))
  /-- The tensor of its values is decoded with a sparse tensor, but has its own sizes. -/
  ofSparse (ns : List Int64) :
    (∃ d, (sparseTensor b).value = .ok d ∧ d.info.shape = some (Shape.ofSizes ns)) ↔
      (∀ f ∈ fs, f.number = 1 → ∃ d, (tensor f.bytes).value = .ok d) ∧
      ListedInts 3 ns (fs.filter (·.number = 3))
  intType (f : Field) : f ∈ fs → f.type ≠ 0 ∧ f.type ≠ 2 →
    (f.number = 8 → ∃ e, (namedAttribute b).value = .error e) ∧
    (f.number = 1 → ∃ e, (tensor b).value = .error e) ∧
    (f.number = 3 → ∃ e, (sparseTensor b).value = .error e)
  floatType (f : Field) : f ∈ fs → f.type ≠ 5 ∧ f.type ≠ 2 → f.number = 7 →
    ∃ e, (namedAttribute b).value = .error e

/-- The lists of an attribute are made of the numbers in its fields. -/
theorem hasLists_namedAttribute (h : Series IsField fs b) :
    SatisfiesM (HasLists fs (elementsIn Field.ints 8 fs) (elementsIn Field.floats 7 fs))
      (namedAttribute b) := by
  have hparts := collected_attributeParts b
  rw [split_eq_iff.mpr h] at hparts
  exact hparts.bind fun a ha => .pure ha.hasLists

theorem attribute_lists (h : Series IsField fs b) {ns : List Int64} {xs : List Single}
    (hns : ListedInts 8 ns (fs.filter (·.number = 8)))
    (hxs : ListedFloats 7 xs (fs.filter (·.number = 7))) :
    ∃ a, (namedAttribute b).value = .ok a ∧ HasLists fs ns xs a := by
  obtain ⟨hints, rfl⟩ := (listed_filter readsList_ints).mp hns
  obtain ⟨hfloats, rfl⟩ := (listed_filter readsList_floats).mp hxs
  obtain ⟨a, ha⟩ := (isOk_namedAttribute h).mpr ⟨hfloats, hints⟩
  exact ⟨a, ha, Noted.satisfiesM_iff.mp (hasLists_namedAttribute h) a ha⟩

theorem listed_namedAttribute (h : Series IsField fs b) {a : AttributeParts}
    (ha : (namedAttribute b).value = .ok a) : ∃ ns xs,
    ListedInts 8 ns (fs.filter (·.number = 8)) ∧ ListedFloats 7 xs (fs.filter (·.number = 7)) := by
  obtain ⟨hfloats, hints⟩ := (isOk_namedAttribute h).mp ⟨a, ha⟩
  exact ⟨_, _, (listed_filter readsList_ints).mpr ⟨hints, rfl⟩,
    (listed_filter readsList_floats).mpr ⟨hfloats, rfl⟩⟩

/-- A constant is decoded with the sizes in its fields, if they can be read. -/
theorem sizes_of_series {decoded : Noted Declaration} {number : Nat} {Others : Prop}
    (hok : (∃ d, decoded.value = .ok d) ↔ Others ∧ Readable Field.ints number fs)
    (hshape : SatisfiesM
      (fun d => d.info.shape = some (Shape.ofSizes (elementsIn Field.ints number fs))) decoded)
    (ns : List Int64) :
    (∃ d, decoded.value = .ok d ∧ d.info.shape = some (Shape.ofSizes ns)) ↔
      Others ∧ ListedInts number ns (fs.filter (·.number = number)) := by
  rw [Noted.satisfiesM_iff] at hshape
  rw [ListedInts, listed_filter readsList_ints]
  constructor
  · rintro ⟨d, hd, hns⟩
    obtain ⟨hothers, hreadable⟩ := hok.mp ⟨d, hd⟩
    rw [hshape d hd, Option.some_inj, ofSizes_inj] at hns
    exact ⟨hothers, hreadable, hns⟩
  · rintro ⟨hothers, hreadable, rfl⟩
    obtain ⟨d, hd⟩ := hok.mpr ⟨hothers, hreadable⟩
    exact ⟨d, hd, hshape d hd⟩

theorem tensor_sizes (h : Series IsField fs b) (ns : List Int64) :
    (∃ d, (tensor b).value = .ok d ∧ d.info.shape = some (Shape.ofSizes ns)) ↔
      ListedInts 1 ns (fs.filter (·.number = 1)) := by
  have hshape := shape_tensor b
  rw [split_eq_iff.mpr h] at hshape
  have hok : (∃ d, (tensor b).value = .ok d) ↔ True ∧ Readable Field.ints 1 fs := by
    rw [isOk_tensor h, true_and]
  rw [sizes_of_series hok hshape, true_and]

theorem sparse_sizes (h : Series IsField fs b) (ns : List Int64) :
    (∃ d, (sparseTensor b).value = .ok d ∧ d.info.shape = some (Shape.ofSizes ns)) ↔
      (∀ f ∈ fs, f.number = 1 → ∃ d, (tensor f.bytes).value = .ok d) ∧
      ListedInts 3 ns (fs.filter (·.number = 3)) := by
  have hshape := shape_sparseTensor b
  rw [split_eq_iff.mpr h] at hshape
  exact sizes_of_series (isOk_sparseTensor h) hshape ns

/-- **A list is decoded just when it is written:** packed, number by number, or in stretches of
both, with any other fields between. -/
theorem lists_of_series (h : Series IsField fs b) : GivesLists fs b where
  ofAttribute _ _ := attribute_lists h
  listed _ := listed_namedAttribute h
  ofTensor := tensor_sizes h
  ofSparse := sparse_sizes h
  intType f hf htype := by
    refine ⟨fun hnumber => exists_error ?_, fun hnumber => exists_error ?_,
      fun hnumber => exists_error ?_⟩
    · rw [isOk_namedAttribute h]
      exact fun hread => not_readable_ints hf htype hnumber hread.2
    · rw [isOk_tensor h]
      exact not_readable_ints hf htype hnumber
    · rw [isOk_sparseTensor h]
      exact fun hread => not_readable_ints hf htype hnumber hread.2
  floatType f hf htype hnumber := by
    refine exists_error ?_
    rw [isOk_namedAttribute h]
    exact fun hread => not_readable_floats hf htype hnumber hread.1

end Messages

/-- The fields of an attribute: a packed list with a negative number, a float, a number with
more bytes than it needs, a name, a packed list of none and a packed float. -/
def mixed : List Field := [⟨8, .bytes [1, 255, 255, 255, 255, 255, 255, 255, 255, 255, 1]⟩,
  ⟨7, .fixed32 0x3fc00000⟩, ⟨8, .varint 300⟩, ⟨1, .bytes [97]⟩, ⟨8, .bytes []⟩,
  ⟨7, .bytes [0, 0, 0, 64]⟩]

theorem series_mixed : Series IsField mixed [66, 11, 1, 255, 255, 255, 255, 255, 255, 255, 255, 255,
    1, 61, 0, 0, 192, 63, 64, 172, 130, 0, 10, 1, 97, 66, 0, 58, 4, 0, 0, 0, 64] :=
  split_eq_iff.mp (by cbv)

theorem listed_mixed : ListedInts 8 [1, -1, 300] (mixed.filter (·.number = 8)) ∧
    ListedFloats 7 [⟨0x3fc00000⟩, ⟨0x40000000⟩] (mixed.filter (·.number = 7)) := by
  have hints : packedInts [1, 255, 255, 255, 255, 255, 255, 255, 255, 255, 1] = .ok [1, -1] := by cbv
  have hfloats : packedFloats [0, 0, 0, 64] = .ok [⟨0x40000000⟩] := by cbv
  exact ⟨.packed (packedInts_eq_ok.mp hints) (.one (.packed .nil .nil)),
    .one (.packed (packedFloats_eq_ok.mp hfloats) .nil)⟩

theorem lists_of_mixed :
    (∃ a, (namedAttribute [66, 11, 1, 255, 255, 255, 255, 255, 255, 255, 255, 255, 1, 61, 0, 0, 192,
      63, 64, 172, 130, 0, 10, 1, 97, 66, 0, 58, 4, 0, 0, 0, 64]).value = .ok a ∧
      a.ints = [1, -1, 300] ∧ a.floats = [⟨0x3fc00000⟩, ⟨0x40000000⟩] ∧
      a.value? = some (.floats [⟨0x3fc00000⟩, ⟨0x40000000⟩])) ∧
    ∃ e, (namedAttribute [56, 1]).value = .error e := by
  have hvarint : Series IsField [⟨7, .varint 1⟩] [56, 1] := split_eq_iff.mp (by cbv)
  obtain ⟨a, ha, hlists⟩ :=
    (lists_of_series series_mixed).ofAttribute _ _ listed_mixed.1 listed_mixed.2
  have hsingle : NoSingle mixed := by simp [NoSingle, mixed]
  obtain ⟨hints, hfloats⟩ := hlists.read (by decide)
  exact ⟨⟨a, ha, hints, hfloats, (hlists.floatsValue _).mpr ⟨rfl, .inr ⟨rfl, hsingle, by decide⟩⟩⟩,
    (lists_of_series hvarint).floatType _ (.head _) (by decide) rfl⟩

/-- The fields of an attribute that has a list and is declared to be a tensor. -/
def mistyped : List Field := [⟨1, .bytes [97]⟩, ⟨20, .varint 4⟩, ⟨8, .varint 7⟩]

/-- Not every attribute that is decoded has its lists. -/
theorem dropped_mistyped :
    ¬∀ (fs : List Field) (b : Bytes) (ns : List Int64) (xs : List Single), Series IsField fs b →
      ListedInts 8 ns (fs.filter (·.number = 8)) → ListedFloats 7 xs (fs.filter (·.number = 7)) →
      ∃ a, (namedAttribute b).value = .ok a ∧ a.ints = ns ∧ a.floats = xs := by
  intro h
  have hseries : Series IsField mistyped [10, 1, 97, 160, 1, 4, 64, 7] := split_eq_iff.mp (by cbv)
  obtain ⟨a, ha, hints, -⟩ := h mistyped _ [7] [] hseries (.one .nil) .nil
  have hempty := (Noted.satisfiesM_iff.mp (hasLists_namedAttribute hseries) a ha).dropped (by decide)
  rw [hempty.1] at hints
  cases hints

end ShapeFlow.Wire
