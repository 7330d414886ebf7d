/-
Writing fields. The wire format tells where a field ends, so written fields are
read back one after the other, whatever follows (`field_write`), and a message
is split into the fields that it was written from (`split_write`). So are the
packed lists (`packedInts_write`, `packedFloats_write`).
-/
import ShapeFlow.Wire.Message

namespace ShapeFlow.Wire

/-- Lengths and numbers stay below this: they have 64 bits. -/
def wordLimit : Nat := 0x10000000000000000

/-- Digits to the base 128, the lowest first, with a mark on all but the last. -/
def writeVarint (n : Nat) : Bytes :=
  if n < 128 then [UInt8.ofNat n] else UInt8.ofNat (n % 128 + 128) :: writeVarint (n / 128)
termination_by n
decreasing_by omega

/-- So many bytes, the lowest first. -/
def writeFixed : Nat → Nat → Bytes
  | 0, _ => []
  | count + 1, n => UInt8.ofNat n :: writeFixed count (n / 256)

def writeTag (number type : Nat) : Bytes := writeVarint (8 * number + type)

/-- A tag and a value; a group is written with nothing in it. -/
def Field.write (f : Field) : Bytes :=
  writeTag f.number f.type ++
    match f.value with
    | .varint n => writeVarint n.toNat
    | .fixed64 n => writeFixed 8 n.toNat
    | .bytes b => writeVarint b.length ++ b
    | .group => writeTag f.number 4
    | .fixed32 n => writeFixed 4 n.toNat

/-- A message. -/
def write (fields : List Field) : Bytes := fields.flatMap Field.write

/-! ## Numbers -/

theorem toNat_byte {n : Nat} (h : n < 256) : (UInt8.ofNat n).toNat = n := by
  rw [UInt8.toNat_ofNat', Nat.mod_eq_of_lt h]

theorem byte_lt {n m : Nat} (h : n < 256) (hm : m < 256) : UInt8.ofNat n < UInt8.ofNat m ↔ n < m := by
  rw [UInt8.lt_iff_toNat_lt, toNat_byte h, toNat_byte hm]

theorem writeVarint_ne_nil (n : Nat) : writeVarint n ≠ [] := by
  unfold writeVarint
  split <;> simp

/-- What fits into so many bytes and one bit. -/
def varintLimit : Nat → Nat
  | 0 => 2
  | more + 1 => 128 * varintLimit more

theorem varintUpTo_write (more n : Nat) (h : n < varintLimit more) (rest : Bytes) :
    varintUpTo more (writeVarint n ++ rest) = .ok (n, rest) := by
  induction more generalizing n with
  | zero =>
    have hn : n < 2 := h
    have hbyte : UInt8.ofNat n < 2 := (byte_lt (m := 2) (by omega) (by omega)).mpr hn
    rw [writeVarint, if_pos (by omega)]
    simp [varintUpTo, hbyte, Nat.mod_eq_of_lt (by omega : n < 256)]
  | succ more ih =>
    simp only [varintLimit] at h
    rw [writeVarint]
    split
    · next hn =>
      have hbyte : UInt8.ofNat n < 128 := (byte_lt (m := 128) (by omega) (by omega)).mpr hn
      simp [varintUpTo, hbyte, Nat.mod_eq_of_lt (by omega : n < 256)]
    · next hn =>
      have hbyte : ¬ UInt8.ofNat (n % 128 + 128) < 128 := fun hlt =>
        absurd ((byte_lt (m := 128) (by omega) (by omega)).mp hlt) (by omega)
      rw [List.cons_append, varintUpTo, if_neg hbyte, ih (n / 128) (by omega),
        toNat_byte (by omega)]
      simp only [Except.ok.injEq, Prod.mk.injEq, and_true]
      omega

theorem varint_write {n : Nat} (h : n < wordLimit) (rest : Bytes) :
    varint (writeVarint n ++ rest) = .ok (n, rest) := varintUpTo_write 9 n h rest

/-- What fits into so many bytes. -/
def fixedLimit : Nat → Nat
  | 0 => 1
  | count + 1 => 256 * fixedLimit count

theorem fixed_write (count n : Nat) (h : n < fixedLimit count) (rest : Bytes) :
    fixed count (writeFixed count n ++ rest) = .ok (n, rest) := by
  induction count generalizing n with
  | zero =>
    have hn : n = 0 := Nat.lt_one_iff.mp h
    rw [hn]
    rfl
  | succ count ih =>
    simp only [fixedLimit] at h
    simp only [writeFixed, List.cons_append, fixed, ih (n / 256) (by omega), UInt8.toNat_ofNat',
      Except.ok.injEq, Prod.mk.injEq, and_true]
    omega

theorem chunk_append (b rest : Bytes) : chunk b.length (b ++ rest) = .ok (b, rest) := by
  simp [chunk]

theorem tag_write {number type : Nat} (hn : 0 < number) (hn' : number < 0x80000000)
    (ht : type < 8) (rest : Bytes) :
    tag (writeTag number type ++ rest) = .ok (⟨number, type⟩, rest) := by
  have hword : 8 * number + type < wordLimit := by
    unfold wordLimit
    omega
  have hdiv : (8 * number + type) / 8 = number := by omega
  have hmod : (8 * number + type) % 8 = type := by omega
  simp only [tag, writeTag, varint_write hword, hdiv, hmod]
  rw [if_neg (by omega)]

/-! ## Fields -/

/-- Whether the number is one that a field may have. -/
def Field.isNumbered (f : Field) : Bool := 0 < f.number && f.number < 0x80000000

theorem Field.write_ne_nil (f : Field) : f.write ≠ [] := by
  simp [Field.write, writeTag, writeVarint_ne_nil]

theorem Field.length_bytes_le (f : Field) : f.bytes.length ≤ f.write.length := by
  unfold Field.bytes Field.write
  split
  · next h =>
    rw [h]
    simp only [List.length_append]
    omega
  · exact Nat.zero_le _

/-- **A written field is read back**, and what follows it is left. -/
theorem field_write {f : Field} (h : f.isNumbered = true) (hsize : f.bytes.length < wordLimit)
    (rest : Bytes) : field (f.write ++ rest) = .ok (f, rest) := by
  obtain ⟨number, v⟩ := f
  simp only [Field.isNumbered, Bool.and_eq_true, decide_eq_true_eq] at h
  have htag : ∀ type, type < 8 → ∀ rest, tag (writeTag number type ++ rest) =
      .ok (⟨number, type⟩, rest) := fun _ ht => tag_write h.1 h.2 ht
  simp only [Field.write, List.append_assoc]
  cases v with
  | varint n =>
    simp only [field, Field.type, htag 0 (by omega), value, plain]
    rw [if_neg (by omega), varint_write n.toNat_lt]
    simp [Except.map]
  | fixed64 n =>
    simp only [field, Field.type, htag 1 (by omega), value, plain]
    rw [if_neg (by omega), fixed_write 8 n.toNat n.toNat_lt]
    simp [Except.map]
  | bytes b =>
    have hlen : b.length < wordLimit := hsize
    simp only [field, Field.type, htag 2 (by omega), value, plain]
    rw [if_neg (by omega), List.append_assoc, varint_write hlen]
    simp only [chunk_append]
    rfl
  | group =>
    simp only [field, Field.type, htag 3 (by omega), value, if_true]
    rw [skipGroups, htag 4 (by omega)]
    simp [skipGroups, Except.map]
  | fixed32 n =>
    simp only [field, Field.type, htag 5 (by omega), value, plain]
    rw [if_neg (by omega), fixed_write 4 n.toNat n.toNat_lt]
    simp [Except.map]

example : Field.write ⟨1, .varint 150⟩ = [0x08, 0x96, 0x01] := by decide +kernel

/-- **A written message is split into its fields.** -/
theorem split_write {fields : List Field}
    (h : ∀ f ∈ fields, f.isNumbered = true ∧ f.bytes.length < wordLimit) :
    split (write fields) = ⟨fields, none⟩ := by
  induction fields with
  | nil => simp [write, split]
  | cons f fields ih =>
    obtain ⟨hn, hsize⟩ := h f List.mem_cons_self
    have hfield := field_write hn hsize (write fields)
    have hne : (f.write ++ write fields).isEmpty = false := by simp [f.write_ne_nil]
    have hcons : write (f :: fields) = f.write ++ write fields := rfl
    rw [hcons, split, hne]
    simp only [Bool.false_eq_true, if_false]
    split
    · next he => rw [hfield] at he; cases he
    · next he =>
      rw [hfield] at he
      cases he
      rw [ih fun g hg => h g (List.mem_cons_of_mem _ hg)]

theorem length_write_le_of_mem {fields : List Field} {f : Field} (h : f ∈ fields) :
    f.bytes.length ≤ (write fields).length := by
  obtain ⟨before, after, rfl⟩ := List.append_of_mem h
  have := f.length_bytes_le
  simp only [write, List.flatMap_append, List.flatMap_cons, List.length_append]
  omega

/-! ## Packed lists -/

def writeInts (ns : List Int64) : Bytes := ns.flatMap fun n => writeVarint n.toUInt64.toNat

def writeFloats (xs : List Single) : Bytes := xs.flatMap fun x => writeFixed 4 x.bits.toNat

theorem packedInts_write (ns : List Int64) : packedInts (writeInts ns) = .ok ns := by
  induction ns with
  | nil => simp [writeInts, packedInts]
  | cons n ns ih =>
    have hcons : writeInts (n :: ns) = writeVarint n.toUInt64.toNat ++ writeInts ns := rfl
    have hne : (writeVarint n.toUInt64.toNat ++ writeInts ns).isEmpty = false := by
      simp [writeVarint_ne_nil]
    have hvarint := varint_write n.toUInt64.toNat_lt (writeInts ns)
    rw [hcons, packedInts, hne]
    simp only [Bool.false_eq_true, if_false]
    split
    · next he => rw [hvarint] at he; cases he
    · next he =>
      rw [hvarint] at he
      cases he
      simp [ih, Except.map]

/-- One more byte above the low bits of a number. -/
theorem mod_or_byte (n i : Nat) :
    n % 1 <<< i ||| (n / 1 <<< i % 256) <<< i = n % (1 <<< i * 256) := by
  have hpos : 0 < 1 <<< i := by
    rw [Nat.one_shiftLeft]
    exact Nat.two_pow_pos i
  have hlow := Nat.mod_lt n hpos
  rw [Nat.one_shiftLeft] at hlow ⊢
  rw [Nat.or_comm, ← Nat.shiftLeft_add_eq_or_of_lt hlow, Nat.shiftLeft_eq, Nat.mod_mul,
    Nat.add_comm, Nat.mul_comm]

/-- The four bytes of a word, put together. -/
theorem join_bytes (w : UInt32) :
    (UInt8.ofNat w.toNat).toUInt32 ||| (UInt8.ofNat (w.toNat / 256)).toUInt32 <<< 8 |||
      (UInt8.ofNat (w.toNat / 256 / 256)).toUInt32 <<< 16 |||
      (UInt8.ofNat (w.toNat / 256 / 256 / 256)).toUInt32 <<< 24 = w := by
  have hw := w.toNat_lt
  apply UInt32.toNat_inj.mp
  simp only [UInt32.toNat_or, UInt32.toNat_shiftLeft, UInt8.toNat_toUInt32, UInt8.toNat_ofNat',
    UInt32.reduceToNat, Nat.reduceMod, Nat.reducePow, Nat.div_div_eq_div_mul, Nat.reduceMul] at hw ⊢
  generalize w.toNat = n at hw ⊢
  have h8 : n % 256 ||| (n / 256 % 256) <<< 8 = n % 65536 := mod_or_byte n 8
  have h16 : n % 65536 ||| (n / 65536 % 256) <<< 16 = n % 16777216 := mod_or_byte n 16
  have h24 : n % 16777216 ||| (n / 16777216 % 256) <<< 24 = n % 4294967296 := mod_or_byte n 24
  -- No shifted byte leaves the word.
  rw [Nat.mod_eq_of_lt (a := (n / 256 % 256) <<< 8) (by rw [Nat.shiftLeft_eq]; omega),
    Nat.mod_eq_of_lt (a := (n / 65536 % 256) <<< 16) (by rw [Nat.shiftLeft_eq]; omega),
    Nat.mod_eq_of_lt (a := (n / 16777216 % 256) <<< 24) (by rw [Nat.shiftLeft_eq]; omega),
    h8, h16, h24, Nat.mod_eq_of_lt hw]

theorem packedFloats_write (xs : List Single) : packedFloats (writeFloats xs) = .ok xs := by
  induction xs with
  | nil => rfl
  | cons x xs ih =>
    have hcons : writeFloats (x :: xs) = writeFixed 4 x.bits.toNat ++ writeFloats xs := rfl
    rw [hcons]
    simp only [writeFixed, List.cons_append, List.nil_append, packedFloats, join_bytes, ih]
    rfl

end ShapeFlow.Wire
