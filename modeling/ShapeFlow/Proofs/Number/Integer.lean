/-
Whole numbers as they are written. A decimal literal is a sign or none and digits, and what
`readInt` reads is exactly the literals whose number has 64 bits (`readInt_eq_ok`); a number that is
printed is read back (`readInt_ofInt64`). Literals with a base in front are told by their beginning
(`isBased`); all others that `readLiteral` reads are made of decimal digits and underscores, and
start with a digit (`plain_of_readNatLiteral`).
-/
import Mathlib
import ShapeFlow.Number.Integer
import ShapeFlow.Proofs.Text

namespace ShapeFlow

namespace Number

/-! ## Digits -/

theorem isDigit_iff {b : UInt8} : isDigit b = true ↔ 48 ≤ b.toNat ∧ b.toNat ≤ 57 := by
  simp [isDigit, UInt8.le_iff_toNat_le]

theorem digit?_of_isDigit {b : UInt8} (h : isDigit b = true) : digit? b = some (b.toNat - 0x30) :=
  if_pos h

theorem lower_of_isDigit {b : UInt8} (h : isDigit b = true) : lower b = b := by
  refine if_neg fun hletter => ?_
  have hle := UInt8.le_iff_toNat_le.mp hletter.1
  have hdigit := isDigit_iff.mp h
  simp only [UInt8.reduceToNat] at hle
  omega

/-- Of the digits of all bases the decimal ones are those below ten. -/
theorem isDigit_of_digit? {b : UInt8} {d : Nat} (h : digit? b = some d) (hd : d < 10) :
    isDigit b = true ∧ d = b.toNat - 0x30 := by
  unfold digit? at h
  split at h
  · rename_i hb
    exact ⟨hb, (Option.some.inj h).symm⟩
  · split at h
    · have := Option.some.inj h
      omega
    · cases h

/-- The number that decimal digits give after those of `n`. -/
def decimalFrom (n : Nat) (ds : List UInt8) : Nat := ds.foldl (fun n b => n * 10 + (b.toNat - 0x30)) n

theorem le_decimalFrom (n : Nat) (ds : List UInt8) : n ≤ decimalFrom n ds := by
  induction ds generalizing n with
  | nil => exact Nat.le_refl n
  | cons b ds ih =>
    have := ih (n * 10 + (b.toNat - 0x30))
    simp only [decimalFrom, List.foldl_cons] at this ⊢
    omega

theorem digits_ten_eq_ok {n m : Nat} {ds : List UInt8} (hn : n < 0x10000000000000000) :
    digits 10 false n ds = .ok m ↔
      (∀ b ∈ ds, isDigit b = true) ∧ decimalFrom n ds = m ∧ m < 0x10000000000000000 := by
  induction ds generalizing n with
  | nil =>
    simp only [digits, Except.ok.injEq, decimalFrom, List.foldl_nil, List.not_mem_nil, false_implies,
      implies_true, true_and]
    exact ⟨fun h => ⟨h, h ▸ hn⟩, And.left⟩
  | cons b ds ih =>
    simp only [digits, Bool.false_eq_true, false_and, if_false, List.forall_mem_cons]
    by_cases hb : isDigit b = true
    · obtain ⟨hlow, hhigh⟩ := isDigit_iff.mp hb
      rw [digit?_of_isDigit hb]
      simp only [hb, true_and]
      rw [if_neg (by omega)]
      split
      · rename_i hlarge
        have hle := le_decimalFrom (n * 10 + (b.toNat - 0x30)) ds
        simp only [reduceCtorEq, false_iff, decimalFrom, List.foldl_cons] at hle ⊢
        omega
      · rename_i hsmall
        exact ih (by omega)
    · simp only [hb, Bool.false_eq_true, false_and, iff_false]
      split
      · exact nofun
      · rename_i d hd
        split
        · exact nofun
        · rename_i hten
          exact absurd (isDigit_of_digit? hd (by omega)).1 hb

theorem mem_unsigned {bytes : List UInt8} (h : 0x5F ∈ bytes) : 0x5F ∈ unsigned bytes := by
  cases bytes with
  | nil => exact h
  | cons b rest =>
    simp only [unsigned]
    split
    · rename_i hsign
      rcases List.mem_cons.mp h with rfl | h
      · exact absurd hsign (by decide)
      · exact h
    · exact h

theorem unsigned_cons_of_isDigit {b : UInt8} (h : isDigit b = true) (rest : List UInt8) :
    unsigned (b :: rest) = b :: rest ∧ ((b :: rest).head? == some 0x2D) = false := by
  have hplus : b ≠ 0x2B := fun hb => absurd (hb ▸ h) (by decide)
  have hminus : b ≠ 0x2D := fun hb => absurd (hb ▸ h) (by decide)
  simp [unsigned, hplus, hminus]

/-! ## Decimal literals -/

/-- At least one decimal digit, and nothing else. -/
def AreDigits (ds : List UInt8) : Prop := ds ≠ [] ∧ ∀ b ∈ ds, isDigit b = true

/-- A decimal literal and its number. -/
inductive IsLiteral : Text → Int → Prop
  | bare {ds : List UInt8} : AreDigits ds → IsLiteral ⟨ds⟩ (decimalFrom 0 ds)
  | plus {ds : List UInt8} : AreDigits ds → IsLiteral ⟨0x2B :: ds⟩ (decimalFrom 0 ds)
  | minus {ds : List UInt8} : AreDigits ds → IsLiteral ⟨0x2D :: ds⟩ (-(decimalFrom 0 ds))

theorem readNat_eq_ok {ds : List UInt8} {n : Nat} :
    readNat ds = .ok n ↔ AreDigits ds ∧ decimalFrom 0 ds = n ∧ n < 0x10000000000000000 := by
  unfold readNat AreDigits
  cases ds with
  | nil => simp
  | cons b ds =>
    rw [List.isEmpty_cons, if_neg (by decide), digits_ten_eq_ok (by decide)]
    simp

theorem ofInt_eq_iff {n : Int} {k : Int64} (hleast : -0x8000000000000000 ≤ n) (hlt : n < 0x8000000000000000) :
    Int64.ofInt n = k ↔ k.toInt = n := by
  rw [← Int64.toInt_inj, Int64.toInt_ofInt_of_le hleast hlt, eq_comm]

theorem signed_eq_ok {negative : Bool} {n : Nat} {k : Int64} :
    signed negative n = .ok k ↔ k.toInt = if negative then -(n : Int) else n := by
  have hleast := k.le_toInt
  have hgreatest := k.toInt_lt
  unfold signed
  cases negative with
  | true =>
    simp only [if_true]
    split
    · rw [Except.ok.injEq, ofInt_eq_iff (by omega) (by omega)]
    · simp only [reduceCtorEq, false_iff]
      omega
  | false =>
    simp only [Bool.false_eq_true, if_false]
    split
    · rw [Except.ok.injEq, ofInt_eq_iff (by omega) (by omega)]
    · simp only [reduceCtorEq, false_iff]
      omega

theorem readSigned_eq_ok {read : List UInt8 → Except NumberError Nat} {t : Text} {k : Int64} :
    readSigned read t = .ok k ↔
      ∃ n, read (unsigned t.bytes) = .ok n ∧ signed (t.bytes.head? == some 0x2D) n = .ok k := by
  unfold readSigned
  cases read (unsigned t.bytes) with
  | error e => exact ⟨nofun, fun ⟨_, h, _⟩ => nomatch h⟩
  | ok n => exact ⟨fun h => ⟨n, rfl, h⟩, fun ⟨_, hn, h⟩ => by cases hn; exact h⟩

end Number

open Number

/-- **A text is read as a number of 64 bits if it is a decimal literal of it.** -/
theorem readInt_eq_ok {t : Text} {k : Int64} : readInt t = .ok k ↔ IsLiteral t k.toInt := by
  unfold readInt
  rw [readSigned_eq_ok]
  simp only [readNat_eq_ok, signed_eq_ok]
  constructor
  · rintro ⟨n, ⟨hdigits, rfl, -⟩, hk⟩
    obtain ⟨bytes⟩ := t
    cases bytes with
    | nil => exact absurd rfl hdigits.1
    | cons b rest =>
      rw [hk]
      by_cases hplus : b = 0x2B
      · subst hplus
        exact .plus hdigits
      · by_cases hminus : b = 0x2D
        · subst hminus
          exact .minus hdigits
        · simp only [unsigned, hplus, hminus, or_self, if_false] at hdigits ⊢
          simp only [List.head?_cons, Option.some_beq_some, beq_false_of_ne hminus, Bool.false_eq_true,
            if_false]
          exact .bare hdigits
  · intro h
    have hleast := k.le_toInt
    have hgreatest := k.toInt_lt
    generalize hn : k.toInt = n at h hleast hgreatest
    cases h with
    | @bare ds hdigits =>
      obtain ⟨hne, hall⟩ := hdigits
      cases ds with
      | nil => exact absurd rfl hne
      | cons b rest =>
        obtain ⟨hbare, hsign⟩ := unsigned_cons_of_isDigit (hall b List.mem_cons_self) rest
        rw [hbare, hsign]
        exact ⟨decimalFrom 0 (b :: rest), ⟨⟨hne, hall⟩, rfl, by omega⟩, rfl⟩
    | @plus ds hdigits => exact ⟨decimalFrom 0 ds, ⟨hdigits, rfl, by omega⟩, rfl⟩
    | @minus ds hdigits => exact ⟨decimalFrom 0 ds, ⟨hdigits, rfl, by omega⟩, rfl⟩

namespace Number

theorem bytes_ofNat (n : Nat) : (Text.ofNat n).bytes = (Nat.toDigits 10 n).map (·.val.toUInt8) := by
  rw [Text.ofNat_eq_ofChars, Text.ofChars,
    ← List.flatMap_singleton' ((Nat.toDigits 10 n).map (·.val.toUInt8)), List.flatMap_map]
  refine List.flatMap_congr fun c hc => ?_
  exact (Text.utf8EncodeChar_of_isDigit (Nat.isDigit_of_mem_toDigits (by decide) (by decide) hc)).1

theorem decimalFrom_map {cs : List Char} (h : ∀ c ∈ cs, c.isDigit = true) (n : Nat) :
    decimalFrom n (cs.map (·.val.toUInt8)) = Nat.ofDigitChars 10 cs n := by
  induction cs generalizing n with
  | nil => rfl
  | cons c cs ih =>
    have hc := Text.code_of_isDigit (h c List.mem_cons_self)
    have hbyte : c.val.toUInt8.toNat = c.val.toNat := by
      rw [UInt32.toNat_toUInt8, Nat.mod_eq_of_lt (by omega)]
    have hrest := ih (fun c hc => h c (List.mem_cons_of_mem _ hc)) (n * 10 + (c.val.toUInt8.toNat - 0x30))
    rw [hbyte, Nat.mul_comm n] at hrest
    simp only [decimalFrom, List.map_cons, List.foldl_cons, hbyte, Nat.mul_comm n]
    exact hrest

theorem decimalFrom_ofNat (n : Nat) : decimalFrom 0 (Text.ofNat n).bytes = n := by
  rw [bytes_ofNat, decimalFrom_map fun c => Nat.isDigit_of_mem_toDigits (by decide) (by decide)]
  exact Nat.ofDigitChars_toDigits (by decide) (by decide)

theorem areDigits_ofNat (n : Nat) : AreDigits (Text.ofNat n).bytes := by
  refine ⟨?_, fun b hb => ?_⟩
  · rw [bytes_ofNat, ne_eq, List.map_eq_nil_iff]
    exact Nat.toDigits_ne_nil
  · obtain ⟨hlow, hhigh⟩ := Text.digit_of_mem_ofNat hb
    simp [isDigit, hlow, hhigh]

/-- A number is printed as a literal of it. -/
theorem isLiteral_ofInt (n : Int) : IsLiteral (Text.ofInt n) n := by
  have hdigits := areDigits_ofNat n.natAbs
  unfold Text.ofInt
  split
  · have hminus := IsLiteral.minus hdigits
    rw [decimalFrom_ofNat, show -(n.natAbs : Int) = n by omega] at hminus
    exact hminus
  · have hbare := IsLiteral.bare hdigits
    rw [decimalFrom_ofNat, show (n.natAbs : Int) = n by omega] at hbare
    exact hbare

end Number

theorem readInt_ofInt64 (k : Int64) : readInt (Text.ofInt64 k) = .ok k :=
  readInt_eq_ok.mpr (isLiteral_ofInt k.toInt)

/-! ## Literals with a base -/

namespace Number

/-- Whether unsigned digits follow the letter of a base. -/
def isBased : List UInt8 → Bool
  | z :: x :: _ => z = 0x30 ∧ (lower x = 0x62 ∨ lower x = 0x6F ∨ lower x = 0x78)
  | _ => false

section Digits

variable {base n m : Nat} {underscores : Bool} {b : UInt8} {bytes : List UInt8}

theorem digits_cons_eq_ok :
    digits base underscores n (b :: bytes) = .ok m ↔
      (underscores = true ∧ b = 0x5F) ∧ digits base underscores n bytes = .ok m ∨
      ¬ (underscores = true ∧ b = 0x5F) ∧ ∃ d, digit? b = some d ∧ d < base ∧
        n * base + d < 0x10000000000000000 ∧ digits base underscores (n * base + d) bytes = .ok m := by
  rw [digits]
  by_cases hskip : underscores = true ∧ b = 0x5F
  · simp [hskip]
  · rw [if_neg hskip]
    cases hd : digit? b with
    | none => simp [hskip]
    | some d =>
      simp only [hskip, false_and, false_or, not_false_eq_true, true_and, Option.some.injEq,
        exists_eq_left']
      split
      · rename_i hbase
        simp only [reduceCtorEq, false_iff]
        omega
      · rename_i hbase
        split
        · rename_i hlarge
          simp only [reduceCtorEq, false_iff]
          omega
        · rename_i hlarge
          simp only [Nat.lt_of_not_le hbase, Nat.lt_of_not_le hlarge, true_and]

theorem digits_lt (hn : n < 0x10000000000000000) (h : digits base underscores n bytes = .ok m) :
    m < 0x10000000000000000 := by
  induction bytes generalizing n with
  | nil =>
    cases h
    exact hn
  | cons b bytes ih =>
    rcases digits_cons_eq_ok.mp h with ⟨-, h⟩ | ⟨-, d, -, -, hd, h⟩
    · exact ih hn h
    · exact ih hd h

end Digits

/-- What `readNatLiteral` makes of a literal that it takes. -/
theorem readNatLiteral_eq_ok {bytes : List UInt8} {n : Nat} :
    readNatLiteral bytes = .ok n ↔
      bytes ≠ [] ∧ digits (baseOf bytes).1 true 0 (baseOf bytes).2 = .ok n ∧
      (0x5F ∈ bytes → underscoresOk bytes = true) := by
  unfold readNatLiteral
  cases bytes with
  | nil => simp
  | cons b rest =>
    rw [List.isEmpty_cons, if_neg (by decide)]
    simp only [ne_eq, reduceCtorEq, not_false_eq_true, true_and]
    cases digits (baseOf (b :: rest)).1 true 0 (baseOf (b :: rest)).2 with
    | error e => simp
    | ok m =>
      simp only [List.contains_eq_mem, Bool.and_eq_true, decide_eq_true_eq, Bool.not_eq_true', Except.ok.injEq]
      by_cases hok : underscoresOk (b :: rest) = true
      · simp [hok]
      · by_cases hmem : 0x5F ∈ b :: rest
        · simp [hok, hmem]
        · simp [hmem]

theorem underscoresOk_underscore (rest : List UInt8) : underscoresOk (0x5F :: rest) = false := by
  cases rest <;> rfl

theorem baseOf_of_not_isBased {bytes : List UInt8} (h : isBased bytes = false) :
    (∃ rest, bytes = 0x30 :: rest ∧ baseOf bytes = (8, rest)) ∨ baseOf bytes = (10, bytes) := by
  unfold baseOf
  split
  · rename_i x d rest
    simp only [isBased, true_and, decide_eq_false_iff_not, not_or] at h
    exact .inl ⟨x :: d :: rest, rfl, by simp [h.1, h.2.1, h.2.2]⟩
  · rename_i rest _
    exact .inl ⟨rest, rfl, rfl⟩
  · exact .inr rfl

/-- Without a base a literal is octal after a zero and decimal otherwise, and the zero may count
as a digit. -/
theorem digits_of_not_isBased {bytes : List UInt8} {n : Nat} (hbased : isBased bytes = false)
    (h : digits (baseOf bytes).1 true 0 (baseOf bytes).2 = .ok n) :
    ∃ base, 8 ≤ base ∧ base ≤ 10 ∧ digits base true 0 bytes = .ok n := by
  rcases baseOf_of_not_isBased hbased with ⟨rest, rfl, hbase⟩ | hbase
  · rw [hbase] at h
    exact ⟨8, by decide, by decide, h⟩
  · rw [hbase] at h
    exact ⟨10, by decide, by decide, h⟩

/-- **A literal without a base starts with a digit, and all its digits are decimal.** -/
theorem plain_of_readNatLiteral {bytes : List UInt8} {n : Nat} (h : readNatLiteral bytes = .ok n)
    (hbased : isBased bytes = false) :
    ∃ b rest base, bytes = b :: rest ∧ isDigit b = true ∧ 8 ≤ base ∧ base ≤ 10 ∧
      digits base true 0 bytes = .ok n := by
  obtain ⟨hne, hdigits, hunderscores⟩ := readNatLiteral_eq_ok.mp h
  obtain ⟨base, hlow, hhigh, hdigits⟩ := digits_of_not_isBased hbased hdigits
  cases bytes with
  | nil => exact absurd rfl hne
  | cons b rest =>
    refine ⟨b, rest, base, rfl, ?_, hlow, hhigh, hdigits⟩
    rcases digits_cons_eq_ok.mp hdigits with ⟨⟨-, rfl⟩, -⟩ | ⟨-, d, hd, hlt, -⟩
    · have := hunderscores List.mem_cons_self
      rw [underscoresOk_underscore] at this
      cases this
    · exact (isDigit_of_digit? hd (by omega)).1

/-- **A literal with a base has digits after the letter, and those after `x` are hexadecimal.** -/
theorem based_of_readNatLiteral {bytes : List UInt8} {n : Nat} (h : readNatLiteral bytes = .ok n)
    (hbased : isBased bytes = true) :
    ∃ x d rest, bytes = 0x30 :: x :: d :: rest ∧
      (lower x = 0x62 ∨ lower x = 0x6F ∨ lower x = 0x78 ∧ digits 16 true 0 (d :: rest) = .ok n) := by
  obtain ⟨-, hdigits, -⟩ := readNatLiteral_eq_ok.mp h
  rcases bytes with _ | ⟨z, _ | ⟨x, _ | ⟨d, rest⟩⟩⟩
  · cases hbased
  · cases hbased
  · obtain ⟨rfl, hletter⟩ := of_decide_eq_true hbased
    -- the letter alone would have to be an octal digit
    have hbase : baseOf [0x30, x] = (8, [x]) := rfl
    rw [hbase] at hdigits
    rcases digits_cons_eq_ok.mp hdigits with ⟨⟨-, rfl⟩, -⟩ | ⟨-, d, hd, hlt, -⟩
    · exact absurd hletter (by decide)
    · have hdigit := (isDigit_of_digit? hd (by omega)).1
      rw [lower_of_isDigit hdigit] at hletter
      rcases hletter with rfl | rfl | rfl <;> exact absurd hdigit (by decide)
  · obtain ⟨rfl, hletter⟩ := of_decide_eq_true hbased
    refine ⟨x, d, rest, rfl, ?_⟩
    rcases hletter with hx | hx | hx
    · exact .inl hx
    · exact .inr (.inl hx)
    · have hbase : baseOf (0x30 :: x :: d :: rest) = (16, d :: rest) := by simp [baseOf, hx]
      rw [hbase] at hdigits
      exact .inr (.inr ⟨hx, hdigits⟩)

end Number

end ShapeFlow
