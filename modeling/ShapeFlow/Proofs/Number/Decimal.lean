/-
Whole numbers read as fractions. Both readers take signs and underscores in the same places, but
they differ in the bases: a fraction is decimal, or hexadecimal with an exponent. So a whole number
is also read as a fraction exactly if its literal names no base (`readSingle_of_readLiteral`). The
digits of an octal number are then read as decimal ones, which may give a larger number, but never
one with more digits (`Within`), so it is not out of range.
-/
import Mathlib
import ShapeFlow.Number.Decimal
import ShapeFlow.Proofs.Number.Integer

namespace ShapeFlow

/-! ## Rounding -/

namespace Binary

theorem Format.exponent_le (f : Format) (num den : Nat) :
    f.exponent num den ≤ max f.least ((num.log2 : Int) - den.log2 - f.digits + 1) := by
  simp only [Format.exponent]
  split <;> split <;> omega

/-- A number that is well below the largest of a format has a nearest one. -/
theorem Format.round_eq_some {f : Format} {num den : Nat}
    (h : max f.least ((num.log2 : Int) - den.log2 - f.digits + 1) < f.greatest) :
    ∃ s, f.round num den = some s := by
  have he := f.exponent_le num den
  simp only [Format.round]
  split
  · exact ⟨_, rfl⟩
  · rw [if_neg]
    · exact ⟨_, rfl⟩
    · split <;> dsimp only <;> omega

end Binary

namespace Fraction

open Number

theorem roundTo_single {n : Nat} (h : n < 10 ^ 22) : ∃ s, roundTo Binary.single n false 0 = some s := by
  have hlength : (Nat.toDigits 10 n).length ≤ 22 := (Nat.length_toDigits_le_iff (by decide) (by decide)).mpr h
  have hround : ∃ s, Binary.single.round n 1 = some s := by
    refine Binary.Format.round_eq_some ?_
    have hlog : n.log2 < 74 := by
      by_cases hn : n = 0
      · subst hn
        decide
      · exact (Nat.log2_lt hn).mpr (Nat.lt_trans h (by decide))
    have hone : Nat.log2 1 = 0 := rfl
    simp only [Binary.single, hone]
    omega
  simp only [roundTo, Bool.false_eq_true, if_false, Int.add_zero, Int.le_refl, if_true]
  split
  · exact ⟨_, rfl⟩
  · rw [if_neg (by omega)]
    simpa using hround

/-! ## Digits -/

/-- The second number has no more digits in its base than the first in its own. -/
def Within (base limit n v : Nat) : Prop := ∀ k, n < base ^ k → v < limit ^ k

theorem Within.digit {base limit n v d : Nat} (hbase : base ≤ limit) (hd : d < base)
    (h : Within base limit n v) : Within base limit (n * base + d) (v * limit + d) := by
  intro k hk
  cases k with
  | zero =>
    have hn : n * base = 0 ∧ d = 0 := by
      rw [Nat.pow_zero] at hk
      omega
    have hv := h 0 (by rw [Nat.pow_zero]; exact Nat.lt_one_iff.mpr ((Nat.mul_eq_zero.mp hn.1).resolve_right (by omega)))
    rw [Nat.pow_zero, Nat.lt_one_iff] at hv
    rw [hv, hn.2]
    simp
  | succ k =>
    rw [Nat.pow_succ] at hk ⊢
    have hn : n < base ^ k := Nat.lt_of_mul_lt_mul_right (Nat.lt_of_le_of_lt (Nat.le_add_right _ d) hk)
    calc v * limit + d
      _ < v * limit + limit := by omega
      _ = (v + 1) * limit := by ring
      _ ≤ limit ^ k * limit := Nat.mul_le_mul_right limit (h k hn)

/-- The base of a fraction's digits. -/
def limit (hex : Bool) : Nat := if hex then 16 else 10

theorem mantissa_digit (hex : Bool) {b : UInt8} {d : Nat} (hd : digit? b = some d) (hlt : d < limit hex)
    (hskip : b ≠ 0x5F) {acc : Mantissa} (hpoint : acc.point = false) (rest : List UInt8) :
    mantissa hex acc (b :: rest) = mantissa hex { acc with value := acc.value * limit hex + d, any := true } rest := by
  have hdot : b ≠ 0x2E := by
    rintro rfl
    cases hd
  have hbase : ¬ (if hex = true then 16 else 10) ≤ d := Nat.not_le_of_lt hlt
  simp [mantissa, hskip, hdot, hd, hbase, hpoint, limit]

/-- Digits of a smaller base are taken to the end. -/
theorem mantissa_of_digits (hex : Bool) (acc : Mantissa) {base n m : Nat} {bytes : List UInt8}
    (hbase : base ≤ limit hex) (hpoint : acc.point = false) (hwithin : Within base (limit hex) n acc.value)
    (h : digits base true n bytes = .ok m) :
    ∃ value any, mantissa hex acc bytes = ({ acc with value, any }, []) ∧
      Within base (limit hex) m value ∧ (acc.any = true → any = true) := by
  induction bytes generalizing n acc with
  | nil =>
    cases h
    exact ⟨acc.value, acc.any, rfl, hwithin, id⟩
  | cons b rest ih =>
    rcases digits_cons_eq_ok.mp h with ⟨⟨-, rfl⟩, h⟩ | ⟨hskip, d, hd, hlt, -, h⟩
    · exact ih acc hpoint hwithin h
    · rw [mantissa_digit hex hd (by omega) (fun hb => hskip ⟨rfl, hb⟩) hpoint]
      obtain ⟨value, any, hrun, hvalue, hany⟩ :=
        ih { acc with value := acc.value * limit hex + d, any := true } hpoint (hwithin.digit hbase hlt) h
      exact ⟨value, any, hrun, hvalue, fun _ => hany rfl⟩

/-! ## Whole literals -/

theorem word?_of_isDigit {b : UInt8} (h : isDigit b = true) (negative signed : Bool) (rest : List UInt8) :
    word? negative signed (b :: rest) = none := by
  have hinf : (Text.ofString "inf").bytes = [0x69, 0x6E, 0x66] := by decide
  have hinfinity : (Text.ofString "infinity").bytes = [0x69, 0x6E, 0x66, 0x69, 0x6E, 0x69, 0x74, 0x79] := by
    decide
  have hnan : (Text.ofString "nan").bytes = [0x6E, 0x61, 0x6E] := by decide
  have hi : b ≠ 0x69 := fun hb => absurd (hb ▸ h) (by decide)
  have hn : b ≠ 0x6E := fun hb => absurd (hb ▸ h) (by decide)
  simp [word?, lower_of_isDigit h, hinf, hinfinity, hnan, hi, hn]

theorem isHexStart_of_not_isBased {bytes : List UInt8} (h : isBased bytes = false) :
    isHexStart bytes = false := by
  unfold isHexStart
  split
  · rename_i z x _ _
    simp only [isBased, decide_eq_false_iff_not, not_and, not_or] at h ⊢
    exact fun hz => (h hz).2.2
  · rfl

/-- A literal without a base is a decimal number. -/
theorem number?_of_not_isBased {bytes : List UInt8} {n : Nat} (h : readNatLiteral bytes = .ok n)
    (hbased : isBased bytes = false) (negative : Bool) :
    ∃ value, number? negative bytes = some (.finite negative value false 0) ∧ value < 10 ^ 22 := by
  have hhex := isHexStart_of_not_isBased hbased
  obtain ⟨b, rest, base, rfl, hb, hlow, hhigh, hdigits⟩ := plain_of_readNatLiteral h hbased
  have hn : n < base ^ 22 := by
    have hle : 8 ^ 22 ≤ base ^ 22 := Nat.pow_le_pow_left hlow 22
    have hlt := digits_lt (by decide) hdigits
    omega
  rcases digits_cons_eq_ok.mp hdigits with ⟨⟨-, rfl⟩, -⟩ | ⟨hskip, d, hd, hlt, -, hrest⟩
  · cases hb
  · have hzero : Within base (limit false) 0 0 := fun k _ => Nat.pow_pos (by decide)
    have hpoint : ({} : Mantissa).point = false := rfl
    have hfirst := mantissa_digit false hd (hlt.trans_le hhigh) (fun hb => hskip ⟨rfl, hb⟩) hpoint rest
    obtain ⟨value, any, hrun, hvalue, hany⟩ := mantissa_of_digits false
      { value := 0 * limit false + d, any := true } hhigh rfl (hzero.digit hhigh hlt) hrest
    rw [hany rfl] at hrun
    refine ⟨value, ?_, hvalue 22 hn⟩
    simp [number?, hhex, hfirst.trans hrun]

/-- Where no decimal digit stands, a decimal number ends. -/
theorem mantissa_stop {b : UInt8} (hdigit : isDigit b = false) (hskip : b ≠ 0x5F) (hdot : b ≠ 0x2E)
    (acc : Mantissa) (rest : List UInt8) : mantissa false acc (b :: rest) = (acc, b :: rest) := by
  simp only [mantissa, hskip, hdot, if_false]
  cases hd : digit? b with
  | none => rfl
  | some d =>
    have hten : 10 ≤ d := by
      by_contra hlt
      rw [(isDigit_of_digit? hd (by omega)).1] at hdigit
      cases hdigit
    simp [hten]

/-- After a zero the letters of base two and eight are out of place. -/
theorem number?_letter {x : UInt8} (hx : lower x = 0x62 ∨ lower x = 0x6F) (negative : Bool)
    (rest : List UInt8) : number? negative (0x30 :: x :: rest) = none := by
  have hdigit : isDigit x = false := by
    by_contra h
    have h := Bool.eq_true_of_not_eq_false h
    rw [lower_of_isDigit h] at hx
    rcases hx with rfl | rfl <;> exact absurd h (by decide)
  have hskip : x ≠ 0x5F := by
    rintro rfl
    exact absurd hx (by decide)
  have hdot : x ≠ 0x2E := by
    rintro rfl
    exact absurd hx (by decide)
  have hhex : isHexStart (0x30 :: x :: rest) = false := by
    cases rest with
    | nil => rfl
    | cons d rest => rcases hx with hx | hx <;> simp [isHexStart, hx]
  have hexponent : lower x ≠ 0x65 := by rcases hx with hx | hx <;> simp [hx]
  have hzero : mantissa false {} (0x30 :: x :: rest) = ({ any := true }, x :: rest) :=
    mantissa_stop hdigit hskip hdot { any := true } rest
  simp [number?, hhex, hzero, hexponent]

/-- A literal with a base is no fraction; a hexadecimal one lacks the exponent. -/
theorem number?_of_isBased {bytes : List UInt8} {n : Nat} (h : readNatLiteral bytes = .ok n)
    (hbased : isBased bytes = true) (negative : Bool) : number? negative bytes = none := by
  obtain ⟨x, d, rest, rfl, hx⟩ := based_of_readNatLiteral h hbased
  rcases hx with hx | hx | ⟨hx, hdigits⟩
  · exact number?_letter (.inl hx) negative (d :: rest)
  · exact number?_letter (.inr hx) negative (d :: rest)
  · have hhex : isHexStart (0x30 :: x :: d :: rest) = true := by simp [isHexStart, hx]
    have hzero : Within 16 (limit true) 0 0 := fun k _ => Nat.pow_pos (by decide)
    obtain ⟨value, any, hrun, -⟩ := mantissa_of_digits true {} (Nat.le_refl 16) rfl hzero hdigits
    simp [number?, hhex, hrun]

/-- What starts with a digit is read as a number, or not at all. -/
theorem read?_of_isDigit {t : Text} {b : UInt8} {rest : List UInt8} (hbytes : unsigned t.bytes = b :: rest)
    (hb : isDigit b = true) (hunderscores : 0x5F ∈ b :: rest → underscoresOk (b :: rest) = true) :
    read? t = number? (t.bytes.head? == some 0x2D) (b :: rest) := by
  have hmem : 0x5F ∈ t.bytes → 0x5F ∈ b :: rest := fun h => hbytes ▸ mem_unsigned h
  have hok : underscoresOk t.bytes = underscoresOk (b :: rest) := by
    simp only [underscoresOk, hbytes, (unsigned_cons_of_isDigit hb rest).1]
  have hcheck : (t.bytes.contains 0x5F && !underscoresOk t.bytes) = false := by
    by_cases h : 0x5F ∈ t.bytes
    · simp [hok, hunderscores (hmem h)]
    · simp [h]
  simp only [read?, hbytes, word?_of_isDigit hb, hcheck, Bool.false_eq_true, if_false]
  cases number? (t.bytes.head? == some 0x2D) (b :: rest) <;> rfl

end Fraction

open Number Fraction

/-- **A whole number is read as a fraction as well, unless its literal names a base.** -/
theorem readSingle_of_readLiteral {t : Text} {k : Int64} (h : readLiteral t = .ok k) :
    (isBased (unsigned t.bytes) = false → ∃ x, readSingle t = .ok x) ∧
    (isBased (unsigned t.bytes) = true → readSingle t = .error .form) := by
  obtain ⟨n, hn, -⟩ := readSigned_eq_ok.mp h
  have hunderscores := (readNatLiteral_eq_ok.mp hn).2.2
  constructor
  · intro hbased
    obtain ⟨b, rest, _, hbytes, hb, -⟩ := plain_of_readNatLiteral hn hbased
    obtain ⟨value, hnumber, hvalue⟩ := number?_of_not_isBased hn hbased (t.bytes.head? == some 0x2D)
    obtain ⟨s, hs⟩ := roundTo_single hvalue
    rw [hbytes] at hnumber hunderscores
    refine ⟨.ofScaled (t.bytes.head? == some 0x2D) s, ?_⟩
    simp only [readSingle, read?_of_isDigit hbytes hb hunderscores, hnumber, hs]
  · intro hbased
    obtain ⟨x, d, rest, hbytes, -⟩ := based_of_readNatLiteral hn hbased
    have hnumber := number?_of_isBased hn hbased (t.bytes.head? == some 0x2D)
    rw [hbytes] at hnumber hunderscores
    simp only [readSingle, read?_of_isDigit hbytes (by decide) hunderscores, hnumber]

end ShapeFlow
