/-
Characters within texts. The first byte of a character tells how many others go on with it
(`lead?`, `follow`). A character is found where its bytes stand, whatever comes after
(`leading?_utf8EncodeChar`), and what stands before one is cut into the same pieces as alone, even
where it is no UTF-8 (`pieces_append`): a character starts with a byte that goes on with none. So
white space around a text does not count when the text is trimmed (`trim_padded`).
-/
import Mathlib
import ShapeFlow.Text.Blank

namespace ShapeFlow.Text

/-! ## The bytes of a character -/

/-- What the first byte of a character tells: how many bytes follow, the least code that needs so
many, and the first bits of the code. -/
def lead? (a : UInt8) : Option (Nat × Nat × Nat) :=
  if a < 0x80 then some (0, 0, a.toNat)
  else if a < 0xC0 then none
  else if a < 0xE0 then some (1, 0x80, (a &&& 0x1F).toNat)
  else if a < 0xF0 then some (2, 0x800, (a &&& 0x0F).toNat)
  else if a < 0xF8 then some (3, 0x10000, (a &&& 0x07).toNat)
  else none

/-- Reads bytes that go on with a code, and returns the rest. -/
def follow : Nat → Nat → List UInt8 → Option (Nat × List UInt8)
  | 0, code, bytes => some (code, bytes)
  | _ + 1, _, [] => none
  | count + 1, code, b :: bytes => (continuation? b).bind fun x => follow count (code * 64 + x) bytes

theorem scalar?_of_le {least n : Nat} (h : least ≤ n) (hn : n.isValidChar) :
    scalar? least n = some (Char.ofNat n) := if_pos ⟨h, hn⟩

theorem leading?_cons (a : UInt8) (bytes : List UInt8) :
    leading? (a :: bytes) = (lead? a).bind fun l =>
      (follow l.1 l.2.2 bytes).bind fun p => (scalar? l.2.1 p.1).map fun c => (c, p.2) := by
  by_cases h80 : a < 0x80
  · have hvalid : a.toNat.isValidChar := .inl (Nat.lt_trans (UInt8.lt_iff_toNat_lt.mp h80) (by decide))
    simp [leading?, lead?, h80, follow, scalar?_of_le (Nat.zero_le _) hvalid]
  by_cases hC0 : a < 0xC0
  · simp [leading?, lead?, h80, hC0]
  by_cases hE0 : a < 0xE0
  · rcases bytes with _ | ⟨b, bytes⟩ <;>
      simp [leading?, lead?, h80, hC0, hE0, follow, Option.map_eq_bind, Option.bind_assoc]
  by_cases hF0 : a < 0xF0
  · rcases bytes with _ | ⟨b, _ | ⟨c, bytes⟩⟩ <;>
      simp [leading?, lead?, h80, hC0, hE0, hF0, follow, Option.map_eq_bind, Option.bind_assoc]
  by_cases hF8 : a < 0xF8
  · rcases bytes with _ | ⟨b, _ | ⟨c, _ | ⟨d, bytes⟩⟩⟩ <;>
      simp [leading?, lead?, h80, hC0, hE0, hF0, hF8, follow, Option.map_eq_bind, Option.bind_assoc]
  · simp [leading?, lead?, h80, hC0, hE0, hF0, hF8]

/-! ## Characters are read back -/

theorem continuation?_ofNat {y : Nat} (h : y < 64) : continuation? (UInt8.ofNat (y + 128)) = some y := by
  revert y
  decide

theorem lead?_one {x : Nat} (h : x < 128) : lead? (UInt8.ofNat x) = some (0, 0, x) := by
  revert x
  decide

theorem lead?_two {x : Nat} (h : x < 32) : lead? (UInt8.ofNat (x + 192)) = some (1, 0x80, x) := by
  revert x
  decide

theorem lead?_three {x : Nat} (h : x < 16) : lead? (UInt8.ofNat (x + 224)) = some (2, 0x800, x) := by
  revert x
  decide

theorem lead?_four {x : Nat} (h : x < 8) : lead? (UInt8.ofNat (x + 240)) = some (3, 0x10000, x) := by
  revert x
  decide

/-- A character is read from its bytes, whatever comes after them. -/
theorem leading?_utf8EncodeChar (c : Char) (rest : List UInt8) :
    leading? (String.utf8EncodeChar c ++ rest) = some (c, rest) := by
  have hvalid : c.val.toNat.isValidChar := c.valid
  have hchar : Char.ofNat c.val.toNat = c := Char.ofNat_toNat c
  unfold String.utf8EncodeChar
  generalize c.val.toNat = v at hvalid hchar ⊢
  have hlt : v < 0x110000 := by
    unfold Nat.isValidChar at hvalid
    omega
  have hnext : ∀ n, continuation? (UInt8.ofNat (n % 64 + 128)) = some (n % 64) := fun n =>
    continuation?_ofNat (Nat.mod_lt n (by decide))
  dsimp only
  split
  · rename_i hone
    rw [List.cons_append, leading?_cons, lead?_one (by omega)]
    simp [follow, scalar?_of_le (Nat.zero_le v) hvalid, hchar]
  · split
    · rename_i hone htwo
      have hv : v / 64 % 32 * 64 + v % 64 = v := by omega
      rw [List.cons_append, leading?_cons, lead?_two (Nat.mod_lt _ (by decide))]
      simp only [List.cons_append, List.nil_append, Option.bind_some, follow, hnext, hv,
        scalar?_of_le (Nat.lt_of_not_le hone) hvalid, Option.map_some, hchar]
    · split
      · rename_i hone htwo hthree
        have hv : (v / 4096 % 16 * 64 + v / 64 % 64) * 64 + v % 64 = v := by omega
        rw [List.cons_append, leading?_cons, lead?_three (Nat.mod_lt _ (by decide))]
        simp only [List.cons_append, List.nil_append, Option.bind_some, follow, hnext, hv,
          scalar?_of_le (Nat.lt_of_not_le htwo) hvalid, Option.map_some, hchar]
      · rename_i hone htwo hthree
        have hv : ((v / 262144 % 8 * 64 + v / 4096 % 64) * 64 + v / 64 % 64) * 64 + v % 64 = v := by omega
        rw [List.cons_append, leading?_cons, lead?_four (Nat.mod_lt _ (by decide))]
        simp only [List.cons_append, List.nil_append, Option.bind_some, follow, hnext, hv,
          scalar?_of_le (Nat.lt_of_not_le hthree) hvalid, Option.map_some, hchar]

/-- A byte below 0x80 is a character of its own. -/
theorem toNat_of_mem_utf8EncodeChar {c : Char} {b : UInt8} (h : b ∈ String.utf8EncodeChar c) (hb : b < 0x80) :
    c.toNat = b.toNat := by
  show c.val.toNat = b.toNat
  have hlarge : ∀ n, 128 ≤ n → n < 256 → b ≠ UInt8.ofNat n := by
    intro n hlow hhigh hn
    simp only [hn, UInt8.lt_iff_toNat_lt, UInt8.toNat_ofNat', UInt8.reduceToNat] at hb
    omega
  unfold String.utf8EncodeChar at h
  generalize c.val.toNat = v at h ⊢
  dsimp only at h
  split at h
  · rw [List.mem_singleton.mp h, UInt8.toNat_ofNat']
    omega
  · exfalso
    split at h
    · simp only [List.mem_cons, List.not_mem_nil, or_false] at h
      rcases h with h | h <;> exact hlarge _ (by omega) (by omega) h
    · split at h
      · simp only [List.mem_cons, List.not_mem_nil, or_false] at h
        rcases h with h | h | h <;> exact hlarge _ (by omega) (by omega) h
      · simp only [List.mem_cons, List.not_mem_nil, or_false] at h
        rcases h with h | h | h | h <;> exact hlarge _ (by omega) (by omega) h

/-! ## Where a character may start -/

/-- The bytes do not go on with a character that began before them. -/
def Fresh (bytes : List UInt8) : Prop := ∀ b ∈ bytes.head?, continuation? b = none

theorem continuation?_of_lead? {b : UInt8} {l : Nat × Nat × Nat} (h : lead? b = some l) :
    continuation? b = none := by
  have hlow : ∀ n < 128, continuation? (UInt8.ofNat n) = none := by decide
  have hhigh : ∀ n < 64, continuation? (UInt8.ofNat (n + 192)) = none := by decide
  have hlt := b.toNat_lt
  have hb : b = UInt8.ofNat b.toNat := UInt8.ofNat_toNat.symm
  by_cases h80 : b.toNat < 0x80
  · rw [hb]
    exact hlow b.toNat h80
  · have hC0 : ¬ b.toNat < 0xC0 := by
      intro hC0
      simp [lead?, UInt8.lt_iff_toNat_lt, h80, hC0] at h
    obtain ⟨n, hn⟩ := Nat.exists_eq_add_of_le' (Nat.le_of_not_lt hC0)
    rw [hb, hn]
    exact hhigh n (by omega)

theorem fresh_ofChars (cs : List Char) : Fresh (ofChars cs).bytes := by
  cases cs with
  | nil => exact nofun
  | cons c cs =>
    intro b hb
    obtain ⟨rest, hrest⟩ : ∃ rest, (ofChars (c :: cs)).bytes = b :: rest := List.head?_eq_some_iff.mp hb
    have hread : leading? (b :: rest) = some (c, (ofChars cs).bytes) :=
      hrest ▸ leading?_utf8EncodeChar c (ofChars cs).bytes
    rw [leading?_cons] at hread
    obtain ⟨l, hl, -⟩ := Option.bind_eq_some_iff.mp hread
    exact continuation?_of_lead? hl

theorem follow_append {rest : List UInt8} (hrest : Fresh rest) (count code : Nat) (bytes : List UInt8) :
    follow count code (bytes ++ rest) = (follow count code bytes).map fun p => (p.1, p.2 ++ rest) := by
  induction count generalizing code bytes with
  | zero => rfl
  | succ count ih =>
    cases bytes with
    | cons b bytes =>
      simp only [List.cons_append, follow, ih]
      cases continuation? b <;> rfl
    | nil =>
      cases rest with
      | nil => rfl
      | cons b rest => simp [follow, hrest b rfl]

theorem length_follow {count code m : Nat} {bytes rest : List UInt8} (h : follow count code bytes = some (m, rest)) :
    rest.length ≤ bytes.length := by
  induction count generalizing code bytes with
  | zero =>
    cases h
    exact Nat.le_refl _
  | succ count ih =>
    cases bytes with
    | nil => cases h
    | cons b bytes =>
      obtain ⟨x, -, h⟩ := Option.bind_eq_some_iff.mp h
      exact Nat.le_succ_of_le (ih h)

theorem leading?_append {rest : List UInt8} (hrest : Fresh rest) (a : UInt8) (bytes : List UInt8) :
    leading? (a :: (bytes ++ rest)) = (leading? (a :: bytes)).map fun p => (p.1, p.2 ++ rest) := by
  rw [leading?_cons, leading?_cons]
  cases lead? a with
  | none => rfl
  | some l =>
    simp only [Option.bind_some, follow_append hrest]
    cases follow l.1 l.2.2 bytes with
    | none => rfl
    | some p => cases h : scalar? l.2.1 p.1 <;> simp [h]

theorem length_leading? {a : UInt8} {bytes rest : List UInt8} {c : Char}
    (h : leading? (a :: bytes) = some (c, rest)) : rest.length ≤ bytes.length := by
  rw [leading?_cons] at h
  obtain ⟨l, -, h⟩ := Option.bind_eq_some_iff.mp h
  obtain ⟨p, hp, h⟩ := Option.bind_eq_some_iff.mp h
  obtain ⟨c', -, h⟩ := Option.map_eq_some_iff.mp h
  cases h
  exact length_follow hp

/-! ## Pieces -/

/-- More fuel than bytes makes no difference. -/
theorem piecesOf_eq {n : Nat} {bytes : List UInt8} (h : bytes.length ≤ n) :
    piecesOf n bytes = pieces ⟨bytes⟩ := by
  induction n using Nat.strong_induction_on generalizing bytes with
  | _ n ih =>
    cases bytes with
    | nil => cases n <;> rfl
    | cons b bytes =>
      cases n with
      | zero => cases h
      | succ n =>
        have hle : bytes.length ≤ n := Nat.le_of_succ_le_succ h
        simp only [pieces, length, List.length_cons, piecesOf]
        cases hread : leading? (b :: bytes) with
        | none => simp only [ih n (by omega) hle, ih bytes.length (by omega) (Nat.le_refl _)]
        | some p =>
          have hp : p.2.length ≤ bytes.length := length_leading? hread
          simp only [ih n (by omega) (hp.trans hle), ih bytes.length (by omega) hp]

theorem pieces_cons_of_some {b : UInt8} {bytes rest : List UInt8} {c : Char}
    (h : leading? (b :: bytes) = some (c, rest)) : pieces ⟨b :: bytes⟩ = .char c :: pieces ⟨rest⟩ := by
  simp only [pieces, length, List.length_cons, piecesOf, h]
  rw [piecesOf_eq (length_leading? h)]
  rfl

theorem pieces_cons_of_none {b : UInt8} {bytes : List UInt8} (h : leading? (b :: bytes) = none) :
    pieces ⟨b :: bytes⟩ = .byte b :: pieces ⟨bytes⟩ := by
  simp only [pieces, length, List.length_cons, piecesOf, h]

/-- Bytes before a character are cut into the same pieces as alone. -/
theorem pieces_append {rest : List UInt8} (hrest : Fresh rest) (bytes : List UInt8) :
    pieces ⟨bytes ++ rest⟩ = pieces ⟨bytes⟩ ++ pieces ⟨rest⟩ := by
  -- by the number of bytes, since a character takes several of them at once
  induction hn : bytes.length using Nat.strong_induction_on generalizing bytes with
  | _ n ih =>
    cases bytes with
    | nil => rfl
    | cons b bytes =>
      rw [List.length_cons] at hn
      have happend := leading?_append hrest b bytes
      cases hread : leading? (b :: bytes) with
      | none =>
        rw [hread] at happend
        rw [pieces_cons_of_none hread, List.cons_append, pieces_cons_of_none happend,
          ih bytes.length (by omega) bytes rfl, List.cons_append]
      | some p =>
        rw [hread] at happend
        have hp := length_leading? hread
        rw [pieces_cons_of_some hread, List.cons_append, pieces_cons_of_some happend,
          ih p.2.length (by omega) p.2 rfl, List.cons_append]

theorem bytes_ofChars_cons (c : Char) (cs : List Char) :
    (ofChars (c :: cs)).bytes = String.utf8EncodeChar c ++ (ofChars cs).bytes := rfl

theorem pieces_ofChars_append (cs : List Char) (rest : List UInt8) :
    pieces ⟨(ofChars cs).bytes ++ rest⟩ = cs.map .char ++ pieces ⟨rest⟩ := by
  induction cs with
  | nil => rfl
  | cons c cs ih =>
    obtain ⟨b, bytes, hc⟩ := List.exists_cons_of_ne_nil (@String.utf8EncodeChar_ne_nil c)
    have hread := leading?_utf8EncodeChar c ((ofChars cs).bytes ++ rest)
    rw [hc, List.cons_append] at hread
    rw [bytes_ofChars_cons, hc, List.append_assoc, List.cons_append, pieces_cons_of_some hread, ih]
    rfl

theorem pieces_ofChars (cs : List Char) : (ofChars cs).pieces = cs.map .char := by
  have h := pieces_ofChars_append cs []
  rw [List.append_nil] at h
  exact h.trans (List.append_nil _)

/-! ## Trimming -/

/-- Blank elements at both ends do not count. -/
theorem strip_append {α : Type} {p : α → Bool} {before after : List α} (hbefore : ∀ a ∈ before, p a = true)
    (hafter : ∀ a ∈ after, p a = true) (l : List α) :
    ((before ++ l ++ after).dropWhile p).reverse.dropWhile p = (l.dropWhile p).reverse.dropWhile p := by
  rw [List.append_assoc, List.dropWhile_append_of_pos hbefore, List.dropWhile_append]
  split
  · rename_i hnone
    rw [List.isEmpty_iff.mp hnone, List.dropWhile_eq_nil_iff.mpr hafter]
  · rw [List.reverse_append, List.dropWhile_append_of_pos fun a ha => hafter a (List.mem_reverse.mp ha)]

/-- **White space around a text does not count.** -/
theorem trim_padded {before after : List Char} (hbefore : ∀ c ∈ before, isBlank c = true)
    (hafter : ∀ c ∈ after, isBlank c = true) (t : Text) :
    (ofChars before ++ t ++ ofChars after).trim = t.trim := by
  have hpieces : (ofChars before ++ t ++ ofChars after).pieces =
      before.map .char ++ t.pieces ++ after.map .char := by
    calc (ofChars before ++ t ++ ofChars after).pieces
      _ = pieces ⟨(ofChars before).bytes ++ (t.bytes ++ (ofChars after).bytes)⟩ := by
        rw [← List.append_assoc]
        rfl
      _ = before.map .char ++ (t.pieces ++ (ofChars after).pieces) := by
        rw [pieces_ofChars_append, pieces_append (fresh_ofChars after)]
      _ = before.map .char ++ t.pieces ++ after.map .char := by
        rw [pieces_ofChars, List.append_assoc]
  have hblank {cs : List Char} (h : ∀ c ∈ cs, isBlank c = true) :
      ∀ p ∈ cs.map Piece.char, p.blank = true := List.forall_mem_map.mpr h
  simp only [trim, hpieces, strip_append (hblank hbefore) (hblank hafter)]

theorem trim_ofChars {cs : List Char} (h : ∀ c ∈ cs, isBlank c = false) : (ofChars cs).trim = ofChars cs := by
  have hdrop : ∀ l : List Piece, (∀ p ∈ l, p.blank = false) → l.dropWhile Piece.blank = l := by
    intro l hl
    cases l with
    | nil => rfl
    | cons p l => simp [hl p List.mem_cons_self]
  have hblank : ∀ p ∈ cs.map Piece.char, p.blank = false := List.forall_mem_map.mpr h
  simp only [trim, pieces_ofChars, hdrop _ hblank]
  rw [hdrop _ fun p hp => hblank p (List.mem_reverse.mp hp), List.reverse_reverse, List.flatMap_map]
  rfl

end ShapeFlow.Text
