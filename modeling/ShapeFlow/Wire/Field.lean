/-
The binary wire format: a message is a sequence of fields, each a tag (number
and type of the value) and a value. `split` reads all fields up to the first
that is not well formed, so that a reader of the message can act on the fields
before it. Every reader returns the bytes it left, fewer than it was given.
-/
import ShapeFlow.Text

namespace ShapeFlow

namespace Wire

inductive WireError where
  | truncated
  | number
  | overflow
  | reserved
  | groupEnd
  | depth
deriving DecidableEq

def WireError.message : WireError → Text
  | .truncated => "unexpected EOF"
  | .number => "proto: invalid field number"
  | .overflow => "proto: variable length integer overflow"
  | .reserved => "proto: cannot parse reserved wire type"
  | .groupEnd => "proto: mismatching end group marker"
  | .depth => "proto: parse error"

abbrev Bytes := List UInt8

/-- A base-128 number, low digits first, in at most `more` bytes and one that
holds the highest bit only. -/
def varintUpTo : Nat → Bytes → Except WireError (Nat × Bytes)
  | _, [] => .error .truncated
  | 0, b :: rest => if b < 2 then .ok (b.toNat, rest) else .error .overflow
  | more + 1, b :: rest =>
    if b < 128 then .ok (b.toNat, rest)
    else
      match varintUpTo more rest with
      | .error e => .error e
      | .ok (n, rest) => .ok (b.toNat - 128 + 128 * n, rest)

/-- A number of up to 64 bits in up to ten bytes. -/
def varint (b : Bytes) : Except WireError (Nat × Bytes) := varintUpTo 9 b

/-- A number of exactly `count` bytes, the lowest first. -/
def fixed : Nat → Bytes → Except WireError (Nat × Bytes)
  | 0, b => .ok (0, b)
  | _ + 1, [] => .error .truncated
  | count + 1, b :: rest =>
    match fixed count rest with
    | .error e => .error e
    | .ok (n, rest) => .ok (b.toNat + 256 * n, rest)

def chunk (count : Nat) (b : Bytes) : Except WireError (Bytes × Bytes) :=
  let taken := b.take count
  if taken.length < count then .error .truncated else .ok (taken, b.drop count)

structure Tag where
  number : Nat
  type : Nat
deriving DecidableEq

def tag (b : Bytes) : Except WireError (Tag × Bytes) :=
  match varint b with
  | .error e => .error e
  | .ok (v, rest) =>
    if v / 8 = 0 ∨ 0x80000000 ≤ v / 8 then .error .number else .ok (⟨v / 8, v % 8⟩, rest)

inductive Value where
  | varint (n : UInt64)
  | fixed64 (n : UInt64)
  | bytes (b : Bytes)
  | group
  | fixed32 (n : UInt32)
deriving DecidableEq

/-- A value that is not a group, by its type. -/
def plain (type : Nat) (b : Bytes) : Except WireError (Value × Bytes) :=
  match type with
  | 0 => (varint b).map fun (n, rest) => (.varint (UInt64.ofNat n), rest)
  | 1 => (fixed 8 b).map fun (n, rest) => (.fixed64 (UInt64.ofNat n), rest)
  | 2 =>
    match varint b with
    | .error e => .error e
    | .ok (length, rest) => (chunk length rest).map fun (taken, rest) => (.bytes taken, rest)
  | 4 => .error .groupEnd
  | 5 => (fixed 4 b).map fun (n, rest) => (.fixed32 (UInt32.ofNat n), rest)
  | _ => .error .reserved

theorem varintUpTo_length {more : Nat} {b rest : Bytes} {n : Nat}
    (h : varintUpTo more b = .ok (n, rest)) : rest.length < b.length := by
  induction more generalizing b n rest with
  | zero =>
    cases b with
    | nil => simp [varintUpTo] at h
    | cons a b =>
      simp only [varintUpTo] at h
      split at h <;> simp_all
  | succ more ih =>
    cases b with
    | nil => simp [varintUpTo] at h
    | cons a b =>
      simp only [varintUpTo] at h
      split at h
      · simp_all
      · split at h
        · simp at h
        · rename_i m r hm
          have := ih hm
          simp only [Except.ok.injEq, Prod.mk.injEq] at h
          rw [← h.2, List.length_cons]
          omega

theorem tag_length {b rest : Bytes} {t : Tag} (h : tag b = .ok (t, rest)) :
    rest.length < b.length := by
  unfold tag at h
  split at h
  · simp at h
  · rename_i v r hv
    have := varintUpTo_length hv
    split at h <;> simp_all

theorem fixed_length {count : Nat} {b rest : Bytes} {n : Nat} (h : fixed count b = .ok (n, rest)) :
    rest.length ≤ b.length := by
  induction count generalizing b n rest with
  | zero => simp_all [fixed]
  | succ count ih =>
    cases b with
    | nil => simp [fixed] at h
    | cons a b =>
      simp only [fixed] at h
      split at h
      · simp at h
      · rename_i m r hm
        have := ih hm
        simp only [Except.ok.injEq, Prod.mk.injEq] at h
        rw [← h.2, List.length_cons]
        omega

theorem chunk_length {count : Nat} {b taken rest : Bytes} (h : chunk count b = .ok (taken, rest)) :
    rest.length ≤ b.length := by
  simp only [chunk] at h
  split at h
  · simp at h
  · simp only [Except.ok.injEq, Prod.mk.injEq] at h
    simp [← h.2]

theorem map_eq_ok {ε α β : Type} {x : Except ε α} {f : α → β} {b : β} (h : x.map f = .ok b) :
    ∃ a, x = .ok a ∧ f a = b := by
  cases x with
  | error e => simp [Except.map] at h
  | ok a => exact ⟨a, rfl, by simpa [Except.map] using h⟩

theorem plain_length {type : Nat} {b rest : Bytes} {v : Value} (h : plain type b = .ok (v, rest)) :
    rest.length ≤ b.length := by
  unfold plain at h
  split at h
  · obtain ⟨⟨n, r⟩, hn, he⟩ := map_eq_ok h
    have := varintUpTo_length hn
    simp only [Prod.mk.injEq] at he
    rw [← he.2]
    omega
  · obtain ⟨⟨n, r⟩, hn, he⟩ := map_eq_ok h
    have := fixed_length hn
    simp_all
  · split at h
    · simp at h
    · rename_i length r hl
      obtain ⟨⟨taken, r'⟩, hc, he⟩ := map_eq_ok h
      have := varintUpTo_length hl
      have := chunk_length hc
      simp only [Prod.mk.injEq] at he
      rw [← he.2]
      omega
  · simp at h
  · obtain ⟨⟨n, r⟩, hn, he⟩ := map_eq_ok h
    have := fixed_length hn
    simp_all
  · simp at h

def depthLimit : Nat := 10001

/-- Skips what is left of the open groups, the innermost first. -/
def skipGroups (opened : List Nat) (b : Bytes) : Except WireError Bytes :=
  match opened with
  | [] => .ok b
  | number :: outer =>
    match _ht : tag b with
    | .error e => .error e
    | .ok (t, rest) =>
      if t.type = 4 then
        if t.number = number then skipGroups outer rest else .error .groupEnd
      else if t.type = 3 then
        if depthLimit ≤ opened.length then .error .depth
        else skipGroups (t.number :: number :: outer) rest
      else
        match _hp : plain t.type rest with
        | .error e => .error e
        | .ok (_, after) => skipGroups (number :: outer) after
termination_by b.length
decreasing_by
  · exact tag_length _ht
  · exact tag_length _ht
  · exact Nat.lt_of_le_of_lt (plain_length _hp) (tag_length _ht)

def value (t : Tag) (b : Bytes) : Except WireError (Value × Bytes) :=
  if t.type = 3 then (skipGroups [t.number] b).map fun rest => (.group, rest)
  else plain t.type b

structure Field where
  number : Nat
  value : Value
deriving DecidableEq

inductive FieldError where
  | tag (e : WireError)
  | value (number : Nat) (e : WireError)

def FieldError.message : FieldError → Text
  | .tag e => "invalid field tag: " ++ e.message
  | .value number e => "invalid value for field " ++ Text.ofNat number ++ ": " ++ e.message

def field (b : Bytes) : Except FieldError (Field × Bytes) :=
  match tag b with
  | .error e => .error (.tag e)
  | .ok (t, rest) =>
    match value t rest with
    | .error e => .error (.value t.number e)
    | .ok (v, rest) => .ok (⟨t.number, v⟩, rest)

theorem skipGroups_length {opened : List Nat} {b rest : Bytes} (h : skipGroups opened b = .ok rest) :
    rest.length ≤ b.length := by
  fun_induction skipGroups opened b with
  | case1 => simp_all
  | case2 => simp at h
  | case3 _ _ _ _ ht _ ih => exact Nat.le_trans (ih h) (Nat.le_of_lt (tag_length ht))
  | case4 => simp at h
  | case5 _ _ _ _ _ _ _ _ hd =>
    rw [if_pos hd] at h
    simp at h
  | case6 _ _ _ _ _ ht _ _ hd ih =>
    rw [if_neg hd] at h
    exact Nat.le_trans (ih h) (Nat.le_of_lt (tag_length ht))
  | case7 => simp at h
  | case8 _ _ _ _ _ ht _ _ _ _ hp ih =>
    exact Nat.le_trans (ih h) (Nat.le_trans (plain_length hp) (Nat.le_of_lt (tag_length ht)))

theorem value_length {t : Tag} {b rest : Bytes} {v : Value} (h : value t b = .ok (v, rest)) :
    rest.length ≤ b.length := by
  unfold value at h
  split at h
  · obtain ⟨r, hr, he⟩ := map_eq_ok h
    have := skipGroups_length hr
    simp_all
  · exact plain_length h

theorem field_length {b rest : Bytes} {f : Field} (h : field b = .ok (f, rest)) :
    rest.length < b.length := by
  unfold field at h
  split at h
  · simp at h
  · rename_i t r ht
    have := tag_length ht
    split at h
    · simp at h
    · rename_i v r' hv
      have := value_length hv
      simp_all
      omega

/-- The fields of a message up to the first that is not well formed, and what is
wrong with that one. -/
structure Fields where
  fields : List Field := []
  error : Option FieldError := none

def split (b : Bytes) : Fields :=
  if b.isEmpty then {}
  else
    match _h : field b with
    | .error e => ⟨[], some e⟩
    | .ok (f, rest) =>
      let tail := split rest
      ⟨f :: tail.fields, tail.error⟩
termination_by b.length
decreasing_by exact field_length _h

namespace Field

/-- The number of a field, zero if its value is none. -/
def scalar (f : Field) : UInt64 :=
  match f.value with
  | .varint n => n
  | .fixed64 n => n
  | .fixed32 n => n.toUInt64
  | .bytes _ | .group => 0

/-- The bytes of a field, none if its value is a number. -/
def bytes (f : Field) : Bytes :=
  match f.value with
  | .bytes b => b
  | _ => []

def text (f : Field) : Text := ⟨f.bytes⟩

def type (f : Field) : Nat :=
  match f.value with
  | .varint _ => 0
  | .fixed64 _ => 1
  | .bytes _ => 2
  | .group => 3
  | .fixed32 _ => 5

end Field

end Wire

end ShapeFlow
