/-
Dividing a text at a byte: at its first occurrence, or at each one. Texts without
the byte, once joined with it, are the parts again (`split_join`).
-/
import ShapeFlow.Text

namespace ShapeFlow

namespace Text

def cutBytes (sep : UInt8) : List UInt8 → Option (List UInt8 × List UInt8)
  | [] => none
  | b :: rest =>
    if b = sep then some ([], rest)
    else (cutBytes sep rest).map fun (before, after) => (b :: before, after)

def cut? (sep : UInt8) (t : Text) : Option (Text × Text) :=
  (cutBytes sep t.bytes).map fun (before, after) => (⟨before⟩, ⟨after⟩)

/-- The part before the first `sep` and the parts after it; there is always a
first part. -/
def splitBytes (sep : UInt8) : List UInt8 → List UInt8 × List (List UInt8)
  | [] => ([], [])
  | b :: rest =>
    let (first, others) := splitBytes sep rest
    if b = sep then ([], first :: others) else (b :: first, others)

/-- The parts between occurrences of `sep`, one more than there are of them. -/
def split (sep : UInt8) (t : Text) : List Text :=
  let (first, others) := splitBytes sep t.bytes
  ⟨first⟩ :: others.map Text.mk

theorem join_cons_cons (sep a b : Text) (ts : List Text) :
    join sep (a :: b :: ts) = a ++ sep ++ join sep (b :: ts) := rfl

theorem split_of_not_mem {sep : UInt8} {t : Text} (h : sep ∉ t.bytes) : t.split sep = [t] := by
  obtain ⟨bytes⟩ := t
  have hbytes : splitBytes sep bytes = (bytes, []) := by
    induction bytes with
    | nil => rfl
    | cons b rest ih =>
      simp only [List.mem_cons, not_or] at h
      simp [splitBytes, ih h.2, Ne.symm h.1]
  simp [split, hbytes]

theorem split_append {sep : UInt8} {t : Text} (h : sep ∉ t.bytes) (u : Text) :
    (t ++ ⟨[sep]⟩ ++ u).split sep = t :: u.split sep := by
  obtain ⟨bytes⟩ := t
  have hbytes : splitBytes sep (bytes ++ [sep] ++ u.bytes) =
      (bytes, (splitBytes sep u.bytes).1 :: (splitBytes sep u.bytes).2) := by
    induction bytes with
    | nil => simp [splitBytes]
    | cons b rest ih =>
      simp only [List.mem_cons, not_or] at h
      simp only [List.cons_append, splitBytes, ih h.2, Ne.symm h.1, if_false]
  simp only [split, append_bytes, hbytes, List.map_cons]

theorem split_join {sep : UInt8} {t : Text} {ts : List Text} (h : ∀ u ∈ t :: ts, sep ∉ u.bytes) :
    (join ⟨[sep]⟩ (t :: ts)).split sep = t :: ts := by
  induction ts generalizing t with
  | nil => exact split_of_not_mem (h t List.mem_cons_self)
  | cons u ts ih =>
    rw [join_cons_cons, split_append (h t List.mem_cons_self), ih fun v hv => h v (List.mem_cons_of_mem t hv)]

theorem cut?_append {sep : UInt8} {t : Text} (h : sep ∉ t.bytes) (u : Text) :
    (t ++ ⟨[sep]⟩ ++ u).cut? sep = some (t, u) := by
  obtain ⟨bytes⟩ := t
  have hbytes : cutBytes sep (bytes ++ [sep] ++ u.bytes) = some (bytes, u.bytes) := by
    induction bytes with
    | nil => simp [cutBytes]
    | cons b rest ih =>
      simp only [List.mem_cons, not_or] at h
      simp only [List.cons_append, cutBytes, ih h.2, Ne.symm h.1, if_false, Option.map_some]
  simp only [cut?, append_bytes, hbytes, Option.map_some]

end Text

end ShapeFlow
