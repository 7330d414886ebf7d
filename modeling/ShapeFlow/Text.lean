/-
Text as bytes. The names and messages of a model come from files that need not
hold valid UTF-8, so a `Text` is any list of bytes, compared byte by byte. A
string is the text of its UTF-8 bytes, and different strings are different
texts (`Text.ofString_inj`).
-/

namespace ShapeFlow

structure Text where
  bytes : List UInt8
deriving DecidableEq

namespace Text

/-- The UTF-8 bytes of a string. -/
def ofString (s : String) : Text := ⟨s.toByteArray.data.toList⟩

instance : Coe String Text := ⟨ofString⟩

instance : Inhabited Text := ⟨⟨[]⟩⟩

instance : Append Text := ⟨fun a b => ⟨a.bytes ++ b.bytes⟩⟩

def empty : Text := ⟨[]⟩

def isEmpty (t : Text) : Bool := t.bytes.isEmpty

def length (t : Text) : Nat := t.bytes.length

def ofChars (cs : List Char) : Text := ⟨cs.flatMap String.utf8EncodeChar⟩

/-- The parts in order, with `sep` between neighbours. -/
def join (sep : Text) : List Text → Text
  | [] => empty
  | [t] => t
  | t :: rest => t ++ sep ++ join sep rest

def concat (parts : List Text) : Text := ⟨parts.flatMap bytes⟩

def replicate (n : Nat) (t : Text) : Text := concat (List.replicate n t)

/-- The byte order: at the first difference the smaller byte decides, and a
beginning comes before the whole. -/
def bytesLe : List UInt8 → List UInt8 → Bool
  | [], _ => true
  | _ :: _, [] => false
  | a :: as, b :: bs => a < b || (a == b && bytesLe as bs)

def le (a b : Text) : Bool := bytesLe a.bytes b.bytes

def sort (ts : List Text) : List Text := ts.mergeSort le

def addNew (seen : List Text) (t : Text) : List Text :=
  if seen.contains t then seen else seen ++ [t]

/-- The texts in the order of their first occurrence, each once. -/
def distinct (ts : List Text) : List Text := ts.foldl addNew []

/-- Decimal digits, with no leading zero. -/
def ofNat (n : Nat) : Text := ofString n.repr

/-- Decimal digits, after a minus sign for negative numbers. -/
def ofInt (n : Int) : Text :=
  if n < 0 then ofString "-" ++ ofNat n.natAbs else ofNat n.natAbs

def ofInt64 (n : Int64) : Text := ofInt n.toInt

theorem eq_empty_of_isEmpty {t : Text} (h : t.isEmpty = true) : t = empty :=
  congrArg Text.mk (List.isEmpty_iff.mp h)

theorem ofString_inj {s t : String} : ofString s = ofString t ↔ s = t := by
  refine ⟨fun h => ?_, fun h => h ▸ rfl⟩
  have h := congrArg Text.bytes h
  exact String.toByteArray_inj.mp (ByteArray.ext (Array.toList_inj.mp h))

@[simp] theorem mem_addNew {seen : List Text} {t u : Text} :
    u ∈ addNew seen t ↔ u ∈ seen ∨ u = t := by
  unfold addNew
  split
  · rename_i h
    simp only [List.contains_eq_mem, decide_eq_true_eq] at h
    exact ⟨.inl, by rintro (hu | rfl) <;> assumption⟩
  · simp

theorem nodup_addNew {seen : List Text} (t : Text) (h : seen.Nodup) : (addNew seen t).Nodup := by
  unfold addNew
  split
  · exact h
  · rename_i ht
    simp only [List.contains_eq_mem, decide_eq_true_eq] at ht
    refine List.nodup_append.mpr ⟨h, by simp, fun a ha b hb he => ht ?_⟩
    rwa [← List.mem_singleton.mp hb, ← he]

theorem nodup_distinct (ts : List Text) : (distinct ts).Nodup := by
  suffices h : ∀ seen : List Text, seen.Nodup → (ts.foldl addNew seen).Nodup from h [] List.nodup_nil
  induction ts with
  | nil => exact fun _ h => h
  | cons t ts ih => exact fun seen h => ih _ (nodup_addNew t h)

@[simp] theorem mem_distinct {t : Text} {ts : List Text} : t ∈ distinct ts ↔ t ∈ ts := by
  suffices h : ∀ seen, t ∈ ts.foldl addNew seen ↔ t ∈ seen ∨ t ∈ ts by
    simpa [distinct] using h []
  induction ts with
  | nil => simp
  | cons u ts ih => intro seen; simp [ih, or_assoc]

theorem append_bytes (a b : Text) : (a ++ b).bytes = a.bytes ++ b.bytes := rfl

end Text

end ShapeFlow
