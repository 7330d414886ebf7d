/-
Dictionaries keyed by text: association lists in the order in which the keys
were first inserted, each key once. `get?` after `insert` is settled by
`get?_insert_self` and `get?_insert_other`.
-/
import ShapeFlow.Text

namespace ShapeFlow

structure Dict (α : Type) where
  entries : List (Text × α) := []

namespace Dict

variable {α : Type}

def empty : Dict α := {}

instance : Inhabited (Dict α) := ⟨empty⟩

def lookup (key : Text) : List (Text × α) → Option α
  | [] => none
  | (k, a) :: rest => if k = key then some a else lookup key rest

def get? (d : Dict α) (key : Text) : Option α := lookup key d.entries

def contains (d : Dict α) (key : Text) : Bool := (d.get? key).isSome

/-- Replaces the entry of the key, or adds one at the end. -/
def put (key : Text) (a : α) : List (Text × α) → List (Text × α)
  | [] => [(key, a)]
  | (k, b) :: rest => if k = key then (key, a) :: rest else (k, b) :: put key a rest

def insert (d : Dict α) (key : Text) (a : α) : Dict α := ⟨put key a d.entries⟩

def keys (d : Dict α) : List Text := d.entries.map Prod.fst

def size (d : Dict α) : Nat := d.entries.length

/-- The dictionary of a list of entries; a later entry wins. -/
def ofList (entries : List (Text × α)) : Dict α :=
  entries.foldl (fun d (key, a) => d.insert key a) empty

def sorted (d : Dict α) : List (Text × α) := d.entries.mergeSort fun a b => a.1.le b.1

theorem lookup_put_self (key : Text) (a : α) (es : List (Text × α)) :
    lookup key (put key a es) = some a := by
  induction es with
  | nil => simp [put, lookup]
  | cons e es ih => by_cases h : e.1 = key <;> simp [put, lookup, h, ih]

theorem lookup_put_other {key other : Text} (h : other ≠ key) (a : α) (es : List (Text × α)) :
    lookup other (put key a es) = lookup other es := by
  induction es with
  | nil => simp [put, lookup, Ne.symm h]
  | cons e es ih =>
    by_cases hk : e.1 = key
    · have : e.1 ≠ other := fun he => h (he ▸ hk)
      simp [put, lookup, hk, Ne.symm h]
    · simp [put, lookup, hk, ih]

theorem put_of_lookup {key : Text} {a : α} {es : List (Text × α)} (h : lookup key es = some a) :
    put key a es = es := by
  induction es with
  | nil => simp [lookup] at h
  | cons e es ih =>
    by_cases hk : e.1 = key
    · simp only [lookup, hk, if_true, Option.some.injEq] at h
      subst hk h
      simp [put]
    · simp only [lookup, hk, if_false] at h
      simp [put, hk, ih h]

theorem put_of_not_mem {key : Text} {es : List (Text × α)} (h : key ∉ es.map Prod.fst) (a : α) :
    put key a es = es ++ [(key, a)] := by
  induction es with
  | nil => rfl
  | cons e es ih =>
    simp only [List.map_cons, List.mem_cons, not_or] at h
    simp [put, Ne.symm h.1, ih h.2]

theorem lookup_eq_none {key : Text} {es : List (Text × α)} :
    lookup key es = none ↔ key ∉ es.map Prod.fst := by
  induction es with
  | nil => simp [lookup]
  | cons e es ih =>
    by_cases h : e.1 = key
    · simp [lookup, h]
    · simp [lookup, h, ih, Ne.symm h]

theorem mem_of_lookup {key : Text} {a : α} {es : List (Text × α)} (h : lookup key es = some a) :
    (key, a) ∈ es := by
  induction es with
  | nil => simp [lookup] at h
  | cons e es ih =>
    by_cases hk : e.1 = key
    · simp only [lookup, hk, if_true, Option.some.injEq] at h
      subst hk h
      exact List.mem_cons_self
    · simp only [lookup, hk, if_false] at h
      exact List.mem_cons_of_mem _ (ih h)

theorem map_fst_put (key : Text) (a : α) (es : List (Text × α)) :
    (put key a es).map Prod.fst = Text.addNew (es.map Prod.fst) key := by
  by_cases h : key ∈ es.map Prod.fst
  · rw [Text.addNew, if_pos (List.contains_iff_mem.mpr h)]
    induction es with
    | nil => cases h
    | cons e es ih =>
      by_cases hk : e.1 = key
      · simp [put, hk]
      · simp only [List.map_cons, List.mem_cons, Ne.symm hk, false_or] at h
        simp [put, hk, ih h]
  · rw [put_of_not_mem h, Text.addNew, if_neg (fun hc => h (List.contains_iff_mem.mp hc)), List.map_append]
    rfl

theorem get?_insert_self (d : Dict α) (key : Text) (a : α) :
    (d.insert key a).get? key = some a := lookup_put_self key a d.entries

theorem get?_insert_other (d : Dict α) {key other : Text} (h : other ≠ key) (a : α) :
    (d.insert key a).get? other = d.get? other := lookup_put_other h a d.entries

/-- To insert what is there changes nothing. -/
theorem insert_of_get? {d : Dict α} {key : Text} {a : α} (h : d.get? key = some a) :
    d.insert key a = d := congrArg Dict.mk (put_of_lookup h)

/-- A new key comes last. -/
theorem keys_insert (d : Dict α) (key : Text) (a : α) : (d.insert key a).keys = Text.addNew d.keys key :=
  map_fst_put key a d.entries

@[simp] theorem get?_empty (key : Text) : (empty : Dict α).get? key = none := rfl

end Dict

end ShapeFlow
