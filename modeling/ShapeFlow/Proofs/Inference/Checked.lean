/-
Computations that check what they take. The rules read lists with a value to fall back on, take
as much of a list as there is and divide by whatever they are given. Here nothing stands in for
what is missing: an index or a slice out of range, a list of negative length, a division by zero
and a look into what is not there each end the computation (`Crash`). Where a checked rule comes
to the verdict of a rule it has not crashed on the way, and then neither does the inference that
calls it (`CheckedRule.infer_eq`).
-/
import ShapeFlow.Proofs.Inference.Result

namespace ShapeFlow

/-- What a computation ends with that takes what is not there. -/
inductive Crash where
  | index (i : Int) (length : Nat)
  | slice (start stop : Int) (length : Nat)
  | size (n : Int)
  | division
  | absent
deriving DecidableEq

/-- A computation that crashes, or comes to a verdict. -/
inductive Checked (α : Type) where
  | crash (c : Crash)
  | verdict (v : Verdict α)

namespace Checked

variable {α β : Type}

def bind (x : Checked α) (f : α → Checked β) : Checked β :=
  match x with
  | crash c => crash c
  | verdict (.invalid e) => verdict (.invalid e)
  | verdict .abstain => verdict .abstain
  | verdict (.done a) => f a

def ofExcept : Except Crash α → Checked α
  | .ok a => verdict (.done a)
  | .error c => crash c

instance : Monad Checked where
  pure a := verdict (.done a)
  bind := bind

instance : MonadLift Verdict Checked := ⟨verdict⟩
instance : MonadLift (Except Crash) Checked := ⟨ofExcept⟩

/-- What was taken is at hand from then on. -/
theorem bind_ok {x : Except Crash α} {a : α} (h : x = .ok a) (g : α → Checked β) :
    ((liftM x : Checked α) >>= g) = g a := by
  rw [h]
  rfl

/-- **Steps that crash nowhere come to the verdict of the same steps unchecked.** -/
theorem bind_verdict {v : Verdict α} {f : α → Verdict β} {g : α → Checked β}
    (h : ∀ a, v = .done a → g a = verdict (f a)) :
    (verdict v >>= g) = verdict (v >>= f) := by
  cases v with
  | invalid e => rfl
  | abstain => rfl
  | done a => exact h a rfl

/-! ## Taking -/

/-- The value at a place of a list. -/
def get (xs : List α) (i : Int) : Except Crash α :=
  if 0 ≤ i then
    match xs[i.toNat]? with
    | some x => .ok x
    | none => .error (.index i xs.length)
  else .error (.index i xs.length)

/-- A list with a value put into its place. -/
def set (xs : List α) (i : Int) (x : α) : Except Crash (List α) :=
  if 0 ≤ i ∧ i < xs.length then .ok (xs.set i.toNat x) else .error (.index i xs.length)

/-- What stands between two places of a list. -/
def slice (xs : List α) (start stop : Int) : Except Crash (List α) :=
  if 0 ≤ start ∧ start ≤ stop ∧ stop ≤ xs.length then .ok ((xs.take stop.toNat).drop start.toNat)
  else .error (.slice start stop xs.length)

/-- So many times the same value. -/
def fill (n : Int) (x : α) : Except Crash (List α) :=
  if n < 0 then .error (.size n) else .ok (List.replicate n.toNat x)

def divide (a b : Int64) : Except Crash Int64 := if b = 0 then .error .division else .ok (a / b)

/-- What has to be there. -/
def present : Option α → Except Crash α
  | some a => .ok a
  | none => .error .absent

theorem get_of_getElem? {xs : List α} {i : Nat} {x : α} (h : xs[i]? = some x) : get xs i = .ok x := by
  unfold get
  rw [if_pos (Int.natCast_nonneg i), Int.toNat_natCast, h]

theorem get_eq {xs : List α} {i : Nat} (h : i < xs.length) (d : α) : get xs i = .ok (xs.getD i d) := by
  rw [List.getD_eq_getElem?_getD, List.getElem?_eq_getElem h]
  exact get_of_getElem? (List.getElem?_eq_getElem h)

theorem get_zero {xs : List α} (h : 0 < xs.length) (d : α) : get xs 0 = .ok (xs.getD 0 d) := get_eq h d

theorem get_one {xs : List α} (h : 1 < xs.length) (d : α) : get xs 1 = .ok (xs.getD 1 d) := get_eq h d

theorem set_eq {xs : List α} {i : Nat} (h : i < xs.length) (x : α) : set xs i x = .ok (xs.set i x) :=
  if_pos ⟨Int.natCast_nonneg i, Int.ofNat_lt.mpr h⟩

theorem slice_take {xs : List α} {n : Nat} (h : n ≤ xs.length) : slice xs 0 n = .ok (xs.take n) :=
  if_pos ⟨Int.le_refl 0, Int.natCast_nonneg n, Int.ofNat_le.mpr h⟩

theorem slice_drop {xs : List α} {n : Nat} (h : n ≤ xs.length) :
    slice xs n xs.length = .ok (xs.drop n) := by
  unfold slice
  rw [if_pos ⟨Int.natCast_nonneg n, Int.ofNat_le.mpr h, Int.le_refl _⟩]
  simp only [Int.toNat_natCast, List.take_length]

theorem fill_eq (n : Nat) (x : α) : fill n x = .ok (List.replicate n x) :=
  if_neg (Int.not_lt.mpr (Int.natCast_nonneg n))

theorem divide_eq {a b : Int64} (h : b ≠ 0) : divide a b = .ok (a / b) := if_neg h

/-- A loop whose every turn goes well. -/
theorem mapM_eq {xs : List α} {f : α → Except Crash β} {g : α → β} (h : ∀ x ∈ xs, f x = .ok (g x)) :
    xs.mapM f = .ok (xs.map g) := by
  induction xs with
  | nil => rfl
  | cons x xs ih =>
    obtain ⟨hx, hxs⟩ := List.forall_mem_cons.mp h
    rw [List.mapM_cons, hx, ih hxs]
    rfl

/-! ## Inputs and attributes -/

/-- Whether so many inputs are there and have shapes. -/
def haveShapes (inputs : List TensorInfo?) (n : Nat) : Except Crash Bool :=
  if inputs.length < n then .ok false
  else do
    let first ← slice inputs 0 n
    return first.all fun input => (TensorInfo?.shape? input).isSome

def needShapes (inputs : List TensorInfo?) (n : Nat) : Checked Unit := do
  let known ← haveShapes inputs n
  Verdict.abstainIf !known

/-- The shape of an input that has one. -/
def shapeOf (inputs : List TensorInfo?) (i : Nat) : Except Crash Shape := do
  let input ← get inputs i
  let info ← present input
  present info.shape

/-- As `spatialOr`, with the values to fall back on made first. -/
def listOr (attrs : Attributes) (name : Text) (length : Int) (value least : Int64) :
    Checked (List Int64) := do
  let default ← fill length value
  let given ← Verdict.ofAttribute (attrs.spatial? name length)
  let values := given.getD default
  Verdict.ofAttribute (checkMinimum name values least)
  return values

/-- As `spatialIfGiven`, with a length that could be negative. -/
def listIfGiven (attrs : Attributes) (name : Text) (length : Int) (least : Int64) :
    Checked (Option (List Int64)) := do
  let given ← Verdict.ofAttribute (attrs.spatial? name length)
  Verdict.ofAttribute (checkMinimum name (given.getD []) least)
  return given

section Inputs

variable {inputs : List TensorInfo?} {n i : Nat}

theorem getElem?_of_inputShape? {s : Shape} (h : inputShape? inputs i = some s) :
    ∃ info : TensorInfo, inputs[i]? = some (some info) ∧ info.shape = some s := by
  unfold inputShape? at h
  obtain ⟨info, hinfo, hshape⟩ := Option.bind_eq_some_iff.mp h
  refine ⟨info, ?_, hshape⟩
  rw [List.getD_eq_getElem?_getD] at hinfo
  cases hi : inputs[i]? with
  | none => rw [hi] at hinfo; cases hinfo
  | some input => rw [hi] at hinfo; exact congrArg some hinfo

theorem shapeOf_eq {s : Shape} (h : inputShape? inputs i = some s) : shapeOf inputs i = .ok s := by
  obtain ⟨info, hinfo, hshape⟩ := getElem?_of_inputShape? h
  unfold shapeOf
  rw [get_of_getElem? hinfo]
  change present info.shape = .ok s
  rw [hshape]
  rfl

theorem haveShapes_of_forall (h : ∀ i < n, ∃ s, inputShape? inputs i = some s) :
    haveShapes inputs n = .ok true := by
  have hlength : n ≤ inputs.length := by
    cases n with
    | zero => exact Nat.zero_le _
    | succ n =>
      obtain ⟨s, hs⟩ := h n (Nat.lt_succ_self n)
      obtain ⟨info, hinfo, -⟩ := getElem?_of_inputShape? hs
      exact (List.getElem?_eq_some_iff.mp hinfo).1
  unfold haveShapes
  rw [if_neg (Nat.not_lt.mpr hlength), slice_take hlength]
  refine congrArg Except.ok (List.all_eq_true.mpr fun input hinput => ?_)
  obtain ⟨i, hi, rfl⟩ := List.mem_take_iff_getElem.mp hinput
  obtain ⟨s, hs⟩ := h i (by omega)
  obtain ⟨info, hinfo, hshape⟩ := getElem?_of_inputShape? hs
  rw [(List.getElem?_eq_some_iff.mp hinfo).2]
  exact Option.isSome_iff_exists.mpr ⟨s, hshape⟩

theorem haveShapes_of_none (hi : i < n) (h : inputShape? inputs i = none) :
    haveShapes inputs n = .ok false := by
  unfold haveShapes
  split
  · rfl
  · next hlength =>
    rw [slice_take (Nat.le_of_not_lt hlength)]
    refine congrArg Except.ok (List.all_eq_false.mpr ?_)
    have hi' : i < inputs.length := by omega
    refine ⟨inputs[i], List.mem_take_iff_getElem.mpr ⟨i, by omega, rfl⟩, ?_⟩
    unfold inputShape? at h
    rw [List.getD_eq_getElem?_getD, List.getElem?_eq_getElem hi', Option.getD_some] at h
    cases hinput : inputs[i] with
    | none => exact Bool.false_ne_true
    | some info =>
      rw [hinput] at h
      rw [TensorInfo?.shape?, show info.shape = none from h]
      exact Bool.false_ne_true

theorem needShapes_of_forall (h : ∀ i < n, ∃ s, inputShape? inputs i = some s) :
    needShapes inputs n = verdict (.done ()) :=
  bind_ok (haveShapes_of_forall h) _

theorem needShapes_of_none (hi : i < n) (h : inputShape? inputs i = none) :
    needShapes inputs n = verdict .abstain :=
  bind_ok (haveShapes_of_none hi h) _

theorem needShapes_of_first {s : Shape} (hs : inputShape? inputs 0 = some s) :
    needShapes inputs 1 = verdict (.done ()) :=
  needShapes_of_forall fun i hi => ⟨s, by rwa [Nat.lt_one_iff.mp hi]⟩

/-- A computation that asks for the shape of the first input. -/
theorem needShapes_one {f : Shape → Verdict β} {g : Unit → Checked β}
    (h : ∀ s, inputShape? inputs 0 = some s → g () = verdict (f s)) :
    (needShapes inputs 1 >>= g) = verdict (Verdict.need (inputShape? inputs 0) >>= f) := by
  cases hs : inputShape? inputs 0 with
  | none =>
    rw [needShapes_of_none Nat.zero_lt_one hs]
    rfl
  | some s =>
    rw [needShapes_of_first hs]
    exact h s hs

theorem needShapes_of_both {s t : Shape} (hs : inputShape? inputs 0 = some s)
    (ht : inputShape? inputs 1 = some t) : needShapes inputs 2 = verdict (.done ()) := by
  refine needShapes_of_forall fun i hi => ?_
  obtain rfl | rfl : i = 0 ∨ i = 1 := by omega
  · exact ⟨s, hs⟩
  · exact ⟨t, ht⟩

/-- A computation that asks for the shapes of the first two inputs. -/
theorem needShapes_two {f : Shape → Shape → Verdict β} {g : Unit → Checked β}
    (h : ∀ s t, inputShape? inputs 0 = some s → inputShape? inputs 1 = some t → g () = verdict (f s t)) :
    (needShapes inputs 2 >>= g) = verdict (do
      let s ← Verdict.need (inputShape? inputs 0)
      let t ← Verdict.need (inputShape? inputs 1)
      f s t) := by
  cases hs : inputShape? inputs 0 with
  | none =>
    rw [needShapes_of_none Nat.zero_lt_two hs]
    rfl
  | some s =>
    cases ht : inputShape? inputs 1 with
    | none =>
      rw [needShapes_of_none Nat.one_lt_two ht]
      rfl
    | some t =>
      rw [needShapes_of_both hs ht]
      exact h s t hs ht

end Inputs

theorem listOr_eq (attrs : Attributes) (name : Text) (length : Nat) (value least : Int64) :
    listOr attrs name length value least = verdict (spatialOr attrs name length value least) := by
  unfold listOr
  rw [bind_ok (fill_eq length value)]
  exact bind_verdict fun given _ => bind_verdict fun _ _ => rfl

theorem listIfGiven_eq (attrs : Attributes) (name : Text) (length : Nat) (least : Int64) :
    listIfGiven attrs name length least = verdict (spatialIfGiven attrs name length least) :=
  bind_verdict fun _ _ => bind_verdict fun _ _ => rfl

end Checked

/-! ## Checked rules -/

/-- A rule that checks what it takes. -/
abbrev CheckedRule := Attributes → List TensorInfo? → Checked Shape

namespace CheckedRule

open Checked

/-- The element type of the first input, if there is one. -/
def elementIfGiven (inputs : List TensorInfo?) : Except Crash (Option ElementType) :=
  if inputs.length = 0 then .ok none
  else do
    let input ← get inputs 0
    return input.bind TensorInfo.element

/-- The result for the first output. With a shape, the first input is taken to be there. -/
def first (rule : CheckedRule) (op : Text) (attrs : Attributes) (inputs : List TensorInfo?) :
    Except Crash OutputResult :=
  match rule attrs inputs with
  | .crash c => .error c
  | .verdict (.invalid e) => .ok ⟨.failed (.rule op e), {}⟩
  | .verdict .abstain => do
    let element ← elementIfGiven inputs
    return ⟨.unresolved, ⟨element, none⟩⟩
  | .verdict (.done shape) => do
    let input ← get inputs 0
    let info ← present input
    return ⟨.resolved, ⟨info.element, some shape⟩⟩

/-- One result for each output, all made before the first is put into its place. -/
def placed (first : OutputResult) (outputs : Int) : Except Crash (List OutputResult) :=
  if outputs ≤ 0 then .ok []
  else do
    let results ← fill outputs {}
    set results 0 first

/-- The inference function of a rule. -/
def infer (rule : CheckedRule) (op : Text) (attrs : Attributes) (inputs : List TensorInfo?)
    (outputs : Int) : Except Crash (List OutputResult) := do
  let first ← first rule op attrs inputs
  match first.outcome with
  | .failed _ => fill (max outputs 1) first
  | _ => placed first outputs

variable {checked : CheckedRule} {rule : ShapeRule} {attrs : Attributes} {inputs : List TensorInfo?}

theorem elementIfGiven_eq (inputs : List TensorInfo?) :
    elementIfGiven inputs = .ok (firstElement? inputs) := by
  cases inputs with
  | nil => rfl
  | cons input inputs => cases input <;> rfl

theorem first_eq (op : Text) (h : checked attrs inputs = .verdict (rule attrs inputs))
    (hdone : ∀ shape, rule attrs inputs = .done shape → ∃ s, inputShape? inputs 0 = some s) :
    checked.first op attrs inputs = .ok (rule.first op attrs inputs) := by
  unfold first ShapeRule.first
  rw [h]
  cases hv : rule attrs inputs with
  | invalid e => rfl
  | abstain =>
    simp only [elementIfGiven_eq]
    rfl
  | done shape =>
    obtain ⟨s, hs⟩ := hdone shape hv
    obtain ⟨info, hinfo, -⟩ := getElem?_of_inputShape? hs
    cases inputs with
    | nil => cases hinfo
    | cons input inputs =>
      obtain rfl : input = some info := Option.some.inj hinfo
      rfl

theorem placed_eq (first : OutputResult) (outputs : Int) :
    placed first outputs = .ok ((first :: List.replicate (outputs.toNat - 1) {}).take outputs.toNat) := by
  unfold placed
  split
  · next h =>
    rw [Int.toNat_of_nonpos h]
    rfl
  · next h =>
    obtain ⟨n, rfl⟩ : ∃ n : Nat, outputs = (n + 1 : Nat) := ⟨outputs.toNat - 1, by omega⟩
    rw [fill_eq]
    change set (List.replicate (n + 1) {}) (0 : Nat) first = _
    rw [set_eq (by rw [List.length_replicate]; exact Nat.succ_pos n), Int.toNat_natCast,
      List.take_of_length_le (by simp)]
    rfl

/-- **An inference whose rule comes to a verdict comes to its results.** -/
theorem infer_eq (op : Text) (h : checked attrs inputs = .verdict (rule attrs inputs))
    (hdone : ∀ shape, rule attrs inputs = .done shape → ∃ s, inputShape? inputs 0 = some s)
    (outputs : Int) :
    checked.infer op attrs inputs outputs = .ok (rule.infer op attrs inputs outputs) := by
  unfold infer ShapeRule.infer
  rw [first_eq op h hdone]
  obtain ⟨outcome, info⟩ := rule.first op attrs inputs
  cases outcome with
  | failed fault => exact if_neg (by omega)
  | unresolved | resolved => exact placed_eq _ outputs

end CheckedRule

end ShapeFlow
