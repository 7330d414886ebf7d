/-
Inference in place. The slots of the outputs are written one after the other, so that a failure
on the way would leave some written and some not, and a result without a slot would be written
past the end. Neither happens: the results are looked through for a failure before the first is
written, and a function that keeps to its contract (`InferenceFn.Honest`) gives as many results
as there are slots. A call that fails leaves every slot as it was, and one that succeeds changes
each slot by its own result. For a standard operator the number of slots, and which of them are
left out, makes no difference to whether the call fails (`allOrNothing_inferInto`).
-/
import ShapeFlow.Proofs.Inference.Checked
import ShapeFlow.Proofs.Registry

namespace ShapeFlow

/-- The contract of an inference function: one result for each output, unless one of them says
that the node is invalid. -/
def InferenceFn.Honest (f : InferenceFn) : Prop :=
  ∀ attrs inputs (outputs : Nat),
    AnyFailed (f attrs inputs outputs) ∨ (f attrs inputs outputs).length = outputs

/-- A computation on slots. What was written stays written when it fails. -/
abbrev InPlace := ExceptT InferError (StateT (List TensorInfo?) (Except Crash))

/-- What is returned, and the slots afterwards. -/
def InPlace.on {α : Type} (x : InPlace α) (slots : List TensorInfo?) :
    Except Crash (Except InferError α × List TensorInfo?) :=
  x.run.run slots

namespace InPlace

variable {α β : Type} {x : InPlace α} {slots after : List TensorInfo?}

theorem on_bind (x : InPlace α) (g : α → InPlace β) (slots : List TensorInfo?) :
    (x >>= g).on slots = x.on slots >>= fun p =>
      StateT.run (ExceptT.bindCont g p.1) p.2 := rfl

theorem on_bind_ok {a : α} (h : x.on slots = .ok (.ok a, after)) (g : α → InPlace β) :
    (x >>= g).on slots = (g a).on after := by
  rw [on_bind, h]
  rfl

theorem on_bind_error {e : InferError} (h : x.on slots = .ok (.error e, after)) (g : α → InPlace β) :
    (x >>= g).on slots = .ok (.error e, after) := by
  rw [on_bind, h]
  rfl

end InPlace

open InPlace

namespace Registry

/-- Every function keeps to the contract. -/
def Honest (r : Registry) : Prop := r.Holds fun _ f => f.infer.Honest

/-- Fails with the first failure. -/
def refuseFailed (op : Text) : List OutputResult → InPlace Unit
  | [] => pure ()
  | result :: results =>
    match result.outcome.fault? with
    | some fault => throw (.failed op fault)
    | none => refuseFailed op results

def writeSlot (i : Nat) (result : OutputResult) : InPlace Unit := do
  let slots ← get
  let slot ← Checked.get slots i
  let slots ← Checked.set slots i (applyResult slot result)
  set slots

/-- Writes the results into the slots from a place on. -/
def writeFrom : Nat → List OutputResult → InPlace Unit
  | _, [] => pure ()
  | i, result :: results => do
    writeSlot i result
    writeFrom (i + 1) results

/-- As `infer`, into slots that are there. -/
def inferInto (r : Registry) (op : Text) (opset : Int) (attrs : Attributes) (inputs : List TensorInfo?) :
    InPlace Unit :=
  match r.lookup op opset with
  | none => throw (.unsupported op opset)
  | some f => do
    let slots ← get
    let results := f.infer attrs inputs slots.length
    refuseFailed op results
    writeFrom 0 results

/-! ## Running it -/

section Running

variable {slots : List TensorInfo?} {results : List OutputResult} {op : Text}

theorem on_refuseFailed_of_some {fault : Fault}
    (h : results.findSome? (fun result => result.outcome.fault?) = some fault) :
    (refuseFailed op results).on slots = .ok (.error (.failed op fault), slots) := by
  induction results with
  | nil => cases h
  | cons result results ih =>
    rw [List.findSome?_cons] at h
    unfold refuseFailed
    cases hfault : result.outcome.fault? with
    | some found =>
      rw [hfault] at h
      cases h
      rfl
    | none =>
      rw [hfault] at h
      exact ih h

theorem on_refuseFailed_of_none
    (h : results.findSome? (fun result => result.outcome.fault?) = none) :
    (refuseFailed op results).on slots = .ok (.ok (), slots) := by
  induction results with
  | nil => rfl
  | cons result results ih =>
    obtain ⟨hfault, hrest⟩ := List.forall_mem_cons.mp (List.findSome?_eq_none_iff.mp h)
    unfold refuseFailed
    rw [hfault]
    exact ih (List.findSome?_eq_none_iff.mpr hrest)

theorem on_writeSlot (before rest : List TensorInfo?) (slot : TensorInfo?) (result : OutputResult) :
    (writeSlot before.length result).on (before ++ slot :: rest) =
      .ok (.ok (), before ++ applyResult slot result :: rest) := by
  have hslot : (before ++ slot :: rest)[before.length]? = some slot := by
    rw [List.getElem?_append_right (Nat.le_refl _), Nat.sub_self, List.getElem?_cons_zero]
  have hset : Checked.set (before ++ slot :: rest) before.length (applyResult slot result) =
      .ok (before ++ applyResult slot result :: rest) := by
    rw [Checked.set_eq (List.getElem?_eq_some_iff.mp hslot).1, List.set_append_right _ _ (Nat.le_refl _),
      Nat.sub_self, List.set_cons_zero]
  unfold writeSlot
  rw [on_bind_ok (a := before ++ slot :: rest) rfl, Checked.get_of_getElem? hslot]
  rw [on_bind_ok (a := slot) rfl, hset]
  rfl

theorem on_writeFrom (before rest : List TensorInfo?) (h : results.length = rest.length) :
    (writeFrom before.length results).on (before ++ rest) =
      .ok (.ok (), before ++ applyResults rest results) := by
  induction results generalizing before rest with
  | nil =>
    obtain rfl := List.length_eq_zero_iff.mp h.symm
    rfl
  | cons result results ih =>
    cases rest with
    | nil => cases h
    | cons slot rest =>
      have hrest := ih (before ++ [applyResult slot result]) rest (Nat.succ.inj h)
      rw [List.length_append, List.append_assoc, List.append_assoc] at hrest
      rw [writeFrom, on_bind_ok (on_writeSlot before rest slot result)]
      exact hrest

end Running

/-! ## All or nothing -/

/-- The fault of the first result that failed. -/
def FirstFault (results : List OutputResult) (fault : Fault) : Prop :=
  ∃ before result rest, results = before ++ result :: rest ∧ result.outcome = .failed fault ∧
    ¬ AnyFailed before

/-- What a result makes of its slot: element type and shape when it is resolved, a known element
type when it is not. -/
inductive Written (result : OutputResult) : TensorInfo? → TensorInfo? → Prop
  | omitted : Written result none none
  | resolved (info : TensorInfo) (h : result.outcome = .resolved) :
    Written result (some info) (some result.info)
  | typed (info : TensorInfo) (t : ElementType) (h : result.outcome = .unresolved)
    (ht : result.info.element = some t) : Written result (some info) (some ⟨some t, info.shape⟩)
  | kept (info : TensorInfo) (h : result.outcome = .unresolved) (ht : result.info.element = none) :
    Written result (some info) (some info)

/-- A call is judged by what it returned and the slots before and after. -/
structure AllOrNothing (r : Registry) (op : Text) (opset : Int) (attrs : Attributes)
    (inputs slots : List TensorInfo?) (returned : Except InferError Unit) (after : List TensorInfo?) :
    Prop where
  fails : (∃ e, returned = .error e) ↔ r.lookup op opset = none ∨
    ∃ f, r.lookup op opset = some f ∧ AnyFailed (f.infer attrs inputs slots.length)
  unsupported : r.lookup op opset = none → returned = .error (.unsupported op opset)
  first : ∀ f, r.lookup op opset = some f → ∀ e, returned = .error e →
    ∃ fault, e = .failed op fault ∧ FirstFault (f.infer attrs inputs slots.length) fault
  unchanged : ∀ e, returned = .error e → after = slots
  length : after.length = slots.length
  written : ∀ f, r.lookup op opset = some f → returned = .ok () → ∀ (i : Nat) slot, slots[i]? = some slot →
    ∃ result new, (f.infer attrs inputs slots.length)[i]? = some result ∧ after[i]? = some new ∧
      Written result slot new

section Results

variable {results : List OutputResult} {slots : List TensorInfo?}

theorem findSome?_fault_eq_some {fault : Fault} :
    results.findSome? (fun result => result.outcome.fault?) = some fault ↔ FirstFault results fault := by
  rw [List.findSome?_eq_some_iff]
  simp only [Outcome.fault?_eq_some, ← List.findSome?_eq_none_iff, findSome?_fault_eq_none, FirstFault]

theorem FirstFault.anyFailed {fault : Fault} (h : FirstFault results fault) : AnyFailed results := by
  obtain ⟨before, result, rest, rfl, hfailed, -⟩ := h
  exact ⟨result, List.mem_append_right _ List.mem_cons_self, fault, hfailed⟩

theorem written_applyResult {result : OutputResult} (h : ∀ fault, result.outcome ≠ .failed fault)
    (slot : TensorInfo?) : Written result slot (applyResult slot result) := by
  cases slot with
  | none => exact .omitted
  | some info =>
    unfold applyResult
    cases houtcome : result.outcome with
    | failed fault => exact absurd houtcome (h fault)
    | resolved => exact .resolved info houtcome
    | unresolved =>
      cases helement : result.info.element with
      | none => exact .kept info houtcome helement
      | some t => exact .typed info t houtcome helement

theorem applyResults_eq_zipWith (h : results.length = slots.length) :
    applyResults slots results = List.zipWith applyResult slots results := by
  induction results generalizing slots with
  | nil =>
    obtain rfl := List.length_eq_zero_iff.mp h.symm
    rfl
  | cons result results ih =>
    cases slots with
    | nil => cases h
    | cons slot slots => rw [applyResults, ih (Nat.succ.inj h), List.zipWith_cons_cons]

end Results

section Calls

variable {r : Registry} {op : Text} {opset : Int} {attrs : Attributes} {inputs slots : List TensorInfo?}

theorem on_inferInto_of_none (hf : r.lookup op opset = none) :
    (r.inferInto op opset attrs inputs).on slots = .ok (.error (.unsupported op opset), slots) ∧
    r.infer op opset attrs inputs slots = .error (.unsupported op opset) := by
  unfold inferInto infer
  rw [hf]
  exact ⟨rfl, rfl⟩

theorem on_inferInto_of_failed {f : Operator} (hf : r.lookup op opset = some f) {fault : Fault}
    (h : FirstFault (f.infer attrs inputs slots.length) fault) :
    (r.inferInto op opset attrs inputs).on slots = .ok (.error (.failed op fault), slots) ∧
    r.infer op opset attrs inputs slots = .error (.failed op fault) := by
  have hfound := findSome?_fault_eq_some.mpr h
  unfold inferInto infer
  simp only [hf, hfound, and_true]
  rw [on_bind_ok (a := slots) rfl]
  exact on_bind_error (on_refuseFailed_of_some hfound) _

theorem on_inferInto_of_valid {f : Operator} (hf : r.lookup op opset = some f)
    (h : ¬ AnyFailed (f.infer attrs inputs slots.length))
    (hlength : (f.infer attrs inputs slots.length).length = slots.length) :
    (r.inferInto op opset attrs inputs).on slots =
      .ok (.ok (), applyResults slots (f.infer attrs inputs slots.length)) ∧
    r.infer op opset attrs inputs slots = .ok (applyResults slots (f.infer attrs inputs slots.length)) := by
  have hnone := findSome?_fault_eq_none.mpr h
  unfold inferInto infer
  simp only [hf, hnone, and_true]
  rw [on_bind_ok (a := slots) rfl, on_bind_ok (on_refuseFailed_of_none hnone)]
  exact on_writeFrom [] slots hlength

theorem allOrNothing_of_none (hf : r.lookup op opset = none) :
    AllOrNothing r op opset attrs inputs slots (.error (.unsupported op opset)) slots where
  fails := ⟨fun _ => .inl hf, fun _ => ⟨_, rfl⟩⟩
  unsupported _ := rfl
  first f hsome := by cases hf.symm.trans hsome
  unchanged _ _ := rfl
  length := rfl
  written f hsome := by cases hf.symm.trans hsome

theorem allOrNothing_of_failed {f : Operator} (hf : r.lookup op opset = some f) {fault : Fault}
    (h : FirstFault (f.infer attrs inputs slots.length) fault) :
    AllOrNothing r op opset attrs inputs slots (.error (.failed op fault)) slots where
  fails := ⟨fun _ => .inr ⟨f, hf, h.anyFailed⟩, fun _ => ⟨_, rfl⟩⟩
  unsupported hnone := by cases hf.symm.trans hnone
  first g hg e he := by
    cases hf.symm.trans hg
    cases he
    exact ⟨fault, rfl, h⟩
  unchanged _ _ := rfl
  length := rfl
  written _ _ hok := by cases hok

theorem allOrNothing_of_valid {f : Operator} (hf : r.lookup op opset = some f)
    (h : ¬ AnyFailed (f.infer attrs inputs slots.length))
    (hlength : (f.infer attrs inputs slots.length).length = slots.length) :
    AllOrNothing r op opset attrs inputs slots (.ok ())
      (applyResults slots (f.infer attrs inputs slots.length)) where
  fails := by
    constructor
    · rintro ⟨e, he⟩
      cases he
    · rintro (hnone | ⟨g, hg, hfailed⟩)
      · cases hf.symm.trans hnone
      · cases hf.symm.trans hg
        exact absurd hfailed h
  unsupported hnone := by cases hf.symm.trans hnone
  first _ _ _ he := by cases he
  unchanged _ he := by cases he
  length := by rw [applyResults_eq_zipWith hlength, List.length_zipWith, hlength, Nat.min_self]
  written g hg _ i slot hslot := by
    cases hf.symm.trans hg
    have hi : i < (f.infer attrs inputs slots.length).length := by
      rw [hlength]
      exact (List.getElem?_eq_some_iff.mp hslot).1
    have hresult := List.getElem?_eq_getElem hi
    refine ⟨_, applyResult slot _, hresult, ?_, written_applyResult (fun fault hfault => h ?_) slot⟩
    · rw [applyResults_eq_zipWith hlength, List.getElem?_zipWith, hslot, hresult]
    · exact ⟨_, List.getElem_mem hi, fault, hfault⟩

/-- **A call fails before it writes, or writes each slot by its own result.** -/
theorem Honest.allOrNothing (h : r.Honest) (op : Text) (opset : Int) (attrs : Attributes)
    (inputs slots : List TensorInfo?) : ∃ returned after,
      (r.inferInto op opset attrs inputs).on slots = .ok (returned, after) ∧
      r.infer op opset attrs inputs slots = returned.map (fun _ => after) ∧
      AllOrNothing r op opset attrs inputs slots returned after := by
  cases hf : r.lookup op opset with
  | none =>
    obtain ⟨hon, hinfer⟩ := on_inferInto_of_none hf
    exact ⟨_, _, hon, hinfer, allOrNothing_of_none hf⟩
  | some f =>
    cases hfound : (f.infer attrs inputs slots.length).findSome? fun result => result.outcome.fault? with
    | some fault =>
      have hfirst := findSome?_fault_eq_some.mp hfound
      obtain ⟨hon, hinfer⟩ := on_inferInto_of_failed hf hfirst
      exact ⟨_, _, hon, hinfer, allOrNothing_of_failed hf hfirst⟩
    | none =>
      have hvalid := findSome?_fault_eq_none.mp hfound
      have hlength := (h.lookup hf attrs inputs slots.length).resolve_left hvalid
      obtain ⟨hon, hinfer⟩ := on_inferInto_of_valid hf hvalid hlength
      exact ⟨_, _, hon, hinfer, allOrNothing_of_valid hf hvalid hlength⟩

end Calls

end Registry

/-! ## The standard operators -/

namespace ShapeRule

variable {rule : ShapeRule} {op : Text} {attrs : Attributes} {inputs : List TensorInfo?}

theorem length_infer (h : ∀ e, rule attrs inputs ≠ .invalid e) (outputs : Nat) :
    (rule.infer op attrs inputs outputs).length = outputs := by
  rw [infer_of_valid h]
  simp only [List.length_take, List.length_cons, List.length_replicate, Int.toNat_natCast]
  omega

theorem honest_infer (rule : ShapeRule) (op : Text) : InferenceFn.Honest (rule.infer op) := by
  intro attrs inputs outputs
  by_cases h : ∃ e, rule attrs inputs = .invalid e
  · exact .inl (anyFailed_infer.mpr h)
  · exact .inr (length_infer (not_exists.mp h) outputs)

/-- An invalid node fails with its reason, however many outputs it has. -/
theorem firstFault_infer {e : RuleError} (h : rule attrs inputs = .invalid e) (outputs : Int) :
    Registry.FirstFault (rule.infer op attrs inputs outputs) (.rule op e) := by
  obtain ⟨n, hn⟩ : ∃ n, (max outputs 1).toNat = n + 1 := ⟨(max outputs 1).toNat - 1, by omega⟩
  rw [infer_of_invalid h, hn, List.replicate_succ]
  exact ⟨[], _, _, rfl, rfl, fun ⟨_, hmem, _⟩ => nomatch hmem⟩

/-- Past the first result there is nothing to be written. -/
theorem getElem?_applyResults (h : ∀ e, rule attrs inputs ≠ .invalid e) (slots : List TensorInfo?) {i : Nat}
    (hi : 1 ≤ i) : (Registry.applyResults slots (rule.infer op attrs inputs slots.length))[i]? = slots[i]? := by
  rw [Registry.applyResults_eq_zipWith (length_infer h _), List.getElem?_zipWith]
  cases hslot : slots[i]? with
  | none => rfl
  | some slot =>
    have hlt := (List.getElem?_eq_some_iff.mp hslot).1
    obtain ⟨k, rfl⟩ := Nat.exists_eq_add_of_le' hi
    have hblank : (rule.infer op attrs inputs slots.length)[k + 1]? = some {} := by
      rw [infer_of_valid h, Int.toNat_natCast, List.getElem?_take_of_lt hlt, List.getElem?_cons_succ,
        List.getElem?_replicate, if_pos (by omega)]
    rw [hblank]
    cases slot <;> rfl

end ShapeRule

namespace Registry

theorem honest_standard : standard.Honest := by
  intro op p hp
  obtain ⟨since, rule, -, hrule⟩ := holds_standard op p hp
  rw [hrule]
  exact rule.honest_infer op

/-- **What a call of a standard operator returns does not depend on the slots, and only the first
of them is written.** -/
theorem steady_standard (op : Text) (opset : Int) (attrs : Attributes) (inputs : List TensorInfo?) :
    ∃ returned, ∀ slots, ∃ after,
      (standard.inferInto op opset attrs inputs).on slots = .ok (returned, after) ∧
      standard.infer op opset attrs inputs slots = returned.map (fun _ => after) ∧
      ∀ i, 1 ≤ i → after[i]? = slots[i]? := by
  cases hf : standard.lookup op opset with
  | none =>
    refine ⟨.error (.unsupported op opset), fun slots => ?_⟩
    obtain ⟨hon, hinfer⟩ := on_inferInto_of_none hf
    exact ⟨slots, hon, hinfer, fun _ _ => rfl⟩
  | some f =>
    obtain ⟨since, rule, -, rfl⟩ := lookup_standard hf
    by_cases h : ∃ e, rule attrs inputs = .invalid e
    · obtain ⟨e, he⟩ := h
      refine ⟨.error (.failed op (.rule op e)), fun slots => ?_⟩
      obtain ⟨hon, hinfer⟩ := on_inferInto_of_failed hf (rule.firstFault_infer he slots.length)
      exact ⟨slots, hon, hinfer, fun _ _ => rfl⟩
    · have hvalid := not_exists.mp h
      refine ⟨.ok (), fun slots => ?_⟩
      have hnone : ¬ AnyFailed (rule.infer op attrs inputs slots.length) := fun hany =>
        h (ShapeRule.anyFailed_infer.mp hany)
      obtain ⟨hon, hinfer⟩ := on_inferInto_of_valid hf hnone (ShapeRule.length_infer hvalid slots.length)
      exact ⟨_, hon, hinfer, fun i hi => ShapeRule.getElem?_applyResults hvalid slots hi⟩

/-- **Inference is all or nothing.** Under the contract a call writes nothing or every slot by its
own result. A call of a standard operator, moreover, returns the same whatever the slots are, and
leaves all but the first as they were. -/
theorem allOrNothing_inferInto :
    (∀ r : Registry, r.Honest → ∀ op opset attrs inputs slots, ∃ returned after,
      (r.inferInto op opset attrs inputs).on slots = .ok (returned, after) ∧
      r.infer op opset attrs inputs slots = returned.map (fun _ => after) ∧
      AllOrNothing r op opset attrs inputs slots returned after) ∧
    standard.Honest ∧
    ∀ op opset attrs inputs, ∃ returned, ∀ slots, ∃ after,
      (standard.inferInto op opset attrs inputs).on slots = .ok (returned, after) ∧
      standard.infer op opset attrs inputs slots = returned.map (fun _ => after) ∧
      ∀ i, 1 ≤ i → after[i]? = slots[i]? := by
  refine ⟨fun r h op opset attrs inputs slots => ?_, honest_standard, fun op opset attrs inputs => ?_⟩
  · exact h.allOrNothing op opset attrs inputs slots
  · exact steady_standard op opset attrs inputs

/-- An operator whose second output fails after the first was resolved. -/
def torn : Registry :=
  empty.register "Torn" 1 ⟨fun _ _ _ =>
    [⟨.resolved, ⟨some .float32, some [.known 2]⟩⟩, ⟨.failed (.reported "torn"), {}⟩], false⟩

/-- Its first slot is not written. -/
theorem allOrNothing_torn :
    let slots : List TensorInfo? := [some {}, none, some ⟨some .int64, none⟩]
    let error : InferError := .failed "Torn" (.reported "torn")
    torn.Honest ∧ (torn.inferInto "Torn" 3 {} []).on slots = .ok (.error error, slots) ∧
    AllOrNothing torn "Torn" 3 {} [] slots (.error error) slots := by
  intro slots error
  have hhonest : torn.Honest := by
    refine Holds.register holds_empty (fun attrs inputs outputs => .inl ?_) 1
    exact ⟨_, List.mem_cons_of_mem _ List.mem_cons_self, _, rfl⟩
  have hon : (torn.inferInto "Torn" 3 {} []).on slots = .ok (.error error, slots) := rfl
  obtain ⟨returned, after, hrun, -, hall⟩ := allOrNothing_inferInto.1 torn hhonest "Torn" 3 {} [] slots
  cases hon.symm.trans hrun
  exact ⟨hhonest, hon, hall⟩

end Registry

end ShapeFlow
