/-
The results of a rule's inference, told from the verdict of the rule. Some result
has failed exactly when the rule finds the node invalid (`anyFailed_infer`); unless
it does there is one result for each output (`infer_of_valid`), and a resolved one
carries the shape that the rule gives (`done_of_resolved`).
-/
import ShapeFlow.Inference.Result

namespace ShapeFlow

/-- The inference found the node invalid. -/
def AnyFailed (results : List OutputResult) : Prop :=
  ∃ result ∈ results, ∃ fault, result.outcome = .failed fault

theorem Outcome.fault?_eq_some {outcome : Outcome} {fault : Fault} :
    outcome.fault? = some fault ↔ outcome = .failed fault := by
  cases outcome <;> simp [Outcome.fault?]

/-- The search for a fault finds one just when some result failed. -/
theorem findSome?_fault_eq_none {results : List OutputResult} :
    results.findSome? (fun result => result.outcome.fault?) = none ↔ ¬ AnyFailed results := by
  rw [List.findSome?_eq_none_iff]
  constructor
  · rintro h ⟨result, hmem, fault, hfailed⟩
    cases (h result hmem).symm.trans (Outcome.fault?_eq_some.mpr hfailed)
  · intro h result hmem
    refine Option.eq_none_iff_forall_ne_some.mpr fun fault hfault => h ⟨result, hmem, fault, ?_⟩
    exact Outcome.fault?_eq_some.mp hfault

namespace ShapeRule

variable {rule : ShapeRule} {op : Text} {attrs : Attributes} {inputs : List TensorInfo?} {outputs : Int}

theorem infer_of_invalid {e : RuleError} (h : rule attrs inputs = .invalid e) (outputs : Int) :
    rule.infer op attrs inputs outputs =
      List.replicate (max outputs 1).toNat ⟨.failed (.rule op e), {}⟩ := by
  simp only [infer, first, h]

/-- The first result is resolved when the rule gives a shape, and carries it beside the
element type of the first input. -/
theorem first_eq_resolved {info : TensorInfo} : rule.first op attrs inputs = ⟨.resolved, info⟩ ↔
    ∃ shape, rule attrs inputs = .done shape ∧ info = ⟨firstElement? inputs, some shape⟩ := by
  unfold first
  cases rule attrs inputs with
  | invalid e => exact ⟨nofun, nofun⟩
  | abstain => exact ⟨nofun, nofun⟩
  | done shape =>
    refine ⟨fun h => ⟨shape, rfl, (OutputResult.mk.inj h).2.symm⟩, ?_⟩
    rintro ⟨_, ⟨⟩, rfl⟩
    rfl

/-- Unless the node is invalid, there is one result for each output. -/
theorem infer_of_valid (h : ∀ e, rule attrs inputs ≠ .invalid e) (outputs : Int) :
    rule.infer op attrs inputs outputs =
      (rule.first op attrs inputs :: List.replicate (outputs.toNat - 1) {}).take outputs.toNat := by
  unfold infer
  cases hv : rule attrs inputs with
  | invalid e => exact absurd hv (h e)
  | abstain => simp only [first, hv]
  | done s => simp only [first, hv]

/-- A result is the first one, told from the verdict, or says nothing. -/
theorem eq_of_mem_infer {result : OutputResult} (h : result ∈ rule.infer op attrs inputs outputs) :
    result = rule.first op attrs inputs ∨ result = {} := by
  cases hv : rule attrs inputs with
  | invalid e =>
    rw [infer_of_invalid hv] at h
    exact .inl (by rw [List.eq_of_mem_replicate h, first, hv])
  | abstain | done =>
    rw [infer_of_valid (by rw [hv]; nofun)] at h
    exact (List.mem_cons.mp (List.mem_of_mem_take h)).imp_right List.eq_of_mem_replicate

/-- A result that failed names the rule's reason. -/
theorem invalid_of_failed {result : OutputResult} {fault : Fault}
    (h : result ∈ rule.infer op attrs inputs outputs) (hfailed : result.outcome = .failed fault) :
    ∃ e, rule attrs inputs = .invalid e ∧ fault = .rule op e := by
  rcases eq_of_mem_infer h with rfl | rfl
  · unfold first at hfailed
    split at hfailed
    · next e he =>
      cases hfailed
      exact ⟨e, he, rfl⟩
    · cases hfailed
    · cases hfailed
  · cases hfailed

theorem anyFailed_infer :
    AnyFailed (rule.infer op attrs inputs outputs) ↔ ∃ e, rule attrs inputs = .invalid e := by
  constructor
  · rintro ⟨result, hmem, fault, hfailed⟩
    obtain ⟨e, he, -⟩ := invalid_of_failed hmem hfailed
    exact ⟨e, he⟩
  · rintro ⟨e, he⟩
    rw [infer_of_invalid he]
    exact ⟨_, List.mem_replicate.mpr ⟨by omega, rfl⟩, _, rfl⟩

theorem done_of_resolved {result : OutputResult} (h : result ∈ rule.infer op attrs inputs outputs)
    (hresolved : result.outcome = .resolved) :
    ∃ shape, rule attrs inputs = .done shape ∧ result.info.shape = some shape := by
  rcases eq_of_mem_infer h with rfl | rfl
  · unfold first at hresolved ⊢
    split at hresolved
    · cases hresolved
    · cases hresolved
    · next shape hshape => exact ⟨shape, hshape, rfl⟩
  · cases hresolved

end ShapeRule

end ShapeFlow
