/-
What the results of a valid node say of types and ranks. There is one result for each output.
The first has the element type of the first input, resolved or not, and a shape just when it is
resolved; the rank of that shape depends on the operator and the rank of the first input alone
(`ranked_of_mem_standardRules`). All others say nothing (`typed_infer`).
-/
import Mathlib
import ShapeFlow.Proofs.Inference.Result
import ShapeFlow.Proofs.Operator.Reading
import ShapeFlow.Proofs.Registry

namespace ShapeFlow

open Verdict

/-! ## Ranks -/

/-- The rank that an operator gives to its first output, from that of its first input. -/
def outputRank (op : Text) (rank : Nat) : Nat :=
  if op = "Flatten" then 2 else if op = "MaxRoiPool" then 4 else rank

/-- The rank of what a rule gives is told from that of the first input. -/
def ShapeRule.Ranked (rule : ShapeRule) (rank : Nat → Nat) : Prop :=
  ∀ attrs inputs shape, rule attrs inputs = .done shape →
    ∃ input, inputShape? inputs 0 = some input ∧ shape.length = rank input.length

theorem Window.ranked_rule (kind : WindowKind) : (rule kind).Ranked id := by
  intro attrs inputs shape h
  obtain ⟨o, hread, rfl⟩ := rule_eq_done.mp h
  have hrank := hread.rank
  refine ⟨o.input, hread.input, ?_⟩
  simp only [Operands.output, Operands.axes, List.length_cons, List.length_map, List.length_range, id]
  omega

namespace Transposed

theorem length_wanted {input spatial : Shape} {targets : List Int64}
    (h : wanted input targets = .done spatial) : spatial.length = targets.length := by
  unfold wanted at h
  split at h
  · cases h
  · cases h
    exact List.length_map _

/-- One size for each spatial axis, asked for or computed. -/
theorem Operands.ReadFrom.length_spatial {o : Operands} {attrs : Attributes}
    {inputs : List TensorInfo?} (h : o.ReadFrom attrs inputs) {spatial : Shape}
    (hspatial : o.spatial = .done spatial) : spatial.length = o.axes := by
  have htargets := h.targets
  unfold Operands.spatial at hspatial
  split at hspatial
  · next targets heq =>
    rw [heq] at htargets
    rw [length_wanted hspatial, length_spatialIfGiven htargets]
  · obtain ⟨window, -, rfl⟩ := map_eq_done.mp hspatial
    simp only [covered, List.length_map, List.length_range]

theorem ranked_rule : rule.Ranked id := by
  intro attrs inputs shape h
  obtain ⟨o, hread, spatial, hspatial, rfl⟩ := rule_eq_done.mp h
  have hrank := hread.rank
  have hlength := hread.length_spatial hspatial
  refine ⟨o.input, hread.input, ?_⟩
  simp only [Operands.output, Operands.axes, List.length_cons, id] at hlength ⊢
  omega

end Transposed

theorem RegionPool.ranked_rule : rule.Ranked fun _ => 4 := by
  intro attrs inputs shape h
  simp only [rule, bind_eq_done, need_eq_done, ofAttribute_eq_done, pure_eq_done] at h
  obtain ⟨input, hinput, regions, -, -, -, -, -, pooled, hpooled, -, -, -, -, rfl⟩ := h
  obtain ⟨-, hlength⟩ := Attributes.required_eq_ok.mp hpooled
  exact ⟨input, hinput, by simp [hlength]⟩

theorem GlobalPool.ranked_rule : rule.Ranked id := by
  intro attrs inputs shape h
  simp only [rule, bind_eq_done, need_eq_done, invalidIf_eq_done, pure_eq_done] at h
  obtain ⟨input, hinput, -, hrank, rfl⟩ := h
  have hrank := Nat.le_of_not_lt (of_decide_eq_false hrank)
  refine ⟨input, hinput, ?_⟩
  simp only [List.length_append, List.length_take, List.length_replicate, id]
  omega

theorem Unchanged.ranked_rule : rule.Ranked id := by
  intro attrs inputs shape h
  exact ⟨shape, need_eq_done.mp h, rfl⟩

theorem Flatten.ranked_rule : rule.Ranked fun _ => 2 := by
  intro attrs inputs shape h
  obtain ⟨o, hread, rfl⟩ := rule_eq_done.mp h
  exact ⟨o.input, hread.input, rfl⟩

/-- **Each rule of the standard registry gives shapes of the rank of its operator.** -/
theorem ranked_of_mem_standardRules :
    ∀ e ∈ Registry.standardRules, ShapeRule.Ranked e.2.2 (outputRank e.1) := by
  have hwindow := Window.ranked_rule
  have hpool := GlobalPool.ranked_rule
  have hsame := Unchanged.ranked_rule
  simp only [Registry.standardRules, List.forall_mem_cons, List.not_mem_nil, false_imp_iff,
    implies_true, and_true]
  exact ⟨hwindow _, Transposed.ranked_rule, hwindow _, hwindow _, hwindow _, hwindow _, hwindow _,
    RegionPool.ranked_rule, hpool, hpool, hpool, hpool, hsame, hsame, hsame, hsame, hsame,
    Flatten.ranked_rule⟩

/-! ## Results -/

/-- What is given as the first input: nothing, if there are no inputs. -/
def leading (inputs : List TensorInfo?) : TensorInfo? := inputs.head?.join

theorem inputShape?_zero (inputs : List TensorInfo?) :
    inputShape? inputs 0 = (leading inputs).bind TensorInfo.shape := by
  cases inputs <;> rfl

theorem firstElement?_leading (inputs : List TensorInfo?) :
    firstElement? inputs = (leading inputs).bind TensorInfo.element := by
  cases inputs with
  | nil => rfl
  | cons input inputs => cases input <;> rfl

/-- What the results of a valid node say. -/
structure Typed (op : Text) (inputs : List TensorInfo?) (outputs : Int) (results : List OutputResult) :
    Prop where
  length : (results.length : Int) = outputs
  element : ∀ first, results[0]? = some first →
    first.info.element = (leading inputs).bind TensorInfo.element
  shape : ∀ first, results[0]? = some first →
    (first.info.shape.isSome = true ↔ first.outcome = .resolved)
  rank : ∀ first shape, results[0]? = some first → first.info.shape = some shape →
    ∃ input, (leading inputs).bind TensorInfo.shape = some input ∧
      shape.length = outputRank op input.length
  others : ∀ i, 1 ≤ i → ∀ result, results[i]? = some result →
    result = ⟨.unresolved, ⟨none, none⟩⟩

/-- A rule that does not find the node invalid gives a first result and nothing else. -/
theorem ShapeRule.infer_eq_cons {rule : ShapeRule} {op : Text} {attrs : Attributes}
    {inputs : List TensorInfo?} (h : ∀ e, rule attrs inputs ≠ .invalid e) {outputs : Int}
    (houtputs : 1 ≤ outputs) : rule.infer op attrs inputs outputs =
      rule.first op attrs inputs :: List.replicate (outputs.toNat - 1) {} := by
  rw [infer_of_valid h, List.take_of_length_le]
  simp only [List.length_cons, List.length_replicate]
  omega

theorem ShapeRule.Ranked.typed {rule : ShapeRule} {op : Text} (h : rule.Ranked (outputRank op))
    {attrs : Attributes} {inputs : List TensorInfo?} (hvalid : ∀ e, rule attrs inputs ≠ .invalid e)
    {outputs : Int} (houtputs : 1 ≤ outputs) :
    Typed op inputs outputs (rule.infer op attrs inputs outputs) := by
  rw [infer_eq_cons hvalid houtputs]
  -- Whatever the rule comes to, the element type is there and a shape only with a verdict.
  have hfirst : (rule.first op attrs inputs).info.element = (leading inputs).bind TensorInfo.element ∧
      ((rule.first op attrs inputs).info.shape.isSome = true ↔
        (rule.first op attrs inputs).outcome = .resolved) ∧
      ∀ shape, (rule.first op attrs inputs).info.shape = some shape →
        rule attrs inputs = .done shape := by
    rw [← firstElement?_leading]
    unfold ShapeRule.first
    cases hrule : rule attrs inputs with
    | invalid e => exact absurd hrule (hvalid e)
    | abstain => exact ⟨rfl, ⟨nofun, nofun⟩, nofun⟩
    | done shape => exact ⟨rfl, ⟨fun _ => rfl, fun _ => rfl⟩, fun _ hs => by cases hs; rfl⟩
  obtain ⟨helement, hshape, hdone⟩ := hfirst
  refine ⟨?_, fun first hmem => ?_, fun first hmem => ?_, fun first shape hmem hs => ?_,
    fun i hi result hmem => ?_⟩
  · simp only [List.length_cons, List.length_replicate]
    omega
  · cases hmem
    exact helement
  · cases hmem
    exact hshape
  · cases hmem
    obtain ⟨input, hinput, hrank⟩ := h attrs inputs shape (hdone shape hs)
    exact ⟨input, (inputShape?_zero inputs).symm.trans hinput, hrank⟩
  · obtain ⟨k, rfl⟩ := Nat.exists_eq_add_of_le' hi
    rw [List.getElem?_cons_succ] at hmem
    exact List.eq_of_mem_replicate (List.mem_of_getElem? hmem)

/-- **The results of a valid node pass on the element type of the first input and have the rank
of the operator.** -/
theorem typed_infer {op : Text} {opset : Int} {f : Operator}
    (hf : Registry.standard.lookup op opset = some f) (attrs : Attributes) (inputs : List TensorInfo?)
    {outputs : Int} (houtputs : 1 ≤ outputs) (hvalid : ¬ AnyFailed (f.infer attrs inputs outputs)) :
    Typed op inputs outputs (f.infer attrs inputs outputs) := by
  obtain ⟨since, rule, hrule, rfl⟩ := Registry.lookup_standard hf
  refine (ranked_of_mem_standardRules _ hrule).typed (fun e he => hvalid ?_) houtputs
  exact ShapeRule.anyFailed_infer.mpr ⟨e, he⟩

/-- Two outputs, the first of rank 4 though the input has rank 3. -/
theorem typed_infer_regions :
    let attrs : Attributes := ⟨[("pooled_shape", .ints [5, 6])]⟩
    let inputs : List TensorInfo? := [some ⟨some .float32, some [.known 1, .unknown "C", .known 9]⟩,
      some ⟨none, some [.known 7, .known 5]⟩]
    let results : List OutputResult :=
      [⟨.resolved, ⟨some .float32, some [.known 7, .unknown "C", .known 5, .known 6]⟩⟩, {}]
    ∃ f, Registry.standard.lookup "MaxRoiPool" 13 = some f ∧ f.infer attrs inputs 2 = results ∧
      ¬ AnyFailed results ∧ Typed "MaxRoiPool" inputs 2 results := by
  intro attrs inputs results
  have hf : Registry.standard.lookup "MaxRoiPool" 13 =
      some ⟨ShapeRule.infer RegionPool.rule "MaxRoiPool", false⟩ := rfl
  have hresults : ShapeRule.infer RegionPool.rule "MaxRoiPool" attrs inputs 2 = results := by cbv
  have hvalid : ¬ AnyFailed results := by
    rintro ⟨result, hmem, fault, hfailed⟩
    rcases List.mem_pair.mp hmem with rfl | rfl <;> cases hfailed
  have htwo : (1 : Int) ≤ 2 := by decide
  have htyped := typed_infer hf attrs inputs htwo
  simp only [hresults] at htyped
  exact ⟨_, hf, hresults, hvalid, htyped hvalid⟩

end ShapeFlow
