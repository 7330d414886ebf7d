/-
More information gives more definite verdicts. When more is known of the inputs of
a node, its rule says at least as much: where it abstained it may say anything; a
shape that it gave it gives again, with no dimension lost, unless it now finds the
node invalid; and a node that was invalid stays invalid (`Verdict.Refines`). Every
standard rule is monotone in this sense (`monotone_of_mem_standardRules`), and so
are the results of every inference by the standard registry (`below_infer`).
-/
import ShapeFlow.Proofs.Inference.Result
import ShapeFlow.Proofs.Information
import ShapeFlow.Proofs.Registry

namespace ShapeFlow

/-! ## More definite verdicts -/

namespace Verdict

variable {α β γ δ : Type} {R : α → β → Prop} {S : γ → δ → Prop}

/-- The second verdict is at least as definite as the first. -/
inductive Refines (R : α → β → Prop) : Verdict α → Verdict β → Prop
  | invalid {v : Verdict α} {e : RuleError} : Refines R v (.invalid e)
  | abstain {w : Verdict β} : Refines R .abstain w
  | done {a : α} {b : β} : R a b → Refines R (.done a) (.done b)

namespace Refines

theorem refl (v : Verdict α) : Refines Eq v v := by
  cases v with
  | invalid e => exact .invalid
  | abstain => exact .abstain
  | done a => exact .done rfl

/-- **Steps that are monotone follow each other to a monotone one.** A step that
was not taken before, or is no longer, asks nothing of those after it. -/
theorem bind {v : Verdict α} {w : Verdict β} (h : Refines R v w) {f : α → Verdict γ}
    {g : β → Verdict δ} (hf : ∀ a b, R a b → Refines S (f a) (g b)) :
    Refines S (v >>= f) (w >>= g) := by
  cases h with
  | invalid => exact .invalid
  | abstain => exact .abstain
  | done hab => exact hf _ _ hab

/-- A step that looks at the attributes alone. -/
theorem same (v : Verdict α) {f : α → Verdict γ} {g : α → Verdict δ}
    (hf : ∀ a, Refines S (f a) (g a)) : Refines S (v >>= f) (v >>= g) :=
  (refl v).bind fun a _ hab => hab ▸ hf a

theorem map {v : Verdict α} {w : Verdict β} (h : Refines R v w) {f : α → γ} {g : β → δ}
    (hf : ∀ a b, R a b → S (f a) (g b)) : Refines S (f <$> v) (g <$> w) :=
  h.bind fun a b hab => .done (hf a b hab)

theorem need {R : α → α → Prop} {a b : Option α} (h : Option.le R a b) :
    Refines R (Verdict.need a) (Verdict.need b) := by
  cases a with
  | none => exact .abstain
  | some a =>
    obtain ⟨b, rfl, hab⟩ := exists_of_le h
    exact .done hab

/-- A condition on both sides; what is wrong may be told otherwise. -/
theorem invalidIf {c d : Bool} (h : c = d) (e e' : RuleError) :
    Refines Eq (Verdict.invalidIf c e) (Verdict.invalidIf d e') := by
  subst h
  cases c with
  | true => exact .invalid
  | false => exact .done rfl

end Refines

end Verdict

open Verdict

/-! ## What a rule reads of its inputs -/

/-- The sizes of a shape, once all are known, are those of every shape above. -/
theorem Shape.sizes?_below {s t : Shape} (h : Shape.Below s t) : Option.le Eq (sizes? s) (sizes? t) := by
  induction h with
  | nil => exact rfl
  | cons hd _ ih =>
    cases hd with
    | unknown => exact le_of_none _
    | known =>
      simp only [sizes?, List.mapM_cons, Dim.size?, Option.bind_eq_bind, Option.bind_some] at ih ⊢
      cases hs : List.mapM Dim.size? _ with
      | none => exact le_of_none _
      | some ns =>
        rw [hs] at ih
        obtain ⟨ms, hms, rfl⟩ := exists_of_le ih
        rw [hms]
        exact rfl

theorem Dim.product_below {s t : Shape} (h : Shape.Below s t) : (product s).Below (product t) := by
  induction h with
  | nil => exact .known
  | cons hd _ ih =>
    cases hd with
    | unknown => exact .unknown
    | known =>
      simp only [product]
      generalize product _ = p at ih ⊢
      generalize product _ = q at ih ⊢
      cases ih with
      | unknown => exact .unknown
      | known => exact .known

section Inputs

variable {inputs inputs' : List TensorInfo?} (h : List.Forall₂ TensorInfo?.Below inputs inputs')
include h

theorem input_below (i : Nat) : TensorInfo?.Below (inputs.getD i none) (inputs'.getD i none) :=
  getD_forall₂ h (TensorInfo?.below_of_none none) i

theorem inputShape?_below (i : Nat) :
    Option.le Shape.Below (inputShape? inputs i) (inputShape? inputs' i) := by
  have hi := (input_below h i).shape
  unfold inputShape?
  cases hx : inputs.getD i none <;> cases hy : inputs'.getD i none <;> rw [hx, hy] at hi <;> exact hi

theorem firstElement?_below : Option.le Eq (firstElement? inputs) (firstElement? inputs') := by
  have hi := (input_below h 0).element
  unfold firstElement?
  cases hx : inputs.getD 0 none <;> cases hy : inputs'.getD 0 none <;> rw [hx, hy] at hi <;> exact hi

end Inputs

/-- Axes that are computed one by one. -/
theorem below_map_range {f g : Nat → Dim} (h : ∀ i, (f i).Below (g i)) (n : Nat) :
    Shape.Below ((List.range n).map f) ((List.range n).map g) := by
  unfold Shape.Below
  rw [List.forall₂_map_left_iff, List.forall₂_map_right_iff]
  exact List.forall₂_same.mpr fun i _ => h i

theorem getD_below {s t : Shape} (h : Shape.Below s t) (i : Nat) :
    (s.getD i Dim.anonymous).Below (t.getD i Dim.anonymous) :=
  getD_forall₂ h .unknown i

/-! ## The rules -/

/-- With more known about the inputs, the verdict is at least as definite. -/
def ShapeRule.Monotone (rule : ShapeRule) : Prop :=
  ∀ (attrs : Attributes) {inputs inputs' : List TensorInfo?},
    List.Forall₂ TensorInfo?.Below inputs inputs' →
    Refines Shape.Below (rule attrs inputs) (rule attrs inputs')

namespace Window

theorem positions_below {d e : Dim} (h : d.Below e) (before after kernel dilation stride : Int64) :
    (positions d before after kernel dilation stride).Below
      (positions e before after kernel dilation stride) := by
  cases h with
  | unknown => exact .unknown
  | known => exact .refl _

theorem kernelOfWeights_refines {s t : Shape} (h : Shape.Below s t) (axes : Nat) :
    Refines Eq (kernelOfWeights s axes) (kernelOfWeights t axes) := by
  have hlen := h.length_eq
  unfold kernelOfWeights
  refine (Refines.invalidIf (by rw [hlen]) _ _).bind fun _ _ _ => .need ?_
  rw [hlen]
  exact Shape.sizes?_below (List.forall₂_drop _ h)

theorem kernel_refines {w w' : Shape?} (h : Option.Rel Shape.Below w w') (attrs : Attributes)
    (axes : Nat) : Refines Eq (kernel attrs w axes) (kernel attrs w' axes) := by
  refine .same _ fun given => ?_
  cases given with
  | some values => exact .refl _
  | none =>
    cases h with
    | none => exact .invalid
    | some hw => exact (kernelOfWeights_refines hw axes).bind fun values _ hv => hv ▸ .refl _

theorem weights_refines {inputs inputs' : List TensorInfo?}
    (h : List.Forall₂ TensorInfo?.Below inputs inputs') (kind : WindowKind) :
    Refines (Option.Rel Shape.Below) (weights kind inputs) (weights kind inputs') := by
  cases kind with
  | pooling => exact .done .none
  | convolution => exact (Refines.need (inputShape?_below h 1)).bind fun _ _ hw => .done (.some hw)

theorem channels_below {s t : Shape} (h : Shape.Below s t) {w w' : Shape?}
    (hw : Option.Rel Shape.Below w w') : (channels s w).Below (channels t w') := by
  cases hw with
  | none => exact getD_below h 1
  | some hw => exact getD_below hw 0

theorem rule_monotone (kind : WindowKind) : ShapeRule.Monotone (rule kind) := by
  intro attrs inputs inputs' h
  refine (Refines.need (inputShape?_below h 0)).bind fun s t hst => ?_
  refine (weights_refines h kind).bind fun w w' hw => .same _ fun _ => ?_
  have hlen := hst.length_eq
  refine (Refines.invalidIf (by rw [hlen]) _ _).bind fun _ _ _ => ?_
  simp only [hlen]
  refine .same _ fun dilations => .same _ fun _ => .same _ fun pads => .same _ fun strides => ?_
  refine (Refines.invalidIf ?_ _ _).bind fun _ _ _ => ?_
  · cases hw with
    | none => rfl
    | some hw => cases hw <;> rfl
  refine (kernel_refines hw attrs _).bind fun kernel _ hk => hk ▸ .done ?_
  exact .cons (getD_below hst 0) (.cons (channels_below hst hw)
    (below_map_range (fun _ => positions_below (getD_below hst _) _ _ _ _ _) _))

end Window

namespace Transposed

theorem extent_below {d e : Dim} (h : d.Below e) (before after kernel stride extra : Int64) :
    (extent d before after kernel stride extra).Below (extent e before after kernel stride extra) := by
  cases h with
  | unknown => exact .unknown
  | known => exact .refl _

/-- A target that is too small stays so. -/
theorem tooSmall?_below {s t : Shape} (h : Shape.Below s t) (i : Nat) (targets : List Int64)
    (hs : (tooSmall? s i targets).isSome) : (tooSmall? t i targets).isSome := by
  induction targets generalizing i with
  | nil => exact hs
  | cons target targets ih =>
    have hd := getD_below h (2 + i)
    simp only [tooSmall?] at hs ⊢
    generalize s.getD (2 + i) Dim.anonymous = d at hd hs
    generalize t.getD (2 + i) Dim.anonymous = e at hd
    cases hd with
    | unknown =>
      have := ih (i + 1) hs
      cases e with
      | unknown => exact this
      | known size =>
        simp only
        split
        · rfl
        · exact this
    | known =>
      simp only at hs ⊢
      split
      · rfl
      · next hsize =>
        rw [if_neg hsize] at hs
        exact ih (i + 1) hs

theorem wanted_refines {s t : Shape} (h : Shape.Below s t) (targets : List Int64) :
    Refines Shape.Below (wanted s targets) (wanted t targets) := by
  have hsmall := tooSmall?_below h 0 targets
  unfold wanted
  cases ht : tooSmall? t 0 targets with
  | some e => exact .invalid
  | none =>
    cases hs : tooSmall? s 0 targets with
    | none => exact .done (.refl _)
    | some e =>
      rw [hs, ht] at hsmall
      cases hsmall rfl

theorem kernel_refines {s t : Shape} (h : Shape.Below s t) (given : Option (List Int64)) (axes : Nat) :
    Refines Eq (kernel given s axes) (kernel given t axes) := by
  have hlen := h.length_eq
  cases given with
  | some values => exact .refl _
  | none =>
    refine (Refines.invalidIf (by rw [hlen]) _ _).bind fun _ _ _ => ?_
    exact (Window.kernelOfWeights_refines h axes).bind fun values _ hv => hv ▸ .refl _

theorem covered_below {s t : Shape} (h : Shape.Below s t) (pads strides extra : List Int64) (axes : Nat)
    (kernel : List Int64) :
    Shape.Below (covered s pads strides extra axes kernel) (covered t pads strides extra axes kernel) :=
  below_map_range (fun _ => extent_below (getD_below h _) _ _ _ _ _) axes

theorem rule_monotone : ShapeRule.Monotone rule := by
  intro attrs inputs inputs' h
  refine (Refines.need (inputShape?_below h 0)).bind fun s t hst => ?_
  refine (Refines.need (inputShape?_below h 1)).bind fun w w' hw => .same _ fun _ => ?_
  have hlen := hst.length_eq
  refine (Refines.invalidIf (by rw [hlen]) _ _).bind fun _ _ _ => ?_
  simp only [hlen]
  refine .same _ fun _ => .same _ fun _ => .same _ fun pads => .same _ fun strides => ?_
  refine .same _ fun given => .same _ fun targets => .same _ fun extra => ?_
  refine (Refines.invalidIf (by rw [hw.length_eq]) _ _).bind fun _ _ _ => ?_
  have hout : ∀ a b, Shape.Below a b → Shape.Below (s.getD 0 Dim.anonymous :: w.getD 1 Dim.anonymous :: a)
      (t.getD 0 Dim.anonymous :: w'.getD 1 Dim.anonymous :: b) := fun a b hab =>
    .cons (getD_below hst 0) (.cons (getD_below hw 1) hab)
  cases targets with
  | some targets => exact (wanted_refines hst targets).bind fun a b hab => .done (hout a b hab)
  | none =>
    have hcovered : Refines Shape.Below
        (covered s pads strides extra (t.length - 2) <$> kernel given w (t.length - 2))
        (covered t pads strides extra (t.length - 2) <$> kernel given w' (t.length - 2)) :=
      (kernel_refines hw given _).map fun kernel _ hk => hk ▸ covered_below hst _ _ _ _ _
    exact hcovered.bind fun a b hab => .done (hout a b hab)

end Transposed

theorem RegionPool.rule_monotone : ShapeRule.Monotone rule := by
  intro attrs inputs inputs' h
  refine (Refines.need (inputShape?_below h 0)).bind fun s t hst => ?_
  refine (Refines.need (inputShape?_below h 1)).bind fun u u' hu => ?_
  refine (Refines.invalidIf (by rw [hst.length_eq]) _ _).bind fun _ _ _ => ?_
  refine (Refines.invalidIf (by rw [hu.length_eq]) _ _).bind fun _ _ _ => ?_
  refine .same _ fun pooled => .same _ fun _ => .same _ fun _ => .done ?_
  exact .cons (getD_below hu 0) (.cons (getD_below hst 1) (Shape.Below.refl _))

theorem GlobalPool.rule_monotone : ShapeRule.Monotone rule := by
  intro attrs inputs inputs' h
  refine (Refines.need (inputShape?_below h 0)).bind fun s t hst => ?_
  refine (Refines.invalidIf (by rw [hst.length_eq]) _ _).bind fun _ _ _ => .done ?_
  rw [hst.length_eq]
  exact List.rel_append (List.forall₂_take 2 hst) (Shape.Below.refl _)

theorem Unchanged.rule_monotone : ShapeRule.Monotone rule := by
  intro attrs inputs inputs' h
  exact .need (inputShape?_below h 0)

theorem Flatten.rule_monotone : ShapeRule.Monotone rule := by
  intro attrs inputs inputs' h
  refine (Refines.need (inputShape?_below h 0)).bind fun s t hst => .same _ fun axis => ?_
  refine (Refines.invalidIf (by rw [hst.length_eq]) _ _).bind fun _ _ _ => .done ?_
  exact .cons (Dim.product_below (List.forall₂_take _ hst))
    (.cons (Dim.product_below (List.forall₂_drop _ hst)) .nil)

theorem monotone_of_mem_standardRules : ∀ e ∈ Registry.standardRules, ShapeRule.Monotone e.2.2 := by
  have hw := Window.rule_monotone
  have hg := GlobalPool.rule_monotone
  have hu := Unchanged.rule_monotone
  simp only [Registry.standardRules, List.forall_mem_cons, List.not_mem_nil, false_imp_iff, implies_true,
    hw, hg, hu, Transposed.rule_monotone, RegionPool.rule_monotone, Flatten.rule_monotone, and_self]

/-! ## Results -/

/-- All that the first result says the second says as well: the element type, if it
is known, and the shape of a resolved output. -/
structure OutputResult.Below (a b : OutputResult) : Prop where
  element : Option.le Eq a.info.element b.info.element
  shape : a.outcome = .resolved → b.outcome = .resolved ∧
    ∃ s t, a.info.shape = some s ∧ b.info.shape = some t ∧ Shape.Below s t

namespace ShapeRule

variable {rule : ShapeRule} {op : Text} {attrs : Attributes} {inputs inputs' : List TensorInfo?}

/-- The first result is below the one with more known, if that is not a failure. -/
theorem Monotone.first_below (h : rule.Monotone) (hins : List.Forall₂ TensorInfo?.Below inputs inputs')
    (hvalid : ∀ e, rule attrs inputs' ≠ .invalid e) :
    (rule.first op attrs inputs).Below (rule.first op attrs inputs') := by
  have helement := firstElement?_below hins
  have hrefines := h attrs hins
  unfold first
  generalize rule attrs inputs = v at hrefines ⊢
  generalize rule attrs inputs' = w at hrefines hvalid ⊢
  cases hrefines with
  | invalid => exact absurd rfl (hvalid _)
  | abstain =>
    cases w with
    | invalid e => exact absurd rfl (hvalid e)
    | abstain => exact ⟨helement, nofun⟩
    | done t => exact ⟨helement, nofun⟩
  | done hst => exact ⟨helement, fun _ => ⟨rfl, _, _, rfl, rfl, hst⟩⟩

theorem Monotone.anyFailed (h : rule.Monotone) (hins : List.Forall₂ TensorInfo?.Below inputs inputs')
    {outputs : Int} (hfailed : AnyFailed (rule.infer op attrs inputs outputs)) :
    AnyFailed (rule.infer op attrs inputs' outputs) := by
  obtain ⟨e, he⟩ := anyFailed_infer.mp hfailed
  have hrefines := h attrs hins
  rw [he] at hrefines
  generalize hw : rule attrs inputs' = w at hrefines
  cases hrefines with
  | invalid => exact anyFailed_infer.mpr ⟨_, hw⟩

theorem Monotone.results_below (h : rule.Monotone)
    (hins : List.Forall₂ TensorInfo?.Below inputs inputs') {outputs : Int}
    (hvalid : ¬ AnyFailed (rule.infer op attrs inputs' outputs)) :
    (rule.infer op attrs inputs outputs).length = outputs.toNat ∧
      List.Forall₂ OutputResult.Below (rule.infer op attrs inputs outputs)
        (rule.infer op attrs inputs' outputs) := by
  have hvalid' : ∀ e, rule attrs inputs' ≠ .invalid e := fun e he =>
    hvalid (anyFailed_infer.mpr ⟨e, he⟩)
  have hless : ∀ e, rule attrs inputs ≠ .invalid e := fun e he =>
    hvalid (h.anyFailed hins (anyFailed_infer.mpr ⟨e, he⟩))
  rw [infer_of_valid hless, infer_of_valid hvalid']
  refine ⟨by simp; omega, List.forall₂_take _ (.cons (h.first_below hins hvalid') ?_)⟩
  refine List.forall₂_same.mpr fun result hresult => ?_
  obtain rfl := List.eq_of_mem_replicate hresult
  exact ⟨le_of_none _, nofun⟩

end ShapeRule

/-- **The more is known of the inputs, the more every inference says.** If it fails
with less it fails with more, and unless it fails with more there is a result for
each output, which says no more than the one with more known. -/
theorem below_infer {op : Text} {opset : Int} {f : Operator}
    (hf : Registry.standard.lookup op opset = some f) (attrs : Attributes)
    {inputs inputs' : List TensorInfo?} (h : List.Forall₂ TensorInfo?.Below inputs inputs')
    (outputs : Int) :
    (AnyFailed (f.infer attrs inputs outputs) → AnyFailed (f.infer attrs inputs' outputs)) ∧
    (¬ AnyFailed (f.infer attrs inputs' outputs) →
      (f.infer attrs inputs outputs).length = outputs.toNat ∧
      List.Forall₂ OutputResult.Below (f.infer attrs inputs outputs) (f.infer attrs inputs' outputs)) := by
  obtain ⟨since, rule, hmem, rfl⟩ := Registry.lookup_standard hf
  have hrule : rule.Monotone := monotone_of_mem_standardRules _ hmem
  exact ⟨hrule.anyFailed h, hrule.results_below h⟩

/-- The operands of a convolution of which little is known. -/
def blurred : List TensorInfo? := [
  some ⟨none, some [.unknown "N", Dim.anonymous, .known 10, Dim.anonymous]⟩,
  some ⟨some .float32, some [Dim.anonymous, .known 3, .known 3, .known 3]⟩,
  none]

/-- The same operands, of which more is known. -/
def sharp : List TensorInfo? := [
  some ⟨some .float32, some [.known 1, .unknown "C", .known 10, .known 7]⟩,
  some ⟨some .float32, some [.known 8, .known 3, .known 3, .known 3]⟩,
  some ⟨none, some [.known 8]⟩]

theorem blurred_below_sharp : List.Forall₂ TensorInfo?.Below blurred sharp := by
  refine .cons ⟨trivial, ?_⟩ (.cons ⟨rfl, ?_⟩ (.cons (TensorInfo?.below_of_none _) .nil))
  · exact .cons .unknown (.cons .unknown (.cons .known (.cons .unknown .nil)))
  · exact .cons .unknown (.cons .known (.cons .known (.cons .known .nil)))

theorem below_infer_blurred : ∃ f, Registry.standard.lookup "Conv" 11 = some f ∧
    List.Forall₂ TensorInfo?.Below blurred sharp ∧ ¬ AnyFailed (f.infer {} sharp 2) ∧
    List.Forall₂ OutputResult.Below (f.infer {} blurred 2) (f.infer {} sharp 2) := by
  have hf : Registry.standard.lookup "Conv" 11 =
      some ⟨ShapeRule.infer (Window.rule .convolution) "Conv", false⟩ := rfl
  have hsharp : Window.rule .convolution {} sharp =
      .done [.known 1, .known 8, .known 8, .known 5] := rfl
  have hvalid : ¬ AnyFailed (ShapeRule.infer (Window.rule .convolution) "Conv" {} sharp 2) := by
    rw [ShapeRule.anyFailed_infer, hsharp]
    nofun
  exact ⟨_, hf, blurred_below_sharp, hvalid, ((below_infer hf {} blurred_below_sharp 2).2 hvalid).2⟩

end ShapeFlow
