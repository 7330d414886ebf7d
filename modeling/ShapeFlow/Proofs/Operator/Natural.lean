/-
Where dimensions come out negative. Sizes are numbers of 64 bits that wrap around.
From inputs without a negative dimension every rule of the standard registry gives
shapes without one, with two exceptions that are told exactly (`Wraps`): flattening
multiplies sizes with no check of the product, and a convolution whose dilated window
is longer than 64 bits can count compares with the wrapped length.

`natural_infer_iff`: a resolved shape has no negative dimension if and only if the
node is not one of these.
-/
import Mathlib
import ShapeFlow.Proofs.Inference.Result
import ShapeFlow.Proofs.Operator.Reading
import ShapeFlow.Proofs.Registry

namespace ShapeFlow

open Verdict

/-! ## Shapes without negative dimensions -/

def Dim.Natural : Dim → Prop
  | .known n => 0 ≤ n
  | .unknown _ => True

instance (d : Dim) : Decidable d.Natural :=
  match d with
  | .known n => inferInstanceAs (Decidable (0 ≤ n))
  | .unknown _ => inferInstanceAs (Decidable True)

def Shape.Natural (s : Shape) : Prop := ∀ d ∈ s, d.Natural

instance (s : Shape) : Decidable (Shape.Natural s) := inferInstanceAs (Decidable (∀ d ∈ s, d.Natural))

/-- What is known of a tensor has no negative dimension. -/
def TensorInfo?.Natural (info : TensorInfo?) : Prop := ∀ t ∈ info, ∀ s ∈ t.shape, Shape.Natural s

namespace Shape.Natural

variable {s t : Shape}

theorem getD (h : Shape.Natural s) (i : Nat) : (s.getD i Dim.anonymous).Natural := by
  rw [List.getD_eq_getElem?_getD]
  cases hi : s[i]? with
  | none => exact trivial
  | some d => exact h d (List.mem_of_getElem? hi)

theorem take (h : Shape.Natural s) (n : Nat) : Shape.Natural (s.take n) :=
  fun d hd => h d (List.mem_of_mem_take hd)

theorem drop (h : Shape.Natural s) (n : Nat) : Shape.Natural (s.drop n) :=
  fun d hd => h d (List.mem_of_mem_drop hd)

theorem append (h : Shape.Natural s) (h' : Shape.Natural t) : Shape.Natural (s ++ t) := by
  intro d hd
  rcases List.mem_append.mp hd with hd | hd
  · exact h d hd
  · exact h' d hd

end Shape.Natural

theorem Shape.natural_cons {d : Dim} {s : Shape} :
    Shape.Natural (d :: s) ↔ d.Natural ∧ Shape.Natural s := List.forall_mem_cons

theorem Shape.natural_ofSizes {sizes : List Int64} :
    Shape.Natural (sizes.map Dim.known) ↔ ∀ n ∈ sizes, 0 ≤ n := List.forall_mem_map

theorem TensorInfo?.natural_some {element : Option ElementType} {s : Shape} (h : Shape.Natural s) :
    TensorInfo?.Natural (some ⟨element, some s⟩) := by
  rintro t ⟨⟩ s ⟨⟩
  exact h

theorem natural_inputShape? {inputs : List TensorInfo?} (h : ∀ input ∈ inputs, TensorInfo?.Natural input)
    {i : Nat} {s : Shape} (hs : inputShape? inputs i = some s) : Shape.Natural s := by
  unfold inputShape? at hs
  rw [List.getD_eq_getElem?_getD] at hs
  cases hi : inputs[i]? with
  | none => simp [hi] at hs
  | some input =>
    simp only [hi, Option.getD_some, Option.bind_eq_some_iff] at hs
    obtain ⟨t, rfl, ht⟩ := hs
    exact h _ (List.mem_of_getElem? hi) t rfl s ht

/-! ## Numbers of 64 bits -/

/-- The number that 64 bits hold in place of `n`. -/
def wrap (n : Int) : Int := (Int64.ofInt n).toInt

theorem wrap_eq (n : Int) : wrap n = if n % 2 ^ 64 < 2 ^ 63 then n % 2 ^ 64 else n % 2 ^ 64 - 2 ^ 64 := by
  unfold wrap
  rw [Int64.toInt_ofInt, Int.bmod_def]
  rfl

theorem wrap_of_fits {n : Int} (h : -2 ^ 63 ≤ n) (h' : n < 2 ^ 63) : wrap n = n := by
  rw [wrap_eq]
  omega

theorem wrap_of_above {n : Int} (h : 2 ^ 63 ≤ n) (h' : n < 3 * 2 ^ 63) : wrap n = n - 2 ^ 64 := by
  rw [wrap_eq]
  omega

/-- What changes was too large. -/
theorem large_of_wrap_lt {n : Int} (h : 0 ≤ n) (hwrap : wrap n < n) : 2 ^ 63 ≤ n := by
  by_contra hsmall
  rw [wrap_of_fits (by omega) (by omega)] at hwrap
  omega

theorem le_wrap (n : Int) : -2 ^ 63 ≤ wrap n := Int64.le_toInt _

theorem wrap_lt (n : Int) : wrap n < 2 ^ 63 := Int64.toInt_lt _

/-! ## Windows -/

namespace Window

/-- The padded axis, counted exactly. -/
def room (size before after : Int64) : Int := size.toInt + before.toInt + after.toInt

/-- The length of a window, counted exactly. -/
def span (kernel dilation : Int64) : Int := (kernel.toInt - 1) * dilation.toInt + 1

/-- What is left of the axis beside the first window, as far as 64 bits can tell. -/
def gap (size before after kernel dilation : Int64) : Int :=
  wrap (room size before after) - wrap (span kernel dilation)

/-- The window is too long for 64 bits, and the number of its positions that comes
of the wrapped length is negative. -/
def Overruns (size before after kernel dilation stride : Int64) : Prop :=
  2 ^ 63 ≤ span kernel dilation ∧
    (2 ^ 63 ≤ gap size before after kernel dilation ∧
      gap size before after kernel dilation + 2 * stride.toInt ≤ 2 ^ 64 ∨
    gap size before after kernel dilation = 2 ^ 63 - 1 ∧ stride.toInt = 1)

theorem toInt_room (size before after : Int64) :
    (size + before + after).toInt = wrap (room size before after) := by
  simp only [wrap, room, Int64.ofInt_add, Int64.ofInt_toInt]

theorem toInt_span (kernel dilation : Int64) :
    ((kernel - 1) * dilation + 1).toInt = wrap (span kernel dilation) := by
  simp only [wrap, span, Int64.ofInt_add, Int64.ofInt_mul, Int64.ofInt_sub, Int64.ofInt_toInt]
  rfl

theorem one_le_span {kernel dilation : Int64} (hk : 1 ≤ kernel) (hd : 1 ≤ dilation) :
    1 ≤ span kernel dilation := by
  have hk : 1 ≤ kernel.toInt := Int64.le_iff_toInt_le.mp hk
  have hd : 1 ≤ dilation.toInt := Int64.le_iff_toInt_le.mp hd
  have : 0 ≤ (kernel.toInt - 1) * dilation.toInt := Int.mul_nonneg (by omega) (by omega)
  unfold span
  omega

/-- When the steps in a length, which is `n` counted exactly, come out negative: the
wrapped length is negative and at least two steps long, or one more step than 64 bits
can count fits. -/
theorem steps_neg_iff {left stride : Int64} {n : Int} (hleft : left.toInt = wrap n) (h0 : 0 ≤ n)
    (h64 : n < 2 ^ 64) (hstride : 1 ≤ stride) :
    left / stride + 1 < 0 ↔
      2 ^ 63 ≤ n ∧ n + 2 * stride.toInt ≤ 2 ^ 64 ∨ n = 2 ^ 63 - 1 ∧ stride.toInt = 1 := by
  have hs : 1 ≤ stride.toInt := Int64.le_iff_toInt_le.mp hstride
  have hs' := stride.toInt_lt
  have hsteps : (left / stride + 1).toInt = wrap ((wrap n).tdiv stride.toInt + 1) := by
    unfold wrap
    rw [Int64.toInt_ofInt, Int64.toInt_add, Int64.toInt_div, Int64.toInt_one, Int.bmod_add_bmod, ← wrap,
      hleft]
  rw [Int64.lt_iff_toInt_lt, hsteps, Int64.toInt_zero]
  by_cases hn : n < 2 ^ 63
  · rw [wrap_of_fits (by omega) hn, Int.tdiv_eq_ediv_of_nonneg h0]
    have hq : 0 ≤ n / stride.toInt := Int.ediv_nonneg h0 (by omega)
    by_cases hone : stride.toInt = 1
    · rw [hone, Int.ediv_one]
      by_cases hlast : n = 2 ^ 63 - 1
      · rw [wrap_of_above (by omega) (by omega)]
        omega
      · rw [wrap_of_fits (by omega) (by omega)]
        omega
    · have hq' : n / stride.toInt < 2 ^ 63 - 1 := Int.ediv_lt_of_lt_mul (by omega) (by omega)
      rw [wrap_of_fits (by omega) (by omega)]
      omega
  · have hneg : (n - 2 ^ 64).tdiv stride.toInt = -((2 ^ 64 - n) / stride.toInt) := by
      rw [← Int.neg_sub, Int.neg_tdiv, Int.tdiv_eq_ediv_of_nonneg (by omega)]
    have hq : 0 ≤ (2 ^ 64 - n) / stride.toInt := Int.ediv_nonneg (by omega) (by omega)
    have hq' : (2 ^ 64 - n) / stride.toInt ≤ 2 ^ 64 - n := Int.ediv_le_self _ (by omega)
    have htwo : 2 ≤ (2 ^ 64 - n) / stride.toInt ↔ 2 * stride.toInt ≤ 2 ^ 64 - n :=
      Int.le_ediv_iff_mul_le (by omega)
    rw [wrap_of_above (n := n) (by omega) (by omega), hneg, wrap_of_fits (by omega) (by omega)]
    omega

theorem natural_positions_iff {before after kernel dilation stride : Int64} (hk : 1 ≤ kernel)
    (hd : 1 ≤ dilation) (hs : 1 ≤ stride) (size : Int64) :
    (positions (.known size) before after kernel dilation stride).Natural ↔
      ¬ Overruns size before after kernel dilation stride := by
  have hroom := toInt_room size before after
  have hspan := toInt_span kernel dilation
  have hpos := one_le_span hk hd
  have hr := wrap_lt (room size before after)
  have hr' := le_wrap (room size before after)
  have hsp := le_wrap (span kernel dilation)
  have hsp' := wrap_lt (span kernel dilation)
  unfold positions Overruns
  simp only [Int64.lt_iff_toInt_lt, hroom, hspan]
  split
  · next hlt =>
    refine iff_of_true trivial ?_
    unfold gap
    omega
  · next hle =>
    have hleft : (size + before + after - ((kernel - 1) * dilation + 1)).toInt =
        wrap (gap size before after kernel dilation) := by
      rw [gap, wrap, Int64.ofInt_sub, ← hroom, ← hspan, Int64.ofInt_toInt, Int64.ofInt_toInt]
    have hneg := steps_neg_iff hleft (by unfold gap; omega) (by unfold gap; omega) hs
    -- a wrapped length that is not positive is that of a window too long
    have hlong : wrap (span kernel dilation) ≤ 0 → 2 ^ 63 ≤ span kernel dilation :=
      fun hwrap => large_of_wrap_lt (by omega) (by omega)
    rw [Dim.Natural, ← Int64.not_lt, hneg]
    unfold gap
    omega

/-- The windows along an axis of known size overrun. -/
def Operands.OverrunsAlong (o : Operands) (i : Nat) : Prop :=
  ∃ size, o.input.getD (2 + i) Dim.anonymous = .known size ∧
    Overruns size (o.pads.getD i 0) (o.pads.getD (i + o.axes) 0) (o.kernel.getD i 1)
      (o.dilations.getD i 1) (o.strides.getD i 1)

/-- A convolution with an axis along which the windows overrun. -/
def Wraps (attrs : Attributes) (inputs : List TensorInfo?) : Prop :=
  ∃ o : Operands, o.ReadFrom .convolution attrs inputs ∧ ∃ i < o.axes, o.OverrunsAlong i

section Rule

variable {o : Operands} {kind : WindowKind} {attrs : Attributes} {inputs : List TensorInfo?}

theorem Operands.ReadFrom.natural_along_iff (h : o.ReadFrom kind attrs inputs) (i : Nat) :
    (o.along i).Natural ↔ ¬ o.OverrunsAlong i := by
  obtain ⟨-, -, -, hstrides⟩ := spatialOr_eq_done.mp h.strides
  have hk := le_getD (kernel_least h.kernel) (Int64.le_refl 1) i
  have hd := le_getD (dilations_least h.dilations) (Int64.le_refl 1) i
  have hs := le_getD hstrides (Int64.le_refl 1) i
  unfold Operands.along Operands.OverrunsAlong
  cases o.input.getD (2 + i) Dim.anonymous with
  | unknown name => exact iff_of_true trivial nofun
  | known size =>
    rw [natural_positions_iff hk hd hs]
    constructor
    · rintro hno ⟨size', hsize, hoverruns⟩
      obtain rfl := Dim.known.inj hsize
      exact hno hoverruns
    · intro hno hoverruns
      exact hno ⟨size, rfl, hoverruns⟩

theorem Operands.ReadFrom.natural_output_iff (h : o.ReadFrom kind attrs inputs)
    (hins : ∀ input ∈ inputs, TensorInfo?.Natural input) :
    Shape.Natural o.output ↔ ∀ i < o.axes, ¬ o.OverrunsAlong i := by
  have hinput := natural_inputShape? hins h.input
  have hchannels : (channels o.input o.weights).Natural := by
    have hweights := h.weights
    cases kind with
    | pooling =>
      rw [← done_inj.mp hweights]
      exact hinput.getD 1
    | convolution =>
      obtain ⟨w, hw, hweights⟩ := bind_eq_done.mp hweights
      rw [← pure_eq_done.mp hweights]
      exact (natural_inputShape? hins (need_eq_done.mp hw)).getD 0
  unfold Operands.output
  rw [Shape.natural_cons, Shape.natural_cons, and_iff_right (hinput.getD 0), and_iff_right hchannels]
  unfold Shape.Natural
  rw [List.forall_mem_map]
  simp only [List.mem_range, h.natural_along_iff]

/-- Windows without dilation are as long as they say. -/
theorem Operands.ReadFrom.not_overrunsAlong (h : o.ReadFrom .pooling attrs inputs) (i : Nat) :
    ¬ o.OverrunsAlong i := by
  rintro ⟨size, -, hlong, -⟩
  have hone : o.dilations.getD i 1 = 1 := by
    rw [← done_inj.mp h.dilations, List.getD_eq_getElem?_getD, List.getElem?_replicate]
    split <;> rfl
  have := (o.kernel.getD i 1).toInt_lt
  rw [span, hone, Int64.toInt_one] at hlong
  omega

end Rule

end Window

/-! ## Products -/

/-- The number of elements, counted exactly. -/
def Shape.volume (sizes : List Int64) : Int := sizes.foldr (fun n v => n.toInt * v) 1

/-- The sizes are known, and 64 bits hold a negative number for their product. -/
def Shape.Overflows (s : Shape) : Prop :=
  ∃ sizes, sizes? s = some sizes ∧ 2 ^ 63 ≤ volume sizes ∧ wrap (volume sizes) < 0

theorem Dim.product_eq (s : Shape) :
    product s = (Shape.sizes? s).elim anonymous fun sizes => .known (.ofInt (Shape.volume sizes)) := by
  induction s with
  | nil => rfl
  | cons d s ih =>
    cases d with
    | unknown name => rfl
    | known n =>
      simp only [product, ih, Shape.sizes?, List.mapM_cons, Dim.size?, Option.bind_eq_bind, Option.bind_some]
      cases List.mapM Dim.size? s with
      | none => rfl
      | some sizes =>
        simp only [Option.elim_some, Option.bind_some, Option.pure_def, Shape.volume, List.foldr_cons,
          Int64.ofInt_mul, Int64.ofInt_toInt]

theorem Shape.volume_nonneg {sizes : List Int64} (h : ∀ n ∈ sizes, 0 ≤ n) : 0 ≤ volume sizes := by
  induction sizes with
  | nil => decide
  | cons n sizes ih =>
    have hn : 0 ≤ n.toInt := Int64.le_iff_toInt_le.mp (h n List.mem_cons_self)
    exact Int.mul_nonneg hn (ih fun m hm => h m (List.mem_cons_of_mem n hm))

theorem Dim.natural_product_iff {s : Shape} (hs : Shape.Natural s) :
    (product s).Natural ↔ ¬ Shape.Overflows s := by
  rw [product_eq]
  unfold Shape.Overflows
  cases hsizes : Shape.sizes? s with
  | none => exact iff_of_true trivial nofun
  | some sizes =>
    obtain rfl := Shape.sizes?_eq_some.mp hsizes
    have hvolume := Shape.volume_nonneg (Shape.natural_ofSizes.mp hs)
    have hlarge : wrap (Shape.volume sizes) < 0 → 2 ^ 63 ≤ Shape.volume sizes :=
      fun hwrap => large_of_wrap_lt hvolume (by omega)
    have hknown : (known (.ofInt (Shape.volume sizes))).Natural ↔ 0 ≤ wrap (Shape.volume sizes) :=
      Int64.le_iff_toInt_le
    simp only [Option.elim_some, hknown, Option.some.injEq, exists_eq_left']
    omega

/-- One of the two products overflows. -/
def Flatten.Operands.Overflows (o : Flatten.Operands) : Prop :=
  Shape.Overflows (o.input.take o.split) ∨ Shape.Overflows (o.input.drop o.split)

theorem Flatten.Operands.ReadFrom.natural_output_iff {o : Flatten.Operands} {attrs : Attributes}
    {inputs : List TensorInfo?} (h : o.ReadFrom attrs inputs)
    (hins : ∀ input ∈ inputs, TensorInfo?.Natural input) : Shape.Natural o.output ↔ ¬ o.Overflows := by
  have hinput := natural_inputShape? hins h.input
  unfold Operands.output Operands.Overflows
  rw [Shape.natural_cons, Shape.natural_cons, Dim.natural_product_iff (hinput.take _),
    Dim.natural_product_iff (hinput.drop _), not_or]
  exact and_congr_right fun _ => and_iff_left nofun

/-- A flattening in which a product overflows. -/
def Flatten.Wraps (attrs : Attributes) (inputs : List TensorInfo?) : Prop :=
  ∃ o : Flatten.Operands, o.ReadFrom attrs inputs ∧ o.Overflows

/-! ## The rules -/

namespace ShapeRule

/-- From inputs without negative dimensions the rule always gives such a shape. -/
def KeepsNatural (rule : ShapeRule) : Prop :=
  ∀ (attrs : Attributes) (inputs : List TensorInfo?) (shape : Shape),
    (∀ input ∈ inputs, TensorInfo?.Natural input) → rule attrs inputs = .done shape → Shape.Natural shape

/-- From inputs without negative dimensions the rule gives such a shape just when the
node is not an exception. -/
def NaturalUnless (rule : ShapeRule) (wraps : Attributes → List TensorInfo? → Prop) : Prop :=
  ∀ (attrs : Attributes) (inputs : List TensorInfo?) (shape : Shape),
    (∀ input ∈ inputs, TensorInfo?.Natural input) → rule attrs inputs = .done shape →
    (Shape.Natural shape ↔ ¬ wraps attrs inputs)

/-- A rule whose shape is computed from operands, when it is known which of them
give a negative dimension. -/
theorem naturalUnless_of_reads {rule : ShapeRule} {Operands : Type} {output : Operands → Shape}
    {Reads : Operands → Attributes → List TensorInfo? → Prop} {Bad : Operands → Prop}
    (hrule : ∀ attrs inputs shape,
      rule attrs inputs = .done shape ↔ ∃ o, Reads o attrs inputs ∧ output o = shape)
    (hout : ∀ o attrs inputs, Reads o attrs inputs → (∀ input ∈ inputs, TensorInfo?.Natural input) →
      (Shape.Natural (output o) ↔ ¬ Bad o)) :
    rule.NaturalUnless fun attrs inputs => ∃ o, Reads o attrs inputs ∧ Bad o := by
  intro attrs inputs shape hins h
  constructor
  · rintro hnatural ⟨o, ho, hbad⟩
    have hshape : output o = shape := done_inj.mp (((hrule _ _ _).mpr ⟨o, ho, rfl⟩).symm.trans h)
    rw [← hshape, hout o _ _ ho hins] at hnatural
    exact hnatural hbad
  · intro hno
    obtain ⟨o, ho, rfl⟩ := (hrule _ _ _).mp h
    rw [hout o _ _ ho hins]
    exact fun hbad => hno ⟨o, ho, hbad⟩

end ShapeRule

theorem Window.natural_convolution : (rule .convolution).NaturalUnless Wraps := by
  refine ShapeRule.naturalUnless_of_reads (fun _ _ _ => rule_eq_done) fun o _ _ ho hins => ?_
  rw [ho.natural_output_iff hins]
  simp only [not_exists, not_and]

theorem Window.natural_pooling : (rule .pooling).KeepsNatural := by
  intro attrs inputs shape hins h
  obtain ⟨o, ho, rfl⟩ := rule_eq_done.mp h
  rw [ho.natural_output_iff hins]
  exact fun i _ => ho.not_overrunsAlong i

theorem Flatten.natural_rule : rule.NaturalUnless Wraps :=
  ShapeRule.naturalUnless_of_reads (fun _ _ _ => rule_eq_done) fun _ _ _ ho => ho.natural_output_iff

namespace Transposed

/-- Nothing is left of an axis that would be negative. -/
theorem natural_extent (axis : Dim) (before after kernel stride extra : Int64) :
    (extent axis before after kernel stride extra).Natural := by
  cases axis with
  | unknown name => exact trivial
  | known size =>
    simp only [extent]
    split
    · exact trivial
    · next h => exact Int64.not_lt.mp h

theorem natural_wanted {input spatial : Shape} {targets : List Int64} (htargets : ∀ n ∈ targets, 0 ≤ n)
    (h : wanted input targets = .done spatial) : Shape.Natural spatial := by
  unfold wanted at h
  split at h
  · cases h
  · rw [← done_inj.mp h, Shape.natural_ofSizes]
    exact htargets

theorem natural_covered (input : Shape) (pads strides extra : List Int64) (axes : Nat)
    (kernel : List Int64) : Shape.Natural (covered input pads strides extra axes kernel) :=
  List.forall_mem_map.mpr fun _ _ => natural_extent _ _ _ _ _ _

theorem natural_rule : rule.KeepsNatural := by
  intro attrs inputs shape hins h
  unfold rule at h
  simp only [bind_eq_done, need_eq_done, spatialIfGiven_eq_done] at h
  obtain ⟨input, hinput, weights, hweights, -, -, -, -, -, -, -, -, pads, -, strides, -, given, -, targets,
    ⟨-, htargets⟩, extra, -, -, -, h⟩ := h
  have hout : ∀ spatial, Shape.Natural spatial →
      Shape.Natural (input.getD 0 Dim.anonymous :: weights.getD 1 Dim.anonymous :: spatial) := by
    intro spatial hspatial
    rw [Shape.natural_cons, Shape.natural_cons]
    exact ⟨(natural_inputShape? hins hinput).getD 0, (natural_inputShape? hins hweights).getD 1, hspatial⟩
  cases targets with
  | some targets =>
    obtain ⟨spatial, hspatial, hshape⟩ := bind_eq_done.mp h
    rw [← pure_eq_done.mp hshape]
    exact hout spatial (natural_wanted htargets hspatial)
  | none =>
    obtain ⟨spatial, hspatial, hshape⟩ := bind_eq_done.mp h
    obtain ⟨kernel, -, rfl⟩ := map_eq_done.mp hspatial
    rw [← pure_eq_done.mp hshape]
    exact hout _ (natural_covered _ _ _ _ _ _)

end Transposed

theorem RegionPool.natural_rule : rule.KeepsNatural := by
  intro attrs inputs shape hins h
  simp only [rule, bind_eq_done, need_eq_done, ofAttribute_eq_done, pure_eq_done, checkMinimum_eq_ok] at h
  obtain ⟨input, hinput, regions, hregions, -, -, -, -, pooled, -, -, hpooled, -, -, rfl⟩ := h
  rw [Shape.natural_cons, Shape.natural_cons, Shape.natural_ofSizes]
  exact ⟨(natural_inputShape? hins hregions).getD 0, (natural_inputShape? hins hinput).getD 1, hpooled⟩

theorem GlobalPool.natural_rule : rule.KeepsNatural := by
  intro attrs inputs shape hins h
  simp only [rule, bind_eq_done, need_eq_done, pure_eq_done] at h
  obtain ⟨input, hinput, -, -, rfl⟩ := h
  refine ((natural_inputShape? hins hinput).take 2).append fun d hd => ?_
  rw [List.eq_of_mem_replicate hd]
  decide

theorem Unchanged.natural_rule : rule.KeepsNatural := by
  intro attrs inputs shape hins h
  exact natural_inputShape? hins (need_eq_done.mp h)

/-- The nodes whose shape comes out with a negative dimension. -/
def Wraps (op : Text) (attrs : Attributes) (inputs : List TensorInfo?) : Prop :=
  op = "Conv" ∧ Window.Wraps attrs inputs ∨ op = "Flatten" ∧ Flatten.Wraps attrs inputs

theorem not_wraps {op : Text} (hconv : op ≠ "Conv") (hflatten : op ≠ "Flatten") (attrs : Attributes)
    (inputs : List TensorInfo?) : ¬ Wraps op attrs inputs := by
  rintro (⟨rfl, -⟩ | ⟨rfl, -⟩)
  · exact hconv rfl
  · exact hflatten rfl

theorem ShapeRule.KeepsNatural.unless {rule : ShapeRule} (h : rule.KeepsNatural) (op : Text)
    (hconv : op ≠ "Conv") (hflatten : op ≠ "Flatten") : rule.NaturalUnless (Wraps op) :=
  fun attrs inputs shape hins hdone =>
    iff_of_true (h attrs inputs shape hins hdone) (not_wraps hconv hflatten attrs inputs)

theorem natural_of_mem_standardRules :
    ∀ e ∈ Registry.standardRules, ShapeRule.NaturalUnless e.2.2 (Wraps e.1) := by
  have hconv : Wraps "Conv" = Window.Wraps := by
    funext attrs inputs
    exact propext ⟨fun h => h.elim And.right fun h => absurd h.1 (by decide), fun h => .inl ⟨rfl, h⟩⟩
  have hflatten : Wraps "Flatten" = Flatten.Wraps := by
    funext attrs inputs
    exact propext ⟨fun h => h.elim (fun h => absurd h.1 (by decide)) And.right, fun h => .inr ⟨rfl, h⟩⟩
  have hpooling := Window.natural_pooling.unless
  have hglobal := GlobalPool.natural_rule.unless
  have hunchanged := Unchanged.natural_rule.unless
  have htransposed := Transposed.natural_rule.unless
  have hregion := RegionPool.natural_rule.unless
  simp (disch := decide) only [Registry.standardRules, List.forall_mem_cons, List.not_mem_nil,
    false_imp_iff, implies_true, hconv, hflatten, Window.natural_convolution, Flatten.natural_rule,
    hpooling, hglobal, hunchanged, htransposed, hregion, and_self]

/-- **A resolved shape has no negative dimension, unless the node is one of those that
wrap around.** -/
theorem natural_infer_iff {op : Text} {opset : Int} {f : Operator}
    (hf : Registry.standard.lookup op opset = some f) (attrs : Attributes) {inputs : List TensorInfo?}
    (hins : ∀ input ∈ inputs, TensorInfo?.Natural input) {outputs : Int} {result : OutputResult}
    (hmem : result ∈ f.infer attrs inputs outputs) (hresolved : result.outcome = .resolved) :
    ∃ shape, result.info.shape = some shape ∧ (Shape.Natural shape ↔ ¬ Wraps op attrs inputs) := by
  obtain ⟨since, rule, hrule, rfl⟩ := Registry.lookup_standard hf
  obtain ⟨shape, hdone, hshape⟩ := ShapeRule.done_of_resolved hmem hresolved
  exact ⟨shape, hshape, natural_of_mem_standardRules _ hrule attrs inputs shape hins hdone⟩

/-- The operands of a convolution whose window, with a dilation of two, spans 2 ^ 63 + 1. -/
def stretched : List TensorInfo? := [
  some ⟨some .float32, some [.known 1, .known 3, .known 10]⟩,
  some ⟨some .float32, some [.known 8, .known 3, .known 4611686018427387905]⟩]

def doubled : Attributes := ⟨[("dilations", .ints [2])]⟩

theorem natural_stretched : ∀ input ∈ stretched, TensorInfo?.Natural input := by
  simp only [stretched, List.forall_mem_cons, List.not_mem_nil, false_imp_iff, implies_true, and_true]
  exact ⟨TensorInfo?.natural_some (by decide), TensorInfo?.natural_some (by decide)⟩

theorem wraps_stretched : ∃ f, Registry.standard.lookup "Conv" 11 = some f ∧
    (∀ input ∈ stretched, TensorInfo?.Natural input) ∧
    (∃ result ∈ f.infer doubled stretched 1, result.outcome = .resolved) ∧
    Wraps "Conv" doubled stretched := by
  have hf : Registry.standard.lookup "Conv" 11 =
      some ⟨ShapeRule.infer (Window.rule .convolution) "Conv", false⟩ := rfl
  have hmem : ⟨.resolved, ⟨some .float32, some [.known 1, .known 8, .known (-9223372036854775798)]⟩⟩ ∈
      Operator.infer ⟨ShapeRule.infer (Window.rule .convolution) "Conv", false⟩ doubled stretched 1 :=
    List.mem_singleton_self _
  refine ⟨_, hf, natural_stretched, ⟨_, hmem, rfl⟩, ?_⟩
  obtain ⟨shape, hshape, hiff⟩ := natural_infer_iff hf doubled natural_stretched hmem rfl
  obtain rfl := Option.some.inj hshape
  by_contra hno
  exact absurd (hiff.mpr hno) (by decide)

/-- A tensor of 2 ^ 63 elements in each of three rows. -/
def towering : List TensorInfo? := [
  some ⟨some .float32, some [.known 3, .known 4294967296, .known 2147483648]⟩]

/-- Not every resolved shape is free of negative dimensions. -/
theorem negative_towering : ¬ ∀ (op : Text) (opset : Int) (f : Operator) (attrs : Attributes)
    (inputs : List TensorInfo?) (outputs : Int), Registry.standard.lookup op opset = some f →
    (∀ input ∈ inputs, TensorInfo?.Natural input) →
    ∀ result ∈ f.infer attrs inputs outputs, result.outcome = .resolved →
    ∀ shape ∈ result.info.shape, Shape.Natural shape := by
  intro h
  have hf : Registry.standard.lookup "Flatten" 13 = some ⟨ShapeRule.infer Flatten.rule "Flatten", false⟩ := rfl
  have hmem : ⟨.resolved, ⟨some .float32, some [.known 3, .known (-9223372036854775808)]⟩⟩ ∈
      ShapeRule.infer Flatten.rule "Flatten" {} towering 1 := List.mem_singleton_self _
  have hins : ∀ input ∈ towering, TensorInfo?.Natural input := by
    simp only [towering, List.forall_mem_singleton]
    exact TensorInfo?.natural_some (by decide)
  have := h _ _ _ {} towering 1 hf hins _ hmem rfl _ rfl
  exact absurd this (by decide)

end ShapeFlow
