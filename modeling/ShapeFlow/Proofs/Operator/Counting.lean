/-
Sliding windows count their positions. Along a spatial axis a window that was moved by `p`
strides ends at place `p * stride + span` of the padded axis, where `span` is the length of
the window with the gaps that dilation makes. The output of a convolution or a pooling
operator has, along that axis, the number of positions at which the window ends within the
axis, or is unknown if there is none or the axis is unknown (`counted_infer`). The padded
axis and the window have to fit into 64 bits; the number of positions then does.
-/
import Mathlib
import ShapeFlow.Proofs.Operator.Natural

namespace ShapeFlow

open Verdict

/-- The operators that slide a window. -/
def WindowKind.ops : WindowKind → List Text
  | .convolution => ["Conv"]
  | .pooling => ["AveragePool", "MaxPool", "LpPool"]

/-- A list attribute has the value at a place, or there is no such attribute and the value
is the one that stands in for it. -/
def Attributes.Gives (attrs : Attributes) (name : Text) (fill : Int64) (i : Nat) (n : Int64) : Prop :=
  attrs.get? name = none ∧ n = fill ∨
    ∃ values, attrs.get? name = some (.ints values) ∧ values[i]? = some n

namespace Window

/-- How a window slides along one axis. -/
structure Slide where
  kernel : Int64
  dilation : Int64
  stride : Int64
  before : Int64
  after : Int64

namespace Slide

/-- The positions of the window, counted in strides, at which it ends within the padded
axis. -/
def fitting (w : Slide) (size : Int64) : Set ℕ :=
  {p | p * w.stride.toInt + span w.kernel w.dilation ≤ room size w.before w.after}

/-- The padded axis and the window can be measured with 64 bits. -/
structure Fits (w : Slide) (size : Int64) : Prop where
  room : -2 ^ 63 ≤ room size w.before w.after ∧ room size w.before w.after < 2 ^ 63
  span : -2 ^ 63 ≤ span w.kernel w.dilation ∧ span w.kernel w.dilation < 2 ^ 63

/-- An output axis is the number of positions along an input axis. -/
structure Counts (w : Slide) (axis output : Dim) : Prop where
  unknown : axis.isKnown = false → output = .anonymous
  known : ∀ size, axis = .known size → w.Fits size → ∃ count : ℕ,
    (w.fitting size).encard = count ∧
    (0 < count → ∃ n : Int64, output = .known n ∧ n.toInt = count) ∧
    (count = 0 → output = .anonymous)

/-- The window slides as the attributes and the weights of a node say, along the i-th of so
many axes. Pads are those before every axis, then those after; pooling knows no dilation. -/
structure At (w : Slide) (kind : WindowKind) (attrs : Attributes) (weights : Shape?) (axes i : Nat) :
    Prop where
  kernel : (∃ values, attrs.get? "kernel_shape" = some (.ints values) ∧ values[i]? = some w.kernel) ∨
    kind = .convolution ∧ attrs.get? "kernel_shape" = none ∧ ∃ s, weights = some s ∧
      axes ≤ s.length ∧ s[s.length - axes + i]? = some (.known w.kernel)
  dilation : kind = .convolution ∧ attrs.Gives "dilations" 1 i w.dilation ∨
    kind = .pooling ∧ w.dilation = 1
  stride : attrs.Gives "strides" 1 i w.stride
  before : attrs.Gives "pads" 0 i w.before
  after : attrs.Gives "pads" 0 (i + axes) w.after

end Slide

/-- The output shape counts windows: its batch is that of the input, its channels are the
filters of a convolution, else those of the input. -/
structure Counted (kind : WindowKind) (attrs : Attributes) (input : Shape) (weights : Shape?)
    (output : Shape) : Prop where
  rank : 2 ≤ input.length ∧ output.length = input.length
  batch : output[0]? = input[0]?
  channels : kind = .convolution ∧ (∃ s, weights = some s ∧ output[1]? = s[0]?) ∨
    kind = .pooling ∧ output[1]? = input[1]?
  axes : ∀ i, i < input.length - 2 → ∃ w : Slide, w.At kind attrs weights (input.length - 2) i ∧
    ∃ a b, input[2 + i]? = some a ∧ output[2 + i]? = some b ∧ w.Counts a b

/-! ## Along an axis -/

section Axis

variable {w : Slide} {size : Int64}

/-- The positions at which the window fits are the first ones. -/
theorem Slide.fitting_eq (hs : 1 ≤ w.stride) :
    w.fitting size = Set.Iio (if room size w.before w.after < span w.kernel w.dilation then 0
      else ((room size w.before w.after - span w.kernel w.dilation) / w.stride.toInt + 1).toNat) := by
  have hs : 1 ≤ w.stride.toInt := Int64.le_iff_toInt_le.mp hs
  ext p
  simp only [Slide.fitting, Set.mem_ofPred_eq, Set.mem_Iio]
  generalize room size w.before w.after = r
  generalize span w.kernel w.dilation = k
  have hp : 0 ≤ (p : Int) * w.stride.toInt := Int.mul_nonneg (by omega) (by omega)
  split
  · omega
  · next hfits =>
    have hsteps : (p : Int) ≤ (r - k) / w.stride.toInt ↔ p * w.stride.toInt ≤ r - k :=
      Int.le_ediv_iff_mul_le (by omega)
    have hq : 0 ≤ (r - k) / w.stride.toInt := Int.ediv_nonneg (by omega) (by omega)
    omega

theorem Slide.encard_fitting (hs : 1 ≤ w.stride) :
    (w.fitting size).encard = (if room size w.before w.after < span w.kernel w.dilation then 0
      else ((room size w.before w.after - span w.kernel w.dilation) / w.stride.toInt + 1).toNat : ℕ) := by
  rw [fitting_eq hs, ← Finset.coe_range, Set.encard_coe_eq_coe_finsetCard, Finset.card_range]

/-- A window that fits is moved on as often as the stride goes into what is left of the
axis, and 64 bits count that. -/
theorem Slide.toInt_steps (hk : 1 ≤ w.kernel) (hd : 1 ≤ w.dilation) (hs : 1 ≤ w.stride)
    (hfits : w.Fits size) (hle : span w.kernel w.dilation ≤ room size w.before w.after) :
    ((size + w.before + w.after - ((w.kernel - 1) * w.dilation + 1)) / w.stride + 1).toInt =
      (room size w.before w.after - span w.kernel w.dilation) / w.stride.toInt + 1 := by
  have hs : 1 ≤ w.stride.toInt := Int64.le_iff_toInt_le.mp hs
  have hs' := w.stride.toInt_lt
  have hspan := one_le_span hk hd
  have hroom := hfits.room
  have hleft : (size + w.before + w.after - ((w.kernel - 1) * w.dilation + 1)).toInt =
      room size w.before w.after - span w.kernel w.dilation := by
    rw [Int64.toInt_sub, toInt_room, toInt_span, wrap_of_fits hroom.1 hroom.2,
      wrap_of_fits hfits.span.1 hfits.span.2, Int.bmod_eq_of_le] <;> omega
  generalize room size w.before w.after = r at hle hleft hroom ⊢
  generalize span w.kernel w.dilation = k at hle hleft hspan ⊢
  have hq : 0 ≤ (r - k) / w.stride.toInt := Int.ediv_nonneg (by omega) (by omega)
  have hq' : (r - k) / w.stride.toInt ≤ r - k := Int.ediv_le_self _ (by omega)
  have hdiv : ((size + w.before + w.after - ((w.kernel - 1) * w.dilation + 1)) / w.stride).toInt =
      (r - k) / w.stride.toInt := by
    rw [Int64.toInt_div, hleft, Int.tdiv_eq_ediv_of_nonneg (by omega), Int.bmod_eq_of_le] <;> omega
  rw [Int64.toInt_add, hdiv, Int64.toInt_one, Int.bmod_eq_of_le] <;> omega

/-- **Along one axis the positions are counted.** -/
theorem Slide.counts_positions (hk : 1 ≤ w.kernel) (hd : 1 ≤ w.dilation) (hs : 1 ≤ w.stride) (axis : Dim) :
    w.Counts axis (positions axis w.before w.after w.kernel w.dilation w.stride) := by
  refine ⟨fun hunknown => ?_, ?_⟩
  · cases axis with
    | known size => cases hunknown
    | unknown name => rfl
  · rintro size rfl hfits
    have hless : size + w.before + w.after < (w.kernel - 1) * w.dilation + 1 ↔
        room size w.before w.after < span w.kernel w.dilation := by
      rw [Int64.lt_iff_toInt_lt, toInt_room, toInt_span, wrap_of_fits hfits.room.1 hfits.room.2,
        wrap_of_fits hfits.span.1 hfits.span.2]
    refine ⟨_, encard_fitting hs, ?_⟩
    simp only [positions, hless]
    split
    · exact ⟨fun hpos => absurd hpos (Nat.lt_irrefl 0), fun _ => rfl⟩
    · next hle =>
      have hsteps := toInt_steps hk hd hs hfits (Int.not_lt.mp hle)
      have hq : 0 ≤ (room size w.before w.after - span w.kernel w.dilation) / w.stride.toInt :=
        Int.ediv_nonneg (by omega) (Int.le_trans (by decide) (Int64.le_iff_toInt_le.mp hs))
      refine ⟨fun _ => ⟨_, rfl, ?_⟩, fun hzero => ?_⟩
      · rw [hsteps, Int.toNat_of_nonneg (by omega)]
      · omega

end Axis

/-! ## What is read of the node -/

section Reading

variable {attrs : Attributes} {name : Text} {length axes i : Nat} {fill least : Int64}
  {values : List Int64}

theorem gives_of_spatialOr (h : spatialOr attrs name length fill least = .done values) (hi : i < length) :
    attrs.Gives name fill i (values.getD i fill) := by
  obtain ⟨given, hgiven, rfl, -⟩ := spatialOr_eq_done.mp h
  rcases Attributes.spatial?_eq_ok.mp hgiven with ⟨hnone, rfl⟩ | ⟨values, hvalues, hlength, rfl⟩
  · exact .inl ⟨hnone, by simp [List.getD_eq_getElem?_getD, hi]⟩
  · refine .inr ⟨values, hvalues, ?_⟩
    simp [List.getElem?_eq_getElem (hlength ▸ hi)]

theorem kernelOfWeights_getElem? {weights : Shape} (h : kernelOfWeights weights axes = .done values)
    (hi : i < axes) : axes ≤ weights.length ∧
      weights[weights.length - axes + i]? = some (.known (values.getD i 1)) := by
  have hlength := length_kernelOfWeights h
  simp only [kernelOfWeights, bind_eq_done, invalidIf_eq_done, need_eq_done, Shape.sizes?_eq_some] at h
  obtain ⟨-, hrank, hsizes⟩ := h
  have hrank := Nat.le_of_not_lt (of_decide_eq_false hrank)
  refine ⟨by omega, ?_⟩
  rw [← List.getElem?_drop, hsizes, Shape.ofSizes, List.getElem?_map]
  simp [List.getElem?_eq_getElem (hlength ▸ hi)]

end Reading

namespace Operands

/-- How the window slides along a spatial axis. -/
def slide (o : Operands) (i : Nat) : Slide where
  kernel := o.kernel.getD i 1
  dilation := o.dilations.getD i 1
  stride := o.strides.getD i 1
  before := o.pads.getD i 0
  after := o.pads.getD (i + o.axes) 0

namespace ReadFrom

variable {o : Operands} {kind : WindowKind} {attrs : Attributes} {inputs : List TensorInfo?}
  (h : o.ReadFrom kind attrs inputs) {i : Nat}
include h

/-- Only a convolution reads weights. -/
theorem weights_eq : kind = .convolution ∧ o.weights = inputShape? inputs 1 ∨
    kind = .pooling ∧ o.weights = none := by
  have hweights := h.weights
  cases kind with
  | pooling => exact .inr ⟨rfl, (done_inj.mp hweights).symm⟩
  | convolution =>
    obtain ⟨s, hs, hweights⟩ := bind_eq_done.mp hweights
    rw [need_eq_done.mp hs]
    exact .inl ⟨rfl, (pure_eq_done.mp hweights).symm⟩

theorem slide_at (hi : i < o.axes) : (o.slide i).At kind attrs (inputShape? inputs 1) o.axes i := by
  refine ⟨?_, ?_, gives_of_spatialOr h.strides hi, gives_of_spatialOr h.pads (by omega),
    gives_of_spatialOr h.pads (by omega)⟩
  · rcases kernel_eq_done h.kernel with ⟨hvalues, hlength⟩ | ⟨hnone, s, hs, hkernel⟩
    · exact .inl ⟨o.kernel, hvalues, by simp [slide, List.getElem?_eq_getElem (hlength ▸ hi)]⟩
    · rcases h.weights_eq with ⟨hkind, hweights⟩ | ⟨-, hweights⟩
      · exact .inr ⟨hkind, hnone, s, by rw [← hweights, hs], kernelOfWeights_getElem? hkernel hi⟩
      · rw [hs] at hweights
        cases hweights
  · have hdilations := h.dilations
    cases kind with
    | convolution => exact .inl ⟨rfl, gives_of_spatialOr hdilations hi⟩
    | pooling =>
      refine .inr ⟨rfl, ?_⟩
      simp [slide, ← done_inj.mp hdilations, List.getD_eq_getElem?_getD, hi]

theorem counts_along : (o.slide i).Counts (o.input.getD (2 + i) Dim.anonymous) (o.along i) := by
  obtain ⟨-, -, -, hstrides⟩ := spatialOr_eq_done.mp h.strides
  have hk : 1 ≤ (o.slide i).kernel := le_getD (kernel_least h.kernel) Int64.le_rfl i
  have hd : 1 ≤ (o.slide i).dilation := le_getD (dilations_least h.dilations) Int64.le_rfl i
  have hs : 1 ≤ (o.slide i).stride := le_getD hstrides Int64.le_rfl i
  exact Slide.counts_positions hk hd hs _

/-- **The output of a window counts its positions.** -/
theorem counted : Counted kind attrs o.input (inputShape? inputs 1) o.output := by
  have hrank := h.rank
  have haxis : ∀ i < o.input.length, o.input[i]? = some (o.input.getD i Dim.anonymous) := fun i hi => by
    simp [List.getElem?_eq_getElem hi]
  refine ⟨⟨hrank, ?_⟩, (haxis 0 (by omega)).symm, ?_, fun i hi => ?_⟩
  · simp only [output, axes, List.length_cons, List.length_map, List.length_range]
    omega
  · rcases h.weights_eq with ⟨hkind, hweights⟩ | ⟨hkind, hweights⟩
    · have hfilters := h.filters
      refine .inl ⟨hkind, ?_⟩
      cases hs : o.weights with
      | none =>
        obtain ⟨_, -, hnone⟩ := bind_eq_done.mp (hkind ▸ h.weights)
        rw [hs] at hnone
        cases hnone
      | some s =>
        cases s with
        | nil => exact absurd hs hfilters
        | cons d s => exact ⟨d :: s, by rw [← hweights, hs], by simp [output, channels, hs]⟩
    · exact .inr ⟨hkind, by rw [haxis 1 (by omega), output, hweights]; rfl⟩
  · refine ⟨o.slide i, h.slide_at hi, _, o.along i, haxis (2 + i) (by omega), ?_, h.counts_along⟩
    simp [output, Nat.add_comm 2 i, List.getElem?_range (show i < o.axes from hi)]

end ReadFrom

end Operands

/-- The standard rules of the operators that slide a window. -/
theorem map_rule_ops (kind : WindowKind) : ∃ count,
    (Registry.standardRules.filter (·.1 ∈ kind.ops)).map (·.2.2) = List.replicate count (rule kind) := by
  cases kind with
  | convolution => exact ⟨1, rfl⟩
  | pooling => exact ⟨5, rfl⟩

theorem eq_rule_of_ops {kind : WindowKind} {op : Text} (hop : op ∈ kind.ops) {since : Int} {r : ShapeRule}
    (h : (op, since, r) ∈ Registry.standardRules) : r = rule kind := by
  obtain ⟨count, hrules⟩ := map_rule_ops kind
  have hmem : r ∈ (Registry.standardRules.filter (·.1 ∈ kind.ops)).map (·.2.2) :=
    List.mem_map.mpr ⟨_, List.mem_filter.mpr ⟨h, decide_eq_true hop⟩, rfl⟩
  rw [hrules] at hmem
  exact List.eq_of_mem_replicate hmem

/-- **A resolved window operator of the standard registry counts the positions of its
window.** -/
theorem counted_infer {kind : WindowKind} {op : Text} (hop : op ∈ kind.ops) {opset : Int} {f : Operator}
    (hf : Registry.standard.lookup op opset = some f) {attrs : Attributes} {inputs : List TensorInfo?}
    {outputs : Int} {result : OutputResult} (hmem : result ∈ f.infer attrs inputs outputs)
    (hresolved : result.outcome = .resolved) :
    ∃ input output, inputShape? inputs 0 = some input ∧ result.info.shape = some output ∧
      Counted kind attrs input (inputShape? inputs 1) output := by
  obtain ⟨since, r, hrule, rfl⟩ := Registry.lookup_standard hf
  obtain rfl := eq_rule_of_ops hop hrule
  obtain ⟨output, hdone, hshape⟩ := ShapeRule.done_of_resolved hmem hresolved
  obtain ⟨o, hread, rfl⟩ := rule_eq_done.mp hdone
  exact ⟨o.input, o.output, hread.input, hshape, hread.counted⟩

/-- A window of three axes: more padding after the axis than before it, a dilation that
makes the window fit exactly, and an axis of unknown length. -/
def skewed : Attributes := ⟨[("strides", .ints [2, 3, 1]), ("pads", .ints [1, 0, 0, 2, 1, 0]),
  ("dilations", .ints [1, 2, 1])]⟩

theorem counted_skewed :
    let input : Shape := [.unknown "N", .known 3, .known 7, .known 11, .unknown "L"]
    let weights : Shape := [.known 8, .known 3, .known 3, .known 2, .known 2]
    let output : Shape := [.unknown "N", .known 8, .known 4, .known 4, .anonymous]
    ∃ f, Registry.standard.lookup "Conv" 11 = some f ∧ Text.ofString "Conv" ∈ WindowKind.convolution.ops ∧
      ⟨.resolved, ⟨some .float32, some output⟩⟩ ∈
        f.infer skewed [some ⟨some .float32, some input⟩, some ⟨none, some weights⟩] 1 ∧
      Counted .convolution skewed input (some weights) output := by
  intro input weights output
  have hop : Text.ofString "Conv" ∈ WindowKind.convolution.ops := List.mem_singleton_self _
  have hf : Registry.standard.lookup "Conv" 11 =
      some ⟨ShapeRule.infer (rule .convolution) "Conv", false⟩ := rfl
  have hresults : ShapeRule.infer (rule .convolution) "Conv" skewed
      [some ⟨some .float32, some input⟩, some ⟨none, some weights⟩] 1 =
        [⟨.resolved, ⟨some .float32, some output⟩⟩] := by cbv
  have hmem : ⟨.resolved, ⟨some .float32, some output⟩⟩ ∈
      Operator.infer ⟨ShapeRule.infer (rule .convolution) "Conv", false⟩ skewed
        [some ⟨some .float32, some input⟩, some ⟨none, some weights⟩] 1 := by
    simp only [hresults, List.mem_singleton]
  refine ⟨_, hf, hop, hmem, ?_⟩
  obtain ⟨input', output', hinput, houtput, hcounted⟩ := counted_infer hop hf hmem rfl
  obtain rfl : input = input' := Option.some.inj hinput
  obtain rfl : output = output' := Option.some.inj houtput
  exact hcounted

end Window

end ShapeFlow
