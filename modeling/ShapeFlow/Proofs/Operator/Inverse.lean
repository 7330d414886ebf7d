/-
Transposed convolution undoes convolution. A convolution drops what the steps of its
window leave over of a padded axis. A transposed convolution with the same weights,
strides and padding that is given those remainders as `output_padding` finds the input
again (`transposed_of_convolution`). Sizes wrap around at 64 bits, and still the two
computations cancel: along an axis they are the two sides of a division with remainder.
-/
import Mathlib
import ShapeFlow.Proofs.Inference.Result
import ShapeFlow.Proofs.Operator.Reading

namespace ShapeFlow

open Verdict

/-! ## Along an axis -/

/-- Division with remainder at 64 bits. -/
theorem mul_div_add_mod_word (a b : Int64) : b * (a / b) + a % b = a := by
  have hdiv : Int64.ofInt (a.toInt.tdiv b.toInt) = a / b := by
    rw [Int64.ofInt_tdiv a.minValue_le_toInt a.toInt_le b.minValue_le_toInt b.toInt_le, Int64.ofInt_toInt,
      Int64.ofInt_toInt]
  have hmod : Int64.ofInt (a.toInt.tmod b.toInt) = a % b := by
    rw [Int64.ofInt_tmod a.minValue_le_toInt a.toInt_le b.minValue_le_toInt b.toInt_le, Int64.ofInt_toInt,
      Int64.ofInt_toInt]
  calc b * (a / b) + a % b
      = Int64.ofInt (b.toInt * a.toInt.tdiv b.toInt + a.toInt.tmod b.toInt) := by
        rw [Int64.ofInt_add, Int64.ofInt_mul, hdiv, hmod, Int64.ofInt_toInt]
    _ = a := by rw [Int.mul_tdiv_add_tmod, Int64.ofInt_toInt]

namespace Transposed

variable {size before after kernel stride count : Int64}

/-- Positions of a window that fits. -/
theorem fits_of_positions
    (h : Window.positions (.known size) before after kernel 1 stride = .known count) :
    kernel ≤ size + before + after ∧ (size + before + after - kernel) / stride + 1 = count := by
  have hspan : (kernel - 1) * 1 + 1 = kernel := by grind
  simp only [Window.positions, hspan] at h
  split at h
  · cases h
  · next hfits => exact ⟨Int64.not_lt.mp hfits, Dim.known.inj h⟩

/-- **Along one axis the transposed window covers what the window was moved over.** -/
theorem extent_positions (hsize : 0 ≤ size)
    (h : Window.positions (.known size) before after kernel 1 stride = .known count) :
    extent (.known count) before after kernel stride ((size + before + after - kernel) % stride) =
      .known size := by
  obtain ⟨-, rfl⟩ := fits_of_positions h
  have hcovered : stride * ((size + before + after - kernel) / stride + 1 - 1) +
      (size + before + after - kernel) % stride + kernel - before - after = size := by
    have hdivision := mul_div_add_mod_word (size + before + after - kernel) stride
    grind
  simp only [extent, hcovered]
  rw [if_neg (Int64.not_lt.mpr hsize)]

/-- What the steps leave over is not negative. -/
theorem remainder_nonneg (hkernel : 1 ≤ kernel)
    (h : Window.positions (.known size) before after kernel 1 stride = .known count) :
    0 ≤ (size + before + after - kernel) % stride := by
  obtain ⟨hfits, -⟩ := fits_of_positions h
  generalize size + before + after = room at hfits ⊢
  rw [Int64.le_iff_toInt_le] at hkernel hfits
  rw [Int64.le_iff_toInt_le, Int64.toInt_mod]
  have hone : (1 : Int64).toInt = 1 := rfl
  have hroom := room.toInt_lt
  have hrest : (room - kernel).toInt = room.toInt - kernel.toInt := by
    rw [Int64.toInt_sub, Int.bmod_eq_of_le] <;> omega
  rw [hrest]
  exact Int.tmod_nonneg _ (by omega)

end Transposed

/-! ## Along all axes -/

theorem getD_map_range {α : Type} {f : Nat → α} {n i : Nat} (h : i < n) (d : α) :
    ((List.range n).map f).getD i d = f i := by
  simp [List.getD_eq_getElem?_getD, List.getElem?_range h]

theorem Shape.ofSizes_eq_map_range (sizes : List Int64) :
    Shape.ofSizes sizes = (List.range sizes.length).map fun i => .known (sizes.getD i 0) := by
  refine List.ext_getElem (by simp [Shape.ofSizes]) fun i hi _ => ?_
  have hlt : i < sizes.length := by simpa [Shape.ofSizes] using hi
  simp [Shape.ofSizes, List.getElem?_eq_getElem hlt]

theorem Shape.getD_ofSizes {sizes : List Int64} {i : Nat} (h : i < sizes.length) :
    (Shape.ofSizes sizes).getD i Dim.anonymous = .known (sizes.getD i 0) := by
  rw [Shape.ofSizes_eq_map_range, getD_map_range h]

/-- The axes that a window is moved over, by the number of its positions. -/
def Window.slid (sizes pads strides window : List Int64) : Shape :=
  (List.range sizes.length).map fun i =>
    positions (.known (sizes.getD i 0)) (pads.getD i 0) (pads.getD (i + sizes.length) 0)
      (window.getD i 1) 1 (strides.getD i 1)

/-- What the steps of the window leave over along each axis. -/
def Window.leftOver (sizes pads strides window : List Int64) : List Int64 :=
  (List.range sizes.length).map fun i =>
    (sizes.getD i 0 + pads.getD i 0 + pads.getD (i + sizes.length) 0 - window.getD i 1) %
      strides.getD i 1

theorem Window.length_slid (sizes pads strides window : List Int64) :
    (slid sizes pads strides window).length = sizes.length := by simp [slid]

theorem Window.length_leftOver (sizes pads strides window : List Int64) :
    (leftOver sizes pads strides window).length = sizes.length := by simp [leftOver]

section Axes

variable {sizes pads strides window : List Int64}

/-- Every axis is known, so that its positions have been counted. -/
theorem Window.exists_positions (hknown : ∀ d ∈ slid sizes pads strides window, d.isKnown = true) {i : Nat}
    (hi : i < sizes.length) : ∃ count, positions (.known (sizes.getD i 0)) (pads.getD i 0)
      (pads.getD (i + sizes.length) 0) (window.getD i 1) 1 (strides.getD i 1) = .known count :=
  Dim.isKnown_eq_true.mp (hknown _ (List.mem_map_of_mem (List.mem_range.mpr hi)))

theorem Window.leftOver_nonneg (hwindow : ∀ n ∈ window, 1 ≤ n)
    (hknown : ∀ d ∈ slid sizes pads strides window, d.isKnown = true) :
    ∀ n ∈ leftOver sizes pads strides window, 0 ≤ n := by
  intro n hn
  obtain ⟨i, hi, rfl⟩ := List.mem_map.mp hn
  obtain ⟨count, hcount⟩ := exists_positions hknown (List.mem_range.mp hi)
  exact Transposed.remainder_nonneg (le_getD hwindow Int64.le_rfl i) hcount

/-- **The transposed window covers what the window was moved over**, if it adds what was
left over. -/
theorem Transposed.covered_slid (hsizes : ∀ n ∈ sizes, 0 ≤ n)
    (hknown : ∀ d ∈ Window.slid sizes pads strides window, d.isKnown = true) (batch filters : Dim) :
    covered (batch :: filters :: Window.slid sizes pads strides window) pads strides
      (Window.leftOver sizes pads strides window) sizes.length window = Shape.ofSizes sizes := by
  rw [covered, Shape.ofSizes_eq_map_range]
  refine List.map_congr_left fun i hi => ?_
  have hi := List.mem_range.mp hi
  obtain ⟨count, hcount⟩ := Window.exists_positions hknown hi
  rw [Nat.add_comm 2 i, List.getD_cons_succ, List.getD_cons_succ, Window.slid, Window.leftOver,
    getD_map_range hi, getD_map_range hi, hcount]
  exact extent_positions (le_getD hsizes Int64.le_rfl i) hcount

end Axes

/-! ## What both rules read -/

section Reading

variable {attrs attrs' : Attributes} {name : Text} {length axes : Nat} {fill least : Int64}
  {values : List Int64}

/-- The integers of a list attribute, none if it is not there. -/
def Attributes.intsOf (attrs : Attributes) (name : Text) : List Int64 :=
  match attrs.get? name with
  | some (.ints values) => values
  | _ => []

theorem spatialOr_congr (h : attrs'.get? name = attrs.get? name) :
    spatialOr attrs' name length fill least = spatialOr attrs name length fill least := by
  simp only [spatialOr, Attributes.spatial?, Attributes.ints?, h]

/-- The values that are read are those of the attribute, and the value that stands in
for them elsewhere. -/
theorem getD_of_spatialOr (h : spatialOr attrs name length fill least = .done values) (i : Nat) :
    values.getD i fill = (attrs.intsOf name).getD i fill := by
  obtain ⟨given, hgiven, rfl, -⟩ := spatialOr_eq_done.mp h
  rcases Attributes.spatial?_eq_ok.mp hgiven with ⟨hnone, rfl⟩ | ⟨values, hvalues, -, rfl⟩
  · simp [Attributes.intsOf, hnone, List.getD_eq_getElem?_getD, List.getElem?_replicate]
    split <;> rfl
  · simp [Attributes.intsOf, hvalues]

theorem spatialIfGiven_of_absent (h : attrs.get? name = none) :
    spatialIfGiven attrs name length least = .done none :=
  spatialIfGiven_eq_done.mpr ⟨Attributes.spatial?_eq_ok.mpr (.inl ⟨h, rfl⟩), by simp⟩

theorem oneGroup_of_absent (h : attrs.get? "group" = none) : oneGroup attrs = .done () := by
  simp [oneGroup, Attributes.int?, h, ofAttribute, abstainIf]

/-- Without an attribute the window of a convolution is that of the weights. -/
theorem Window.kernel_of_absent {weights : Shape} (h : attrs.get? "kernel_shape" = none)
    (hkernel : Window.kernel attrs (some weights) axes = .done values) :
    Window.kernelOfWeights weights axes = .done values := by
  obtain ⟨given, hgiven, hkernel⟩ := bind_eq_done.mp hkernel
  rcases Attributes.spatial?_eq_ok.mp (ofAttribute_eq_done.mp hgiven) with ⟨-, rfl⟩ | ⟨_, hvalues, -⟩
  · simp only [bind_eq_done, pure_eq_done] at hkernel
    obtain ⟨_, hweights, -, -, rfl⟩ := hkernel
    exact hweights
  · rw [h] at hvalues
    cases hvalues

theorem Window.kernelOfWeights_eq_done {filters channels : Dim} {kernel : Shape} :
    Window.kernelOfWeights (filters :: channels :: kernel) kernel.length = .done values ↔
      kernel = Shape.ofSizes values := by
  have hdrop : (filters :: channels :: kernel).length - kernel.length = 2 := by
    simp only [List.length_cons]
    omega
  simp only [Window.kernelOfWeights, bind_eq_done, invalidIf_eq_done, need_eq_done, Shape.sizes?_eq_some,
    hdrop, List.drop_succ_cons, List.drop_zero]
  constructor
  · rintro ⟨-, -, h⟩
    exact h
  · intro h
    exact ⟨(), decide_eq_false (by simp only [List.length_cons]; omega), h⟩

/-- The window of a transposed convolution is that of the weights too. -/
theorem Transposed.kernel_of_weights {weights : Shape} (hrank : axes + 2 ≤ weights.length)
    (h : Window.kernelOfWeights weights axes = .done values) (hleast : ∀ n ∈ values, 1 ≤ n) :
    Transposed.kernel none weights axes = .done values := by
  simp only [Transposed.kernel, bind_eq_done, invalidIf_eq_done, ofAttribute_eq_done, checkMinimum_eq_ok,
    pure_eq_done]
  exact ⟨(), decide_eq_false (Nat.not_lt.mpr hrank), values, h, (), hleast, rfl⟩

end Reading

/-! ## Plain convolutions -/

/-- There are no attributes but strides and padding. -/
def Plain (attrs : Attributes) : Prop := ∀ name ∈ attrs.keys, name = "strides" ∨ name = "pads"

theorem Plain.absent {attrs : Attributes} (h : Plain attrs) {name : Text} (hstrides : name ≠ "strides")
    (hpads : name ≠ "pads") : attrs.get? name = none :=
  Dict.lookup_eq_none.mpr fun hname => (h name hname).elim hstrides hpads

section Plain

variable {attrs : Attributes} {element weightsElement : Option ElementType} {batch channels filters : Dim}
  {sizes pads strides extra window : List Int64} {kernel spatial shape : Shape}

/-- The shape of a plain convolution is computed from the padding, the strides and the
window of the weights. -/
theorem Plain.convolution (hattrs : Plain attrs) (hkernel : kernel.length = sizes.length)
    (hdone : Window.rule .convolution attrs
      [some ⟨element, some (batch :: channels :: Shape.ofSizes sizes)⟩,
        some ⟨weightsElement, some (filters :: channels :: kernel)⟩] = .done shape) :
    ∃ pads strides window,
      spatialOr attrs "pads" (2 * sizes.length) 0 0 = .done pads ∧
      spatialOr attrs "strides" sizes.length 1 1 = .done strides ∧
      kernel = Shape.ofSizes window ∧ (∀ n ∈ window, 1 ≤ n) ∧
      shape = batch :: filters :: Window.slid sizes pads strides window := by
  obtain ⟨⟨input, weights, dilations, pads, strides, window⟩, h, rfl⟩ := Window.rule_eq_done.mp hdone
  obtain rfl : _ = input := Option.some.inj h.input
  obtain rfl : _ = weights := done_inj.mp h.weights
  have haxes : (batch :: channels :: Shape.ofSizes sizes).length - 2 = sizes.length := by
    simp [Shape.ofSizes]
  have hpads := h.pads
  have hstrides := h.strides
  have hdilations := h.dilations
  have hread := Window.kernel_of_absent (hattrs.absent (by decide) (by decide)) h.kernel
  simp only [Window.Operands.axes, haxes, Window.dilations] at hpads hstrides hdilations hread
  rw [← hkernel, Window.kernelOfWeights_eq_done] at hread
  -- there is no attribute to set the places of the window apart
  have hdense : ∀ i, dilations.getD i 1 = 1 := by
    intro i
    rw [getD_of_spatialOr hdilations, Attributes.intsOf, hattrs.absent (by decide) (by decide)]
    rfl
  refine ⟨pads, strides, window, hpads, hstrides, hread, Window.kernel_least h.kernel, ?_⟩
  simp only [Window.Operands.output, Window.Operands.axes, haxes, List.getD_cons_zero, Window.channels,
    Window.slid, List.cons.injEq, true_and]
  refine List.map_congr_left fun i hi => ?_
  simp only [Window.Operands.along, Window.Operands.axes, haxes, hdense]
  rw [Nat.add_comm 2 i, List.getD_cons_succ, List.getD_cons_succ, Shape.getD_ofSizes (List.mem_range.mp hi)]

/-- The shape of a transposed convolution that is plain but for the padding of its
output. -/
theorem Plain.transposed (hattrs : Plain attrs) (hlength : window.length = spatial.length)
    (hwindow : ∀ n ∈ window, 1 ≤ n)
    (hpads : spatialOr attrs "pads" (2 * spatial.length) 0 0 = .done pads)
    (hstrides : spatialOr attrs "strides" spatial.length 1 1 = .done strides)
    (hextra : extra.length = spatial.length) (hleast : ∀ n ∈ extra, 0 ≤ n) :
    Transposed.rule (attrs.insert "output_padding" (.ints extra))
      [some ⟨element, some (batch :: filters :: spatial)⟩,
        some ⟨weightsElement, some (filters :: channels :: Shape.ofSizes window)⟩] =
      .done (batch :: channels :: Transposed.covered (batch :: filters :: spatial) pads strides extra
        spatial.length window) := by
  have hsame : ∀ name : Text, name ≠ "output_padding" →
      (attrs.insert "output_padding" (.ints extra)).get? name = attrs.get? name := fun name hname =>
    Dict.get?_insert_other attrs hname _
  have habsent : ∀ name : Text, name ≠ "output_padding" → name ≠ "strides" → name ≠ "pads" →
      (attrs.insert "output_padding" (.ints extra)).get? name = none := fun name hname hs hp =>
    (hsame name hname).trans (hattrs.absent hs hp)
  have hnot : ∀ name : Text, name ≠ "output_padding" → name ≠ "strides" → name ≠ "pads" →
      (attrs.insert "output_padding" (.ints extra)).contains name = false := fun name hname hs hp => by
    rw [Dict.contains, habsent name hname hs hp]
    rfl
  have hkernel : Transposed.kernel none (filters :: channels :: Shape.ofSizes window) spatial.length =
      .done window := by
    have hsizes : (Shape.ofSizes window).length = spatial.length := by simp [Shape.ofSizes, hlength]
    refine Transposed.kernel_of_weights (by simp [hsizes]) ?_ hwindow
    rw [← hsizes]
    exact Window.kernelOfWeights_eq_done.mpr rfl
  refine Transposed.rule_eq_done.mpr ⟨⟨batch :: filters :: spatial,
    filters :: channels :: Shape.ofSizes window, pads, strides, none, none, extra⟩, ?_, _, ?_, rfl⟩
  · exact {
      input := rfl
      weights := rfl
      modern := hnot "auto_pad" (by decide) (by decide) (by decide)
      rank := by simp
      group := oneGroup_of_absent (habsent "group" (by decide) (by decide) (by decide))
      dense := hnot "dilations" (by decide) (by decide) (by decide)
      pads := (spatialOr_congr (hsame "pads" (by decide))).trans hpads
      strides := (spatialOr_congr (hsame "strides" (by decide))).trans hstrides
      window := spatialIfGiven_of_absent (habsent "kernel_shape" (by decide) (by decide) (by decide))
      targets := spatialIfGiven_of_absent (habsent "output_shape" (by decide) (by decide) (by decide))
      extra := spatialOr_eq_done.mpr ⟨some extra, Attributes.spatial?_eq_ok.mpr
        (.inr ⟨extra, Dict.get?_insert_self attrs _ _, hextra, rfl⟩), rfl, hleast⟩
      channels := by simp }
  · exact map_eq_done.mpr ⟨window, hkernel, rfl⟩

end Plain

/-! ## The inverse -/

/-- What a convolution with these strides and padding leaves over along each axis. -/
def remainders (attrs : Attributes) (sizes kernel : List Int64) : List Int64 :=
  Window.leftOver sizes (attrs.intsOf "pads") (attrs.intsOf "strides") kernel

/-- **A transposed convolution undoes a convolution** of which every axis came out known. -/
theorem transposed_of_convolution {attrs : Attributes} (hattrs : Plain attrs)
    {element weightsElement : Option ElementType} {batch channels filters : Dim} {sizes : List Int64}
    {kernel : Shape} {output : TensorInfo}
    (hsizes : ∀ n ∈ sizes, 0 ≤ n) (hkernel : kernel.length = sizes.length)
    (hresult : (Window.rule .convolution).first "Conv" attrs
      [some ⟨element, some (batch :: channels :: Shape.ofSizes sizes)⟩,
        some ⟨weightsElement, some (filters :: channels :: kernel)⟩] = ⟨.resolved, output⟩)
    (hknown : ∀ shape ∈ output.shape, ∀ d ∈ shape.drop 2, d.isKnown = true) :
    Transposed.rule.first "ConvTranspose"
      (attrs.insert "output_padding" (.ints (remainders attrs sizes (kernel.filterMap Dim.size?))))
      [some output, some ⟨weightsElement, some (filters :: channels :: kernel)⟩] =
        ⟨.resolved, ⟨element, some (batch :: channels :: Shape.ofSizes sizes)⟩⟩ := by
  obtain ⟨shape, hdone, rfl⟩ := ShapeRule.first_eq_resolved.mp hresult
  obtain ⟨pads, strides, window, hpads, hstrides, rfl, hwindow, rfl⟩ := hattrs.convolution hkernel hdone
  have hsized : (Shape.ofSizes window).filterMap Dim.size? = window := by
    simp [Shape.ofSizes, List.filterMap_map, Function.comp_def, Dim.size?]
  have hremainders : remainders attrs sizes window = Window.leftOver sizes pads strides window := by
    simp only [remainders, Window.leftOver, getD_of_spatialOr hpads, getD_of_spatialOr hstrides]
  have hlength : window.length = sizes.length := by simpa [Shape.ofSizes] using hkernel
  have hextra := Window.length_leftOver sizes pads strides window
  have hslid : ∀ d ∈ Window.slid sizes pads strides window, d.isKnown = true := hknown _ rfl
  have hcovered := Transposed.covered_slid hsizes hslid batch filters
  rw [← Window.length_slid sizes pads strides window] at hpads hstrides hlength hextra hcovered
  rw [hsized, hremainders, ← hcovered]
  exact ShapeRule.first_eq_resolved.mpr ⟨_, hattrs.transposed hlength hwindow hpads hstrides hextra
    (Window.leftOver_nonneg hwindow hslid), rfl⟩

/-- A window that leaves one place of each axis over. -/
theorem transposed_of_convolution_strided :
    let attrs : Attributes := ⟨[("strides", .ints [2, 3]), ("pads", .ints [1, 0, 2, 1])]⟩
    let kernel : Shape := [.known 3, .known 2]
    let input : TensorInfo := ⟨some .float32, some (.unknown "N" :: .known 3 :: Shape.ofSizes [7, 11])⟩
    let weights : TensorInfo := ⟨some .float32, some (.known 8 :: .known 3 :: kernel)⟩
    let output : TensorInfo := ⟨some .float32, some [.unknown "N", .known 8, .known 4, .known 4]⟩
    remainders attrs [7, 11] (kernel.filterMap Dim.size?) = [1, 1] ∧
      (Window.rule .convolution).first "Conv" attrs [some input, some weights] = ⟨.resolved, output⟩ ∧
      Transposed.rule.first "ConvTranspose"
        (attrs.insert "output_padding" (.ints (remainders attrs [7, 11] (kernel.filterMap Dim.size?))))
        [some output, some weights] = ⟨.resolved, input⟩ := by
  intro attrs kernel input weights output
  have hattrs : Plain attrs := show ∀ name ∈ attrs.keys, _ by decide
  have hresult : (Window.rule .convolution).first "Conv" attrs [some input, some weights] =
      ⟨.resolved, output⟩ := by cbv
  have hsizes : ∀ n ∈ [(7 : Int64), 11], 0 ≤ n := by
    simp only [List.forall_mem_cons, List.not_mem_nil, false_implies, implies_true, and_true]
    decide
  have hknown : ∀ shape ∈ output.shape, ∀ d ∈ shape.drop 2, d.isKnown = true := by
    rintro _ ⟨⟩
    decide
  exact ⟨by decide, hresult, transposed_of_convolution hattrs hsizes rfl hresult hknown⟩

end ShapeFlow
