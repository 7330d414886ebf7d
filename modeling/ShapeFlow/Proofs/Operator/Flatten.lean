/-
Flattening keeps what a tensor holds. The matrix that it resolves to has as many elements and
bytes as the input, counted in 64 bits that wrap around, whatever the rank and the axis that it
is cut at (`flattened_infer`): the count of a list of sizes is the product of the counts of its
two parts. A side of the matrix is unknown just when one of its factors is.
-/
import Mathlib
import ShapeFlow.Proofs.Inference.Result
import ShapeFlow.Proofs.Operator.Reading
import ShapeFlow.Registry

namespace ShapeFlow

/-! ## Products of sizes -/

namespace Shape

theorem foldl_mul (n : Int64) (sizes : List Int64) : sizes.foldl (· * ·) n = n * count sizes := by
  unfold count
  induction sizes generalizing n with
  | nil => simp
  | cons m sizes ih =>
    rw [List.foldl_cons, List.foldl_cons, ih, ih (1 * m), Int64.one_mul, Int64.mul_assoc]

theorem count_cons (n : Int64) (sizes : List Int64) : count (n :: sizes) = n * count sizes := by
  rw [count, List.foldl_cons, Int64.one_mul, foldl_mul]

/-- The elements of a tensor are counted by parts. -/
theorem count_append (sizes more : List Int64) : count (sizes ++ more) = count sizes * count more := by
  rw [count, List.foldl_append, foldl_mul, ← count]

/-- The sizes are there when every dimension is known. -/
theorem isSome_sizes? (s : Shape) : (sizes? s).isSome = isFullyKnown s := by
  induction s with
  | nil => rfl
  | cons d s ih =>
    cases d with
    | unknown name => rfl
    | known n =>
      simp only [sizes?, isFullyKnown, List.mapM_cons, List.all_cons] at ih ⊢
      rw [← ih]
      cases List.mapM Dim.size? s <;> rfl

theorem isFullyKnown_eq_false {s : Shape} : isFullyKnown s = false ↔ ∃ d ∈ s, d.isKnown = false := by
  simp [isFullyKnown]

end Shape

namespace Dim

/-- The dimension is the product of others: unknown, without a name, just when one of them is
unknown, and else their product in 64 bits. -/
structure IsProduct (d : Dim) (factors : Shape) : Prop where
  unknown : d = anonymous ↔ ∃ f ∈ factors, f.isKnown = false
  known : ∀ sizes, factors = Shape.ofSizes sizes → d = .known (Shape.count sizes)

theorem product_ofSizes (sizes : List Int64) : product (Shape.ofSizes sizes) = .known (Shape.count sizes) := by
  induction sizes with
  | nil => rfl
  | cons n sizes ih =>
    rw [Shape.count_cons]
    simp only [Shape.ofSizes, List.map_cons, product] at ih ⊢
    rw [ih]

/-- A product is known when every factor is, and has no name when it is not. -/
theorem isKnown_product (factors : Shape) : (product factors).isKnown = Shape.isFullyKnown factors ∧
    ((product factors).isKnown = false → product factors = anonymous) := by
  induction factors with
  | nil => exact ⟨rfl, nofun⟩
  | cons f factors ih =>
    cases f with
    | unknown name => exact ⟨rfl, fun _ => rfl⟩
    | known n =>
      obtain ⟨ih, -⟩ := ih
      cases hp : product factors <;> rw [hp] at ih <;>
        simp_all [product, Shape.isFullyKnown, isKnown, anonymous]

theorem isProduct_product (factors : Shape) : (product factors).IsProduct factors := by
  obtain ⟨hknown, hbare⟩ := isKnown_product factors
  refine ⟨?_, fun sizes h => h ▸ product_ofSizes sizes⟩
  rw [← Shape.isFullyKnown_eq_false, ← hknown]
  exact ⟨fun h => h ▸ rfl, hbare⟩

end Dim

/-! ## What a tensor holds -/

/-- A tensor whose sizes are all known holds their product of elements, and that many times the
bytes of one. -/
theorem TensorInfo?.footprint_ofSizes (t : ElementType) (sizes : List Int64) :
    footprint (some ⟨some t, some (Shape.ofSizes sizes)⟩) = t.byteSize?.elim (.unsized t) fun size =>
      .of (Shape.count sizes) (size * (Shape.count sizes).toUInt64) := by
  have hsizes : Shape.sizes? (Shape.ofSizes sizes) = some sizes := Shape.sizes?_eq_some.mpr rfl
  simp only [footprint, concrete, Option.bind_some, hsizes, ConcreteShape.footprint]
  cases t.byteSize? <;> rfl

/-- No more than the number of elements counts of a shape. -/
theorem TensorInfo?.footprint_of_count {element : Option ElementType} {s s' : Shape}
    (h : (Shape.sizes? s).map Shape.count = (Shape.sizes? s').map Shape.count) :
    footprint (some ⟨element, some s⟩) = footprint (some ⟨element, some s'⟩) := by
  cases element with
  | none => rfl
  | some t =>
    simp only [footprint, concrete, Option.bind_some]
    cases hs : Shape.sizes? s <;> cases hs' : Shape.sizes? s' <;> rw [hs, hs'] at h <;>
      simp_all [ConcreteShape.footprint]

namespace Flatten

/-- What flattening makes of a tensor that has a shape, cut before an axis. -/
structure Flattened (info : TensorInfo) (s : Shape) (split : Nat) (out : TensorInfo) : Prop where
  element : out.element = info.element
  matrix : ∃ rows columns, out.shape = some [rows, columns] ∧
    rows.IsProduct (s.take split) ∧ columns.IsProduct (s.drop split)
  known : Shape?.isFullyKnown out.shape = Shape.isFullyKnown s
  /-- As many elements and bytes, or neither is known, or the elements have no size. -/
  footprint : TensorInfo?.footprint (some out) = TensorInfo?.footprint (some info)
  /-- Where all is known, the elements and bytes are those of the input's sizes. -/
  measured : ∀ t sizes, info.element = some t → s = Shape.ofSizes sizes →
    TensorInfo?.footprint (some out) = t.byteSize?.elim (.unsized t) fun size =>
      .of (Shape.count sizes) (size * (Shape.count sizes).toUInt64)

namespace Operands

variable (o : Operands)

theorem isFullyKnown_output : Shape.isFullyKnown o.output = Shape.isFullyKnown o.input := by
  have hsplit : Shape.isFullyKnown o.input =
      (Shape.isFullyKnown (o.input.take o.split) && Shape.isFullyKnown (o.input.drop o.split)) := by
    rw [Shape.isFullyKnown, Shape.isFullyKnown, Shape.isFullyKnown, ← List.all_append, List.take_append_drop]
  have hbefore := (Dim.isKnown_product (o.input.take o.split)).1
  have hafter := (Dim.isKnown_product (o.input.drop o.split)).1
  rw [hsplit, ← hbefore, ← hafter]
  simp [output, Shape.isFullyKnown]

/-- The matrix has as many elements as the input, if these can be counted. -/
theorem count_output : (Shape.sizes? o.output).map Shape.count = (Shape.sizes? o.input).map Shape.count := by
  have hknown : (Shape.sizes? o.output).isSome = (Shape.sizes? o.input).isSome := by
    rw [Shape.isSome_sizes?, Shape.isSome_sizes?, isFullyKnown_output]
  cases hsizes : Shape.sizes? o.input with
  | none =>
    rw [hsizes, Option.isSome_none] at hknown
    rw [Option.isSome_eq_false_iff.mp hknown |> Option.isNone_iff_eq_none.mp]
  | some sizes =>
    have hinput : o.input = Shape.ofSizes sizes := Shape.sizes?_eq_some.mp hsizes
    have houtput : o.output =
        Shape.ofSizes [Shape.count (sizes.take o.split), Shape.count (sizes.drop o.split)] := by
      simp only [output, hinput, Shape.ofSizes, ← List.map_take, ← List.map_drop]
      rw [← Shape.ofSizes, ← Shape.ofSizes, Dim.product_ofSizes, Dim.product_ofSizes]
      rfl
    rw [Shape.sizes?_eq_some.mpr houtput, Option.map_some, Option.map_some]
    calc some (Shape.count [Shape.count (sizes.take o.split), Shape.count (sizes.drop o.split)])
      _ = some (Shape.count (sizes.take o.split) * Shape.count (sizes.drop o.split)) := by
        rw [Shape.count_cons, Shape.count_cons, show Shape.count [] = 1 from rfl, Int64.mul_one]
      _ = some (Shape.count sizes) := by rw [← Shape.count_append, List.take_append_drop]

theorem flattened_output (element : Option ElementType) :
    Flattened ⟨element, some o.input⟩ o.input o.split ⟨element, some o.output⟩ where
  element := rfl
  matrix := ⟨_, _, rfl, Dim.isProduct_product _, Dim.isProduct_product _⟩
  known := o.isFullyKnown_output
  footprint := TensorInfo?.footprint_of_count o.count_output
  measured t sizes ht hsizes := by
    rw [TensorInfo?.footprint_of_count o.count_output, show element = some t from ht, hsizes,
      TensorInfo?.footprint_ofSizes]

end Operands

theorem lookup_flatten (opset : Int) :
    Registry.standard.lookup "Flatten" opset = some ⟨ShapeRule.infer rule "Flatten", false⟩ := by
  have hversions : Registry.standard.versions.get? "Flatten" =
      some [(1, ⟨ShapeRule.infer rule "Flatten", false⟩)] := rfl
  by_cases hopset : opset ≤ 0
  · simp [Registry.lookup, hversions, hopset]
  · have hsince : 1 ≤ opset := by omega
    simp [Registry.lookup, hversions, hopset, hsince]

/-- **Flattening before any axis resolves to a matrix that holds as much as its input.** -/
theorem flattened_infer (opset : Int) {attrs : Attributes} {axis : Option Int64}
    (haxis : attrs.int? "axis" = .ok axis) {info : TensorInfo} {s : Shape} (hs : info.shape = some s)
    (hlow : 0 ≤ axis.getD 1) (hhigh : (axis.getD 1).toInt ≤ s.length) (others : List TensorInfo?)
    {outputs : Int} (houtputs : 0 < outputs) :
    ∃ f out, Registry.standard.lookup "Flatten" opset = some f ∧
      (f.infer attrs (some info :: others) outputs).head? = some ⟨.resolved, out⟩ ∧
      Flattened info s (axis.getD 1).toInt.toNat out := by
  obtain ⟨element, shape⟩ := info
  obtain rfl : shape = some s := hs
  have hnonneg : 0 ≤ (axis.getD 1).toInt := Int64.le_iff_toInt_le.mp hlow
  let o : Operands := ⟨s, (axis.getD 1).toInt.toNat⟩
  have hrule : rule attrs (some ⟨element, some s⟩ :: others) = .done o.output := by
    refine rule_eq_done.mpr ⟨o, ⟨rfl, ⟨axis, haxis, ?_⟩, ?_⟩, rfl⟩ <;> simp only [o] <;> omega
  refine ⟨_, _, lookup_flatten opset, ?_, o.flattened_output element⟩
  obtain ⟨k, hk⟩ : ∃ k, outputs.toNat = k + 1 := ⟨outputs.toNat - 1, by omega⟩
  have hvalid : ∀ e, rule attrs (some ⟨element, some s⟩ :: others) ≠ .invalid e := by
    rw [hrule]
    intro e h
    cases h
  show (ShapeRule.infer rule "Flatten" attrs (some ⟨element, some s⟩ :: others) outputs).head? = _
  rw [ShapeRule.infer_of_valid hvalid, ShapeRule.first, hrule, hk]
  rfl

/-- A tensor with more elements than 64 bits count. -/
def immense : TensorInfo := ⟨some .float32, some [.known 3, .known 4294967296, .known 2147483649]⟩

def cutAtTwo : Attributes := ⟨[("axis", .int 2)]⟩

theorem flattened_immense : cutAtTwo.int? "axis" = .ok (some 2) ∧
    immense.shape = some (Shape.ofSizes [3, 4294967296, 2147483649]) ∧
    ∃ f out, Registry.standard.lookup "Flatten" 13 = some f ∧
      (f.infer cutAtTwo [some immense] 1).head? = some ⟨.resolved, out⟩ ∧
      TensorInfo?.footprint (some out) = .of (-9223372023969873920) 51539607552 := by
  have haxis : cutAtTwo.int? "axis" = .ok (some 2) := rfl
  have hs : immense.shape = some (Shape.ofSizes [3, 4294967296, 2147483649]) := rfl
  obtain ⟨f, out, hf, hout, hflat⟩ := flattened_infer 13 haxis hs (by decide) (by decide) [] Int.one_pos
  exact ⟨haxis, hs, f, out, hf, hout, hflat.measured .float32 _ rfl rfl⟩

end Flatten

end ShapeFlow
