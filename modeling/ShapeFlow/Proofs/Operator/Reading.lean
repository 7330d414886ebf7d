/-
What the rules read. A rule that gives a shape has passed all its checks, and each
of its steps is inverted here: a step is `done` exactly when its check holds. The
whole of sliding windows, of transposed convolution and of flattening is inverted as
well (`Window.rule_eq_done`, `Transposed.rule_eq_done`, `Flatten.rule_eq_done`): there
are operands that were read from the attributes and inputs, and the shape is the one
computed from them.
-/
import ShapeFlow.Operator.Flatten
import ShapeFlow.Operator.Transposed

namespace ShapeFlow

/-! ## Single steps -/

namespace Verdict

variable {α : Type}

theorem done_inj {a b : α} : done a = done b ↔ a = b :=
  ⟨fun h => by cases h; rfl, fun h => h ▸ rfl⟩

theorem pure_eq_done {a b : α} : (pure a : Verdict α) = done b ↔ a = b := done_inj

theorem map_eq_done {β : Type} {v : Verdict α} {f : α → β} {b : β} :
    f <$> v = done b ↔ ∃ a, v = done a ∧ f a = b :=
  bind_eq_done.trans (exists_congr fun _ => and_congr_right fun _ => pure_eq_done)

theorem need_eq_done {o : Option α} {a : α} : need o = done a ↔ o = some a := by
  cases o with
  | none => exact ⟨nofun, nofun⟩
  | some b => exact done_inj.trans (by rw [Option.some.injEq])

theorem ofAttribute_eq_done {e : Except AttributeError α} {a : α} :
    ofAttribute e = done a ↔ e = .ok a := by
  cases e with
  | error e => exact ⟨nofun, nofun⟩
  | ok b => exact done_inj.trans (by rw [Except.ok.injEq])

theorem abstainIf_eq_done {c : Bool} {u : Unit} : abstainIf c = done u ↔ c = false := by
  cases c with
  | false => exact ⟨fun _ => rfl, fun _ => rfl⟩
  | true => exact ⟨nofun, nofun⟩

theorem invalidIf_eq_done {c : Bool} {e : RuleError} {u : Unit} : invalidIf c e = done u ↔ c = false := by
  cases c with
  | false => exact ⟨fun _ => rfl, fun _ => rfl⟩
  | true => exact ⟨nofun, nofun⟩

end Verdict

open Verdict

/-- A list attribute that can be read is not there, or has the right length. -/
theorem Attributes.spatial?_eq_ok {attrs : Attributes} {name : Text} {length : Nat}
    {given : Option (List Int64)} :
    attrs.spatial? name length = .ok given ↔
      attrs.get? name = none ∧ given = none ∨
      ∃ values, attrs.get? name = some (.ints values) ∧ values.length = length ∧ given = some values := by
  unfold spatial? ints?
  cases attrs.get? name with
  | none => simp [eq_comm]
  | some a =>
    cases a with
    | ints values =>
      by_cases hlength : values.length = length
      · simp [hlength, eq_comm]
      · have hcast : ¬ (values.length : Int) = length := fun h => hlength (Int.ofNat_inj.mp h)
        simp only [if_neg hcast]
        simp [hlength]
    | float | int | string | floats | strings | coded => simp

theorem checkMinimum_eq_ok {name : Text} {values : List Int64} {least : Int64} {u : Unit} :
    checkMinimum name values least = .ok u ↔ ∀ n ∈ values, least ≤ n := by
  unfold checkMinimum
  cases h : values.findIdx? (· < least) with
  | none =>
    rw [List.findIdx?_eq_none_iff] at h
    refine ⟨fun _ n hn => ?_, fun _ => rfl⟩
    exact Int64.not_lt.mp (by simpa using h n hn)
  | some i =>
    obtain ⟨hi, hlt, -⟩ := List.findIdx?_eq_some_iff_getElem.mp h
    refine ⟨nofun, fun hleast => absurd (hleast _ (List.getElem_mem hi)) ?_⟩
    exact Int64.not_le.mpr (by simpa using hlt)

theorem spatialOr_eq_done {attrs : Attributes} {name : Text} {length : Nat} {fill least : Int64}
    {values : List Int64} :
    spatialOr attrs name length fill least = .done values ↔
      ∃ given, attrs.spatial? name length = .ok given ∧
        given.getD (List.replicate length fill) = values ∧ ∀ n ∈ values, least ≤ n := by
  simp only [spatialOr, bind_eq_done, ofAttribute_eq_done, pure_eq_done, checkMinimum_eq_ok]
  constructor
  · rintro ⟨given, hgiven, -, hleast, rfl⟩
    exact ⟨given, hgiven, rfl, hleast⟩
  · rintro ⟨given, hgiven, rfl, hleast⟩
    exact ⟨given, hgiven, (), hleast, rfl⟩

theorem spatialIfGiven_eq_done {attrs : Attributes} {name : Text} {length : Nat} {least : Int64}
    {given : Option (List Int64)} :
    spatialIfGiven attrs name length least = .done given ↔
      attrs.spatial? name length = .ok given ∧ ∀ n ∈ given.getD [], least ≤ n := by
  simp only [spatialIfGiven, bind_eq_done, ofAttribute_eq_done, pure_eq_done, checkMinimum_eq_ok]
  constructor
  · rintro ⟨given, hgiven, -, hleast, rfl⟩
    exact ⟨hgiven, hleast⟩
  · rintro ⟨hgiven, hleast⟩
    exact ⟨given, hgiven, (), hleast, rfl⟩

/-- One value for each axis, whether they were given or filled in. -/
theorem length_spatialOr {attrs : Attributes} {name : Text} {length : Nat} {fill least : Int64}
    {values : List Int64} (h : spatialOr attrs name length fill least = .done values) :
    values.length = length := by
  obtain ⟨given, hgiven, rfl, -⟩ := spatialOr_eq_done.mp h
  rcases Attributes.spatial?_eq_ok.mp hgiven with ⟨-, rfl⟩ | ⟨values, -, hlength, rfl⟩
  · exact List.length_replicate
  · exact hlength

theorem length_spatialIfGiven {attrs : Attributes} {name : Text} {length : Nat} {least : Int64}
    {values : List Int64} (h : spatialIfGiven attrs name length least = .done (some values)) :
    values.length = length := by
  rcases Attributes.spatial?_eq_ok.mp (spatialIfGiven_eq_done.mp h).1 with
    ⟨-, hnone⟩ | ⟨_, -, hlength, hsome⟩
  · cases hnone
  · cases hsome
    exact hlength

theorem Attributes.required_eq_ok {attrs : Attributes} {name : Text} {length : Nat}
    {values : List Int64} : attrs.required name length = .ok values ↔
      attrs.get? name = some (.ints values) ∧ values.length = length := by
  have hread : attrs.required name length = .ok values ↔
      attrs.spatial? name length = .ok (some values) := by
    unfold required
    split
    · next he => rw [he]; exact ⟨nofun, nofun⟩
    · next he => rw [he]; exact ⟨nofun, nofun⟩
    · next vs he => rw [he, Except.ok.injEq, Except.ok.injEq, Option.some.injEq]
  rw [hread, spatial?_eq_ok]
  constructor
  · rintro (⟨-, hnone⟩ | ⟨_, hget, hlength, hsome⟩)
    · cases hnone
    · cases hsome
      exact ⟨hget, hlength⟩
  · rintro ⟨hget, hlength⟩
    exact .inr ⟨values, hget, hlength, rfl⟩

/-- A place that is missing has the value that stands in for it. -/
theorem le_getD {values : List Int64} {least d : Int64} (h : ∀ n ∈ values, least ≤ n) (hd : least ≤ d)
    (i : Nat) : least ≤ values.getD i d := by
  rw [List.getD_eq_getElem?_getD]
  cases hi : values[i]? with
  | none => exact hd
  | some n => exact h n (List.mem_of_getElem? hi)

theorem Shape.sizes?_eq_some {s : Shape} {sizes : List Int64} :
    sizes? s = some sizes ↔ s = ofSizes sizes := by
  constructor
  · intro h
    induction s generalizing sizes with
    | nil =>
      obtain rfl : [] = sizes := by simpa [sizes?] using h
      rfl
    | cons d s ih =>
      simp only [sizes?, List.mapM_cons, Option.bind_eq_bind, Option.bind_eq_some_iff, Option.pure_def,
        Option.some.injEq] at h ih
      obtain ⟨n, hn, rest, hrest, rfl⟩ := h
      cases d with
      | unknown name => cases hn
      | known m =>
        obtain rfl : m = n := Option.some.inj hn
        rw [ih hrest]
        rfl
  · rintro rfl
    induction sizes with
    | nil => rfl
    | cons n sizes ih =>
      simp only [sizes?, ofSizes] at ih
      simp [sizes?, ofSizes, Dim.size?, ih]

/-! ## Sliding windows -/

namespace Window

/-- All that the shape of a window's output is computed from. -/
structure Operands where
  input : Shape
  weights : Shape?
  dilations : List Int64
  pads : List Int64
  strides : List Int64
  kernel : List Int64

namespace Operands

/-- The number of spatial axes. -/
def axes (o : Operands) : Nat := o.input.length - 2

/-- The windows along a spatial axis. -/
def along (o : Operands) (i : Nat) : Dim :=
  positions (o.input.getD (2 + i) Dim.anonymous) (o.pads.getD i 0) (o.pads.getD (i + o.axes) 0)
    (o.kernel.getD i 1) (o.dilations.getD i 1) (o.strides.getD i 1)

def output (o : Operands) : Shape :=
  o.input.getD 0 Dim.anonymous :: channels o.input o.weights :: (List.range o.axes).map o.along

/-- The operands are what the node has, and nothing is wrong with them. -/
structure ReadFrom (o : Operands) (kind : WindowKind) (attrs : Attributes) (inputs : List TensorInfo?) :
    Prop where
  input : inputShape? inputs 0 = some o.input
  weights : Window.weights kind inputs = .done o.weights
  modern : attrs.contains "auto_pad" = false
  rank : 2 ≤ o.input.length
  dilations : Window.dilations kind attrs o.axes = .done o.dilations
  group : oneGroup attrs = .done ()
  pads : spatialOr attrs "pads" (2 * o.axes) 0 0 = .done o.pads
  strides : spatialOr attrs "strides" o.axes 1 1 = .done o.strides
  filters : o.weights ≠ some []
  kernel : Window.kernel attrs o.weights o.axes = .done o.kernel

end Operands

/-- **A window's shape is computed from operands that passed every check.** -/
theorem rule_eq_done {kind : WindowKind} {attrs : Attributes} {inputs : List TensorInfo?} {shape : Shape} :
    rule kind attrs inputs = .done shape ↔
      ∃ o : Operands, o.ReadFrom kind attrs inputs ∧ o.output = shape := by
  simp only [rule, bind_eq_done, need_eq_done, abstainIf_eq_done, invalidIf_eq_done, pure_eq_done]
  constructor
  · rintro ⟨input, hinput, weights, hweights, -, hmodern, -, hrank, dilations, hdilations, _, hgroup,
      pads, hpads, strides, hstrides, -, hfilters, kernel, hkernel, rfl⟩
    exact ⟨⟨input, weights, dilations, pads, strides, kernel⟩,
      ⟨hinput, hweights, hmodern, Nat.le_of_not_lt (of_decide_eq_false hrank), hdilations, hgroup, hpads, hstrides,
        by simpa using hfilters, hkernel⟩, rfl⟩
  · rintro ⟨o, h, rfl⟩
    have hrank := decide_eq_false (Nat.not_lt.mpr h.rank)
    exact ⟨o.input, h.input, o.weights, h.weights, (), h.modern, (), hrank, o.dilations,
      h.dilations, (), h.group, o.pads, h.pads, o.strides, h.strides, (), by simpa using h.filters,
      o.kernel, h.kernel, rfl⟩

theorem length_kernelOfWeights {weights : Shape} {axes : Nat} {values : List Int64}
    (h : kernelOfWeights weights axes = .done values) : values.length = axes := by
  simp only [kernelOfWeights, bind_eq_done, invalidIf_eq_done, need_eq_done, Shape.sizes?_eq_some] at h
  obtain ⟨-, hrank, hsizes⟩ := h
  have hrank := Nat.le_of_not_lt (of_decide_eq_false hrank)
  have hlength := congrArg List.length hsizes
  simp only [List.length_drop, Shape.ofSizes, List.length_map] at hlength
  omega

/-- The window is that of the attribute, or that of the weights if there is none. -/
theorem kernel_eq_done {attrs : Attributes} {weights : Shape?} {axes : Nat} {values : List Int64}
    (h : kernel attrs weights axes = .done values) :
    attrs.get? "kernel_shape" = some (.ints values) ∧ values.length = axes ∨
      attrs.get? "kernel_shape" = none ∧ ∃ s, weights = some s ∧ kernelOfWeights s axes = .done values := by
  obtain ⟨given, hgiven, h⟩ := bind_eq_done.mp h
  rcases Attributes.spatial?_eq_ok.mp (ofAttribute_eq_done.mp hgiven) with
    ⟨hnone, rfl⟩ | ⟨_, hvalues, hlength, rfl⟩
  · cases weights with
    | none => cases h
    | some s =>
      simp only [bind_eq_done, pure_eq_done] at h
      obtain ⟨_, hweights, -, -, rfl⟩ := h
      exact .inr ⟨hnone, s, rfl, hweights⟩
  · simp only [bind_eq_done, pure_eq_done] at h
    obtain ⟨_, hdone, -, -, rfl⟩ := h
    obtain rfl := done_inj.mp hdone
    exact .inl ⟨hvalues, hlength⟩

theorem length_kernel {attrs : Attributes} {weights : Shape?} {axes : Nat} {values : List Int64}
    (h : kernel attrs weights axes = .done values) : values.length = axes := by
  rcases kernel_eq_done h with ⟨-, hlength⟩ | ⟨-, _, -, hweights⟩
  · exact hlength
  · exact length_kernelOfWeights hweights

theorem length_dilations {kind : WindowKind} {attrs : Attributes} {axes : Nat} {values : List Int64}
    (h : dilations kind attrs axes = .done values) : values.length = axes := by
  cases kind with
  | pooling =>
    obtain rfl := done_inj.mp h
    exact List.length_replicate
  | convolution => exact length_spatialOr h

theorem kernel_least {attrs : Attributes} {weights : Shape?} {axes : Nat} {values : List Int64}
    (h : kernel attrs weights axes = .done values) : ∀ n ∈ values, 1 ≤ n := by
  unfold kernel at h
  obtain ⟨given, -, h⟩ := bind_eq_done.mp h
  -- whatever the window was taken from, it is checked at the end
  have hcheck : ∀ v : Verdict (List Int64), (do
      let values ← v
      ofAttribute (checkMinimum "kernel_shape" values 1)
      return values) = .done values → ∀ n ∈ values, 1 ≤ n := by
    intro v hv
    simp only [bind_eq_done, ofAttribute_eq_done, pure_eq_done, checkMinimum_eq_ok] at hv
    obtain ⟨_, -, -, hleast, rfl⟩ := hv
    exact hleast
  cases given <;> cases weights <;> exact hcheck _ h

theorem dilations_least {kind : WindowKind} {attrs : Attributes} {axes : Nat} {values : List Int64}
    (h : dilations kind attrs axes = .done values) : ∀ n ∈ values, 1 ≤ n := by
  cases kind with
  | pooling =>
    obtain rfl := done_inj.mp h
    intro n hn
    obtain rfl := List.eq_of_mem_replicate hn
    decide
  | convolution =>
    obtain ⟨given, -, -, hleast⟩ := spatialOr_eq_done.mp h
    exact hleast

end Window

/-! ## Transposed convolution -/

namespace Transposed

/-- All that the shape of a transposed convolution's output is computed from. -/
structure Operands where
  input : Shape
  weights : Shape
  pads : List Int64
  strides : List Int64
  /-- The window, if it is an attribute. -/
  window : Option (List Int64)
  /-- The spatial axes, if they are asked for. -/
  targets : Option (List Int64)
  extra : List Int64

namespace Operands

/-- The number of spatial axes. -/
def axes (o : Operands) : Nat := o.input.length - 2

/-- The spatial axes of the output. -/
def spatial (o : Operands) : Verdict Shape :=
  match o.targets with
  | some targets => wanted o.input targets
  | none => covered o.input o.pads o.strides o.extra o.axes <$> kernel o.window o.weights o.axes

/-- The output with these spatial axes. -/
def output (o : Operands) (spatial : Shape) : Shape :=
  o.input.getD 0 Dim.anonymous :: o.weights.getD 1 Dim.anonymous :: spatial

/-- The operands are what the node has, and nothing is wrong with them. -/
structure ReadFrom (o : Operands) (attrs : Attributes) (inputs : List TensorInfo?) : Prop where
  input : inputShape? inputs 0 = some o.input
  weights : inputShape? inputs 1 = some o.weights
  modern : attrs.contains "auto_pad" = false
  rank : 2 ≤ o.input.length
  group : oneGroup attrs = .done ()
  dense : attrs.contains "dilations" = false
  pads : spatialOr attrs "pads" (2 * o.axes) 0 0 = .done o.pads
  strides : spatialOr attrs "strides" o.axes 1 1 = .done o.strides
  window : spatialIfGiven attrs "kernel_shape" o.axes 1 = .done o.window
  targets : spatialIfGiven attrs "output_shape" o.axes 0 = .done o.targets
  extra : spatialOr attrs "output_padding" o.axes 0 0 = .done o.extra
  channels : 2 ≤ o.weights.length

end Operands

theorem rule_eq_done {attrs : Attributes} {inputs : List TensorInfo?} {shape : Shape} :
    rule attrs inputs = .done shape ↔ ∃ o : Operands, o.ReadFrom attrs inputs ∧
      ∃ spatial, o.spatial = .done spatial ∧ o.output spatial = shape := by
  simp only [rule, bind_eq_done, need_eq_done, abstainIf_eq_done, invalidIf_eq_done]
  constructor
  · rintro ⟨input, hinput, weights, hweights, -, hmodern, -, hrank, _, hgroup, -, hdense, pads, hpads,
      strides, hstrides, window, hwindow, targets, htargets, extra, hextra, -, hchannels, hlast⟩
    refine ⟨⟨input, weights, pads, strides, window, targets, extra⟩,
      ⟨hinput, hweights, hmodern, Nat.le_of_not_lt (of_decide_eq_false hrank), hgroup, hdense, hpads,
        hstrides, hwindow, htargets, hextra, Nat.le_of_not_lt (of_decide_eq_false hchannels)⟩, ?_⟩
    cases targets with
    | some | none =>
      obtain ⟨spatial, hspatial, hshape⟩ := bind_eq_done.mp hlast
      exact ⟨spatial, hspatial, pure_eq_done.mp hshape⟩
  · rintro ⟨⟨input, weights, pads, strides, window, targets, extra⟩, h, spatial, hspatial, hshape⟩
    have hrank := decide_eq_false (Nat.not_lt.mpr h.rank)
    have hchannels := decide_eq_false (Nat.not_lt.mpr h.channels)
    refine ⟨input, h.input, weights, h.weights, (), h.modern, (), hrank, (), h.group, (), h.dense,
      pads, h.pads, strides, h.strides, window, h.window, targets, h.targets, extra, h.extra,
      (), hchannels, ?_⟩
    cases targets with
    | some | none => exact bind_eq_done.mpr ⟨spatial, hspatial, pure_eq_done.mpr hshape⟩

end Transposed

/-! ## Flattening -/

namespace Flatten

/-- The input, and the number of its axes that are multiplied into the first. -/
structure Operands where
  input : Shape
  split : Nat

namespace Operands

def output (o : Operands) : Shape :=
  [Dim.product (o.input.take o.split), Dim.product (o.input.drop o.split)]

structure ReadFrom (o : Operands) (attrs : Attributes) (inputs : List TensorInfo?) : Prop where
  input : inputShape? inputs 0 = some o.input
  axis : ∃ axis : Option Int64, attrs.int? "axis" = .ok axis ∧ (axis.getD 1).toInt = o.split
  range : o.split ≤ o.input.length

end Operands

theorem rule_eq_done {attrs : Attributes} {inputs : List TensorInfo?} {shape : Shape} :
    rule attrs inputs = .done shape ↔ ∃ o : Operands, o.ReadFrom attrs inputs ∧ o.output = shape := by
  simp only [rule, bind_eq_done, need_eq_done, ofAttribute_eq_done, invalidIf_eq_done, pure_eq_done]
  constructor
  · rintro ⟨input, hinput, axis, haxis, -, hrange, rfl⟩
    simp only [Bool.or_eq_false_iff, decide_eq_false_iff_not, Int64.lt_iff_toInt_lt, Int64.toInt_zero] at hrange
    refine ⟨⟨input, (axis.getD 1).toInt.toNat⟩, ⟨hinput, ⟨axis, haxis, ?_⟩, ?_⟩, rfl⟩ <;> simp only <;> omega
  · rintro ⟨o, ⟨hinput, ⟨axis, haxis, hsplit⟩, hrange⟩, rfl⟩
    refine ⟨o.input, hinput, axis, haxis, (), ?_, by rw [hsplit, Int.toNat_natCast]; rfl⟩
    simp only [Bool.or_eq_false_iff, decide_eq_false_iff_not, Int64.lt_iff_toInt_lt, Int64.toInt_zero]
    omega

end Flatten

end ShapeFlow
