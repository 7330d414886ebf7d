/-
When every shape is found. Where the nodes have rules that have no reason to abstain, and
what they read goes back to shapes that are declared (`Grounded`), a propagation in which no
node fails gives a shape to the first output of every node (`complete_of_grounded`). A shape
that is found is passed on along the nodes: the rule of a node is definite when its inputs
have shapes, and merging its answer into what is declared leaves a shape there.
-/
import Mathlib
import ShapeFlow.Proofs.Graph.Orderable
import ShapeFlow.Proofs.Operator.Definite
import ShapeFlow.Proofs.Resolver.Dataflow
import ShapeFlow.Proofs.Resolver.Faithful
import ShapeFlow.Proofs.Resolver.Refinement

namespace ShapeFlow

/-! ## What is declared -/

/-- A value that no inference may change has a shape. -/
def ValueState.Fixed (s : ValueState) : Prop :=
  s.provenance.isAuthoritative = true → s.info.shape.isSome = true

theorem fixed_empty (v : Text) : (Dict.state {} v).Fixed := nofun

theorem fixed_insert {values : Dict ValueState} (h : ∀ v, (values.state v).Fixed) {s : ValueState}
    (hs : s.Fixed) (name v : Text) : ((values.insert name s).state v).Fixed := by
  rw [Dict.state_insert]
  split
  · exact hs
  · exact h v

theorem fixed_seedDeclarations {values : Dict ValueState} (h : ∀ v, (values.state v).Fixed)
    {provenance : Provenance} {ds : List Declaration}
    (hds : ∀ d ∈ ds, ValueState.Fixed ⟨d.info, provenance⟩) (v : Text) :
    ((seedDeclarations values provenance ds).state v).Fixed := by
  unfold seedDeclarations
  induction ds generalizing values with
  | nil => exact h v
  | cons d ds ih =>
    rw [List.foldl_cons]
    refine ih ?_ fun e he => hds e (List.mem_cons_of_mem d he)
    split
    · exact h
    · exact fixed_insert h (hds d List.mem_cons_self) d.name

/-- Where constants and overrides have shapes, so has all that they fix. -/
theorem fixed_seed {g : Graph} {overrides : Dict TensorInfo}
    (hconstants : ∀ d ∈ g.constants, d.info.shape.isSome = true)
    (hoverrides : ∀ e ∈ overrides.entries, e.2.shape.isSome = true) (v : Text) :
    ((seed g overrides).state v).Fixed := by
  have hdeclared (info : TensorInfo) : ValueState.Fixed ⟨info, .declared⟩ := by
    intro h
    cases h
  have hinput (info : TensorInfo) : ValueState.Fixed ⟨info, .input⟩ := by
    intro h
    cases h
  refine List.foldlRecOn overrides.entries _ (motive := fun d : Dict ValueState => ∀ v, (d.state v).Fixed)
    ?_ (fun _ h e he => fixed_insert h (fun _ => hoverrides e he) e.1) v
  refine fixed_seedDeclarations ?_ fun d hd _ => hconstants d hd
  refine fixed_seedDeclarations ?_ fun d _ => hinput d.info
  refine fixed_seedDeclarations ?_ fun d _ => hdeclared d.info
  exact fixed_seedDeclarations fixed_empty fun d _ => hdeclared d.info

theorem Shape?.isSome_merge_right (current : Shape?) {inferred : Shape?} (h : inferred.isSome = true) :
    (merge current inferred).value.isSome = true := by
  cases current with
  | none =>
    obtain ⟨shape, rfl⟩ := Option.isSome_iff_exists.mp h
    rfl
  | some shape => exact isSome_merge rfl inferred

/-- A value has a shape after one is merged into it: what takes none has one already. -/
theorem ValueState.Fixed.isSome_merge {s : ValueState} (h : s.Fixed) {t : TensorInfo}
    (ht : t.shape.isSome = true) : (s.merge (some t)).value.info.shape.isSome = true := by
  cases hauthority : s.provenance.isAuthoritative with
  | true =>
    rw [merge_of_isAuthoritative hauthority]
    exact h hauthority
  | false =>
    simp only [merge, hauthority, Bool.false_eq_true, if_false]
    exact Shape?.isSome_merge_right s.info.shape ht

/-! ## One node -/

/-- **A node whose rule has no reason to abstain is found invalid, or has a shape for its
first output.** -/
theorem Registry.infer_of_determined {op : Text} {opset : Int}
    (hop : (standard.lookup op opset).isSome = true) {attrs : Attributes} {inputs : List TensorInfo?}
    (h : Determined op attrs inputs) (rest : List TensorInfo?) :
    (∃ e, standard.infer op opset attrs inputs (some {} :: rest) = .error e ∧ e.isUnsupported = false) ∨
    ∃ t slots, standard.infer op opset attrs inputs (some {} :: rest) = .ok (some t :: slots) ∧
      t.shape.isSome = true := by
  obtain ⟨f, hf⟩ := Option.isSome_iff_exists.mp hop
  rcases infer_standard hf attrs inputs (some {} :: rest) with ⟨-, he⟩ | ⟨hvalid, hresults⟩
  · exact .inl he
  obtain ⟨since, rule, hrule, rfl⟩ := lookup_standard hf
  have hdefinite := definite_of_mem_standardRules _ hrule attrs inputs h
  simp only [ShapeRule.anyFailed_infer] at hvalid hresults
  cases hv : rule attrs inputs with
  | invalid e => exact absurd ⟨e, hv⟩ hvalid
  | abstain => exact absurd hv hdefinite
  | done shape =>
    rw [ShapeRule.infer_of_valid fun e he => hvalid ⟨e, he⟩,
      ShapeRule.first_eq_resolved.mpr ⟨shape, hv, rfl⟩, List.length_cons, Int.toNat_natCast,
      List.take_succ_cons] at hresults
    exact .inr ⟨_, _, hresults, rfl⟩

namespace Resolver

variable {r : Resolver}

/-! ## All nodes -/

/-- A value that no node writes. -/
def External (r : Resolver) (v : Text) : Prop := ∀ i, ¬ r.model.graph.Writes i v

/-- Nothing keeps the rules from giving shapes: they have no reason of their own to abstain,
and what they read has a shape that is declared or is the first output of a node. -/
structure Grounded (r : Resolver) : Prop where
  supported : ∀ n ∈ r.model.graph.nodes,
    n.isStandard = true ∧ (r.registry.lookup n.op r.opset).isSome = true
  modern : ∀ n ∈ r.model.graph.nodes, n.attributes.contains "auto_pad" = false
  ungrouped : ∀ n ∈ r.model.graph.nodes, ∀ k, n.attributes.get? "group" = some (.int k) → k = 1
  dense : ∀ n ∈ r.model.graph.nodes, n.op = "ConvTranspose" → n.attributes.contains "dilations" = false
  operands : ∀ n ∈ r.model.graph.nodes, ∀ k ∈ neededInputs n.op,
    ∃ v, n.inputs[k]? = some v ∧ v.isEmpty = false ∧
      (r.External v ∧ (r.seeded v).info.shape.isSome = true ∨
        ∃ m ∈ r.model.graph.nodes, m.outputs[0]? = some v)
  window : ∀ n ∈ r.model.graph.nodes, WindowOfWeights n.op n.attributes →
    ∃ v shape, n.inputs[1]? = some v ∧ r.External v ∧ (r.seeded v).info.shape = some shape ∧
      Shape.isFullyKnown shape = true
  constants : ∀ d ∈ r.model.graph.constants, d.info.shape.isSome = true
  overrides : ∀ e ∈ r.overrides.entries, e.2.shape.isSome = true

theorem shape?_of_shows {v : Text} {s : ValueState} (h : r.Shows v s) : r.shape? v = s.info.shape := by
  have hinfo : (r.values.state v).info = s.info := by
    rw [← TensorInfo?.getD_filter (r.values.state v).info, ← (r.shows_state v).1, h.1,
      TensorInfo?.getD_filter]
  rw [shape?_eq_state, hinfo]

/-- The shape that a node reads is the one that is known of its input. -/
theorem inputShape?_eq {n : Node} {k : Nat} {v : Text} (hk : n.inputs[k]? = some v)
    (hv : v.isEmpty = false) :
    inputShape? (n.inputs.map fun v => if v.isEmpty then none else r.info? v) k = r.shape? v := by
  rw [inputShape?, List.getD_eq_getElem?_getD, List.getElem?_map, hk, shape?_eq_state]
  simp only [Option.map_some, Option.getD_some, hv, Bool.false_eq_true, if_false, (r.shows_state v).1]
  obtain ⟨element, shape⟩ := (r.values.state v).info
  cases element <;> cases shape <;> rfl

/-- A node is determined once the inputs that are first outputs of others have shapes. -/
theorem Grounded.determined (hg : r.Grounded) (hr : r.Dataflow) {n : Node}
    (hn : n ∈ r.model.graph.nodes)
    (hinputs : ∀ m ∈ r.model.graph.nodes, ∀ v ∈ n.namedInputs, m.outputs[0]? = some v →
      (r.shape? v).isSome = true) :
    Determined n.op n.attributes (n.inputs.map fun v => if v.isEmpty then none else r.info? v) := by
  have hexternal : ∀ v, r.External v → r.shape? v = (r.seeded v).info.shape := fun v hv =>
    shape?_of_shows (hr.unwritten v hv)
  refine ⟨fun k hk => ?_, hg.modern n hn, hg.ungrouped n hn, hg.dense n hn, fun hw s hs => ?_⟩
  · obtain ⟨v, hv, hname, hshape⟩ := hg.operands n hn k hk
    rw [inputShape?_eq hv hname, ← Option.isSome_iff_exists]
    rcases hshape with ⟨hunwritten, hseed⟩ | ⟨m, hm, hout⟩
    · rw [hexternal v hunwritten]
      exact hseed
    · exact hinputs m hm v (Node.mem_namedInputs.mpr ⟨List.mem_of_getElem? hv, hname⟩) hout
  · obtain ⟨v, shape, hv, hunwritten, hseed, hknown⟩ := hg.window n hn hw
    obtain ⟨u, hu, hname, -⟩ := hg.operands n hn 1 hw.mem_neededInputs
    obtain rfl : v = u := Option.some.inj (hv.symm.trans hu)
    rw [inputShape?_eq hv hname, hexternal v hunwritten, hseed] at hs
    rwa [← Option.some.inj hs]

theorem inferNode_eq {n : Node} (hreg : r.registry = .standard) {v : Text} {rest : List Text}
    (hout : n.outputs = v :: rest) (hname : v.isEmpty = false) :
    r.inferNode n = Registry.standard.infer n.op r.opset n.attributes
      (n.inputs.map fun v => if v.isEmpty then none else r.info? v)
      (some {} :: rest.map fun v => if v.isEmpty then none else some {}) := by
  rw [inferNode, hout, List.map_cons, hname, hreg]
  rfl

/-- **The step:** a determined node that has not failed gives its first output a shape. -/
theorem Grounded.shape?_of_determined (hg : r.Grounded) (hreg : r.registry = .standard)
    (hr : r.Dataflow) {i : Nat} {n : Node} (hi : r.model.graph.nodes[i]? = some n)
    (hok : r.failure? i = none) {v : Text} (hv : n.outputs[0]? = some v) (hname : v.isEmpty = false)
    (hdet : Determined n.op n.attributes
      (n.inputs.map fun v => if v.isEmpty then none else r.info? v)) :
    (r.shape? v).isSome = true := by
  have hn := List.mem_of_getElem? hi
  obtain ⟨hstandard, hop⟩ := hg.supported n hn
  obtain ⟨rest, hout⟩ := List.head?_eq_some_iff.mp (List.head?_eq_getElem?.trans hv)
  have hinfer := inferNode_eq hreg hout hname
  rw [hreg] at hop
  rcases Registry.infer_of_determined hop hdet (rest.map fun v => if v.isEmpty then none else some {})
    with ⟨e, he, hu⟩ | ⟨t, slots, hslots, ht⟩
  · have hfailed := (hr.failure i n hi e).mpr ⟨hstandard, hinfer.trans he, hu⟩
    rw [hok] at hfailed
    cases hfailed
  · obtain ⟨slot, hslot, hshows⟩ := hr.merged n hn hstandard _ (hinfer.trans hslots) 0 v hv hname
    obtain rfl : some t = slot := Option.some.inj hslot
    rw [shape?_of_shows hshows]
    exact (fixed_seed hg.constants hg.overrides v).isSome_merge ht

/-- **The run:** shapes are passed on from node to node, to all of them. -/
theorem Grounded.isSome_shape? (hg : r.Grounded) (hreg : r.registry = .standard) (hr : r.Dataflow)
    (horder : r.model.graph.Orderable)
    (hok : ∀ i n, r.model.graph.nodes[i]? = some n → r.failure? i = none) (v : Text) :
    ∀ n ∈ r.model.graph.nodes, n.outputs[0]? = some v → v.isEmpty = false →
      (r.shape? v).isSome = true := by
  induction v using Graph.value_induction horder with
  | step v ih =>
    intro n hn hv hname
    obtain ⟨i, hi⟩ := List.mem_iff_getElem?.mp hn
    have hout : v ∈ n.namedOutputs := Node.mem_namedOutputs.mpr ⟨List.mem_of_getElem? hv, hname⟩
    refine hg.shape?_of_determined hreg hr hi (hok i n hi) hv hname ?_
    refine hg.determined hr hn fun m hm u hu hfirst => ?_
    exact ih n hn hout u hu m hm hfirst (Node.mem_namedInputs.mp hu).2

/-- **Where nothing keeps the rules from giving shapes, a propagation in which no node fails
gives one to the first output of every node.** -/
theorem complete_of_grounded {r : Resolver} (h : r.Reachable) (hreg : r.registry = .standard)
    {ls : List (List Nat)} (hl : r.model.graph.levels = .ok ls) (hg : r.Grounded) {stop : Nat → Bool}
    (hok : (r.propagate stop).result = .ok ()) {n : Node} (hn : n ∈ r.model.graph.nodes) {v : Text}
    (hv : n.outputs[0]? = some v) (hname : v.isEmpty = false) :
    ((r.propagate stop).resolver.shape? v).isSome = true := by
  have hu : (r.propagate stop).Uninterrupted := by
    intro hinterrupted
    rw [hok] at hinterrupted
    cases hinterrupted
  rw [(finished_propagate hl hu).2, failuresError_eq_ok] at hok
  obtain ⟨hr, values, failures, hsame⟩ := dataflow_propagate h hl stop hu
  -- the propagation leaves the model and the settings alone
  rw [hsame] at hr hok ⊢
  have hg' : Grounded { r with values, failures, propagated := true } :=
    ⟨hg.supported, hg.modern, hg.ungrouped, hg.dense, hg.operands, hg.window, hg.constants, hg.overrides⟩
  exact hg'.isSome_shape? hreg hr ⟨ls, hl⟩ hok v n hn hv hname

/-- A network with its nodes in no order: the weights of its convolution are constants, those
of its transposed convolution of no known size, and its regions are found by a node. -/
def network : Resolver := ofModel { graph := {
  inputs := [⟨"x", ⟨some .float32, some [Dim.anonymous, .known 3, .known 8, .known 8]⟩⟩,
    ⟨"k", ⟨none, some [.known 4, .known 2, Dim.anonymous, Dim.anonymous]⟩⟩,
    ⟨"q", ⟨none, some [.known 6, Dim.anonymous]⟩⟩]
  constants := [⟨"w", ⟨some .float32, some [.known 4, .known 3, .known 3, .known 3]⟩⟩]
  nodes := [
    { op := "Dropout", inputs := ["p"], outputs := ["d", "mask"] },
    { op := "MaxRoiPool", inputs := ["t", "r"], outputs := ["p"],
      attributes := ⟨[("pooled_shape", .ints [2, 2])]⟩ },
    { op := "Flatten", inputs := ["q"], outputs := ["r"] },
    { op := "ConvTranspose", inputs := ["c", "k"], outputs := ["t"],
      attributes := ⟨[("output_shape", .ints [12, 12])]⟩ },
    { op := "Conv", inputs := ["x", "w"], outputs := ["c"],
      attributes := ⟨[("group", .int 1)]⟩ }] } }

theorem external_iff {v : Text} : r.External v ↔ v ∉ r.model.graph.writes.map Prod.fst := by
  rw [Graph.mem_writes, not_exists]
  rfl

theorem grounded_network : network.Grounded where
  supported := by decide +kernel
  modern := by decide +kernel
  ungrouped := by
    have hgroup : ∀ n ∈ network.model.graph.nodes,
        n.attributes.get? "group" = none ∨ n.attributes.get? "group" = some (.int 1) := by decide +kernel
    intro n hn k hk
    rcases hgroup n hn with hnone | hone
    · rw [hnone] at hk
      cases hk
    · rw [hone] at hk
      cases hk
      rfl
  dense := by decide +kernel
  operands := by
    have hoperands : ∀ n ∈ network.model.graph.nodes, ∀ k ∈ neededInputs n.op, ∃ v ∈ n.inputs[k]?,
        v.isEmpty = false ∧ (v ∉ network.model.graph.writes.map Prod.fst ∧
          (network.seeded v).info.shape.isSome = true ∨
          ∃ m ∈ network.model.graph.nodes, m.outputs[0]? = some v) := by decide +kernel
    simpa only [external_iff, Option.mem_def] using hoperands
  window := by
    have hwindow : ∀ n ∈ network.model.graph.nodes, WindowOfWeights n.op n.attributes →
        ∃ v ∈ n.inputs[1]?, v ∉ network.model.graph.writes.map Prod.fst ∧
          ∃ shape ∈ (network.seeded v).info.shape, Shape.isFullyKnown shape = true := by
      unfold WindowOfWeights
      decide +kernel
    intro n hn hw
    obtain ⟨v, hv, hunwritten, shape, hshape, hknown⟩ := hwindow n hn hw
    exact ⟨v, shape, hv, external_iff.mpr hunwritten, hshape, hknown⟩
  constants := by decide +kernel
  overrides := by decide +kernel

theorem complete_of_grounded_network : network.Grounded ∧
    (network.propagate fun _ => false).result = .ok () ∧
    ((network.propagate fun _ => false).resolver.shape? "d").isSome = true ∧
    (network.propagate fun _ => false).resolver.shape? "mask" = none := by
  have hr : network.Reachable := .ofModel _
  have hl : network.model.graph.levels = .ok [[2, 4], [3], [1], [0]] := by cbv
  have hok : (network.propagate fun _ => false).result = .ok () := by cbv
  exact ⟨grounded_network, hok,
    complete_of_grounded hr rfl hl grounded_network hok List.mem_cons_self rfl rfl, by cbv⟩

end Resolver

end ShapeFlow
