/-
Reading undoes writing: a model that can be written is read back from its file as
it was, in every layout (`load_write`). A message is read by stepping through its
fields; `Steps` says what state that ends in, provided that every field fits, and
each kind of message is taken through its fields in the order of their numbers.
-/
import Mathlib
import ShapeFlow.ModelFile
import ShapeFlow.Proofs.Wire.Layout

namespace ShapeFlow.Wire

/-! ## Stepping through fields -/

/-- Stepping through the fields leads from one state to another, without a note,
if each field fits. -/
inductive Steps {σ : Type} (step : σ → Field → Noted σ) : σ → List Field → σ → Prop
  | done {s : σ} : Steps step s [] s
  | next {s t u : σ} {f : Field} {fs : List Field} : f.isNumbered = true →
      (f.bytes.length < wordLimit → step s f = pure t) → Steps step t fs u → Steps step s (f :: fs) u

namespace Steps

variable {σ : Type} {step : σ → Field → Noted σ} {s t u : σ} {fs gs : List Field} {l : Layout}
  {number : Nat}

theorem append (h : Steps step s fs t) (h' : Steps step t gs u) : Steps step s (fs ++ gs) u := by
  induction h with
  | done => exact h'
  | next hn hstep _ ih => exact .next hn hstep (ih h')

theorem one {f : Field} (hn : f.isNumbered = true)
    (h : f.bytes.length < wordLimit → step s f = pure t) : Steps step s [f] t :=
  .next hn h .done

theorem isNumbered (h : Steps step s fs t) : ∀ f ∈ fs, f.isNumbered = true := by
  induction h with
  | done => simp
  | next hn _ _ ih =>
    intro f hf
    rcases List.mem_cons.mp hf with rfl | hf
    · exact hn
    · exact ih f hf

theorem foldFields (h : Steps step s fs t) (hsize : ∀ f ∈ fs, f.bytes.length < wordLimit)
    (locate : σ → DecodeError → DecodeError) : foldFields locate step none s fs = pure t := by
  induction h with
  | done => rfl
  | next _ hstep _ ih =>
    have hrest := ih fun f hf => hsize f (List.mem_cons_of_mem _ hf)
    simp only [Wire.foldFields, hstep (hsize _ List.mem_cons_self), Noted.value_pure, hrest]
    rfl

/-- **A written message is read by stepping through its fields.** -/
theorem messageAt (h : Steps step s fs t) (hsize : (write fs).length < wordLimit)
    (locate : σ → DecodeError → DecodeError) : messageAt locate step s (write fs) = pure t := by
  have hfits : ∀ f ∈ fs, f.bytes.length < wordLimit := fun f hf =>
    Nat.lt_of_le_of_lt (length_write_le_of_mem hf) hsize
  have hsplit := split_write fun f hf => ⟨h.isNumbered f hf, hfits f hf⟩
  simp only [Wire.messageAt, hsplit]
  exact h.foldFields hfits locate

theorem message (h : Steps step s fs t) (hsize : (write fs).length < wordLimit) :
    message step s (write fs) = pure t := h.messageAt hsize _

/-- Fields that each add to what was read of a list before. -/
theorem each {α : Type} (state : List α → σ) {f : α → Field} {xs : List α} (done : List α)
    (hn : ∀ x, (f x).isNumbered = true)
    (h : ∀ before x after, done ++ xs = before ++ x :: after → (f x).bytes.length < wordLimit →
      step (state before) (f x) = pure (state (before ++ [x]))) :
    Steps step (state done) (xs.map f) (state (done ++ xs)) := by
  induction xs generalizing done with
  | nil => simpa using Steps.done
  | cons x xs ih =>
    refine .next (hn x) (h done x xs rfl) ?_
    have hrest := ih (done ++ [x]) fun before y after heq => h before y after (by simpa using heq)
    simpa using hrest

/-- Messages that are each read on their own. -/
theorem parts {α : Type} (state : List α → σ) {read : Bytes → Noted α} {fields : α → List Field}
    {xs : List α} (hn : (⟨number, .group⟩ : Field).isNumbered = true)
    (hread : ∀ x ∈ xs, (write (fields x)).length < wordLimit → read (write (fields x)) = pure x)
    (h : ∀ before x b, read b = pure x →
      step (state before) ⟨number, .bytes b⟩ = pure (state (before ++ [x]))) :
    Steps step (state []) (xs.map fun x => part number (fields x)) (state xs) := by
  refine Steps.each state [] (fun _ => hn) fun before x after heq hfits => ?_
  have hx : x ∈ xs := by
    rw [List.nil_append] at heq
    simp [heq]
  exact h before x _ (hread x hx hfits)

/-- What holds after a field, and before it if its value is blank, holds whether it
was left out or not. -/
theorem optional_exists {P : σ → Prop} {blank : Bool} {f : Field} (hn : f.isNumbered = true)
    (h : f.bytes.length < wordLimit → step s f = pure t) (hs : blank = true → P s) (ht : P t) :
    ∃ u, Steps step s (l.optional blank f) u ∧ P u := by
  unfold Layout.optional
  split
  · next hb => exact ⟨s, .done, hs (Bool.and_eq_true_iff.mp hb).2⟩
  · exact ⟨t, .one hn h, ht⟩

theorem optional {blank : Bool} {f : Field} (hn : f.isNumbered = true)
    (h : f.bytes.length < wordLimit → step s f = pure t) (hblank : blank = true → s = t) :
    Steps step s (l.optional blank f) t := by
  obtain ⟨_, hsteps, rfl⟩ := optional_exists (l := l) (P := (· = t)) hn h hblank rfl
  exact hsteps

theorem text (state : Text → σ) {t : Text} (hn : (textField number t).isNumbered = true)
    (h : step (state .empty) (textField number t) = pure (state t)) :
    Steps step (state .empty) (l.text number t) (state t) := by
  refine .optional hn (fun _ => h) fun hblank => ?_
  rw [Text.eq_empty_of_isEmpty hblank]

theorem int (state : Int64 → σ) {n : Int64} (hn : (intField number n).isNumbered = true)
    (h : step (state 0) (intField number n) = pure (state n)) :
    Steps step (state 0) (l.int number n) (state n) := by
  refine .optional hn (fun _ => h) fun hblank => ?_
  rw [beq_iff_eq.mp hblank]

/-- The numbers of a list, packed or not. -/
theorem ints (state : List Int64 → σ) {ns : List Int64}
    (hn : (⟨number, .group⟩ : Field).isNumbered = true)
    (h : ∀ before f ms, f.number = number → f.ints = .ok ms →
      step (state before) f = pure (state (before ++ ms))) :
    Steps step (state []) (l.ints number ns) (state ns) := by
  unfold Layout.ints
  split
  · refine .optional hn (fun _ => h [] _ ns rfl ?_) fun hblank => ?_
    · simp only [Field.ints, packedInts_write]
      rfl
    · rw [List.isEmpty_iff.mp hblank]
  · refine Steps.each state [] (fun _ => hn) fun before n _ _ _ => h before _ [n] rfl ?_
    simp [Field.ints, intField]

theorem floats (state : List Single → σ) {xs : List Single}
    (hn : (⟨number, .group⟩ : Field).isNumbered = true)
    (h : ∀ before f ys, f.number = number → f.floats = .ok ys →
      step (state before) f = pure (state (before ++ ys))) :
    Steps step (state []) (l.floats number xs) (state xs) := by
  unfold Layout.floats
  split
  · refine .optional hn (fun _ => h [] _ xs rfl ?_) fun hblank => ?_
    · simp only [Field.floats, packedFloats_write]
      rfl
    · rw [List.isEmpty_iff.mp hblank]
  · exact Steps.each state [] (fun _ => hn) fun before x _ _ _ => h before _ [x] rfl rfl

end Steps

/-! ## Types of values -/

theorem dim_write {d : Dim} (hd : d.size?.all (0 ≤ ·) = true)
    (hsize : (write (dimFields d)).length < wordLimit) : dim (write (dimFields d)) = pure d := by
  have hsteps : Steps dimStep .anonymous (dimFields d) d := by
    cases d with
    | known n =>
      refine .one rfl fun _ => ?_
      have hn : ¬ n < 0 := Int64.not_lt.mpr (of_decide_eq_true hd)
      simp [dimStep, intField, Field.scalar, hn]
    | unknown name =>
      rw [dimFields]
      split
      · next hname =>
        rw [Text.eq_empty_of_isEmpty hname]
        exact .done
      · exact .one rfl fun _ => rfl
  exact hsteps.message hsize

theorem shape_write {s : Shape} (hs : ∀ d ∈ s, d.size?.all (0 ≤ ·) = true)
    (hsize : (write (shapeFields s)).length < wordLimit) : shape (write (shapeFields s)) = pure s := by
  have hsteps : Steps shapeStep [] (shapeFields s) s := by
    refine Steps.parts id rfl (fun d hd => dim_write (hs d hd)) ?_
    intro before d b hread
    simp only [shapeStep, Field.bytes, hread]
    rfl
  exact hsteps.message hsize

variable (l : Layout)

/-- A code is read as the element type that it was written for, without a note. -/
theorem elementType_code {element : Option ElementType} (name : Text)
    (h : ∀ t ∈ element, t.code?.isSome = true) :
    elementType name (elementCode element).toUInt64 = pure element := by
  cases element with
  | none => rfl
  | some t =>
    have ht := h t rfl
    cases t <;> first | rfl | cases ht

theorem eq_none_of_code {element : Option ElementType} (h : ∀ t ∈ element, t.code?.isSome = true)
    (hzero : elementCode element = 0) : element = none := by
  have hread := elementType_code .empty h
  rw [hzero] at hread
  exact (Except.ok.inj (congrArg Noted.value hread)).symm

theorem tensorType_write {info : TensorInfo} (name : Text)
    (he : ∀ t ∈ info.element, t.code?.isSome = true)
    (hs : ∀ s ∈ info.shape, ∀ d ∈ s, d.size?.all (0 ≤ ·) = true)
    (hsize : (write (l.tensorType info)).length < wordLimit) :
    tensorType name (write (l.tensorType info)) = pure info := by
  have helement : Steps (tensorTypeStep name) {} (l.int 1 (elementCode info.element))
      { element := info.element } := by
    refine .optional rfl (fun _ => ?_) fun hblank => ?_
    · simp only [tensorTypeStep, intField, Field.scalar, elementType_code name he]
      rfl
    · rw [eq_none_of_code he (beq_iff_eq.mp hblank)]
  have hshape : Steps (tensorTypeStep name) { element := info.element } (rankedFields info.shape)
      info := by
    obtain ⟨element, shape⟩ := info
    cases shape with
    | none => exact .done
    | some s =>
      refine .one rfl fun hfits => ?_
      have hread := shape_write (hs s rfl) hfits
      simp only [tensorTypeStep, part, Field.bytes, hread]
      rfl
  exact (helement.append hshape).message hsize

theorem declaration_write {d : Declaration} (hd : d.Writable)
    (hsize : (write (l.declaration d)).length < wordLimit) :
    declaration (write (l.declaration d)) = pure d := by
  have hname : Steps declarationStep ⟨.empty, {}⟩ (l.text 1 d.name) ⟨d.name, {}⟩ :=
    Steps.text (Declaration.mk · {}) rfl rfl
  have htype : Steps typeStep ⟨d.name, {}⟩ [part 1 (l.tensorType d.info)] d := by
    refine .one rfl fun hfits => ?_
    have hread := tensorType_write l d.name hd.element hd.sizes hfits
    simp only [typeStep, part, Field.bytes, hread]
    rfl
  have hpart : Steps declarationStep ⟨d.name, {}⟩ [part 2 [part 1 (l.tensorType d.info)]] d :=
    .one rfl fun hfits => htype.message hfits
  exact (hname.append hpart).messageAt hsize _

/-- A shape whose sizes are all known is that of its sizes. -/
theorem eq_ofSizes {s : Shape} (h : s.isFullyKnown = true) :
    ∃ sizes, s = Shape.ofSizes sizes ∧ s.sizes? = some sizes := by
  induction s with
  | nil => exact ⟨[], rfl, rfl⟩
  | cons d s ih =>
    simp only [Shape.isFullyKnown, List.all_cons, Bool.and_eq_true] at h ih
    obtain ⟨sizes, rfl, hsizes⟩ := ih h.2
    cases d with
    | unknown name => cases h.1
    | known n =>
      refine ⟨n :: sizes, rfl, ?_⟩
      simp only [Shape.sizes?] at hsizes
      simp [Shape.sizes?, hsizes, Dim.size?]

theorem tensor_write {d : Declaration} (hd : d.WritableConstant)
    (hsize : (write (l.tensor d)).length < wordLimit) : tensor (write (l.tensor d)) = pure d := by
  obtain ⟨name, element, shape⟩ := d
  obtain _ | shape := shape
  · cases hd.sizes
  obtain ⟨sizes, rfl, hknown⟩ := eq_ofSizes hd.sizes
  have hsizes : Steps tensorStep {} (l.ints 1 sizes) { sizes } := by
    refine Steps.ints (TensorParts.mk .empty · 0) rfl fun before f ms hnumber hms => ?_
    simp only [tensorStep, hnumber, hms]
    rfl
  have helement : Steps tensorStep { sizes } (l.int 2 (elementCode element))
      { sizes, element := (elementCode element).toUInt64 } :=
    Steps.int (fun n => TensorParts.mk .empty sizes n.toUInt64) rfl rfl
  have hname : Steps tensorStep { sizes, element := (elementCode element).toUInt64 }
      (l.text 8 name) ⟨name, sizes, (elementCode element).toUInt64⟩ :=
    Steps.text (TensorParts.mk · sizes (elementCode element).toUInt64) rfl rfl
  have hfields : l.tensor ⟨name, element, some (Shape.ofSizes sizes)⟩ =
      l.ints 1 sizes ++ l.int 2 (elementCode element) ++ l.text 8 name := by
    simp [Layout.tensor, hknown]
  rw [hfields] at hsize ⊢
  have hread := ((hsizes.append helement).append hname).message hsize
  simp only [tensor, hread, Noted.pure_bind, elementType_code name hd.element]

/-! ## Nodes -/

/-- What is read of the value of an attribute says so much as the value, even
where a zero was left out. -/
theorem attributeValue_steps (name : Text) {a : Attribute} (ha : a.isTyped = true) :
    ∃ parts : AttributeParts, Steps attributeStep { name } (l.attributeValue a) parts ∧
      parts.name = name ∧ ∀ type, { parts with type }.typed? a.type = some a := by
  cases a with
  | float x =>
    have hstep : attributeStep { name } (floatField 2 x) = pure { name, float := some x } := by
      simp [attributeStep, floatField, Field.scalar]
    refine Steps.optional_exists rfl (fun _ => hstep) (fun hblank => ?_) ⟨rfl, fun _ => rfl⟩
    obtain rfl : x = ⟨0⟩ := congrArg Single.mk (beq_iff_eq.mp hblank)
    exact ⟨rfl, fun _ => rfl⟩
  | int n =>
    have hstep : attributeStep { name } (intField 3 n) = pure { name, int := some n } := rfl
    refine Steps.optional_exists rfl (fun _ => hstep) (fun hblank => ?_) ⟨rfl, fun _ => rfl⟩
    obtain rfl := beq_iff_eq.mp hblank
    exact ⟨rfl, fun _ => rfl⟩
  | string t =>
    have hstep : attributeStep { name } (textField 4 t) = pure { name, string := some t } := rfl
    refine Steps.optional_exists rfl (fun _ => hstep) (fun hblank => ?_) ⟨rfl, fun _ => rfl⟩
    obtain rfl := Text.eq_empty_of_isEmpty hblank
    exact ⟨rfl, fun _ => rfl⟩
  | floats xs =>
    refine ⟨{ name, floats := xs }, ?_, rfl, fun _ => rfl⟩
    refine Steps.floats (fun xs => AttributeParts.mk name 0 none none none xs [] []) rfl ?_
    intro before f ys hnumber hys
    simp only [attributeStep, hnumber, hys]
    rfl
  | ints ns =>
    refine ⟨{ name, ints := ns }, ?_, rfl, fun _ => rfl⟩
    refine Steps.ints (fun ns => AttributeParts.mk name 0 none none none [] ns []) rfl ?_
    intro before f ms hnumber hms
    simp only [attributeStep, hnumber, hms]
    rfl
  | strings ts =>
    refine ⟨{ name, strings := ts }, ?_, rfl, fun _ => rfl⟩
    exact Steps.each (fun ts => AttributeParts.mk name 0 none none none [] [] ts) [] (fun _ => rfl)
      fun _ _ _ _ _ => rfl
  | coded code => cases ha

theorem ofCode_code {a : Attribute} (ha : a.isTyped = true) :
    Int64.ofInt a.type.code ≠ 0 ∧ AttributeType.ofCode (Int64.ofInt a.type.code).toInt = a.type := by
  cases a with
  | coded code => cases ha
  | _ =>
    rw [Attribute.type]
    decide

theorem namedAttribute_write (name : Text) {a : Attribute} (ha : a.isTyped = true)
    (hsize : (write (l.namedAttribute name a)).length < wordLimit) :
    ∃ parts, namedAttribute (write (l.namedAttribute name a)) = pure parts ∧
      parts.name = name ∧ parts.value? = some a := by
  obtain ⟨parts, hvalue, hname, htyped⟩ := attributeValue_steps l name ha
  have hnamed : Steps attributeStep {} (l.text 1 name) { name } :=
    Steps.text (AttributeParts.mk · 0 none none none [] [] []) rfl rfl
  have htype : Steps attributeStep parts [intField 20 (Int64.ofInt a.type.code)]
      { parts with type := Int64.ofInt a.type.code } := .one rfl fun _ => rfl
  have hread : attributeParts (write (l.namedAttribute name a)) = _ :=
    ((hnamed.append hvalue).append htype).messageAt hsize _
  have hcode := ofCode_code ha
  have hkept : ({ parts with type := Int64.ofInt a.type.code } : AttributeParts).isRead = true := by
    simp only [AttributeParts.isRead, hcode.2, htyped, Option.isSome_some, Bool.or_true]
  refine ⟨{ parts with type := Int64.ofInt a.type.code }, ?_, hname, ?_⟩
  · rw [namedAttribute, hread, Noted.pure_bind, AttributeParts.kept, if_pos hkept]
  · simp only [AttributeParts.value?, if_neg hcode.1, hcode.2, htyped]

theorem node_write {n : Node} (hn : n.Writable) (hsize : (write (l.node n)).length < wordLimit) :
    node (write (l.node n)) = pure n := by
  obtain ⟨name, op, domain, inputs, outputs, ⟨entries⟩⟩ := n
  have hinputs : Steps nodeStep {} (inputs.map (textField 1)) { inputs } :=
    Steps.each (Node.mk .empty .empty .empty · [] {}) [] (fun _ => rfl) fun _ _ _ _ _ => rfl
  have houtputs : Steps nodeStep { inputs } (outputs.map (textField 2)) { inputs, outputs } :=
    Steps.each (Node.mk .empty .empty .empty inputs · {}) [] (fun _ => rfl) fun _ _ _ _ _ => rfl
  have hname : Steps nodeStep { inputs, outputs } (l.text 3 name) { name, inputs, outputs } :=
    Steps.text (Node.mk · .empty .empty inputs outputs {}) rfl rfl
  have hop : Steps nodeStep { name, inputs, outputs } (l.text 4 op) { name, op, inputs, outputs } :=
    Steps.text (Node.mk name · .empty inputs outputs {}) rfl rfl
  have hattributes : Steps nodeStep { name, op, inputs, outputs }
      (entries.map fun e => part 5 (l.namedAttribute e.1 e.2))
      { name, op, inputs, outputs, attributes := ⟨entries⟩ } := by
    refine Steps.each (fun es => Node.mk name op .empty inputs outputs ⟨es⟩) [] (fun _ => rfl) ?_
    intro before e after heq hfits
    obtain rfl : entries = before ++ e :: after := heq
    obtain ⟨parts, hread, hkey, hvalue⟩ := namedAttribute_write l e.1 (hn.values e (by simp)) hfits
    have hnew : e.1 ∉ before.map Prod.fst := by
      have hnodup := hn.names
      simp only [Dict.keys, List.map_append, List.map_cons] at hnodup
      exact fun hmem => (List.nodup_append.mp hnodup).2.2 _ hmem _ List.mem_cons_self rfl
    simp only [nodeStep, part, Field.bytes, hread, Noted.pure_bind, hvalue, hkey, Dict.insert,
      Dict.put_of_not_mem hnew]
  have hdomain : Steps nodeStep { name, op, inputs, outputs, attributes := ⟨entries⟩ }
      (l.text 7 domain) ⟨name, op, domain, inputs, outputs, ⟨entries⟩⟩ :=
    Steps.text (Node.mk name op · inputs outputs ⟨entries⟩) rfl rfl
  exact (((((hinputs.append houtputs).append hname).append hop).append hattributes).append
    hdomain).message hsize

/-! ## Models -/

theorem graph_write {g : Graph} (hnodes : ∀ n ∈ g.nodes, n.Writable)
    (hdecls : ∀ d ∈ g.inputs ++ g.outputs ++ g.intermediates, d.Writable)
    (hconstants : ∀ d ∈ g.constants, d.WritableConstant)
    (hsize : (write (l.graph g)).length < wordLimit) : graph (write (l.graph g)) = pure g := by
  obtain ⟨name, inputs, outputs, intermediates, constants, nodes⟩ := g
  have hns : Steps graphStep {} (nodes.map fun n => part 1 (l.node n)) { nodes } := by
    refine Steps.parts (Graph.mk .empty [] [] [] [] ·) rfl
      (fun n hn => node_write l (hnodes n hn)) ?_
    intro before n b hread
    simp only [graphStep, Field.bytes, hread]
    rfl
  have hname : Steps graphStep { nodes } (l.text 2 name) { name, nodes } :=
    Steps.text (Graph.mk · [] [] [] [] nodes) rfl rfl
  have hcs : Steps graphStep { name, nodes } (constants.map fun d => part 5 (l.tensor d))
      { name, constants, nodes } := by
    refine Steps.parts (Graph.mk name [] [] [] · nodes) rfl
      (fun d hd => tensor_write l (hconstants d hd)) ?_
    intro before d b hread
    simp only [graphStep, Field.bytes, hread]
    rfl
  have hins : Steps graphStep { name, constants, nodes }
      (inputs.map fun d => part 11 (l.declaration d)) { name, inputs, constants, nodes } := by
    refine Steps.parts (Graph.mk name · [] [] constants nodes) rfl
      (fun d hd => declaration_write l (hdecls d (by simp [hd]))) ?_
    intro before d b hread
    simp only [graphStep, Field.bytes, hread]
    rfl
  have houts : Steps graphStep { name, inputs, constants, nodes }
      (outputs.map fun d => part 12 (l.declaration d)) { name, inputs, outputs, constants, nodes } := by
    refine Steps.parts (Graph.mk name inputs · [] constants nodes) rfl
      (fun d hd => declaration_write l (hdecls d (by simp [hd]))) ?_
    intro before d b hread
    simp only [graphStep, Field.bytes, hread]
    rfl
  have hmids : Steps graphStep { name, inputs, outputs, constants, nodes }
      (intermediates.map fun d => part 13 (l.declaration d))
      ⟨name, inputs, outputs, intermediates, constants, nodes⟩ := by
    refine Steps.parts (Graph.mk name inputs outputs · constants nodes) rfl
      (fun d hd => declaration_write l (hdecls d (by simp [hd]))) ?_
    intro before d b hread
    simp only [graphStep, Field.bytes, hread]
    rfl
  exact (((((hns.append hname).append hcs).append hins).append houts).append hmids).message hsize

theorem operatorSet_write {s : OperatorSet} (hsize : (write (l.operatorSet s)).length < wordLimit) :
    operatorSet (write (l.operatorSet s)) = pure s := by
  have hdomain : Steps operatorSetStep {} (l.text 1 s.domain) { domain := s.domain } :=
    Steps.text (OperatorSet.mk · 0) rfl rfl
  have hversion : Steps operatorSetStep { domain := s.domain } (l.int 2 s.version) s :=
    Steps.int (OperatorSet.mk s.domain ·) rfl rfl
  exact (hdomain.append hversion).message hsize

theorem model_write {m : Model} (hm : m.Writable) (hsize : (write (l.model m)).length < wordLimit) :
    model (write (l.model m)) = pure m := by
  obtain ⟨version, producer, sets, opset, g⟩ := m
  obtain rfl : opset = OperatorSet.standardVersion sets := hm.opset
  have hversion : Steps modelStep {} (l.int 1 version) { formatVersion := version } :=
    Steps.int (ModelParts.mk · .empty [] []) rfl rfl
  have hproducer : Steps modelStep { formatVersion := version } (l.text 2 producer)
      { formatVersion := version, producer } := Steps.text (ModelParts.mk version · [] []) rfl rfl
  have hgraph : Steps modelStep { formatVersion := version, producer } [part 7 (l.graph g)]
      { formatVersion := version, producer, graph := write (l.graph g) } := .one rfl fun _ => rfl
  have hsets : Steps modelStep { formatVersion := version, producer, graph := write (l.graph g) }
      (sets.map fun s => part 8 (l.operatorSet s)) ⟨version, producer, sets, write (l.graph g)⟩ := by
    refine Steps.parts (ModelParts.mk version producer · (write (l.graph g))) rfl
      (fun s _ => operatorSet_write l) ?_
    intro before s b hread
    simp only [modelStep, Field.bytes, hread]
    rfl
  have hread := (((hversion.append hproducer).append hgraph).append hsets).message hsize
  have hmem : part 7 (l.graph g) ∈
      l.model ⟨version, producer, sets, OperatorSet.standardVersion sets, g⟩ := by
    simp [Layout.model]
  have hgraph := graph_write l hm.nodes hm.declarations hm.constants
    (Nat.lt_of_le_of_lt (length_write_le_of_mem hmem) hsize)
  simp only [Layout.model, model, hread, Noted.pure_bind, hgraph, Noted.within_pure]

/-- **Reading undoes writing:** every model that can be written is read back from
its file, in any layout and without a note, if the file is not too large. -/
theorem load_write {m : Model} (hm : m.Writable)
    (hsize : (write (l.model m)).length < wordLimit) :
    ModelFormat.wire.load ⟨write (l.model m)⟩ = ⟨.ok m, []⟩ := by
  have hread := model_write l hm hsize
  simp only [ModelFormat.load, hread]
  rfl

/-- A model with every kind of attribute, size, element type and declaration. -/
def specimen : Model where
  formatVersion := -3
  producer := "writer"
  operatorSets := [⟨"ai.onnx", 11⟩, ⟨"other", -1⟩, ⟨"", 13⟩, ⟨"other", 0⟩]
  opset := 13
  graph := {
    name := "g"
    inputs := [⟨"x", ⟨some .float32, some [.unknown "N", .known 0, .anonymous]⟩⟩]
    outputs := [⟨"y", ⟨none, none⟩⟩]
    intermediates := [⟨"z", ⟨some .bfloat16, some []⟩⟩]
    constants := [⟨"w", ⟨some .int64, some [.known 3, .known (-1)]⟩⟩]
    nodes := [{
      name := "n", op := "Conv", domain := "d", inputs := ["x", "", "w"], outputs := ["y"]
      attributes := ⟨[("a", .int (-5)), ("b", .float ⟨0x80000000⟩), ("c", .string .empty),
        ("d", .ints [0, -1, 300]), ("e", .floats [⟨0⟩, ⟨0x3F800000⟩]), ("f", .strings ["", "s"]),
        ("g", .ints []), ("h", .int 0)]⟩ }] }

theorem writable_specimen : specimen.Writable := by
  refine ⟨by cbv, fun n hn => ?_, fun d hd => ?_, fun d hd => ?_⟩
  · obtain rfl := List.mem_singleton.mp hn
    exact ⟨by decide, by decide⟩
  · simp only [specimen, List.cons_append, List.nil_append, List.mem_cons, List.not_mem_nil,
      or_false] at hd
    rcases hd with rfl | rfl | rfl <;> exact ⟨by decide, by decide⟩
  · obtain rfl := List.mem_singleton.mp hd
    exact ⟨by decide, by decide⟩

theorem load_specimen : (write ((Layout.mk true false).model specimen)).length < wordLimit ∧
    ModelFormat.wire.load ⟨write ((Layout.mk true false).model specimen)⟩ = ⟨.ok specimen, []⟩ := by
  have hsize : (write ((Layout.mk true false).model specimen)).length < wordLimit := by
    decide +kernel
  exact ⟨hsize, load_write _ writable_specimen hsize⟩

end ShapeFlow.Wire
