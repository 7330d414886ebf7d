/-
Fields that no decoder knows. A message may hold more than is read of it: a field of a number
that the decoder of the message does not handle is skipped, whatever its type. So a file says
the same after such a field was put between two fields of a message, be it the model or one
deep in it, and the messages around were given their new lengths (`load_extended`).
-/
import Mathlib
import ShapeFlow.ModelFile
import ShapeFlow.Proofs.Wire.Grammar
import ShapeFlow.Proofs.Wire.Sizes

namespace ShapeFlow.Wire

/-- The messages in a model file. -/
inductive Kind where
  | model
  | operatorSet
  | graph
  | node
  | attr
  | declaration
  | type
  | tensorType
  | shape
  | dim
  | tensor
  | sparseTensor
deriving DecidableEq

namespace Kind

/-- The numbers of the fields that are read. -/
def handled : Kind → List Nat
  | model => [1, 2, 7, 8]
  | operatorSet => [1, 2]
  | graph => [1, 2, 5, 11, 12, 13, 15]
  | node => [1, 2, 3, 4, 5, 7]
  | attr => [1, 2, 3, 4, 7, 8, 9, 20]
  | declaration => [1, 2]
  | type => [1]
  | tensorType => [1, 2]
  | shape => [1]
  | dim => [1, 2]
  | tensor => [1, 2, 8]
  | sparseTensor => [1, 3]

/-- Which fields of a message are read as messages. -/
inductive Holds : Kind → Nat → Kind → Prop
  | graph : Holds model 7 graph
  | operatorSet : Holds model 8 operatorSet
  | node : Holds graph 1 node
  | constant : Holds graph 5 tensor
  | input : Holds graph 11 declaration
  | output : Holds graph 12 declaration
  | intermediate : Holds graph 13 declaration
  | sparseConstant : Holds graph 15 sparseTensor
  | attr : Holds node 5 attr
  | type : Holds declaration 2 type
  | tensorType : Holds type 1 tensorType
  | shape : Holds tensorType 2 shape
  | dim : Holds shape 1 dim
  | values : Holds sparseTensor 1 tensor

theorem Holds.ne_model {k inner : Kind} {number : Nat} (h : k.Holds number inner) :
    inner ≠ model := by
  cases h <;> decide

/-- Only a model has a graph. -/
theorem Holds.ne_graph {k inner : Kind} {number : Nat} (h : k.Holds number inner) (hk : k ≠ model) :
    inner ≠ Kind.graph := by
  cases h with
  | graph => exact absurd rfl hk
  | _ => decide

end Kind

/-- The second message is the first with one more field, which is not handled where it stands:
between two fields of the message itself, or inside a message that one of its fields holds. -/
inductive Extended : Kind → Bytes → Bytes → Prop
  | here {k : Kind} {fs : List Field} {f : Field} {before u after : Bytes} :
      Series IsField fs before → IsField f u → f.number ∉ k.handled →
      Extended k (before ++ after) (before ++ (u ++ after))
  | inside {k inner : Kind} {number : Nat} {fs : List Field} {b c before u v after : Bytes} :
      Series IsField fs before → k.Holds number inner → Extended inner b c →
      IsField ⟨number, .bytes b⟩ u → IsField ⟨number, .bytes c⟩ v →
      Extended k (before ++ (u ++ after)) (before ++ (v ++ after))

/-! ## Messages -/

section Message

variable {σ : Type} (locate : σ → DecodeError → DecodeError) {step : σ → Field → Noted σ}

theorem foldFields_cons (error : Option FieldError) (s : σ) (f : Field) (fs : List Field) :
    foldFields locate step error s (f :: fs) =
      ⟨(step s f).value.mapError (locate s), (step s f).notes⟩ >>=
        (foldFields locate step error · fs) := by
  simp only [foldFields]
  cases (step s f).value <;> rfl

theorem messageAt_field {f : Field} {u : Bytes} (hu : IsField f u) (s : σ) (c : Bytes) :
    messageAt locate step s (u ++ c) =
      ⟨(step s f).value.mapError (locate s), (step s f).notes⟩ >>= (messageAt locate step · c) := by
  have hsplit := split_of_field (reads_field.append hu c)
  simp only [messageAt, hsplit]
  exact foldFields_cons locate _ s f _

/-- What is decoded alike is so after the same fields. -/
theorem messageAt_congr {fs : List Field} {before b c : Bytes} (hbefore : Series IsField fs before)
    (h : ∀ s, messageAt locate step s b = messageAt locate step s c) (s : σ) :
    messageAt locate step s (before ++ b) = messageAt locate step s (before ++ c) := by
  induction hbefore generalizing s with
  | nil => exact h s
  | cons hu _ ih =>
    simp only [List.append_assoc]
    rw [messageAt_field locate hu, messageAt_field locate hu, funext fun t => ih t]

/-- A field is skipped if it leaves every state as it is. -/
theorem messageAt_skip {f : Field} {u : Bytes} (hu : IsField f u) (h : ∀ s, step s f = pure s)
    (s : σ) (c : Bytes) : messageAt locate step s (u ++ c) = messageAt locate step s c := by
  rw [messageAt_field locate hu, h]
  rfl

/-- A field may be replaced by one that does the same to every state. -/
theorem messageAt_replace {f g : Field} {u v : Bytes} (hu : IsField f u) (hv : IsField g v)
    (h : ∀ s, step s f = step s g) (s : σ) (c : Bytes) :
    messageAt locate step s (u ++ c) = messageAt locate step s (v ++ c) := by
  rw [messageAt_field locate hu, messageAt_field locate hv, h]

end Message

/-! ## Decoders -/

namespace Kind

/-- What is built up from a message. -/
abbrev State : Kind → Type
  | model => ModelParts
  | operatorSet => OperatorSet
  | graph => Graph
  | node => Node
  | attr => AttributeParts
  | declaration => Declaration
  | type => Declaration
  | tensorType => TensorInfo
  | shape => Shape
  | dim => Dim
  | tensor => TensorParts
  | sparseTensor => SparseParts

/-- What a field adds; a tensor type belongs to a value of some name. -/
def step (name : Text) : (k : Kind) → k.State → Field → Noted k.State
  | model => modelStep
  | operatorSet => operatorSetStep
  | graph => graphStep
  | node => nodeStep
  | attr => attributeStep
  | declaration => declarationStep
  | type => typeStep
  | tensorType => tensorTypeStep name
  | shape => shapeStep
  | dim => dimStep
  | tensor => tensorStep
  | sparseTensor => sparseStep

/-- Fields of other numbers than the handled ones are skipped. -/
theorem step_of_not_handled {k : Kind} {f : Field} (h : f.number ∉ k.handled) (name : Text)
    (s : k.State) : k.step name s f = pure s := by
  cases k <;>
    simp only [handled, List.mem_cons, List.not_mem_nil, or_false, not_or] at h <;>
    simp only [step, modelStep, operatorSetStep, graphStep, nodeStep, attributeStep,
      declarationStep, typeStep, tensorTypeStep, shapeStep, dimStep, tensorStep, sparseStep] <;>
    split <;> first | omega | rfl

/-- Two messages of a kind are decoded alike, whatever was decoded before. -/
def Alike (k : Kind) (b c : Bytes) : Prop :=
  ∀ name locate s, messageAt locate (k.step name) s b = messageAt locate (k.step name) s c

/-- A field may hold another message that is decoded alike. The graph of a model is not decoded
where it stands, and is left out. -/
theorem step_congr {k inner : Kind} {number : Nat} (hk : k.Holds number inner)
    (hgraph : inner ≠ .graph) {b c : Bytes} (h : inner.Alike b c) (name : Text) (s : k.State) :
    k.step name s ⟨number, .bytes b⟩ = k.step name s ⟨number, .bytes c⟩ := by
  cases hk with
  | graph => exact absurd rfl hgraph
  | operatorSet =>
    have hread : Wire.operatorSet b = Wire.operatorSet c := h .empty _ _
    simp only [step, modelStep, Field.bytes, hread]
  | node =>
    have hread : Wire.node b = Wire.node c := h .empty _ _
    simp only [step, graphStep, Field.bytes, hread]
  | constant =>
    have hread : message tensorStep {} b = message tensorStep {} c := h .empty _ _
    simp only [step, graphStep, Field.bytes, Wire.tensor, hread]
  | input =>
    have hread : Wire.declaration b = Wire.declaration c := h .empty _ _
    simp only [step, graphStep, Field.bytes, hread]
  | output =>
    have hread : Wire.declaration b = Wire.declaration c := h .empty _ _
    simp only [step, graphStep, Field.bytes, hread]
  | intermediate =>
    have hread : Wire.declaration b = Wire.declaration c := h .empty _ _
    simp only [step, graphStep, Field.bytes, hread]
  | sparseConstant =>
    have hread : message sparseStep {} b = message sparseStep {} c := h .empty _ _
    simp only [step, graphStep, Field.bytes, Wire.sparseTensor, hread]
  | attr =>
    have hread : attributeParts b = attributeParts c := h .empty _ _
    simp only [step, nodeStep, Field.bytes, namedAttribute, hread]
  | type => exact h .empty _ s
  | tensorType =>
    have hread : Wire.tensorType s.name b = Wire.tensorType s.name c := h s.name _ _
    simp only [step, typeStep, Field.bytes, hread]
  | shape =>
    have hread : Wire.shape b = Wire.shape c := h .empty _ _
    simp only [step, tensorTypeStep, Field.bytes, hread]
  | dim =>
    have hread : Wire.dim b = Wire.dim c := h .empty _ _
    simp only [step, shapeStep, Field.bytes, hread]
  | values =>
    have hread : message tensorStep {} b = message tensorStep {} c := h .empty _ _
    simp only [step, sparseStep, Field.bytes, Wire.tensor, hread]

end Kind

theorem Kind.Alike.skip {k : Kind} {fs : List Field} {f : Field} {before u : Bytes}
    (hbefore : Series IsField fs before) (hu : IsField f u) (hnumber : f.number ∉ k.handled)
    (after : Bytes) : k.Alike (before ++ after) (before ++ (u ++ after)) := by
  intro name locate s
  refine messageAt_congr locate hbefore (fun t => ?_) s
  exact (messageAt_skip locate hu (step_of_not_handled hnumber name) t after).symm

theorem Kind.Alike.replace {k inner : Kind} {number : Nat} {fs : List Field} {b c before u v : Bytes}
    (hbefore : Series IsField fs before) (hholds : k.Holds number inner) (hgraph : inner ≠ .graph)
    (hinner : inner.Alike b c) (hu : IsField ⟨number, .bytes b⟩ u) (hv : IsField ⟨number, .bytes c⟩ v)
    (after : Bytes) : k.Alike (before ++ (u ++ after)) (before ++ (v ++ after)) := by
  intro name locate s
  refine messageAt_congr locate hbefore (fun t => ?_) s
  exact messageAt_replace locate hu hv (step_congr hholds hgraph hinner name) t after

/-- **No message in a model says more or less with one more field.** -/
theorem alike_of_extended {k : Kind} {b c : Bytes} (h : Extended k b c) (hk : k ≠ .model) :
    k.Alike b c := by
  induction h with
  | here hbefore hu hnumber => exact .skip hbefore hu hnumber _
  | inside hbefore hholds _ hu hv ih =>
    exact .replace hbefore hholds (hholds.ne_graph hk) (ih hholds.ne_model) hu hv _

/-! ## Models -/

theorem modelStep_of_ne {f : Field} (h : f.number ≠ 7) (m : ModelParts) (g : Bytes) :
    modelStep { m with graph := g } f = modelStep m f >>= fun n => pure { n with graph := g } := by
  unfold modelStep
  split
  · rfl
  · rfl
  · omega
  · simp only [bind_assoc, pure_bind]
  · rfl

/-- Where errors are not located, a field is read and then those after it. -/
theorem foldFields_bind {σ : Type} {step : σ → Field → Noted σ} (error : Option FieldError) (s : σ)
    (f : Field) (fs : List Field) : foldFields (fun _ e => e) step error s (f :: fs) =
      step s f >>= (foldFields (fun _ e => e) step error · fs) := by
  rw [foldFields_cons]
  obtain ⟨value, notes⟩ := step s f
  cases value <;> rfl

section Graph

variable {τ : Type} {finish : ModelParts → Noted τ} {g g' : Bytes}
  (hfinish : ∀ m : ModelParts, finish { m with graph := g } = finish { m with graph := g' })

include hfinish in
/-- Which graph was found before the rest of a model does not matter, if it does not at the end:
another graph takes its place, or it is decoded after all fields. -/
theorem foldFields_graph (error : Option FieldError) (fs : List Field) (m : ModelParts) :
    foldFields (fun _ e => e) modelStep error { m with graph := g } fs >>= finish =
      foldFields (fun _ e => e) modelStep error { m with graph := g' } fs >>= finish := by
  induction fs generalizing m with
  | nil =>
    cases error with
    | none => exact hfinish m
    | some e => rfl
  | cons f fs ih =>
    rw [foldFields_bind, foldFields_bind]
    by_cases hnumber : f.number = 7
    · have hlast : ∀ g, modelStep { m with graph := g } f = pure { m with graph := f.bytes } := by
        intro g
        simp only [modelStep, hnumber]
      rw [hlast, hlast]
    · rw [modelStep_of_ne hnumber m g, modelStep_of_ne hnumber m g']
      simp only [bind_assoc, pure_bind, ih]

include hfinish in
theorem foldFields_replace_graph (error : Option FieldError) (fs after : List Field) (m : ModelParts) :
    foldFields (fun _ e => e) modelStep error m (fs ++ ⟨7, .bytes g⟩ :: after) >>= finish =
      foldFields (fun _ e => e) modelStep error m (fs ++ ⟨7, .bytes g'⟩ :: after) >>= finish := by
  induction fs generalizing m with
  | nil =>
    simp only [List.nil_append, foldFields_bind, bind_assoc]
    exact foldFields_graph hfinish error after m
  | cons f fs ih => simp only [List.cons_append, foldFields_bind, bind_assoc, ih]

end Graph

theorem model_of_alike {b c : Bytes} (h : Kind.model.Alike b c) : model b = model c := by
  have hread : message modelStep {} b = message modelStep {} c := h .empty _ _
  simp only [model, hread]

/-- The graph of a model may be replaced by one that is decoded alike. -/
theorem model_replace_graph {fs : List Field} {g g' before u v : Bytes}
    (hbefore : Series IsField fs before) (hu : IsField ⟨7, .bytes g⟩ u) (hv : IsField ⟨7, .bytes g'⟩ v)
    (h : graph g = graph g') (after : Bytes) :
    model (before ++ (u ++ after)) = model (before ++ (v ++ after)) := by
  simp only [model, message, messageAt, split_append hbefore,
    split_of_field (reads_field.append hu after), split_of_field (reads_field.append hv after)]
  refine foldFields_replace_graph (fun m => ?_) _ fs _ {}
  simp only [h]

/-- **A model says the same with one more field in it.** -/
theorem model_of_extended {b c : Bytes} (h : Extended .model b c) : model b = model c := by
  cases h with
  | here hbefore hu hnumber => exact model_of_alike (.skip hbefore hu hnumber _)
  | inside hbefore hholds hinner hu hv =>
    have halike := alike_of_extended hinner hholds.ne_model
    cases hholds with
    | operatorSet => exact model_of_alike (.replace hbefore .operatorSet nofun halike hu hv _)
    | graph => exact model_replace_graph hbefore hu hv (halike .empty _ _) _

/-- **Fields that are not handled are skipped:** a file that has one more of them, in any of its
messages, is loaded as it was without it, to the same model and the same events. -/
theorem load_extended {b c : Bytes} (h : Extended .model b c) :
    ModelFormat.wire.load ⟨c⟩ = ModelFormat.wire.load ⟨b⟩ := by
  simp only [ModelFormat.load, model_of_extended h]

/-- An attribute of a node of a graph, with something after its name. -/
def filled (extra : Bytes) : Bytes :=
  let attr := write [textField 1 "alpha"] ++ (extra ++ write [floatField 2 ⟨0x3E800000⟩])
  let node := write [textField 1 "x", textField 2 "y"] ++
    (Field.write ⟨5, .bytes attr⟩ ++ write [textField 4 "Elu"])
  let graph := write [textField 2 "g"] ++ (Field.write ⟨1, .bytes node⟩ ++ [])
  write [intField 1 8] ++ (Field.write ⟨7, .bytes graph⟩ ++ write [part 8 [intField 2 13]])

/-- A group that holds a number of eight bytes, one with more digits than it needs, and a
group in which there is a tag of the outer group's number. -/
def strange : Bytes :=
  writeTag 6 3 ++ Field.write ⟨1, .fixed64 5⟩ ++ writeTag 2 0 ++ [0x81, 0x80, 0x00] ++
    writeTag 3 3 ++ Field.write ⟨6, .bytes [0x34]⟩ ++ writeTag 3 4 ++ writeTag 6 4

theorem isField_strange : IsField ⟨6, .group⟩ strange := isField_of_field (by cbv)

theorem extended_filled : Extended .model (filled []) (filled strange) := by
  refine .inside (series_write (by decide +kernel)) .graph ?_ (isField_write rfl (by decide +kernel))
    (isField_write rfl (by decide +kernel))
  refine .inside (series_write (by decide +kernel)) .node ?_ (isField_write rfl (by decide +kernel))
    (isField_write rfl (by decide +kernel))
  refine .inside (series_write (by decide +kernel)) .attr ?_ (isField_write rfl (by decide +kernel))
    (isField_write rfl (by decide +kernel))
  exact .here (series_write (by decide +kernel)) isField_strange (by decide)

theorem load_filled : Extended .model (filled []) (filled strange) ∧
    ModelFormat.wire.load ⟨filled strange⟩ = ModelFormat.wire.load ⟨filled []⟩ ∧
    (ModelFormat.wire.load ⟨filled []⟩).model = .ok {
      formatVersion := 8
      operatorSets := [⟨.empty, 13⟩]
      opset := 13
      graph := {
        name := "g"
        nodes := [{ op := "Elu", inputs := ["x"], outputs := ["y"],
                    attributes := ⟨[("alpha", .float ⟨0x3E800000⟩)]⟩ }] } } :=
  ⟨extended_filled, load_extended extended_filled, by cbv⟩

end ShapeFlow.Wire
