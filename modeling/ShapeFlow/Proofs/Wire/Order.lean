/-
The order of the fields in a message. Fields of different numbers go into different parts of
what a decoder builds, so that neighbours of different numbers can be exchanged (`Independent`);
constants are the exception, two numbers that go into one list. It follows for all orders of the
fields that a decoder can only tell those apart which differ within one number (`Interleaved`,
`result?_messageAt`): either both messages are decoded, to the same value, or neither is
(`sameDecoding_of_wellFormed`).
-/
import Mathlib
import ShapeFlow.Proofs.Wire.Layout

namespace ShapeFlow

namespace Wire

/-! ## Results -/

namespace Noted

variable {α β : Type}

/-- What was decoded, if nothing went wrong. -/
def result? (x : Noted α) : Option α := x.value.toOption

theorem result?_eq_some {x : Noted α} {a : α} : x.result? = some a ↔ x.value = .ok a := by
  unfold result?
  cases x.value <;> simp [Except.toOption]

@[simp] theorem result?_pure (a : α) : (pure a : Noted α).result? = some a := rfl

@[simp] theorem result?_bind (x : Noted α) (f : α → Noted β) :
    (x >>= f).result? = x.result?.bind fun a => (f a).result? := by
  unfold result?
  rw [value_bind]
  cases x.value <;> rfl

/-- The place of an error is nothing to the result. -/
@[simp] theorem result?_within (place : Place) (x : Noted α) :
    (x.within place).result? = x.result? := by
  unfold result? within
  cases x.value <;> rfl

/-- Both succeed, with the same value, or neither does. -/
def SameResult (x y : Noted α) : Prop := ∀ a, x.value = .ok a ↔ y.value = .ok a

theorem sameResult_of_result? {x y : Noted α} (h : x.result? = y.result?) : x.SameResult y := by
  intro a
  rw [← result?_eq_some, ← result?_eq_some, h]

end Noted

/-! ## Orders of fields -/

/-- The same fields, in the same order among those of each key. -/
def Interleaved (key : Field → Nat) (fs gs : List Field) : Prop :=
  ∀ k, fs.filter (key · = k) = gs.filter (key · = k)

section Interleaved

variable {key : Field → Nat} {fs gs : List Field} {f : Field}

/-- Only the keys that are there need a look. -/
theorem interleaved_iff : Interleaved key fs gs ↔
    ∀ f ∈ fs ++ gs, fs.filter (key · = key f) = gs.filter (key · = key f) := by
  refine ⟨fun h f _ => h (key f), fun h k => ?_⟩
  by_cases hk : ∃ f ∈ fs ++ gs, key f = k
  · obtain ⟨f, hf, rfl⟩ := hk
    exact h f hf
  · have hnone : ∀ hs : List Field, (∀ f ∈ hs, f ∈ fs ++ gs) → hs.filter (key · = k) = [] := by
      intro hs hsub
      refine List.filter_eq_nil_iff.mpr fun f hf => ?_
      simpa using fun hkey => hk ⟨f, hsub f hf, hkey⟩
    rw [hnone fs fun f hf => List.mem_append_left gs hf,
      hnone gs fun f hf => List.mem_append_right fs hf]

instance : Decidable (Interleaved key fs gs) := decidable_of_iff' _ interleaved_iff

theorem Interleaved.eq_nil (h : Interleaved key [] gs) : gs = [] := by
  cases gs with
  | nil => rfl
  | cons g gs => simpa using h (key g)

/-- The first field stands somewhere in the other order too, and no field of its key before it;
without it the rest is in both orders again. -/
theorem Interleaved.split_first (h : Interleaved key (f :: fs) gs) :
    ∃ us vs, gs = us ++ f :: vs ∧ (∀ u ∈ us, key u ≠ key f) ∧ Interleaved key fs (us ++ vs) := by
  have hfirst := (h (key f)).symm
  rw [List.filter_cons_of_pos (by simp), List.filter_eq_cons_iff] at hfirst
  obtain ⟨us, vs, rfl, hus, -, -⟩ := hfirst
  refine ⟨us, vs, rfl, by simpa using hus, fun k => ?_⟩
  have hk := h k
  rw [List.filter_append] at hk ⊢
  by_cases hkey : key f = k
  · subst hkey
    have hnone : us.filter (key · = key f) = [] := List.filter_eq_nil_iff.mpr hus
    rw [hnone, List.nil_append] at hk ⊢
    rwa [List.filter_cons_of_pos (by simp), List.filter_cons_of_pos (by simp), List.cons_inj_right] at hk
  · rwa [List.filter_cons_of_neg (by simpa using hkey), List.filter_cons_of_neg (by simpa using hkey)] at hk

/-- Two blocks of fields that share no key may change places. -/
theorem interleaved_swap {us vs : List Field} (h : ∀ u ∈ us, ∀ v ∈ vs, key u ≠ key v)
    (before after : List Field) :
    Interleaved key (before ++ (us ++ vs) ++ after) (before ++ (vs ++ us) ++ after) := by
  intro k
  have hswap : (us ++ vs).filter (key · = k) = (vs ++ us).filter (key · = k) := by
    rw [List.filter_append, List.filter_append]
    -- One of the blocks has no field of the key.
    by_cases hk : ∃ u ∈ us, key u = k
    · obtain ⟨u, hu, rfl⟩ := hk
      have hnone : vs.filter (key · = key u) = [] :=
        List.filter_eq_nil_iff.mpr fun v hv => by simpa using (h u hu v hv).symm
      rw [hnone, List.append_nil, List.nil_append]
    · have hnone : us.filter (key · = k) = [] :=
        List.filter_eq_nil_iff.mpr fun u hu => by simpa using fun hkey => hk ⟨u, hu, hkey⟩
      rw [hnone, List.append_nil, List.nil_append]
  simp only [List.filter_append before, List.filter_append (before ++ _), hswap]

end Interleaved

/-! ## Folding in another order -/

section Fold

variable {σ : Type} {key : Field → Nat} {step : σ → Field → Noted σ}

/-- Fields of different keys can be read in either order: both orders leave the same, or in
neither can both be read. -/
def Independent (key : Field → Nat) (step : σ → Field → Noted σ) : Prop :=
  ∀ f g, key f ≠ key g → ∀ s, (step s f >>= (step · g)).result? = (step s g >>= (step · f)).result?

/-- The state after a list of fields, if each of them can be read. -/
def readAll (step : σ → Field → Noted σ) (fs : List Field) (s : σ) : Option σ :=
  fs.foldlM (fun s f => (step s f).result?) s

@[simp] theorem readAll_cons (f : Field) (fs : List Field) (s : σ) :
    readAll step (f :: fs) s = (step s f).result?.bind (readAll step fs) := rfl

theorem result?_foldFields (locate : σ → DecodeError → DecodeError) (fs : List Field) (s : σ) :
    (foldFields locate step none s fs).result? = readAll step fs s := by
  induction fs generalizing s with
  | nil => rfl
  | cons f fs ih =>
    rw [readAll_cons, foldFields]
    unfold Noted.result?
    cases (step s f).value with
    | error e => rfl
    | ok t => exact ih t

/-- A field may come before those of other keys. -/
theorem readAll_move (h : Independent key step) {f : Field} {us : List Field}
    (hus : ∀ u ∈ us, key u ≠ key f) (vs : List Field) (s : σ) :
    readAll step (us ++ f :: vs) s = readAll step (f :: (us ++ vs)) s := by
  induction us generalizing s with
  | nil => rfl
  | cons u us ih =>
    obtain ⟨hu, hus⟩ := List.forall_mem_cons.mp hus
    have hexchange := h u f hu s
    rw [Noted.result?_bind, Noted.result?_bind] at hexchange
    calc readAll step (u :: us ++ f :: vs) s
      _ = (step s u).result?.bind fun t => readAll step (f :: (us ++ vs)) t := by
        rw [List.cons_append, readAll_cons, funext fun t => ih hus t]
      _ = ((step s u).result?.bind fun t => (step t f).result?).bind (readAll step (us ++ vs)) := by
        rw [Option.bind_assoc]
        rfl
      _ = readAll step (f :: (u :: us ++ vs)) s := by
        rw [hexchange, Option.bind_assoc]
        rfl

/-- **The order among the fields of each key is all that counts.** -/
theorem readAll_interleaved (h : Independent key step) {fs gs : List Field}
    (hfs : Interleaved key fs gs) (s : σ) : readAll step fs s = readAll step gs s := by
  induction fs generalizing gs s with
  | nil => rw [hfs.eq_nil]
  | cons f fs ih =>
    obtain ⟨us, vs, rfl, hus, hrest⟩ := hfs.split_first
    rw [readAll_move h hus, readAll_cons, readAll_cons, funext fun t => ih hrest t]

/-- All fields of the message are well formed. -/
def WellFormed (b : Bytes) : Prop := (split b).error = none

theorem result?_messageAt (h : Independent key step) {b c : Bytes} (hb : WellFormed b)
    (hc : WellFormed c) (hbc : Interleaved key (split b).fields (split c).fields)
    (locate : σ → DecodeError → DecodeError) (start : σ) :
    (messageAt locate step start b).result? = (messageAt locate step start c).result? := by
  unfold messageAt
  simp only
  rw [hb, hc, result?_foldFields, result?_foldFields, readAll_interleaved h hbc]

end Fold

/-! ## The decoders -/

/-- Constants have one key, sparse or not. -/
def graphKey (f : Field) : Nat := if f.number = 15 then 5 else f.number

-- In each of these the pairs of numbers are gone through: a field writes into one part of the
-- state, what it writes there does not depend on the other parts, and whether it can be read
-- depends on the field alone.

theorem independent_tensorStep : Independent Field.number tensorStep := by
  intro f g h t
  unfold tensorStep
  split <;> split <;> first
    | omega
    | simp only [Noted.result?_bind, Noted.result?_pure, Option.bind_some, Option.bind_assoc,
        Option.bind_fun_some]

theorem independent_sparseStep : Independent Field.number sparseStep := by
  intro f g h t
  unfold sparseStep
  split <;> split <;> first
    | omega
    | simp only [Noted.result?_bind, Noted.result?_pure, Option.bind_some, Option.bind_assoc,
        Option.bind_fun_some]
  all_goals exact Option.bind_comm _ _

theorem independent_attributeStep : Independent Field.number attributeStep := by
  intro f g h a
  unfold attributeStep
  split <;> split <;> first
    | omega
    | simp only [Noted.result?_bind, Noted.result?_pure, Option.bind_some, Option.bind_assoc,
        Option.bind_fun_some]
  all_goals exact Option.bind_comm _ _

theorem independent_nodeStep : Independent Field.number nodeStep := by
  intro f g h n
  unfold nodeStep
  split <;> split <;> first
    | omega
    | simp only [Noted.result?_bind, Noted.result?_pure, Option.bind_some, Option.bind_assoc,
        Option.bind_fun_some]
  -- An attribute is left out if its value is of a type that is not read.
  all_goals
    refine congrArg (Option.bind _) (funext fun a => ?_)
    cases a.value? <;> rfl

theorem independent_graphStep : Independent graphKey graphStep := by
  intro f g h t
  have hnumber : f.number ≠ g.number := fun he => h (by rw [graphKey, graphKey, he])
  have hdense : ¬ (f.number = 5 ∧ g.number = 15) := fun he => h (by simp [graphKey, he])
  have hsparse : ¬ (f.number = 15 ∧ g.number = 5) := fun he => h (by simp [graphKey, he])
  unfold graphStep
  split <;> split <;> first
    | omega
    | simp only [Noted.result?_bind, Noted.result?_within, Noted.result?_pure, Option.bind_some,
        Option.bind_assoc, Option.bind_fun_some]
  all_goals exact Option.bind_comm _ _

theorem independent_modelStep : Independent Field.number modelStep := by
  intro f g h m
  unfold modelStep
  split <;> split <;> first
    | omega
    | simp only [Noted.result?_bind, Noted.result?_within, Noted.result?_pure, Option.bind_some,
        Option.bind_assoc, Option.bind_fun_some]

/-- Messages that have the same fields of each number are decoded alike. -/
structure SameDecoding (b c : Bytes) : Prop where
  model : Interleaved Field.number (split b).fields (split c).fields →
    (Wire.model b).SameResult (Wire.model c)
  /-- Where constants of both numbers keep their order. -/
  graph : Interleaved graphKey (split b).fields (split c).fields →
    (Wire.graph b).SameResult (Wire.graph c)
  node : Interleaved Field.number (split b).fields (split c).fields →
    (Wire.node b).SameResult (Wire.node c)
  attr : Interleaved Field.number (split b).fields (split c).fields →
    (attributeParts b).SameResult (attributeParts c)
  tensor : Interleaved Field.number (split b).fields (split c).fields →
    (Wire.tensor b).SameResult (Wire.tensor c)
  sparseTensor : Interleaved Field.number (split b).fields (split c).fields →
    (Wire.sparseTensor b).SameResult (Wire.sparseTensor c)
  /-- In particular the operator sets may stand on either side of the graph. -/
  graphFirst : ∀ {before graphs sets after : List Field}, (∀ f ∈ graphs, f.number = 7) →
    (∀ f ∈ sets, f.number = 8) → (split b).fields = before ++ (graphs ++ sets) ++ after →
    (split c).fields = before ++ (sets ++ graphs) ++ after →
    (Wire.model b).SameResult (Wire.model c)

/-- **No decoder looks at the order of fields of different numbers.** -/
theorem sameDecoding_of_wellFormed {b c : Bytes} (hb : WellFormed b) (hc : WellFormed c) :
    SameDecoding b c := by
  have hmodel : Interleaved Field.number (split b).fields (split c).fields →
      (Wire.model b).SameResult (Wire.model c) := by
    intro h
    have hparts := result?_messageAt independent_modelStep hb hc h (fun _ e => e) {}
    exact Noted.sameResult_of_result? (by
      simp only [Wire.model, message, Noted.result?_bind, hparts])
  refine ⟨hmodel, fun h => ?_, fun h => ?_, fun h => ?_, fun h => ?_, fun h => ?_, ?_⟩
  · exact Noted.sameResult_of_result? (result?_messageAt independent_graphStep hb hc h _ _)
  · exact Noted.sameResult_of_result? (result?_messageAt independent_nodeStep hb hc h _ _)
  · exact Noted.sameResult_of_result? (result?_messageAt independent_attributeStep hb hc h _ _)
  · have hparts := result?_messageAt independent_tensorStep hb hc h (fun _ e => e) {}
    exact Noted.sameResult_of_result? (by
      simp only [Wire.tensor, message, Noted.result?_bind, hparts])
  · have hparts := result?_messageAt independent_sparseStep hb hc h (fun _ e => e) {}
    exact Noted.sameResult_of_result? (by
      simp only [Wire.sparseTensor, message, Noted.result?_bind, hparts])
  · intro before graphs sets after hgraphs hsets hfields hfields'
    refine hmodel ?_
    rw [hfields, hfields']
    refine interleaved_swap (fun u hu v hv => ?_) before after
    rw [hgraphs u hu, hsets v hv]
    decide

/-- A graph with constants of both kinds about a node, and a name that is given twice. -/
def tangledGraph : List Field := [
  textField 2 "old", part 15 [part 1 [textField 8 "s"], intField 3 4],
  part 1 [textField 4 "Relu", textField 1 "s", textField 2 "y"],
  part 5 [textField 8 "w", intField 1 2, intField 1 3], textField 2 "new"]

/-- The graph before the operator sets, and the version of the format last. -/
def tangled : List Field := [
  part 7 tangledGraph, part 8 [intField 2 13], part 8 [textField 1 "other", intField 2 2],
  intField 1 8]

/-- The same fields, with an operator set on either side of the graph. -/
def untangled : List Field := [
  intField 1 8, part 8 [intField 2 13], part 7 tangledGraph,
  part 8 [textField 1 "other", intField 2 2]]

theorem sameDecoding_tangled : WellFormed (write tangled) ∧ WellFormed (write untangled) ∧
    Interleaved Field.number (split (write tangled)).fields (split (write untangled)).fields ∧
    (model (write tangled)).SameResult (model (write untangled)) ∧
    (model (write tangled)).value = .ok {
      formatVersion := 8
      operatorSets := [⟨.empty, 13⟩, ⟨"other", 2⟩]
      opset := 13
      graph := {
        name := "new"
        constants := [⟨"s", none, some [.known 4]⟩, ⟨"w", none, some [.known 2, .known 3]⟩]
        nodes := [{ op := "Relu", inputs := ["s"], outputs := ["y"] }] } } := by
  have ht : split (write tangled) = ⟨tangled, none⟩ := split_write (by decide +kernel)
  have hu : split (write untangled) = ⟨untangled, none⟩ := split_write (by decide +kernel)
  have hb : WellFormed (write tangled) := congrArg Fields.error ht
  have hc : WellFormed (write untangled) := congrArg Fields.error hu
  have hbc : Interleaved Field.number (split (write tangled)).fields
      (split (write untangled)).fields := by
    rw [ht, hu]
    decide +kernel
  exact ⟨hb, hc, hbc, (sameDecoding_of_wellFormed hb hc).model hbc, by cbv⟩

end Wire

end ShapeFlow
