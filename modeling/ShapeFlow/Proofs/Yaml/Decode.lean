/-
What reading a document gives. A property of values holds of all that is read if it holds of
the start and every step keeps it, whatever the document: of the items of a sequence
(`satisfiesM_list?`), and of a mapping whose entries are read one after the other, with those
that it takes over from other mappings (`satisfiesM_mapping?`).
-/
import Mathlib
import ShapeFlow.Yaml.Decode

namespace ShapeFlow.Yaml

variable {ε α σ : Type}

namespace Decode

theorem satisfiesM_throw {P : α → Prop} (halt : Halt ε) : SatisfiesM P (throw halt : Decode ε α) := by
  rw [SatisfiesM_StateT_eq]
  intro p
  rw [SatisfiesM_Except_eq]
  intro a h
  cases h

theorem satisfiesM_behind {P : α → Prop} {x : Decode ε α} (h : SatisfiesM P x) :
    SatisfiesM P (behind x) :=
  SatisfiesM.trivial.bind fun _ _ => h.bind fun _ ha => SatisfiesM.trivial.bind fun _ _ => .pure ha

/-- What holds of all that is read holds of a value that was read. -/
theorem of_satisfiesM {P : α → Prop} {x : Decode ε α} (h : SatisfiesM P x) {p p' : Progress} {a : α}
    (hx : x.run p = .ok (a, p')) : P a :=
  SatisfiesM_Except_eq.mp (SatisfiesM_StateT_eq.mp h p) (a, p') hx

end Decode

namespace Document

variable {d : Document}

theorem satisfiesM_read {P : α → Prop} {f : Node → Decode ε α} (h : ∀ n, SatisfiesM P (f n))
    (n : Node) : SatisfiesM P (d.read n f) := by
  refine SatisfiesM.trivial.bind fun _ _ => ?_
  split
  · exact Decode.satisfiesM_behind (SatisfiesM.trivial.bind fun _ _ => h _)
  · exact h _

/-! ## Sequences -/

theorem satisfiesM_items {P : α → Prop} {item : Node → Decode ε (Option α)}
    (h : ∀ n, SatisfiesM (∀ a ∈ ·, P a) (item n)) (ns : List Node) :
    SatisfiesM (∀ a ∈ ·, P a) (items item ns) := by
  induction ns with
  | nil => exact .pure (by simp)
  | cons n ns ih =>
    refine (h n).bind fun o ho => ?_
    cases o with
    | none => exact ih
    | some a => exact ih.bind fun as has => .pure (List.forall_mem_cons.mpr ⟨ho a rfl, has⟩)

/-- **What holds of every item that can be read holds of all items of a sequence.** -/
theorem satisfiesM_list? {P : α → Prop} {item : Node → Decode ε (Option α)}
    (h : ∀ n, SatisfiesM (∀ a ∈ ·, P a) (item n)) (target : Text) (n : Node) :
    SatisfiesM (fun o => ∀ as ∈ o, ∀ a ∈ as, P a) (d.list? target item n) := by
  refine satisfiesM_read (fun n => ?_) n
  split
  · exact SatisfiesM.trivial.bind fun _ _ => .pure (by simp)
  · refine (satisfiesM_items h _).map fun has => ?_
    rintro _ ⟨⟩
    exact has
  · exact SatisfiesM.trivial.bind fun _ _ => .pure (by simp)

/-! ## Mappings -/

section Entries

variable {P : σ → Prop} {fields : Fields} {step : σ → Text → Node → Decode ε σ}

theorem satisfiesM_ownEntries (h : ∀ v key n, P v → SatisfiesM P (step v key n))
    (taken : Option (List Text)) (done : List Text) {v : σ} (hv : P v) (entries : List (Node × Node)) :
    SatisfiesM (fun r => P r.1) (d.ownEntries fields step taken done v entries) := by
  induction entries generalizing taken done v with
  | nil => exact .pure hv
  | cons entry entries ih =>
    obtain ⟨key, value⟩ := entry
    simp only [ownEntries]
    split
    · exact ih taken done hv
    refine SatisfiesM.trivial.bind fun name _ => ?_
    split
    · exact ih taken done hv
    split
    · exact ih taken done hv
    cases fields with
    | none => exact (h v _ value hv).bind fun w hw => ih _ done hw
    | some record =>
      obtain ⟨target, known⟩ := record
      simp only
      split
      · exact ih _ done hv
      split
      · exact SatisfiesM.trivial.bind fun _ _ => ih _ done hv
      · exact (h v _ value hv).bind fun w hw => ih _ _ hw

/-- The property is kept by the entries of every mapping that are read with the fuel. -/
def EntriesKeep (d : Document) (fields : Fields) (step : σ → Text → Node → Decode ε σ) (P : σ → Prop)
    (fuel : Nat) : Prop :=
  ∀ inside taken v entries, P v →
    SatisfiesM (fun r => P r.1) (d.entriesFrom fields step fuel inside taken v entries)

/-- It is kept by the entries that are taken over from all mappings. -/
def SourcesKeep (d : Document) (fields : Fields) (step : σ → Text → Node → Decode ε σ) (P : σ → Prop)
    (fuel : Nat) : Prop :=
  ∀ inside taken v sources, P v →
    SatisfiesM (fun r => P r.1) (d.sourcesFrom fields step fuel inside taken v sources)

/-- **The step:** a mapping reads its own entries before those that it takes over. -/
theorem SourcesKeep.entriesKeep {fuel : Nat} (hsources : d.SourcesKeep fields step P fuel)
    (h : ∀ v key n, P v → SatisfiesM P (step v key n)) : d.EntriesKeep fields step P (fuel + 1) := by
  intro inside taken v entries hv
  rw [entriesFrom]
  simp only
  split
  · exact SatisfiesM.trivial.bind fun _ _ => .pure hv
  refine (satisfiesM_ownEntries h taken [] hv entries).bind fun r hr => ?_
  split
  · exact .pure hr
  split <;> exact SatisfiesM.trivial.bind fun _ _ => (hsources _ _ _ _ hr).bind fun _ hs => .pure hs

theorem EntriesKeep.sourcesKeep {fuel : Nat} (hentries : d.EntriesKeep fields step P fuel)
    (hsources : d.SourcesKeep fields step P fuel) : d.SourcesKeep fields step P (fuel + 1) := by
  intro inside taken v sources hv
  -- what is no mapping, and a mapping inside itself, halts the reading
  have hhalt {β : Type} {Q : β → Prop} (next : σ × Option (List Text) → Decode ε β) :
      SatisfiesM Q (Decode.malformed >>= next) :=
    (Decode.satisfiesM_throw (P := fun _ => False) .malformed).bind fun _ hfalse => hfalse.elim
  cases sources with
  | nil =>
    rw [sourcesFrom]
    exact .pure hv
  | cons source sources =>
    rw [sourcesFrom]
    refine SatisfiesM.trivial.bind fun _ _ => ?_
    simp only
    split
    · exact (hentries _ _ _ _ hv).bind fun r hr => hsources _ _ _ _ hr
    · split
      · split
        · exact hhalt _
        · exact (Decode.satisfiesM_behind (SatisfiesM.trivial.bind fun _ _ => hentries _ _ _ _ hv)).bind
            fun r hr => hsources _ _ _ _ hr
      · exact hhalt _
    · exact hhalt _

/-- **The run:** with any fuel, by one induction for both. -/
theorem satisfiesM_entriesFrom (h : ∀ v key n, P v → SatisfiesM P (step v key n)) (fuel : Nat) :
    d.EntriesKeep fields step P fuel ∧ d.SourcesKeep fields step P fuel := by
  induction fuel with
  | zero =>
    constructor
    · intro inside taken v entries _
      rw [entriesFrom]
      exact Decode.satisfiesM_throw .malformed
    · intro inside taken v sources _
      rw [sourcesFrom]
      exact Decode.satisfiesM_throw .malformed
  | succ fuel ih => exact ⟨ih.2.entriesKeep h, ih.1.sourcesKeep ih.2⟩

/-- **What holds at the start and is kept by every entry holds of a mapping.** -/
theorem satisfiesM_mapping? (h : ∀ v key n, P v → SatisfiesM P (step v key n)) {start : σ}
    (hstart : P start) (target : Text) (n : Node) :
    SatisfiesM (∀ v ∈ ·, P v) (d.mapping? target fields step start n) := by
  refine satisfiesM_read (fun n => ?_) n
  split
  · refine ((satisfiesM_entriesFrom h _).1 _ _ _ _ hstart).map fun hr => ?_
    rintro _ ⟨⟩
    exact hr
  · exact SatisfiesM.trivial.bind fun _ _ => .pure (by simp)
  · exact SatisfiesM.trivial.bind fun _ _ => .pure (by simp)

end Entries

end Document

end ShapeFlow.Yaml
