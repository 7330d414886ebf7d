/-
The entries of a mapping that is read without a fault. A mapping has entries of its own and may
take over those of other mappings, which may do so in turn; laid out in one list (`Entries`), the
first entry of each key counts and all others are passed over.

A record is read entry after entry. What holds of the start, of a field that is set for the first
time and of an entry that does not matter holds of the record and the whole list
(`gives_mapping?`): by one induction on the fuel for the entries of a mapping and for those that
it takes over.
-/
import Mathlib
import ShapeFlow.Proofs.Yaml.Faultless

namespace ShapeFlow.Yaml.Document

variable {ε σ : Type} {d : Document}

/-! ## Entries in one list -/

/-- The entries of one mapping by the texts of their keys. -/
def keyed (d : Document) (entries : List (Node × Node)) : List (Text × Node) :=
  entries.filterMap fun e => if e.1.isMerge then none else (d.textOf? e.1).map fun key => (key, e.2)

mutual

/-- All entries of a mapping in one list: its own, then those that it takes over. -/
inductive Entries (d : Document) : List (Node × Node) → List (Text × Node) → Prop
  | intro {entries : List (Node × Node)} {flat : List (Text × Node)} :
      Sources d ((mergeValue? entries).elim [] mergeSources) flat → Entries d entries (d.keyed entries ++ flat)

/-- All entries that are taken over from mappings, one mapping after the other. -/
inductive Sources (d : Document) : List Node → List (Text × Node) → Prop
  | nil : Sources d [] []
  | cons {source : Node} {sources : List Node} {tag : Text} {entries : List (Node × Node)} {line : Nat}
      {flat more : List (Text × Node)} : d.deref source = .mapping tag entries line → Entries d entries flat →
      Sources d sources more → Sources d (source :: sources) (flat ++ more)

end

/-- A node stands for a mapping with these entries in all. -/
def HasEntries (d : Document) (n : Node) (flat : List (Text × Node)) : Prop :=
  ∃ tag entries line, d.deref n = .mapping tag entries line ∧ d.Entries entries flat

section Keyed

variable {key value : Node} {entries : List (Node × Node)}

theorem keyed_of_isMerge (h : key.isMerge = true) : d.keyed ((key, value) :: entries) = d.keyed entries := by
  simp [keyed, h]

theorem keyed_of_none (h : d.textOf? key = none) : d.keyed ((key, value) :: entries) = d.keyed entries := by
  by_cases hm : key.isMerge = true <;> simp [keyed, h, hm]

theorem keyed_of_some {name : Text} (hm : ¬ key.isMerge = true) (h : d.textOf? key = some name) :
    d.keyed ((key, value) :: entries) = (name, value) :: d.keyed entries := by
  simp [keyed, h, hm]

end Keyed

/-! ## Fields -/

/-- An entry that does not matter: its key is no field, or has an entry already. -/
def Idle (fields : Fields) (seen : List (Text × Node)) (key : Text) : Prop :=
  ∀ record ∈ fields, key ∈ record.2 → key ∈ seen.map Prod.fst

/-- An entry that counts: its key is a field and has no entry yet. -/
def Due (fields : Fields) (seen : List (Text × Node)) (key : Text) : Prop :=
  ∀ record ∈ fields, key ∈ record.2 ∧ key ∉ seen.map Prod.fst

/-- The marked keys are those of the entries, as far as fields go. -/
def Tracks (fields : Fields) (marked : List Text) (seen : List (Text × Node)) : Prop :=
  ∀ record ∈ fields, ∀ key ∈ record.2, key ∈ marked ↔ key ∈ seen.map Prod.fst

namespace Tracks

variable {fields : Fields} {marked : List Text} {seen : List (Text × Node)} {key : Text} {n : Node}

theorem idle (h : Tracks fields marked seen) (hkey : key ∈ marked) : Idle fields seen key :=
  fun record hrecord hfield => (h record hrecord key hfield).mp hkey

theorem due (h : Tracks fields marked seen) (hkey : key ∉ marked)
    (hfield : ∀ record ∈ fields, key ∈ record.2) : Due fields seen key :=
  fun record hrecord => ⟨hfield record hrecord, fun hseen =>
    hkey ((h record hrecord key (hfield record hrecord)).mpr hseen)⟩

/-- One more entry, whose key is marked now or before if it is a field. -/
theorem concat {marked' : List Text} (h : Tracks fields marked seen)
    (hmark : ∀ record ∈ fields, ∀ other ∈ record.2, other ∈ marked' ↔ other = key ∨ other ∈ marked) :
    Tracks fields marked' (seen ++ [(key, n)]) := by
  intro record hrecord other hother
  simp [hmark record hrecord other hother, h record hrecord other hother, or_comm]

end Tracks

/-- Whether a key stands for itself, by its form. -/
def isPlain (key : Text) : Bool := (resolve key).tag == "!!str" && key != "<<"

/-- What a record keeps while its entries are read: an entry that does not matter can be passed
over, and the step for one that counts keeps it. -/
structure Keeps (fields : Fields) (step : σ → Text → Node → Decode ε σ)
    (Inv : List (Text × Node) → σ → Prop) : Prop where
  idle : ∀ {seen v key n}, Inv seen v → Idle fields seen key → Inv (seen ++ [(key, n)]) v
  step : ∀ v key n, (step v key n).Gives fun w =>
    ∀ seen, Inv seen v → Due fields seen key → Inv (seen ++ [(key, n)]) w
  plain : ∀ record ∈ fields, ∀ key ∈ record.2, isPlain key = true

/-- Reading entries leads from one record to another, and the keys that are marked afterwards are
those of all entries. -/
def Passes (fields : Fields) (Inv : List (Text × Node) → σ → Prop) (marked : List Text) (v : σ)
    (flat : List (Text × Node)) (r : σ × Option (List Text)) : Prop :=
  ∀ seen, Inv seen v → Tracks fields marked seen →
    Inv (seen ++ flat) r.1 ∧ ∀ names ∈ r.2, Tracks fields names (seen ++ flat)

variable {fields : Fields} {step : σ → Text → Node → Decode ε σ} {Inv : List (Text × Node) → σ → Prop}

namespace Passes

variable {marked marked' : List Text} {v w : σ} {flat more : List (Text × Node)} {r : σ × Option (List Text)}
  {key : Text} {n : Node}

theorem nil {names : Option (List Text)} (h : ∀ known ∈ names, known = marked) :
    Passes fields Inv marked v [] (v, names) := by
  intro seen hv htracks
  rw [List.append_nil]
  exact ⟨hv, fun known hmem => h known hmem ▸ htracks⟩

theorem append (h : Passes fields Inv marked v flat (w, some marked')) (h' : Passes fields Inv marked' w more r) :
    Passes fields Inv marked v (flat ++ more) r := by
  intro seen hv htracks
  obtain ⟨hw, hmarked⟩ := h seen hv htracks
  rw [← List.append_assoc]
  exact h' _ hw (hmarked marked' rfl)

/-- An entry that does not matter, and then the others. -/
theorem cons_idle (h : Passes fields Inv marked' v flat r) (hkeeps : Keeps fields step Inv)
    (hidle : ∀ seen, Tracks fields marked seen → Idle fields seen key)
    (hmark : ∀ record ∈ fields, ∀ other ∈ record.2, other ∈ marked' ↔ other = key ∨ other ∈ marked) :
    Passes fields Inv marked v ((key, n) :: flat) r := by
  intro seen hv htracks
  rw [List.append_cons]
  exact h _ (hkeeps.idle hv (hidle seen htracks)) (htracks.concat hmark)

/-- An entry that counts, and then the others. -/
theorem cons_due (h : Passes fields Inv marked' w flat r)
    (hw : ∀ seen, Inv seen v → Due fields seen key → Inv (seen ++ [(key, n)]) w)
    (hdue : ∀ seen, Tracks fields marked seen → Due fields seen key)
    (hmark : ∀ record ∈ fields, ∀ other ∈ record.2, other ∈ marked' ↔ other = key ∨ other ∈ marked) :
    Passes fields Inv marked v ((key, n) :: flat) r := by
  intro seen hv htracks
  rw [List.append_cons]
  exact h _ (hw seen hv (hdue seen htracks)) (htracks.concat hmark)

end Passes

/-- **One mapping.** Its own entries are read or passed over one after the other. -/
theorem gives_ownEntries (h : Keeps fields step Inv) (taken : Option (List Text)) (done : List Text) (v : σ)
    (entries : List (Node × Node)) : (d.ownEntries fields step taken done v entries).Gives fun r =>
      r.2.isSome = taken.isSome ∧ Passes fields Inv (taken.getD done) v (d.keyed entries) r := by
  induction entries generalizing taken done v with
  | nil =>
    refine .pure ⟨rfl, Passes.nil ?_⟩
    rintro _ ⟨⟩
    rfl
  | cons entry entries ih =>
    obtain ⟨key, value⟩ := entry
    simp only [ownEntries]
    split
    · next hm =>
      rw [keyed_of_isMerge hm]
      exact ih taken done v
    next hm =>
    refine gives_text?.bind fun o => ?_
    cases o with
    | none =>
      refine (ih taken done v).imp fun r hr hfits => ?_
      cases hfits with
      | null hnull => rwa [keyed_of_none (textOf?_of_isNull hnull)]
    | some name =>
      suffices hnamed : Decode.Gives _ fun r => r.2.isSome = taken.isSome ∧
          Passes fields Inv (taken.getD done) v ((name, value) :: d.keyed entries) r from
        hnamed.imp fun r hr hfits => by
          cases hfits with
          | value _ htext => rwa [keyed_of_some hm htext]
      simp only
      split
      · next htaken =>
        have hname : name ∈ taken.getD done := by
          cases taken with
          | none => cases htaken
          | some names => simpa using htaken
        refine (ih taken done v).imp fun r hr =>
          ⟨hr.1, hr.2.cons_idle h (fun seen htracks => htracks.idle hname) fun _ _ other _ => ?_⟩
        exact (or_iff_right_of_imp fun he => he ▸ hname).symm
      next htaken =>
      cases fields with
      | none =>
        refine (h.step v name value).bind fun w => (ih _ done w).imp fun r hr hw =>
          ⟨by simpa using hr.1, hr.2.cons_due hw (fun seen _ => ?_) ?_⟩
        · rintro record ⟨⟩
        · rintro record ⟨⟩
      | some record =>
        obtain ⟨target, known⟩ := record
        simp only
        split
        · next hunknown =>
          replace hunknown : name ∉ known := by simpa using hunknown
          refine (ih _ done v).imp fun r hr =>
            ⟨by simpa using hr.1, hr.2.cons_idle h (fun seen _ => ?_) ?_⟩
          · rintro record ⟨⟩ hknown
            exact absurd hknown hunknown
          · rintro record ⟨⟩ other hknown
            have hne : other ≠ name := fun he => hunknown (he ▸ hknown)
            cases taken <;> simp [hne]
        next hknown =>
        split
        · exact (Decode.gives_misfit _).bind fun _ => (ih _ done v).imp fun _ _ hfalse => hfalse.elim
        next hdone =>
        have hfresh : name ∉ taken.getD done := by
          cases taken with
          | none => simpa using hdone
          | some names => simpa using htaken
        refine (h.step v name value).bind fun w => (ih _ (name :: done) w).imp fun r hr hw =>
          ⟨by simpa using hr.1, hr.2.cons_due hw (fun seen htracks => htracks.due hfresh ?_) ?_⟩
        · rintro record ⟨⟩
          simpa using hknown
        · intro record _ other _
          cases taken <;> simp

/-! ## Entries that are taken over -/

theorem textOf?_of_isMerge {key : Node} (h : key.isMerge = true) : d.textOf? key = some "<<" := by
  cases key with
  | scalar tag value line =>
    obtain ⟨rfl, rfl⟩ : value = "<<" ∧ tag = "!!merge" := by simpa [Node.isMerge] using h
    rfl
  | sequence | mapping | reference => cases h

theorem isPlain_eq_true {key : Text} : isPlain key = true ↔ resolve key = .text ∧ key ≠ "<<" := by
  have htag (r : Resolved) : r.tag = "!!str" ↔ r = .text := by
    cases r <;> simp [Resolved.tag] <;> decide
  simp [isPlain, htag]

/-- The keys that a mapping has already, among those that stand for themselves. -/
theorem gives_textKeys (entries : List (Node × Node)) : (d.textKeys entries : Decode ε _).Gives fun names =>
    ∀ key, isPlain key = true → (key ∈ names ↔ key ∈ (d.keyed entries).map Prod.fst) := by
  induction entries with
  | nil => exact .pure (by simp [keyed])
  | cons entry entries ih =>
    obtain ⟨key, value⟩ := entry
    refine Decode.Gives.bind
      (P := fun o => ∀ name, resolve name = .text → (o = some name ↔ d.textOf? key = some name))
      (gives_read ?_) fun o => ih.bind fun names => .pure fun hnames ho name hplain => ?_
    · cases hn : d.deref key with
      | scalar tag value line =>
        simp only
        split
        · exact Decode.gives_throw _
        · next t hv =>
          refine .pure fun name _ => ?_
          rw [textOf?_of_deref hn, (text_of_scalarValue? hv).2]
        · next v hother hv =>
          -- the text of any other scalar does not have the form of one
          refine .pure fun name hname => iff_of_false (Option.some_ne_none name).symm fun htext => ?_
          cases v with
          | null =>
            have hnull : d.isNull key = true := isNull_of_null hn (null_of_scalarValue? hv)
            cases (textOf?_of_isNull hnull).symm.trans htext
          | text t => exact (hother t rfl).elim
          | resolved r t =>
            obtain ⟨-, ht, hform⟩ := resolved_of_scalarValue? hv
            rw [textOf?_of_deref hn, ht] at htext
            cases htext
            exact absurd hname hform
      | sequence | mapping | reference =>
        refine .pure fun name _ => ?_
        simp [textOf?, hn]
    · obtain ⟨hname, hmerge⟩ := isPlain_eq_true.mp hplain
      rw [List.mem_append, Option.mem_toList, ho name hname, hnames name hplain]
      cases htext : d.textOf? key with
      | none => simp [keyed_of_none htext]
      | some text =>
        by_cases hm : key.isMerge = true
        · obtain rfl : text = "<<" := Option.some_inj.mp (htext.symm.trans (textOf?_of_isMerge hm))
          simp [keyed_of_isMerge hm, Ne.symm hmerge]
        · simp [keyed_of_some hm htext, eq_comm]

/-- The entries of every mapping, with those that it takes over, lead from record to record. -/
def EntriesPass (d : Document) (fields : Fields) (step : σ → Text → Node → Decode ε σ)
    (Inv : List (Text × Node) → σ → Prop) (fuel : Nat) : Prop :=
  ∀ inside taken v entries, (d.entriesFrom fields step fuel inside taken v entries).Gives fun r =>
    r.2.isSome = taken.isSome ∧ ∃ flat, d.Entries entries flat ∧ Passes fields Inv (taken.getD []) v flat r

/-- The entries that are taken over from all mappings do. -/
def SourcesPass (d : Document) (fields : Fields) (step : σ → Text → Node → Decode ε σ)
    (Inv : List (Text × Node) → σ → Prop) (fuel : Nat) : Prop :=
  ∀ inside taken v sources, (d.sourcesFrom fields step fuel inside taken v sources).Gives fun r =>
    ∃ flat, d.Sources sources flat ∧ Passes fields Inv taken v flat (r.1, some r.2)

/-- **The step:** a mapping reads its own entries before those that it takes over. -/
theorem SourcesPass.entriesPass {fuel : Nat} (hsources : d.SourcesPass fields step Inv fuel)
    (h : Keeps fields step Inv) : d.EntriesPass fields step Inv (fuel + 1) := by
  intro inside taken v entries
  rw [entriesFrom]
  simp only
  split
  · next hrepeated =>
    exact (Decode.gives_misfits _).bind fun _ => .pure fun hnil => by simp [hnil] at hrepeated
  refine (gives_ownEntries h taken [] v entries).bind fun r => ?_
  obtain ⟨w, taken'⟩ := r
  split
  · next hmerge =>
    refine .pure fun ⟨hsome, hown⟩ => ⟨hsome, d.keyed entries ++ [], .intro ?_, ?_⟩
    · rw [hmerge]
      exact .nil
    · rwa [List.append_nil]
  next value hmerge =>
  have hrest (names : List Text) : (d.sourcesFrom fields step fuel inside names w (mergeSources value) >>=
      fun r => pure (r.1, taken'.map fun _ => r.2)).Gives fun r =>
        Passes fields Inv (taken.getD []) v (d.keyed entries) (w, some names) →
          taken'.isSome = taken.isSome → r.2.isSome = taken.isSome ∧
            ∃ flat, d.Entries entries flat ∧ Passes fields Inv (taken.getD []) v flat r := by
    refine (hsources inside names w (mergeSources value)).bind fun r => .pure ?_
    rintro ⟨flat, hflat, hpass⟩ hown hsome
    refine ⟨by simpa using hsome, d.keyed entries ++ flat, .intro (by rwa [hmerge]), ?_⟩
    intro seen hv htracks
    obtain ⟨hlast, hknown⟩ := hown.append hpass seen hv htracks
    refine ⟨hlast, fun known hmem => ?_⟩
    obtain ⟨_, -, rfl⟩ := Option.map_eq_some_iff.mp hmem
    exact hknown _ rfl
  -- the keys that count already are known, or are those of the mapping itself
  cases taken' with
  | some names => exact (hrest names).imp fun r hr ⟨hsome, hown⟩ => hr hown hsome
  | none =>
    refine (gives_textKeys entries).bind fun names => (hrest names).imp fun r hr hnames ⟨hsome, hown⟩ =>
      hr (fun seen hv htracks => ⟨(hown seen hv htracks).1, ?_⟩) hsome
    rintro _ ⟨⟩ record hrecord key hkey
    obtain rfl : taken = none := by simpa using hsome.symm
    have hseen : key ∉ seen.map Prod.fst := fun hmem => by
      simpa using (htracks record hrecord key hkey).mpr hmem
    rw [hnames key (h.plain record hrecord key hkey), List.map_append, List.mem_append, or_iff_right hseen]

theorem EntriesPass.sourcesPass {fuel : Nat} (hentries : d.EntriesPass fields step Inv fuel)
    (hsources : d.SourcesPass fields step Inv fuel) : d.SourcesPass fields step Inv (fuel + 1) := by
  intro inside taken v sources
  cases sources with
  | nil =>
    rw [sourcesFrom]
    refine .pure ⟨[], .nil, Passes.nil ?_⟩
    rintro _ ⟨⟩
    rfl
  | cons source sources =>
    -- after the entries of the first mapping, those of the others
    have hrest {tag : Text} {entries : List (Node × Node)} {line : Nat}
        (hmapping : d.deref source = .mapping tag entries line) (r : σ × Option (List Text)) :
        (d.sourcesFrom fields step fuel inside (r.2.getD taken) r.1 sources).Gives fun r' =>
          (r.2.isSome = true ∧ ∃ flat, d.Entries entries flat ∧ Passes fields Inv taken v flat r) →
            ∃ flat, d.Sources (source :: sources) flat ∧ Passes fields Inv taken v flat (r'.1, some r'.2) := by
      refine (hsources inside _ r.1 sources).imp ?_
      rintro r' ⟨more, hmore, hpass'⟩ ⟨hsome, flat, hflat, hpass⟩
      obtain ⟨w, names⟩ := r
      obtain ⟨names, rfl⟩ := Option.isSome_iff_exists.mp hsome
      exact ⟨flat ++ more, .cons hmapping hflat hmore, hpass.append hpass'⟩
    -- what is no mapping, and a mapping inside itself, halts the reading
    have hhalt {α : Type} {P : α → Prop} (next : σ × Option (List Text) → Decode ε α) :
        (Decode.malformed >>= next).Gives P := by
      intro p a p' hrun
      cases hrun
    rw [sourcesFrom]
    refine Decode.gives_visit.bind fun _ => Decode.Gives.imp ?_ fun _ h _ => h
    simp only
    split
    · exact (hentries inside (some taken) v _).bind (hrest rfl)
    · split
      · next hmapping =>
        split
        · exact hhalt _
        · exact (Decode.gives_visit.bind fun _ => (hentries _ (some taken) v _).imp fun _ h _ => h).behind.bind
            (hrest hmapping)
      · exact hhalt _
    · exact hhalt _

/-- **The run:** with any fuel, by one induction for both. -/
theorem gives_entriesFrom (h : Keeps fields step Inv) (fuel : Nat) :
    d.EntriesPass fields step Inv fuel ∧ d.SourcesPass fields step Inv fuel := by
  induction fuel with
  | zero =>
    constructor
    · intro inside taken v entries
      rw [entriesFrom]
      exact Decode.gives_throw .malformed
    · intro inside taken v sources
      rw [sourcesFrom]
      exact Decode.gives_throw .malformed
  | succ fuel ih => exact ⟨ih.2.entriesPass h, ih.1.sourcesPass ih.2⟩

/-- **A mapping is read with all of its entries,** in the order in which they count. -/
theorem gives_mapping? (h : Keeps fields step Inv) {start : σ} (hstart : Inv [] start) (target : Text)
    (n : Node) : (d.mapping? target fields step start n).Gives
      (d.Fits (fun n v => ∃ flat, d.HasEntries n flat ∧ Inv flat v) n) := by
  refine gives_read ?_
  cases hn : d.deref n with
  | mapping tag entries line =>
    refine ((gives_entriesFrom h _).1 _ _ _ _).map ?_
    rintro r ⟨-, flat, hflat, hpass⟩
    refine .value (by simp [isNull, hn]) ⟨flat, ⟨tag, entries, line, hn, hflat⟩, ?_⟩
    exact (hpass [] hstart fun record _ key _ => by simp).1
  | scalar tag value line =>
    exact (gives_noScalar _ _ _).bind fun _ => .pure fun htag => .null (isNull_of_null hn htag)
  | sequence | reference => exact (gives_collectionMisfits _ _).bind fun _ => .pure fun h => h

end ShapeFlow.Yaml.Document
