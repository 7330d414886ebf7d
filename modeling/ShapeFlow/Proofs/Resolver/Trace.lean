/-
What a trace lists. The search for what a value depends on calls itself for the inputs of the
node that writes a value without a shape, and passes on what it has listed from one input to
the next. It comes to an end on every graph, also on one with cycles (`exists_visits`): a node
is only entered for a value that is not listed yet, so the written values that are left grow
fewer. It lists each value that is relevant once and no other, and has one line for the start
and one for each input of a node that it enters (`listing_trace`). A value that it comes upon again
is only mentioned, on a line after the one that lists it (`Visits.repeated`).

A value is listed before its inputs are looked at. That hides nothing: what is listed is either
still being entered, or all its inputs are listed.
-/
import Mathlib
import ShapeFlow.Resolver.Trace

namespace ShapeFlow

/-! ## Last writers -/

/-- The last node that writes a value, with its place. -/
def Graph.lastWriter? (g : Graph) (v : Text) : Option (Node × Nat) :=
  g.nodes.zipIdx.reverse.find? fun n => n.1.namedOutputs.contains v

theorem Dict.get?_foldl_insert {α : Type} (a : α) (names : List Text) (d : Dict α) (v : Text) :
    ((names.map fun name => (name, a)).foldl (fun d (key, a) => d.insert key a) d).get? v =
      if v ∈ names then some a else d.get? v := by
  induction names generalizing d with
  | nil => simp
  | cons name names ih =>
    simp only [List.map_cons, List.foldl_cons, ih, List.mem_cons]
    by_cases hv : v = name
    · subst hv
      simp [get?_insert_self]
    · simp [get?_insert_other d hv, hv]

theorem Graph.get?_writers (g : Graph) (v : Text) : g.writers.get? v = g.lastWriter? v := by
  unfold writers lastWriter?
  induction g.nodes.zipIdx using List.reverseRecOn with
  | nil => rfl
  | append_singleton ns n ih =>
    rw [List.flatMap_append, List.flatMap_singleton, Dict.ofList, List.foldl_append, ← Dict.ofList,
      Dict.get?_foldl_insert, ih, List.reverse_append, List.reverse_singleton, List.singleton_append,
      List.find?_cons]
    by_cases hv : v ∈ n.1.namedOutputs <;> simp [hv]

namespace Resolver

/-! ## What is relevant -/

/-- A value is relevant to another one if it is the same, or an input of the node that writes a
relevant value which has no shape. -/
inductive Relevant (r : Resolver) (name : Text) : Text → Prop
  | same : Relevant r name name
  | input {v w : Text} {n : Node} {i : Nat} : Relevant r name v → r.shape? v = none →
      r.model.graph.lastWriter? v = some (n, i) → w ∈ n.namedInputs → Relevant r name w

/-- What the search goes on to from a value. -/
def expansion (r : Resolver) (v : Text) : List Text :=
  if (r.shape? v).isSome then [] else (r.model.graph.lastWriter? v).elim [] (·.1.namedInputs)

theorem Relevant.of_mem_expansion {r : Resolver} {name v w : Text} (h : r.Relevant name v)
    (hw : w ∈ r.expansion v) : r.Relevant name w := by
  unfold expansion at hw
  cases hshape : r.shape? v with
  | some s => simp [hshape] at hw
  | none =>
    cases hn : r.model.graph.lastWriter? v with
    | none => simp [hn] at hw
    | some n => exact h.input hshape hn (by simpa [hshape, hn] using hw)

theorem expansion_eq {r : Resolver} {v : Text} {n : Node} {i : Nat} (hshape : r.shape? v = none)
    (hn : r.model.graph.lastWriter? v = some (n, i)) : r.expansion v = n.namedInputs := by
  simp [expansion, hshape, hn]

/-! ## The search -/

/-- The line that a value is listed with. -/
def listingLine (r : Resolver) (depth : Nat) (v : Text) : TraceLine :=
  let info := (r.values.get? v).map ValueState.info
  match r.model.graph.lastWriter? v with
  | none => .source depth v info (r.provenance v)
  | some (n, i) => .written depth v info (r.provenance v) n.op (r.failure? i)

/-- The search as it calls itself. For the values in turn, at a depth, it writes the lines and
goes from what is listed before to what is listed after. -/
inductive Visits (r : Resolver) : Nat → List Text → List Text → List TraceLine → List Text → Prop
  | done {depth : Nat} {listed : List Text} : Visits r depth [] listed [] listed
  | again {depth : Nat} {v : Text} {vs listed listed' : List Text} {lines : List TraceLine} :
      v ∈ listed → Visits r depth vs listed lines listed' →
      Visits r depth (v :: vs) listed (.again depth v :: lines) listed'
  | enter {depth : Nat} {v : Text} {vs listed inside listed' : List Text} {inner lines : List TraceLine} :
      v ∉ listed → Visits r (depth + 1) (r.expansion v) (v :: listed) inner inside →
      Visits r depth vs inside lines listed' →
      Visits r depth (v :: vs) listed (r.listingLine depth v :: (inner ++ lines)) listed'

end Resolver

/-- The value that a line lists. -/
def TraceLine.listed? : TraceLine → Option Text
  | .again _ _ => none
  | .source _ name _ _ => some name
  | .written _ name _ _ _ _ => some name

namespace Resolver

variable {r : Resolver} {depth : Nat} {v : Text} {vs listed listed' : List Text} {lines : List TraceLine}

@[simp] theorem listed?_listingLine : (r.listingLine depth v).listed? = some v := by
  unfold listingLine
  cases r.model.graph.lastWriter? v <;> rfl

/-- The values that lines list, in their order. -/
def listedBy (lines : List TraceLine) : List Text := lines.filterMap TraceLine.listed?

@[simp] theorem listedBy_again : listedBy (.again depth v :: lines) = listedBy lines := rfl

@[simp] theorem listedBy_listingLine :
    listedBy (r.listingLine depth v :: lines) = v :: listedBy lines := by
  simp [listedBy]

@[simp] theorem listedBy_append (lines more : List TraceLine) :
    listedBy (lines ++ more) = listedBy lines ++ listedBy more := List.filterMap_append

namespace Visits

/-- What is listed afterwards was listed before, or has a line. -/
theorem listed_eq (h : r.Visits depth vs listed lines listed') :
    listed' = (listedBy lines).reverse ++ listed := by
  induction h with
  | done => rfl
  | again _ _ ih => exact ih
  | enter _ _ _ ihinner ih => simp [ih, ihinner]

theorem mem_listed (h : r.Visits depth vs listed lines listed') :
    v ∈ listed' ↔ v ∈ listedBy lines ∨ v ∈ listed := by
  simp [h.listed_eq]

theorem grows (h : r.Visits depth vs listed lines listed') : listed ⊆ listed' :=
  fun _ hv => h.mem_listed.mpr (.inr hv)

/-- No value is listed twice. -/
theorem nodup (h : r.Visits depth vs listed lines listed') (hlisted : listed.Nodup) : listed'.Nodup := by
  induction h with
  | done => exact hlisted
  | again _ _ ih => exact ih hlisted
  | enter hnew _ _ ihinner ih => exact ih (ihinner (List.nodup_cons.mpr ⟨hnew, hlisted⟩))

/-- All that is asked for is listed in the end. -/
theorem subset (h : r.Visits depth vs listed lines listed') : vs ⊆ listed' := by
  induction h with
  | done => exact List.nil_subset _
  | again hlisted hrest ih => exact List.cons_subset.mpr ⟨hrest.grows hlisted, ih⟩
  | enter _ hinner hrest _ ih =>
    exact List.cons_subset.mpr ⟨hrest.grows (hinner.grows List.mem_cons_self), ih⟩

/-- Where the search goes on from what it has a line for, all is listed in the end. -/
theorem closed (h : r.Visits depth vs listed lines listed') (hv : v ∈ listedBy lines) :
    r.expansion v ⊆ listed' := by
  induction h with
  | done => cases hv
  | again _ _ ih => exact ih hv
  | enter _ hinner hrest ihinner ih =>
    simp only [listedBy_listingLine, listedBy_append, List.mem_cons, List.mem_append] at hv
    rcases hv with rfl | hv | hv
    · exact List.Subset.trans hinner.subset hrest.grows
    · exact List.Subset.trans (ihinner hv) hrest.grows
    · exact ih hv

/-- If all that is asked for is relevant, all that is listed is. -/
theorem relevant {name : Text} (h : r.Visits depth vs listed lines listed')
    (hvs : ∀ u ∈ vs, r.Relevant name u) (hv : v ∈ listedBy lines) : r.Relevant name v := by
  induction h with
  | done => cases hv
  | again _ _ ih => exact ih (List.forall_mem_cons.mp hvs).2 hv
  | enter _ _ _ ihinner ih =>
    obtain ⟨hhere, hrest⟩ := List.forall_mem_cons.mp hvs
    simp only [listedBy_listingLine, listedBy_append, List.mem_cons, List.mem_append] at hv
    rcases hv with rfl | hv | hv
    · exact hhere
    · exact ihinner (fun u hu => hhere.of_mem_expansion hu) hv
    · exact ih hrest hv

/-- There is a line for each value that is asked for, and for each where the search goes on. -/
theorem length_lines (h : r.Visits depth vs listed lines listed') :
    lines.length = vs.length + ((listedBy lines).map fun v => (r.expansion v).length).sum := by
  induction h with
  | done => rfl
  | again _ _ ih =>
    simp only [List.length_cons, listedBy_again, ih]
    omega
  | enter _ _ _ ihinner ih =>
    simp only [List.length_cons, List.length_append, listedBy_listingLine, listedBy_append, List.map_cons,
      List.map_append, List.sum_cons, List.sum_append, ihinner, ih]
    omega

/-- Every line lists a value or mentions one. -/
theorem line_cases (h : r.Visits depth vs listed lines listed') {line : TraceLine} (hline : line ∈ lines) :
    (∃ d v, line = .again d v) ∨ ∃ d v, line = r.listingLine d v := by
  induction h with
  | done => cases hline
  | again _ _ ih =>
    rcases List.mem_cons.mp hline with rfl | hline
    · exact .inl ⟨_, _, rfl⟩
    · exact ih hline
  | enter _ _ _ ihinner ih =>
    rcases List.mem_cons.mp hline with rfl | hline
    · exact .inr ⟨_, _, rfl⟩
    · exact (List.mem_append.mp hline).elim ihinner ih

/-- A value that is mentioned was listed before. -/
theorem repeated (h : r.Visits depth vs listed lines listed') {before after : List TraceLine} {d : Nat}
    {u : Text} (hlines : lines = before ++ .again d u :: after) : u ∈ listedBy before ∨ u ∈ listed := by
  induction h generalizing before after with
  | done => simp at hlines
  | again hlisted _ ih =>
    cases before with
    | nil =>
      cases hlines
      exact .inr hlisted
    | cons line before =>
      obtain ⟨rfl, htail⟩ := List.cons.inj hlines
      rw [listedBy_again]
      exact ih htail
  | @enter depth v vs listed inside listed' inner lines _ hinner _ ihinner ih =>
    cases before with
    | nil =>
      have hhead := congrArg TraceLine.listed? (List.cons.inj hlines).1
      rw [listed?_listingLine] at hhead
      cases hhead
    | cons line before =>
      obtain ⟨rfl, htail⟩ := List.cons.inj hlines
      rw [listedBy_listingLine]
      -- the line is one of what is written inside, or of what comes after it
      have hwithin : u ∈ listedBy before ∨ u ∈ v :: listed := by
        rcases List.append_eq_append_iff.mp htail with ⟨rest, rfl, hrest⟩ | ⟨rest, hbefore, hrest⟩
        · have := ih hrest
          rw [hinner.mem_listed, ← or_assoc] at this
          simpa [or_comm] using this
        · cases rest with
          | nil =>
            have := (@ih [] after hrest.symm).resolve_left List.not_mem_nil
            rw [hinner.mem_listed] at this
            simpa [hbefore] using this
          | cons line rest =>
            obtain ⟨rfl, -⟩ := List.cons.inj hrest
            exact ihinner hbefore
      simpa [or_assoc, or_left_comm] using hwithin

end Visits

/-! ## The end of the search -/

theorem unlisted_mono (writers : Dict (Node × Nat)) (h : listed ⊆ listed') :
    unlisted writers listed' ≤ unlisted writers listed := by
  refine List.countP_mono_left fun x _ hx => ?_
  simp only [Bool.not_eq_true', List.contains_eq_mem, decide_eq_false_iff_not] at hx ⊢
  exact fun hmem => hx (h hmem)

theorem traceFrom_again (hv : v ∈ listed) (rest : List (Nat × Text)) :
    r.traceFrom r.model.graph.writers listed ((depth, v) :: rest) =
      .again depth v :: r.traceFrom r.model.graph.writers listed rest := by
  rw [traceFrom, dif_pos (by simpa using hv)]

theorem shape?_map_info (r : Resolver) (v : Text) :
    TensorInfo?.shape? ((r.values.get? v).map ValueState.info) = r.shape? v := by
  unfold shape?
  cases r.values.get? v <;> rfl

/-- A new value is listed, and what the search goes on to comes before the rest. -/
theorem traceFrom_enter (hv : v ∉ listed) (rest : List (Nat × Text)) :
    r.traceFrom r.model.graph.writers listed ((depth, v) :: rest) = r.listingLine depth v ::
      r.traceFrom r.model.graph.writers (v :: listed)
        ((r.expansion v).map (fun input => (depth + 1, input)) ++ rest) := by
  rw [traceFrom, dif_neg (by simpa using hv)]
  simp only [shape?_map_info]
  split
  · next hw =>
    rw [Graph.get?_writers] at hw
    simp [listingLine, expansion, hw]
  · next n i hw =>
    rw [Graph.get?_writers] at hw
    by_cases hshape : (r.shape? v).isSome <;> simp [listingLine, expansion, hw, hshape]

/-- **The search comes to an end** for whatever values it is called, and the lines that it writes
are those of the trace. -/
theorem exists_visits (r : Resolver) (vs listed : List Text) (depth : Nat) (rest : List (Nat × Text)) :
    ∃ lines listed', r.Visits depth vs listed lines listed' ∧
      r.traceFrom r.model.graph.writers listed (vs.map (fun v => (depth, v)) ++ rest) =
        lines ++ r.traceFrom r.model.graph.writers listed' rest := by
  -- to enter a node lists a written value; within one call the values are taken in turn
  generalize hk : unlisted r.model.graph.writers listed + 1 = k
  replace hk : unlisted r.model.graph.writers listed < k := by omega
  induction k generalizing vs listed depth rest with
  | zero => omega
  | succ k ihk =>
    induction vs generalizing listed with
    | nil => exact ⟨[], listed, .done, rfl⟩
    | cons v vs ih =>
      by_cases hv : v ∈ listed
      · obtain ⟨lines, listed', hvisits, hlines⟩ := ih listed hk
        refine ⟨_, listed', .again hv hvisits, ?_⟩
        rw [List.map_cons, List.cons_append, traceFrom_again hv, hlines, List.cons_append]
      obtain ⟨inner, inside, hinner, hlinner⟩ : ∃ inner inside,
          r.Visits (depth + 1) (r.expansion v) (v :: listed) inner inside ∧
          r.traceFrom r.model.graph.writers (v :: listed) ((r.expansion v).map (fun input => (depth + 1, input)) ++
            (vs.map (fun v => (depth, v)) ++ rest)) =
              inner ++ r.traceFrom r.model.graph.writers inside (vs.map (fun v => (depth, v)) ++ rest) := by
        cases hw : r.model.graph.writers.get? v with
        | none =>
          have hnone : r.expansion v = [] := by simp [expansion, ← Graph.get?_writers, hw]
          rw [hnone]
          exact ⟨[], v :: listed, .done, rfl⟩
        | some n =>
          have hnew : listed.contains v = false := by simpa using hv
          have hless := unlisted_cons_lt hw hnew
          exact ihk _ _ _ _ (by omega)
      have hgrown := unlisted_mono r.model.graph.writers (List.subset_of_cons_subset hinner.grows)
      obtain ⟨lines, listed', hvisits, hlines⟩ := ih inside (by omega)
      refine ⟨_, listed', .enter hv hinner hvisits, ?_⟩
      rw [List.map_cons, List.cons_append, traceFrom_enter hv, hlinner, hlines, List.cons_append, List.append_assoc]

/-- What is printed of a value where it is listed: its name, what is known of it, and the node that
writes it, if there is one. -/
structure Printed (r : Resolver) (depth : Nat) (v text : Text) : Prop where
  source : r.model.graph.lastWriter? v = none →
    text = Text.replicate depth "  " ++ v ++ ": " ++ TensorInfo?.text ((r.values.get? v).map ValueState.info) ++
      " (" ++ (r.provenance v).name ++ ")\n"
  written : ∀ n i, r.model.graph.lastWriter? v = some (n, i) →
    text = Text.replicate depth "  " ++ v ++ ": " ++ TensorInfo?.text ((r.values.get? v).map ValueState.info) ++
      " (" ++ (r.provenance v).name ++ ") <- " ++ n.op ++
      ((r.failure? i).elim .empty fun e => " FAILED: " ++ e.message) ++ "\n"

theorem printed_listingLine (r : Resolver) (depth : Nat) (v : Text) :
    r.Printed depth v (r.listingLine depth v).text where
  source h := by
    rw [listingLine, h]
    rfl
  written n i h := by
    rw [listingLine, h]
    rfl

/-- What a trace lists, and how long it is. -/
structure Listing (r : Resolver) (name : Text) (lines : List TraceLine) : Prop where
  /-- The search, called for the value with nothing listed, ends with these lines. -/
  ends : ∃ listed, r.Visits 0 [name] [] lines listed
  once : (listedBy lines).Nodup
  relevant : ∀ v, v ∈ listedBy lines ↔ r.Relevant name v
  /-- The start has a line, and so has every input of a node that is entered. -/
  length : lines.length = 1 + ∑ v ∈ (listedBy lines).toFinset, (r.expansion v).length
  listed : ∀ line ∈ lines, ∀ v, line.listed? = some v → ∃ depth, r.Printed depth v line.text
  /-- Any other line repeats a value that is listed before it. -/
  repeated : ∀ before line after, lines = before ++ line :: after → line.listed? = none →
    ∃ depth, ∃ v ∈ listedBy before, line.text = Text.replicate depth "  " ++ v ++ " [already listed]\n"

/-- The lines of a trace are those that the search writes. -/
theorem visits_traceLines (r : Resolver) (name : Text) :
    ∃ listed, r.Visits 0 [name] [] (r.traceLines name) listed := by
  obtain ⟨lines, listed, hvisits, hlines⟩ := exists_visits r [name] [] 0 []
  refine ⟨listed, ?_⟩
  have heq : r.traceLines name = lines := by
    rw [traceLines, ← List.append_nil lines, ← traceFrom.eq_1 r r.model.graph.writers listed, ← hlines]
    rfl
  rwa [heq]

/-- **Every trace ends, lists each relevant value once and no other, and has as many lines as
there are inputs of the nodes it enters, and one for the start.** -/
theorem listing_trace (r : Resolver) (name : Text) :
    r.trace name = Text.concat ((r.traceLines name).map TraceLine.text) ∧
    r.Listing name (r.traceLines name) := by
  obtain ⟨listed, hvisits⟩ := r.visits_traceLines name
  have hlisted : ∀ v, v ∈ listed ↔ v ∈ listedBy (r.traceLines name) := fun v => by simp [hvisits.mem_listed]
  have honce : (listedBy (r.traceLines name)).Nodup := by
    have := hvisits.nodup List.nodup_nil
    rwa [hvisits.listed_eq, List.append_nil, List.nodup_reverse] at this
  refine ⟨rfl, ⟨listed, hvisits⟩, honce, fun v => ⟨?_, fun hv => ?_⟩, ?_, fun line hline v hv => ?_,
    fun before line after hlines hnone => ?_⟩
  · refine hvisits.relevant fun u hu => ?_
    rw [List.mem_singleton.mp hu]
    exact .same
  · -- what is listed contains the start and is closed, and nothing smaller is
    induction hv with
    | same => exact (hlisted _).mp (hvisits.subset List.mem_cons_self)
    | input _ hshape hn hw ih =>
      rw [← expansion_eq hshape hn] at hw
      exact (hlisted _).mp (hvisits.closed ih hw)
  · rw [hvisits.length_lines, List.sum_toFinset _ honce, List.length_singleton]
  · rcases hvisits.line_cases hline with ⟨d, u, rfl⟩ | ⟨d, u, rfl⟩
    · cases hv
    · obtain rfl : u = v := Option.some.inj (listed?_listingLine.symm.trans hv)
      exact ⟨d, r.printed_listingLine d u⟩
  · rcases hvisits.line_cases (hlines ▸ List.mem_append_right before List.mem_cons_self) with
      ⟨d, u, rfl⟩ | ⟨d, u, rfl⟩
    · exact ⟨d, u, (hvisits.repeated hlines).resolve_right List.not_mem_nil, rfl⟩
    · rw [listed?_listingLine] at hnone
      cases hnone

/-- Two nodes that feed each other; the first has a rival for what it writes. -/
def looped : Resolver := ofModel { graph := {
  nodes := [
    { op := "Relu", inputs := ["x"], outputs := ["y"] },
    { op := "Add", inputs := ["y", "", "y"], outputs := ["z"] },
    { op := "Sum", inputs := ["z", "w"], outputs := ["y"] }] } }

example : looped.trace "z" =
    "z: (?)[?] (unknown) <- Add\n  y: (?)[?] (unknown) <- Sum\n    z [already listed]\n" ++
      "    w: (?)[?] (unknown)\n  y [already listed]\n" := by cbv

end Resolver

end ShapeFlow
