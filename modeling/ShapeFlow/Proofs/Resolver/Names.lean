/-
The names of unknown dimensions are only shown. Two resolvers whose models and overrides
differ in such names only, with the standard rules and the same settings, find the same
but for names: every value has the same element type and provenance and a shape that
agrees, the same nodes fail for the same reasons, and the same is told, event by event
(`names_only_shown`). Names do travel, from the inputs of a node to its outputs, and so
the texts may differ; nothing else does.

Runs that differ in names only stay so: in the attempt at a node, in the record of its
result, and so over a level, a pass and all passes.
-/
import Mathlib
import ShapeFlow.Proofs.Operator.Names
import ShapeFlow.Proofs.Resolver.Agreement

namespace ShapeFlow

def Attempt.bare : Attempt → Attempt
  | .unsupported => .unsupported
  | .failed e => .failed e.bare
  | .inferred outputs => .inferred (outputs.map TensorInfo?.bare)

def Event.bare : Event → Event
  | .untyped value => .untyped value
  | .unsupported op domain => .unsupported op domain
  | .failed node e => .failed node e.bare
  | .inferred node inputs outputs =>
    .inferred node (inputs.map TensorInfo?.bare) (outputs.map TensorInfo?.bare)
  | .conflict node found value declared =>
    .conflict node (TensorInfo?.bare found) value declared.bare
  | .passDone pass changed => .passDone pass changed

def PropagateError.bare : PropagateError → PropagateError
  | .graph e => .graph e
  | .interrupted => .interrupted
  | .failures count label first => .failures count label first.bare

theorem InferError.isUnsupported_bare (e : InferError) : e.bare.isUnsupported = e.isUnsupported := by
  cases e with
  | unsupported op opset => rfl
  | failed op fault => cases fault <;> rfl

/-! ## What is read of values -/

theorem TensorInfo?.bare_filter (t : TensorInfo) :
    TensorInfo?.bare ((some t).filter TensorInfo.isInformative) =
      (some t.bare).filter TensorInfo.isInformative := by
  rw [Option.filter_some, Option.filter_some, TensorInfo.isInformative_bare]
  split <;> rfl

theorem Dict.SameButNames.informative {d d' : Dict ValueState} (h : d.SameButNames d') (v : Text) :
    TensorInfo?.bare (((d.get? v).map ValueState.info).filter TensorInfo.isInformative) =
      TensorInfo?.bare (((d'.get? v).map ValueState.info).filter TensorInfo.isInformative) := by
  have hinfo : (d.state v).info.bare = (d'.state v).info.bare := congrArg ValueState.info (h v)
  rw [Dict.informative_get?, Dict.informative_get?, TensorInfo?.bare_filter, TensorInfo?.bare_filter, hinfo]

theorem Dict.SameButNames.inputInfos {d d' : Dict ValueState} (h : d.SameButNames d') (n : Node) :
    (n.inputInfos d).map TensorInfo?.bare = (n.inputInfos d').map TensorInfo?.bare := by
  unfold Node.inputInfos
  rw [List.map_map, List.map_map]
  refine List.map_congr_left fun v _ => ?_
  simp only [Function.comp_apply]
  split
  · rfl
  · exact h.informative v

/-! ## Runs -/

/-- The runs differ in names only. -/
structure Run.SameButNames (run run' : Run) : Prop where
  values : run.values.SameButNames run'.values
  failures : run.failures.map (Prod.map id InferError.bare) =
    run'.failures.map (Prod.map id InferError.bare)
  reported : run.reported = run'.reported
  events : run.events.map Event.bare = run'.events.map Event.bare

theorem bare_lookup (failures : List (Nat × InferError)) (i : Nat) :
    (failures.lookup i).map InferError.bare =
      (failures.map (Prod.map id InferError.bare)).lookup i := by
  induction failures with
  | nil => rfl
  | cons f failures ih =>
    obtain ⟨j, e⟩ := f
    rw [List.map_cons, Prod.map_apply, id_eq, List.lookup_cons, List.lookup_cons]
    split
    · rfl
    · exact ih

theorem Run.SameButNames.lookup {run run' : Run} (h : run.SameButNames run') (i : Nat) :
    (run.failures.lookup i).map InferError.bare = (run'.failures.lookup i).map InferError.bare := by
  rw [bare_lookup, bare_lookup, h.failures]

theorem Run.SameButNames.tell {run run' : Run} (h : run.SameButNames run') {es es' : List Event}
    (hes : es.map Event.bare = es'.map Event.bare) :
    Run.SameButNames { run with events := run.events ++ es } { run' with events := run'.events ++ es' } :=
  ⟨h.values, h.failures, h.reported, by
    simp only [List.map_append, h.events, hes]⟩

namespace Resolver

variable {r r' : Resolver} {run run' : Run}

/-- **The attempt at a node does not look at names.** -/
theorem bare_attempt (hreg : r.registry = .standard) (n : Node) {inputs inputs' : List TensorInfo?}
    (h : inputs.map TensorInfo?.bare = inputs'.map TensorInfo?.bare) :
    (r.attempt n inputs).bare = (r.attempt n inputs').bare := by
  unfold attempt
  split
  · rfl
  rw [hreg]
  simp only
  generalize (n.outputs.map fun name => if name.isEmpty then none else some ({} : TensorInfo)) = slots
  have hanswer := Registry.bare_infer h n.op r.opset n.attributes slots
  generalize Registry.standard.infer n.op r.opset n.attributes inputs slots = answer at hanswer
  generalize Registry.standard.infer n.op r.opset n.attributes inputs' slots = answer' at hanswer
  cases answer with
  | ok outputs =>
    cases answer' with
    | ok outputs' => exact congrArg Attempt.inferred (Except.ok.inj hanswer)
    | error e' => cases hanswer
  | error e =>
    cases answer' with
    | ok outputs' => cases hanswer
    | error e' =>
      have he := Except.error.inj hanswer
      have hunsupported : e.isUnsupported = e'.isUnsupported := by
        rw [← e.isUnsupported_bare, he, e'.isUnsupported_bare]
      simp only [hunsupported]
      split
      · rfl
      · exact congrArg Attempt.failed he

/-! ## Recording -/

/-- Runs that differ in names only, and the same word on whether a value changed. -/
structure SameStep (p p' : Run × Bool) : Prop where
  run : p.1.SameButNames p'.1
  changed : p.2 = p'.2

/-- The run after one output of a node is merged. -/
def mergeSlot (n : Node) (run : Run) (name : Text) (info : TensorInfo?) : Run :=
  let merged := (run.values.state name).merge info
  { run with
    values := run.values.insert name merged.value
    events := run.events ++
      if merged.conflict then [.conflict n info name (run.values.state name).info] else [] }

theorem mergeOutputs_cons {n : Node} {name : Text} {info : TensorInfo?}
    (h : (name.isEmpty || info.isNone) = false) (run : Run) (slots : List (Text × TensorInfo?)) :
    mergeOutputs n run ((name, info) :: slots) =
      ((mergeOutputs n (mergeSlot n run name info) slots).1,
        ((run.values.state name).merge info).changed ||
          (mergeOutputs n (mergeSlot n run name info) slots).2) := by
  rw [mergeOutputs, h]
  rfl

theorem bare_merge_state (h : run.SameButNames run') (name : Text) {info info' : TensorInfo?}
    (hinfo : TensorInfo?.bare info = TensorInfo?.bare info') :
    ((run.values.state name).merge info).map ValueState.bare =
      ((run'.values.state name).merge info').map ValueState.bare := by
  rw [ValueState.bare_merge, ValueState.bare_merge, h.values name, hinfo]

/-- **One output:** what is merged, and a conflict that is met, differ in names only. -/
theorem sameButNames_mergeSlot (h : run.SameButNames run') (n : Node) (name : Text)
    {info info' : TensorInfo?} (hinfo : TensorInfo?.bare info = TensorInfo?.bare info') :
    (mergeSlot n run name info).SameButNames (mergeSlot n run' name info') := by
  have hmerged := bare_merge_state h name hinfo
  have hconflict : ((run.values.state name).merge info).conflict =
      ((run'.values.state name).merge info').conflict := congrArg (·.conflict) hmerged
  have hdeclared : (run.values.state name).info.bare = (run'.values.state name).info.bare :=
    congrArg ValueState.info (h.values name)
  refine ⟨h.values.insert name (congrArg Merged.value hmerged), h.failures, h.reported, ?_⟩
  simp only [mergeSlot, List.map_append, h.events, hconflict]
  split
  · simp only [List.map_cons, List.map_nil, Event.bare, hinfo, hdeclared]
  · rfl

theorem sameStep_mergeOutputs (h : run.SameButNames run') (n : Node)
    {slots slots' : List (Text × TensorInfo?)}
    (hslots : slots.map (Prod.map id TensorInfo?.bare) = slots'.map (Prod.map id TensorInfo?.bare)) :
    SameStep (mergeOutputs n run slots) (mergeOutputs n run' slots') := by
  induction slots generalizing slots' run run' with
  | nil =>
    obtain rfl := List.map_eq_nil_iff.mp hslots.symm
    exact ⟨h, rfl⟩
  | cons slot slots ih =>
    obtain ⟨⟨name, info'⟩, slots', rfl, hslot, hrest⟩ := List.map_eq_cons_iff.mp hslots.symm
    obtain ⟨_, info⟩ := slot
    obtain ⟨rfl, hinfo⟩ := Prod.mk.inj hslot
    have hnone : info'.isNone = info.isNone := by
      have := congrArg Option.isNone hinfo
      simpa only [TensorInfo?.bare, Option.isNone_map] using this
    cases hskip : (name.isEmpty || info.isNone) with
    | true =>
      simp only [mergeOutputs, id_eq, hnone, hskip, if_true]
      exact ih h hrest.symm
    | false =>
      have hstep := ih (sameButNames_mergeSlot h n name hinfo.symm) hrest.symm
      have hchanged : ((run.values.state name).merge info).changed =
          ((run'.values.state name).merge info').changed :=
        congrArg (·.changed) (bare_merge_state h name hinfo.symm)
      rw [id_eq, mergeOutputs_cons hskip, mergeOutputs_cons (hnone ▸ hskip)]
      exact ⟨hstep.run, congrArg₂ or hchanged hstep.changed⟩

theorem zip_bare {outputs outputs' : List TensorInfo?}
    (h : outputs.map TensorInfo?.bare = outputs'.map TensorInfo?.bare) (names : List Text) :
    (names.zip outputs).map (Prod.map id TensorInfo?.bare) =
      (names.zip outputs').map (Prod.map id TensorInfo?.bare) := by
  rw [← List.zip_map, ← List.zip_map, h]

/-- **One node:** what is recorded differs in names only. -/
theorem sameStep_record (h : run.SameButNames run') (n : Node) (i : Nat) {a a' : Attempt}
    (ha : a.bare = a'.bare) : SameStep (record run (n, i, a)) (record run' (n, i, a')) := by
  cases a with
  | unsupported =>
    cases a' with
    | unsupported =>
      simp only [record, h.reported]
      split
      · exact ⟨h, rfl⟩
      · exact ⟨⟨h.values, h.failures, rfl, by simp only [List.map_append, h.events]⟩, rfl⟩
    | failed | inferred => cases ha
  | failed e =>
    cases a' with
    | failed e' =>
      have he := Attempt.failed.inj ha
      have hbefore : (run.failures.lookup i).isSome = (run'.failures.lookup i).isSome := by
        have := congrArg Option.isSome (h.lookup i)
        simpa only [Option.isSome_map] using this
      simp only [record, hbefore]
      split
      · exact ⟨h, rfl⟩
      · refine ⟨⟨h.values, ?_, h.reported, ?_⟩, rfl⟩
        · simp only [List.map_append, h.failures, List.map_cons, List.map_nil, Prod.map_apply, he]
        · simp only [List.map_append, h.events, List.map_cons, List.map_nil, Event.bare, he]
    | unsupported | inferred => cases ha
  | inferred outputs =>
    cases a' with
    | inferred outputs' => exact sameStep_mergeOutputs h n (zip_bare (Attempt.inferred.inj ha) n.outputs)
    | unsupported | failed => cases ha

theorem sameStep_recordAll (h : run.SameButNames run') {results results' : List (Node × Nat × Attempt)}
    (hresults : results.map (Prod.map id (Prod.map id Attempt.bare)) =
      results'.map (Prod.map id (Prod.map id Attempt.bare))) :
    SameStep (recordAll run results) (recordAll run' results') := by
  induction results generalizing results' run run' with
  | nil =>
    obtain rfl := List.map_eq_nil_iff.mp hresults.symm
    exact ⟨h, rfl⟩
  | cons result results ih =>
    obtain ⟨⟨n, i, a'⟩, results', rfl, hresult, hrest⟩ := List.map_eq_cons_iff.mp hresults.symm
    obtain ⟨_, _, a⟩ := result
    obtain ⟨rfl, hplace⟩ := Prod.mk.inj hresult
    obtain ⟨rfl, ha⟩ := Prod.mk.inj hplace
    have hfirst := sameStep_record h n i ha.symm
    have hlater := ih hfirst.run hrest.symm
    exact ⟨hlater.run, congrArg₂ or hfirst.changed hlater.changed⟩

/-! ## Levels and passes -/

structure LevelResults.SameButNames (found found' : LevelResults) : Prop where
  results : found.results.map (Prod.map id (Prod.map id Attempt.bare)) =
    found'.results.map (Prod.map id (Prod.map id Attempt.bare))
  events : found.events.map Event.bare = found'.events.map Event.bare
  cancelled : found.cancelled = found'.cancelled

/-- What an attempt tells. -/
def told (n : Node) (inputs : List TensorInfo?) : Attempt → List Event
  | .inferred outputs => [.inferred n inputs outputs]
  | .unsupported | .failed _ => []

theorem inferLevel_cons_of_none {n : Node} {i : Nat} (h : run.failures.lookup i = none)
    (level : List (Node × Nat)) :
    r.inferLevel run ((n, i) :: level) =
      if r.cancels n then
        { events := told n (n.inputInfos run.values) (r.attemptIn run n), cancelled := true }
      else
        { results := (n, i, r.attemptIn run n) :: (r.inferLevel run level).results
          events := told n (n.inputInfos run.values) (r.attemptIn run n) ++ (r.inferLevel run level).events
          cancelled := (r.inferLevel run level).cancelled } := by
  simp only [inferLevel, h, attemptIn]
  cases r.attempt n (n.inputInfos run.values) <;> rfl

theorem bare_told (n : Node) (inputs : List TensorInfo?) (a : Attempt) :
    (told n inputs a).map Event.bare = told n (inputs.map TensorInfo?.bare) a.bare := by
  cases a <;> rfl

theorem sameButNames_inferLevel (hreg : r.registry = .standard) (h : run.SameButNames run')
    (level : List (Node × Nat)) :
    (r.inferLevel run level).SameButNames (r.inferLevel run' level) := by
  induction level with
  | nil => exact ⟨rfl, rfl, rfl⟩
  | cons p level ih =>
    obtain ⟨n, i⟩ := p
    have hlookup := h.lookup i
    cases hf : run.failures.lookup i with
    | some e =>
      rw [hf] at hlookup
      obtain ⟨e', hf', he⟩ := Option.map_eq_some_iff.mp hlookup.symm
      simp only [inferLevel, hf, hf']
      refine ⟨congrArg₂ List.cons ?_ ih.results, ih.events, ih.cancelled⟩
      simp only [Prod.map_apply, Attempt.bare, he]
    | none =>
      rw [hf] at hlookup
      have hf' := Option.map_eq_none_iff.mp hlookup.symm
      have hinputs := h.values.inputInfos n
      have hattempt : (r.attemptIn run n).bare = (r.attemptIn run' n).bare := bare_attempt hreg n hinputs
      have htold : (told n (n.inputInfos run.values) (r.attemptIn run n)).map Event.bare =
          (told n (n.inputInfos run'.values) (r.attemptIn run' n)).map Event.bare := by
        rw [bare_told, bare_told, hinputs, hattempt]
      rw [inferLevel_cons_of_none hf, inferLevel_cons_of_none hf']
      split
      · exact ⟨rfl, htold, rfl⟩
      · refine ⟨congrArg₂ List.cons ?_ ih.results, ?_, ih.cancelled⟩
        · simp only [Prod.map_apply, hattempt]
        · simp only [List.map_append, htold, ih.events]

/-- Both parts of runs came as far, and differ in names only. -/
inductive Progress.SameButNames : Progress → Progress → Prop
  | interrupted {run run' : Run} : run.SameButNames run' →
      SameButNames (.interrupted run) (.interrupted run')
  | reached {run run' : Run} {changed : Bool} : run.SameButNames run' →
      SameButNames (.reached run changed) (.reached run' changed)

theorem SameStep.reached {p p' : Run × Bool} (h : SameStep p p') :
    Progress.SameButNames (.reached p.1 p.2) (.reached p'.1 p'.2) := by
  rw [h.changed]
  exact .reached h.run

theorem sameButNames_runLevel (hreg : r.registry = .standard) (h : run.SameButNames run')
    (stop : Nat → Bool) (look : Nat) (level : List (Node × Nat)) :
    Progress.SameButNames (r.runLevel stop look run level) (r.runLevel stop look run' level) := by
  have hinfer := sameButNames_inferLevel hreg h level
  have htold := h.tell hinfer.events
  unfold runLevel
  split
  · exact .interrupted h
  · simp only [hinfer.cancelled]
    split
    · exact .interrupted htold
    · exact (sameStep_recordAll htold hinfer.results).reached

/-- **A pass** keeps runs apart in names only. -/
theorem sameButNames_runLevels (hreg : r.registry = .standard) (h : run.SameButNames run')
    (stop : Nat → Bool) (look : Nat) (ls : List (List (Node × Nat))) :
    Progress.SameButNames (r.runLevels stop look run ls) (r.runLevels stop look run' ls) := by
  induction ls generalizing look run run' with
  | nil => exact .reached h
  | cons level ls ih =>
    have hlevel := sameButNames_runLevel hreg h stop look level
    simp only [runLevels]
    generalize r.runLevel stop look run level = p at hlevel
    generalize r.runLevel stop look run' level = p' at hlevel
    cases hlevel with
    | interrupted hmid => exact .interrupted hmid
    | @reached mid mid' changed hmid =>
      have hrest := ih hmid (look + 2)
      simp only
      generalize r.runLevels stop (look + 2) mid ls = q at hrest
      generalize r.runLevels stop (look + 2) mid' ls = q' at hrest
      cases hrest with
      | interrupted hend => exact .interrupted hend
      | reached hend => exact .reached hend

/-- **All passes** do, and so there are equally many of them. -/
theorem sameButNames_runPasses (hreg : r.registry = .standard) (h : run.SameButNames run')
    (stop : Nat → Bool) (ls : List (List (Node × Nat))) (left pass : Nat) :
    Progress.SameButNames (r.runPasses stop ls left pass run) (r.runPasses stop ls left pass run') := by
  induction left generalizing pass run run' with
  | zero => exact .reached h
  | succ left ih =>
    have hpass := sameButNames_runLevels hreg h stop (2 * ls.length * pass) ls
    simp only [runPasses]
    generalize r.runLevels stop (2 * ls.length * pass) run ls = p at hpass
    generalize r.runLevels stop (2 * ls.length * pass) run' ls = p' at hpass
    cases hpass with
    | interrupted hmid => exact .interrupted hmid
    | @reached mid mid' changed hmid =>
      let done : List Event := [.passDone pass changed]
      have htold := hmid.tell (Eq.refl (done.map Event.bare))
      simp only
      split
      · exact ih htold (pass + 1)
      · exact .reached htold

/-! ## Propagations -/

/-- The same model, overrides and settings but for names, with the standard rules. -/
structure SameButNames (r r' : Resolver) : Prop where
  model : r.model.bare = r'.model.bare
  registry : r.registry = .standard
  registry' : r'.registry = .standard
  opset : r.opset = r'.opset
  passes : r.maxPasses = r'.maxPasses
  overrides : r.overrides.SameOverrides r'.overrides

/-- The same was found but for names: the element types and provenances, shapes that
agree, the nodes that failed and, but for names, why. -/
structure Propagation.SameButNames (p p' : Propagation) : Prop where
  element : ∀ v, TensorInfo?.element? (p.resolver.info? v) = TensorInfo?.element? (p'.resolver.info? v)
  shape : ∀ v, Shape?.agrees (p.resolver.shape? v) (p'.resolver.shape? v) = true
  provenance : ∀ v, p.resolver.provenance v = p'.resolver.provenance v
  failure : ∀ i, (p.resolver.failure? i).map InferError.bare =
    (p'.resolver.failure? i).map InferError.bare
  result : p.result.mapError PropagateError.bare = p'.result.mapError PropagateError.bare

theorem element?_info? (r : Resolver) (v : Text) :
    TensorInfo?.element? (r.info? v) = (r.values.state v).info.element := by
  rw [(r.shows_state v).1]
  obtain ⟨element, shape⟩ := (r.values.state v).info
  cases element <;> cases shape <;> rfl

/-- The label of the first node that failed, and its error. -/
def firstFailure? (r : Resolver) : Option (Text × InferError) :=
  r.model.graph.nodes.zipIdx.findSome? fun p => (r.failure? p.2).map fun error => (p.1.label, error)

theorem failuresError_eq (r : Resolver) : r.failuresError =
    r.firstFailure?.elim (.ok ()) fun f => .error (.failures r.failures.length f.1 f.2) := by
  unfold failuresError firstFailure?
  simp only
  split
  · next hnone => rw [hnone, Option.elim_none]
  · next hsome => rw [hsome, Option.elim_some]

section Found

variable {found found' : Run} (h : found.SameButNames found')
include h

/-- Errors that sum up failures of the same nodes differ in names only. -/
theorem bare_failuresError (hnodes : r.model.graph.nodes = r'.model.graph.nodes) (b b' : Bool) :
    (r.adopt found b).failuresError.mapError PropagateError.bare =
      (r'.adopt found' b').failuresError.mapError PropagateError.bare := by
  have hlength : found.failures.length = found'.failures.length := by
    simpa only [List.length_map] using congrArg List.length h.failures
  have hfailure : ∀ i, ((r.adopt found b).failure? i).map InferError.bare =
      ((r'.adopt found' b').failure? i).map InferError.bare := h.lookup
  have hfirst : (r.adopt found b).firstFailure?.map (Prod.map id InferError.bare) =
      (r'.adopt found' b').firstFailure?.map (Prod.map id InferError.bare) := by
    unfold firstFailure?
    rw [List.map_findSome?, List.map_findSome?]
    refine congrArg₂ List.findSome? (funext fun p => ?_) (congrArg List.zipIdx hnodes)
    have hp := congrArg (Option.map (Prod.mk p.1.label)) (hfailure p.2)
    simpa only [Option.map_map, Function.comp_def, Prod.map_apply, id_eq] using hp
  rw [failuresError_eq, failuresError_eq]
  generalize (r.adopt found b).firstFailure? = f at hfirst
  generalize (r'.adopt found' b').firstFailure? = f' at hfirst
  cases f with
  | none =>
    obtain rfl := Option.map_eq_none_iff.mp hfirst.symm
    rfl
  | some f =>
    obtain ⟨f', rfl, hf⟩ := Option.map_eq_some_iff.mp hfirst.symm
    obtain ⟨hlabel, herror⟩ := Prod.mk.inj hf
    simp only [id_eq] at hlabel
    simp only [Option.elim_some, Except.mapError, PropagateError.bare, adopt, hlength, herror, hlabel]

theorem Propagation.sameButNames_adopt (b b' : Bool) {result result' : Except PropagateError Unit}
    (hresult : result.mapError PropagateError.bare = result'.mapError PropagateError.bare)
    {events events' : List Event} :
    Propagation.SameButNames ⟨r.adopt found b, result, events⟩ ⟨r'.adopt found' b', result', events'⟩ where
  element v := by
    rw [element?_info?, element?_info?]
    exact congrArg (·.info.element) (h.values v)
  shape v := by
    rw [shape?_eq_state, shape?_eq_state, Shape?.agrees_iff]
    exact congrArg (·.info.shape) (h.values v)
  provenance v := by
    rw [(shows_state _ v).2, (shows_state _ v).2]
    exact congrArg (·.provenance) (h.values v)
  failure := h.lookup
  result := hresult

end Found

theorem SameButNames.nodes (h : SameButNames r r') : r.model.graph.nodes = r'.model.graph.nodes :=
  congrArg (·.graph.nodes) h.model

/-- A propagation that comes to its end, be it spared or not, has found what the passes
find that nothing stops; it tells what they tell, unless it is spared. -/
theorem Reachable.found (hr : r.Reachable) {ls : List (List Nat)} (hl : r.model.graph.levels = .ok ls)
    {stop : Nat → Bool} (hu : (r.propagate stop).Uninterrupted) :
    ∃ run changed, r.runPasses (fun _ => false) (levelNodes r.model.graph ls) r.maxPasses 0 r.start =
        .reached run changed ∧
      r.propagate stop = ⟨r.adopt run true, (r.adopt run true).failuresError,
        if r.propagated then [] else run.events⟩ := by
  rcases spared_or_finished hl hu with ⟨hp, heq⟩ | ⟨hp, run, changed, hrun, heq⟩
  · obtain ⟨s, ht⟩ := hr.tracks
    obtain ⟨ls', run, changed, hl', hrun, hvalues, hfailures⟩ := ht.found hp
    rw [hl] at hl'
    cases hl'
    rw [← ht.runPasses_eq] at hrun
    have hadopt : r.adopt run true = r := by rw [adopt, ← hvalues, ← hfailures, ← hp]
    exact ⟨run, changed, hrun, by rw [heq, hadopt, if_pos hp]⟩
  · exact ⟨run, changed, runPasses_of_reached hrun, by rw [heq, hp]; rfl⟩

/-- Of graphs without levels nothing is found beyond what is declared. -/
theorem SameButNames.unordered (h : SameButNames r r') {s s' : Settings} (ht : Tracks r.model s r)
    (ht' : Tracks r'.model s' r') {e : GraphError} (hl : r.model.graph.levels = .error e)
    (hl' : r'.model.graph.levels = .error e) :
    Run.SameButNames { values := r.values, failures := r.failures }
      { values := r'.values, failures := r'.failures } := by
  obtain ⟨hvalues, hfailures⟩ := ht.unordered e hl
  obtain ⟨hvalues', hfailures'⟩ := ht'.unordered e hl'
  rw [hvalues, hfailures, hvalues', hfailures']
  exact ⟨seed_bare (congrArg Model.graph h.model) ⟨.nil, .nil, fun _ => rfl⟩, rfl, rfl, rfl⟩

/-- Passes that come to their end have found the same but for names. -/
theorem SameButNames.reached (h : SameButNames r r') {ls : List (List Nat)} {found found' : Run}
    {changed changed' : Bool}
    (hrun : r.runPasses (fun _ => false) (levelNodes r.model.graph ls) r.maxPasses 0 r.start =
      .reached found changed)
    (hrun' : r'.runPasses (fun _ => false) (levelNodes r'.model.graph ls) r'.maxPasses 0 r'.start =
      .reached found' changed') : found.SameButNames found' := by
  have hstart : r.start.SameButNames r'.start :=
    ⟨seed_bare (congrArg Model.graph h.model) h.overrides, rfl, rfl, rfl⟩
  have hplaced : levelNodes r.model.graph ls = levelNodes r'.model.graph ls := by
    simp only [levelNodes, h.nodes]
  have hsame := sameButNames_runPasses h.registry hstart (fun _ => false)
    (levelNodes r.model.graph ls) r.maxPasses 0
  rw [hrun, h.passes, hplaced, runPasses_congr (h.registry.trans h.registry'.symm) h.opset,
    hrun'] at hsame
  cases hsame with
  | reached hfound => exact hfound

/-- **Names are only shown.** With models and overrides that differ in the names of
unknown dimensions only, propagations that come to their end find the same but for names,
and tell the same but for names if neither or both are spared. -/
theorem names_only_shown (hr : r.Reachable) (hr' : r'.Reachable) (h : SameButNames r r')
    {stop stop' : Nat → Bool} (hu : (r.propagate stop).Uninterrupted)
    (hu' : (r'.propagate stop').Uninterrupted) :
    (r.propagate stop).SameButNames (r'.propagate stop') ∧
    (r.propagated = r'.propagated →
      (r.propagate stop).events.map Event.bare = (r'.propagate stop').events.map Event.bare) := by
  have hlevels := Graph.levels_congr h.nodes
  cases hl : r.model.graph.levels with
  | error e =>
    rw [hl] at hlevels
    obtain ⟨s, ht⟩ := hr.tracks
    obtain ⟨s', ht'⟩ := hr'.tracks
    have hfound := h.unordered ht ht' hl hlevels.symm
    rw [ht.propagate_of_unordered hl, ht'.propagate_of_unordered hlevels.symm]
    exact ⟨Propagation.sameButNames_adopt hfound r.propagated r'.propagated rfl, fun _ => rfl⟩
  | ok ls =>
    rw [hl] at hlevels
    obtain ⟨found, changed, hrun, heq⟩ := hr.found hl hu
    obtain ⟨found', changed', hrun', heq'⟩ := hr'.found hlevels.symm hu'
    have hfound := h.reached hrun hrun'
    have hresult := bare_failuresError hfound h.nodes true true
    rw [heq, heq']
    refine ⟨Propagation.sameButNames_adopt hfound true true hresult, fun hp => ?_⟩
    simp only [hp]
    split
    · rfl
    · exact hfound.events

/-- A model with a name for the open axis: a value that takes the name over, one that is
declared otherwise, a node that fails, and an override with the name in it. -/
def labelled (name : Text) : Resolver := (ofModel { graph := {
  inputs := [⟨"x", ⟨some .float32, some [.unknown name, .known 3, .unknown "H"]⟩⟩]
  outputs := [⟨"z", ⟨none, some [.unknown name, .known 7, Dim.anonymous]⟩⟩]
  nodes := [
    { op := "GlobalMaxPool", inputs := ["x"], outputs := ["y"] },
    { op := "Dropout", inputs := ["y"], outputs := ["z"] },
    { op := "Flatten", inputs := ["w"], outputs := ["u"], attributes := ⟨[("axis", .int 5)]⟩ }] } }).withOverrides
  ⟨[("w", ⟨none, some [.unknown name, .known 2]⟩)]⟩

theorem sameButNames_labelled (name name' : Text) : SameButNames (labelled name) (labelled name') where
  model := rfl
  registry := rfl
  registry' := rfl
  opset := rfl
  passes := rfl
  overrides := by
    refine ⟨by simp [labelled, withOverrides, Dict.keys], by simp [labelled, withOverrides, Dict.keys],
      fun v => ?_⟩
    simp only [labelled, withOverrides, Dict.get?, Dict.lookup]
    split <;> rfl

/-- The name is passed on, and makes no other difference. -/
theorem names_only_shown_labelled :
    ((labelled "N").propagate fun _ => false).Uninterrupted ∧
    ((labelled "N").propagate fun _ => false).SameButNames ((labelled "batch").propagate fun _ => false) ∧
    ((labelled "N").propagate fun _ => false).events.map Event.bare =
      ((labelled "batch").propagate fun _ => false).events.map Event.bare ∧
    ((labelled "N").propagate fun _ => false).resolver.shape? "z" =
      some [.unknown "N", .known 3, .known 1] ∧
    ((labelled "batch").propagate fun _ => false).resolver.shape? "z" =
      some [.unknown "batch", .known 3, .known 1] ∧
    (((labelled "N").propagate fun _ => false).resolver.failure? 2).isSome = true := by
  have hr : ∀ name, (labelled name).Reachable := fun name => .withOverrides _ (.ofModel _)
  have hu : ((labelled "N").propagate fun _ => false).Uninterrupted :=
    uninterrupted_propagate (by decide +kernel)
  have hu' : ((labelled "batch").propagate fun _ => false).Uninterrupted :=
    uninterrupted_propagate (by decide +kernel)
  obtain ⟨hsame, hevents⟩ := names_only_shown (hr _) (hr _) (sameButNames_labelled _ _) hu hu'
  exact ⟨hu, hsame, hevents rfl, by cbv, by cbv, by cbv⟩

end Resolver

end ShapeFlow
