/-
Refinement of whole propagations. A propagation with overrides of which less is known
finds less, and nothing else: if with more known no node fails and no conflict is met,
then with less known no node fails either, and all that is then known of a value is
known of it with more (`refines_propagate`). So a model can be propagated with open
dimensions first, and they can be fixed later.

The final values of the propagation with more known bound every run with less: they
bound what is declared, because without conflicts nothing declared is lost, and what a
node infers from values below the bound is below what it has inferred from the bound.
-/
import ShapeFlow.Proofs.Operator.Monotone
import ShapeFlow.Proofs.Resolver.Dataflow
import ShapeFlow.Proofs.Resolver.Invariant

namespace ShapeFlow

/-! ## Overrides -/

/-- The same element type, and a shape of which less is known. -/
structure TensorInfo.Coarser (a b : TensorInfo) : Prop where
  element : a.element = b.element
  shape : Option.le Shape.Below a.shape b.shape

/-- Overrides of the same values, of which the first are coarser. -/
structure Dict.Coarser (lower upper : Dict TensorInfo) : Prop where
  nodup : lower.keys.Nodup
  nodup' : upper.keys.Nodup
  infos : ∀ v, Option.Rel TensorInfo.Coarser (lower.get? v) (upper.get? v)

theorem get?_foldl_seedOverride (values : Dict ValueState) {entries : List (Text × TensorInfo)}
    (h : (entries.map Prod.fst).Nodup) (v : Text) :
    (entries.foldl (fun values e => values.insert e.1 (seedOverride values e.1 e.2)) values).get? v =
      (Dict.lookup v entries).elim (values.get? v) fun info => some (seedOverride values v info) := by
  induction entries generalizing values with
  | nil => rfl
  | cons e entries ih =>
    obtain ⟨name, info⟩ := e
    obtain ⟨hname, hrest⟩ := List.nodup_cons.mp h
    rw [List.foldl_cons, ih _ hrest]
    by_cases hv : v = name
    · subst hv
      rw [Dict.lookup_eq_none.mpr hname]
      simp [Dict.lookup, Dict.get?_insert_self]
    · simp [Dict.lookup, Ne.symm hv, seedOverride, Dict.get?_insert_other _ hv]

/-- A value is seeded by its override, or else by its declaration. -/
theorem state_seed (g : Graph) {overrides : Dict TensorInfo} (h : overrides.keys.Nodup) (v : Text) :
    (seed g overrides).state v =
      (overrides.get? v).elim ((seed g {}).state v) (seedOverride (seed g {}) v) := by
  have hget : (seed g overrides).get? v = (overrides.get? v).elim ((seed g {}).get? v) fun info =>
      some (seedOverride (seed g {}) v info) := get?_foldl_seedOverride (seed g {}) h v
  unfold Dict.state
  rw [hget]
  cases overrides.get? v <;> rfl

theorem seed_below {lower upper : Dict TensorInfo} (h : lower.Coarser upper) (g : Graph) (v : Text) :
    ((seed g lower).state v).info.Below ((seed g upper).state v).info ∧
      ((seed g lower).state v).provenance = ((seed g upper).state v).provenance := by
  have hv := h.infos v
  rw [state_seed g h.nodup, state_seed g h.nodup']
  generalize lower.get? v = a at hv
  generalize upper.get? v = b at hv
  cases hv with
  | none => exact ⟨.refl _, rfl⟩
  | some hab =>
    refine ⟨⟨?_, hab.shape⟩, rfl⟩
    simp only [Option.elim_some, seedOverride, hab.element]
    exact le_of_refl (fun _ => rfl) _

/-! ## Attempts -/

namespace Registry

theorem applyResult_below {a b : OutputResult} (h : a.Below b) (hb : ∀ fault, b.outcome ≠ .failed fault)
    {slot : TensorInfo?} (hslot : slot = none ∨ slot = some {}) :
    TensorInfo?.Below (applyResult slot a) (applyResult slot b) := by
  rcases hslot with rfl | rfl
  · exact TensorInfo?.below_of_none _
  obtain ⟨outcome, element, shape⟩ := a
  obtain ⟨outcome', element', shape'⟩ := b
  obtain ⟨helement, hshape⟩ := h
  cases outcome' with
  | failed fault => exact absurd rfl (hb fault)
  | resolved =>
    cases outcome with
    | failed fault => exact TensorInfo.below_of_empty _
    | resolved =>
      obtain ⟨-, s, t, rfl, rfl, hst⟩ := hshape rfl
      exact ⟨helement, hst⟩
    | unresolved =>
      cases element with
      | none => exact TensorInfo.below_of_empty _
      | some t => exact ⟨helement, le_of_none _⟩
  | unresolved =>
    cases outcome with
    | failed fault => exact TensorInfo.below_of_empty _
    | resolved => cases (hshape rfl).1
    | unresolved =>
      cases element with
      | none => exact TensorInfo.below_of_empty _
      | some t =>
        obtain ⟨t', rfl, rfl⟩ := exists_of_le helement
        exact .refl _

theorem applyResults_below {results results' : List OutputResult}
    (h : List.Forall₂ OutputResult.Below results results') (hvalid : ¬ AnyFailed results')
    {slots : List TensorInfo?} (hslots : ∀ slot ∈ slots, slot = none ∨ slot = some {}) :
    List.Forall₂ TensorInfo?.Below (applyResults slots results) (applyResults slots results') := by
  induction h generalizing slots with
  | nil => cases slots <;> exact List.forall₂_same.mpr fun slot _ => TensorInfo.Below.refl _
  | @cons a b results results' hab _ ih =>
    cases slots with
    | nil => exact .nil
    | cons slot slots =>
      refine .cons (applyResult_below hab ?_ (hslots slot List.mem_cons_self)) (ih ?_ ?_)
      · exact fun fault hfault => hvalid ⟨b, List.mem_cons_self, fault, hfault⟩
      · rintro ⟨c, hc, hfault⟩
        exact hvalid ⟨c, List.mem_cons_of_mem b hc, hfault⟩
      · exact fun s hs => hslots s (List.mem_cons_of_mem slot hs)

end Registry

namespace Registry

/-- The inference by a standard rule, into slots: the rule's reason if the node is
invalid, which is never that the operator is unsupported. -/
theorem infer_standard {op : Text} {opset : Int} {f : Operator} (hf : standard.lookup op opset = some f)
    (attrs : Attributes) (inputs slots : List TensorInfo?) :
    AnyFailed (f.infer attrs inputs slots.length) ∧
      (∃ e, standard.infer op opset attrs inputs slots = .error e ∧ e.isUnsupported = false) ∨
    ¬ AnyFailed (f.infer attrs inputs slots.length) ∧
      standard.infer op opset attrs inputs slots =
        .ok (applyResults slots (f.infer attrs inputs slots.length)) := by
  obtain ⟨since, rule, -, rfl⟩ := lookup_standard hf
  simp only [infer, hf]
  cases hfound : (rule.infer op attrs inputs slots.length).findSome? fun result => result.outcome.fault? with
  | some fault =>
    obtain ⟨result, hmem, hfault⟩ := List.exists_of_findSome?_eq_some hfound
    obtain ⟨e, he, rfl⟩ := ShapeRule.invalid_of_failed hmem (Outcome.fault?_eq_some.mp hfault)
    exact .inl ⟨ShapeRule.anyFailed_infer.mpr ⟨e, he⟩, _, rfl, rfl⟩
  | none => exact .inr ⟨findSome?_fault_eq_none.mp hfound, rfl⟩

end Registry

/-- What named slots hold for a value, when each is below its counterpart. -/
theorem slotIn_below {outputs outputs' : List TensorInfo?}
    (h : List.Forall₂ TensorInfo?.Below outputs outputs') (names : List Text) (v : Text) :
    TensorInfo?.Below (slotIn (names.zip outputs) v) (slotIn (names.zip outputs') v) := by
  cases hv : v.isEmpty with
  | true =>
    rw [slotIn_of_isEmpty hv]
    exact TensorInfo?.below_of_none _
  | false =>
    induction h generalizing names with
    | nil => exact TensorInfo.Below.refl _
    | cons hab _ ih =>
      cases names with
      | nil => exact TensorInfo.Below.refl _
      | cons name names =>
        simp only [List.zip_cons_cons]
        by_cases hname : v = name
        · subst hname
          rw [slotIn_cons_self hv, slotIn_cons_self hv]
          exact hab
        · rw [slotIn_cons_of_ne hname, slotIn_cons_of_ne hname]
          exact ih names

/-- What is shown of a value, when its state is below another. -/
theorem Dict.informative_below {values values' : Dict ValueState} {v : Text}
    (h : (values.state v).info.Below (values'.state v).info) :
    TensorInfo?.Below (((values.get? v).map ValueState.info).filter TensorInfo.isInformative)
      (((values'.get? v).map ValueState.info).filter TensorInfo.isInformative) := by
  rw [Dict.informative_get?, Dict.informative_get?, TensorInfo?.Below, TensorInfo?.getD_filter,
    TensorInfo?.getD_filter]
  exact h

theorem Node.inputInfos_below (n : Node) {values values' : Dict ValueState}
    (h : ∀ v, (values.state v).info.Below (values'.state v).info) :
    List.Forall₂ TensorInfo?.Below (n.inputInfos values) (n.inputInfos values') := by
  unfold Node.inputInfos
  rw [List.forall₂_map_left_iff, List.forall₂_map_right_iff]
  refine List.forall₂_same.mpr fun v _ => ?_
  split
  · exact TensorInfo?.below_of_none _
  · exact Dict.informative_below (h v)

namespace Resolver

/-- **An attempt with less known does not fail where one with more does not, and offers
less.** -/
theorem attempt_below {r : Resolver} (hreg : r.registry = .standard) (n : Node)
    {inputs inputs' : List TensorInfo?} (h : List.Forall₂ TensorInfo?.Below inputs inputs')
    (hok : (r.attempt n inputs').error? = none) :
    (r.attempt n inputs).error? = none ∧
      ∀ v, TensorInfo?.Below ((r.attempt n inputs).offer n v) ((r.attempt n inputs').offer n v) := by
  have hunsupported : ∀ v, TensorInfo?.Below (Attempt.unsupported.offer n v) (Attempt.unsupported.offer n v) :=
    fun v => TensorInfo?.below_of_none _
  cases hs : n.isStandard with
  | false =>
    rw [attempt_of_not_standard hs, attempt_of_not_standard hs]
    exact ⟨rfl, hunsupported⟩
  | true =>
    simp only [attempt, hs, hreg, Bool.not_true, Bool.false_eq_true, if_false] at hok ⊢
    generalize hslots : (n.outputs.map fun name => if name.isEmpty then none else some ({} : TensorInfo)) =
      slots at hok ⊢
    have hfresh : ∀ slot ∈ slots, slot = none ∨ slot = some {} := by
      subst hslots
      intro slot hslot
      obtain ⟨name, -, rfl⟩ := List.mem_map.mp hslot
      split
      · exact .inl rfl
      · exact .inr rfl
    cases hf : Registry.standard.lookup n.op r.opset with
    | none =>
      simp only [Registry.infer, hf, InferError.isUnsupported, if_true]
      exact ⟨rfl, hunsupported⟩
    | some f =>
      obtain ⟨since, rule, hrule, rfl⟩ := Registry.lookup_standard hf
      have hmono : rule.Monotone := monotone_of_mem_standardRules _ hrule
      rcases Registry.infer_standard hf n.attributes inputs' slots with ⟨-, e, he, hu⟩ | ⟨hvalid, hresults⟩
      · simp only [he, hu] at hok
        cases hok
      rcases Registry.infer_standard hf n.attributes inputs slots with ⟨hfailed, -⟩ | ⟨-, hresults'⟩
      · exact absurd (hmono.anyFailed h hfailed) hvalid
      rw [hresults, hresults']
      refine ⟨rfl, slotIn_below ?_ n.outputs⟩
      exact Registry.applyResults_below (hmono.results_below h hvalid).2 hvalid hfresh

/-! ## The bound -/

/-- A run that kept all that is declared, and in which every node has had its say and
none has failed. -/
structure Ceiling (r : Resolver) (top : Run) : Prop where
  declared : ∀ v, (r.seeded v).info.Below (top.values.state v).info
  settled : ∀ i n, r.model.graph.nodes[i]? = some n → r.NodeSettled top i n
  sound : ∀ i n, r.model.graph.nodes[i]? = some n → top.failures.lookup i = none

/-- A propagation without failures and conflicts ends in such a run. -/
theorem Reachable.ceiling {r : Resolver} (h : r.Reachable) (hp : r.propagated = false)
    {stop : Nat → Bool} (hok : (r.propagate stop).result = .ok ())
    (hcalm : Calm (r.propagate stop).events) :
    ∃ ls top, r.model.graph.levels = .ok ls ∧ r.Ceiling top ∧
      (r.propagate stop).resolver.values = top.values := by
  cases hl : r.model.graph.levels with
  | error e => simp [Resolver.propagate, hp, hl] at hok
  | ok ls =>
    have hu : (r.propagate stop).Uninterrupted := by
      intro hinterrupted
      rw [hok] at hinterrupted
      cases hinterrupted
    rcases spared_or_finished hl hu with ⟨hp', -⟩ | ⟨-, run, changed, hrun, heq⟩
    · rw [hp] at hp'
      cases hp'
    rw [heq] at hok hcalm ⊢
    have hdeclared := declared_below_of_calm r stop ls r.maxPasses
    rw [hrun] at hdeclared
    obtain ⟨left, hleft⟩ := Nat.exists_eq_succ_of_ne_zero h.coherent.passes.ne'
    rw [hleft] at hrun
    obtain ⟨first, c, later, hfirst, rfl, -⟩ := runPasses_reached hl hrun
    obtain ⟨hlayers, hlen⟩ := Graph.layers_of_levels hl
    refine ⟨ls, first, rfl, ⟨hdeclared hcalm, fun i n hn => ?_, fun i n hn => ?_⟩, rfl⟩
    · refine (settled_firstPass hl hfirst).nodes i ?_ n hn
      exact (hlayers.perm hlen).mem_iff.mpr (List.mem_range.mpr (List.getElem?_eq_some_iff.mp hn).1)
    · exact (failuresError_eq_ok (r := r.adopt _ true)).mp hok _ _ hn

section Under

variable {r : Resolver} {lower upper : Dict TensorInfo} {top : Run}

/-- A run of the coarser propagation stays under the bound: no more is known of any
value, the same values are beyond inference, and no node has failed. -/
structure Under (r : Resolver) (top run : Run) : Prop where
  info : ∀ v, (run.values.state v).info.Below (top.values.state v).info
  authority : ∀ v, (run.values.state v).provenance.isAuthoritative = (r.seeded v).provenance.isAuthoritative
  sound : ∀ i, run.failures.lookup i = none

theorem Ceiling.under_start (hc : (r.withOverrides upper).Ceiling top) (h : lower.Coarser upper) :
    (r.withOverrides lower).Under top (r.withOverrides lower).start :=
  ⟨fun v => (seed_below h r.model.graph v).1.trans (hc.declared v), fun _ => rfl, fun _ => rfl⟩

/-- **The step:** what a node infers under the bound stays under it. -/
theorem Ceiling.record (hc : (r.withOverrides upper).Ceiling top) (hreg : r.registry = .standard)
    (hg : r.model.graph.Uncontested) (h : lower.Coarser upper) {before run : Run}
    (hbefore : (r.withOverrides lower).Under top before) (hrun : (r.withOverrides lower).Under top run)
    {i : Nat} {n : Node} (hn : r.model.graph.nodes[i]? = some n) :
    (r.withOverrides lower).Under top
      (Resolver.record run (n, i, (r.withOverrides lower).outcome before (n, i))).1 := by
  have hnodup := nodup_namedOutputs hg hn
  have hsettled := hc.settled i n hn
  have hsound := hsettled.failure.symm.trans (hc.sound i n hn)
  have houtcome : (r.withOverrides lower).outcome before (n, i) = r.attempt n (n.inputInfos before.values) := by
    simp only [outcome, hbefore.sound i]
    rfl
  obtain ⟨herror, hoffer⟩ := attempt_below hreg n (n.inputInfos_below hbefore.info) hsound
  rw [houtcome]
  refine ⟨fun v => ?_, fun v => ?_, fun j => ?_⟩
  · rw [state_record run n i _ hnodup]
    cases hauthority : (run.values.state v).provenance.isAuthoritative with
    | true =>
      rw [ValueState.merge_of_isAuthoritative hauthority]
      exact hrun.info v
    | false =>
      refine ValueState.merge_below (hrun.info v) ?_
      by_cases hv : v ∈ n.namedOutputs
      · -- the bound has taken in what the node offers there, and that is no less
        have hopen : ((r.withOverrides upper).seeded v).provenance.isAuthoritative = false := by
          rw [← hauthority, hrun.authority v]
          exact congrArg Provenance.isAuthoritative (seed_below h r.model.graph v).2.symm
        rw [hsettled.merged v hv]
        exact (hoffer v).trans (ValueState.inferred_below_merge hopen _)
      · rw [Attempt.offer_eq_none hv]
        exact TensorInfo?.below_of_none _
  · rw [state_record run n i _ hnodup, ValueState.isAuthoritative_merge]
    exact hrun.authority v
  · rw [lookup_record, hrun.sound j, herror]
    split <;> rfl

/-- **The run:** a propagation of the coarser overrides stays under the bound, however
far it comes. -/
theorem Ceiling.propagate (hc : (r.withOverrides upper).Ceiling top) (hreg : r.registry = .standard)
    {ls : List (List Nat)} (hl : r.model.graph.levels = .ok ls) (h : lower.Coarser upper)
    (stop : Nat → Bool) :
    ∃ run, (r.withOverrides lower).Under top run ∧
      ((r.withOverrides lower).propagate stop).resolver.values = run.values ∧
      ((r.withOverrides lower).propagate stop).resolver.failures = run.failures := by
  have hkept : (r.withOverrides lower).Kept ((r.withOverrides lower).Under top) :=
    ⟨fun _ _ hrun => ⟨hrun.info, hrun.authority, hrun.sound⟩, fun _ _ hbefore hrun _ _ hn =>
      hc.record hreg (Graph.uncontested_of_levels hl) h hbefore hrun hn⟩
  have hunder : ∀ ls progress, (r.withOverrides lower).runPasses stop (levelNodes r.model.graph ls)
      (r.withOverrides lower).maxPasses 0 (r.withOverrides lower).start = progress →
      (r.withOverrides lower).Under top progress.run := by
    rintro ls _ rfl
    exact hkept.runPasses stop ls _ 0 (hc.under_start h)
  have hend := (r.withOverrides lower).ending_propagate stop
  generalize (r.withOverrides lower).propagate stop = p at hend
  cases hend with
  | spared hp => cases hp
  | unordered _ he =>
    rw [show (r.withOverrides lower).model = r.model from rfl, hl] at he
    cases he
  | interrupted _ _ hrun => exact ⟨_, hunder _ _ hrun, rfl, rfl⟩
  | finished _ _ hrun => exact ⟨_, hunder _ _ hrun, rfl, rfl⟩

end Under

/-- **Less known of the overrides, less found, and nothing else.** If a propagation with
the finer overrides succeeds and meets no conflict, then with the coarser ones no node
fails, and all that is known of a value is known of it with the finer ones. -/
theorem refines_propagate {r : Resolver} (hr : r.Reachable) (hreg : r.registry = .standard)
    {lower upper : Dict TensorInfo} (h : lower.Coarser upper) (stop stop' : Nat → Bool)
    (hok : ((r.withOverrides upper).propagate stop').result = .ok ())
    (hcalm : Calm ((r.withOverrides upper).propagate stop').events) :
    (∀ i, ((r.withOverrides lower).propagate stop).resolver.failure? i = none) ∧
    (((r.withOverrides lower).propagate stop).Uninterrupted →
      ((r.withOverrides lower).propagate stop).result = .ok ()) ∧
    ∀ v, TensorInfo?.Below (((r.withOverrides lower).propagate stop).resolver.info? v)
      (((r.withOverrides upper).propagate stop').resolver.info? v) := by
  obtain ⟨ls, top, hl, hc, hvalues'⟩ := (hr.withOverrides upper).ceiling rfl hok hcalm
  obtain ⟨run, hunder, hvalues, hfailures⟩ := hc.propagate hreg hl h stop
  have hsound : ∀ i, ((r.withOverrides lower).propagate stop).resolver.failure? i = none := by
    intro i
    rw [failure?, hfailures]
    exact hunder.sound i
  refine ⟨hsound, fun hu => ?_, fun v => ?_⟩
  · obtain ⟨-, hresult⟩ := finished_propagate (r := r.withOverrides lower) hl hu
    rw [hresult, failuresError_eq_ok.mpr fun i _ _ => hsound i]
  · rw [info?, info?, hvalues, hvalues']
    exact Dict.informative_below (hunder.info v)

/-- Two nodes in a row that are inferred, of which the last has an output declared in
part, and one of an operator without a rule. -/
def row : Resolver := ofModel { graph := {
  inputs := [⟨"x", ⟨some .float32, some [.unknown "N", Dim.anonymous, .known 4]⟩⟩]
  outputs := [⟨"z", ⟨none, some [Dim.anonymous, .known 12]⟩⟩]
  nodes := [
    { op := "Dropout", inputs := ["y"], outputs := ["z"] },
    { op := "Flatten", inputs := ["x"], outputs := ["y"] },
    { op := "Mystery", inputs := ["z"], outputs := ["v"] }] } }

/-- The input of any length. -/
def anyLength : Dict TensorInfo := ⟨[("x", ⟨none, some [.unknown "N", .known 3, .known 4]⟩)]⟩

/-- The input of length two. -/
def lengthTwo : Dict TensorInfo := ⟨[("x", ⟨none, some [.known 2, .known 3, .known 4]⟩)]⟩

theorem coarser_anyLength : anyLength.Coarser lengthTwo := by
  refine ⟨by decide, by decide, fun v => ?_⟩
  unfold anyLength lengthTwo Dict.get?
  simp only [Dict.lookup]
  split
  · exact .some ⟨rfl, .cons .unknown (Shape.Below.refl _)⟩
  · exact .none

theorem refines_row : anyLength.Coarser lengthTwo ∧
    ((row.withOverrides lengthTwo).propagate fun _ => false).result = .ok () ∧
    Calm ((row.withOverrides lengthTwo).propagate fun _ => false).events ∧
    ((row.withOverrides anyLength).propagate fun _ => false).result = .ok () ∧
    TensorInfo?.Below (((row.withOverrides anyLength).propagate fun _ => false).resolver.info? "z")
      (((row.withOverrides lengthTwo).propagate fun _ => false).resolver.info? "z") ∧
    ((row.withOverrides anyLength).propagate fun _ => false).resolver.info? "z" =
      some ⟨some .float32, some [Dim.anonymous, .known 12]⟩ := by
  have hok : ((row.withOverrides lengthTwo).propagate fun _ => false).result = .ok () := by cbv
  have hcalm : Calm ((row.withOverrides lengthTwo).propagate fun _ => false).events :=
    calm_of_verbosity? (by cbv)
  have hr : row.Reachable := .ofModel _
  have hu : ((row.withOverrides anyLength).propagate fun _ => false).Uninterrupted :=
    uninterrupted_propagate (by decide +kernel)
  obtain ⟨-, hresult, hbelow⟩ := refines_propagate hr rfl coarser_anyLength (fun _ => false)
    (fun _ => false) hok hcalm
  exact ⟨coarser_anyLength, hok, hcalm, hresult hu, hbelow "z", by cbv⟩

end Resolver

end ShapeFlow
