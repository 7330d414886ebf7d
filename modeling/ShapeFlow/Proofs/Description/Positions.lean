/-
The inputs and outputs of nodes in descriptions, and their positions. The names are those of a
list in the mapping that stands for the node, with what it takes over from others. An item that is
null gives no name and takes no place, so every name after it moves up: names stand where they
were written just if the list has no null (`Placed`). This holds of every node of every
description that is accepted (`nodesOf_read`), and of nodes in their own list as well.

A draft keeps the lists as it is read entry after entry (`keeps_nodeStep`, `keeps_draftStep`), and
the model takes them over as they are.
-/
import Mathlib
import ShapeFlow.Proofs.Description.Attributes
import ShapeFlow.Proofs.Yaml.Entries

namespace ShapeFlow.Description

open Yaml.Document (Keeps Due)

variable {d : Yaml.Document} {α : Type} {R : Yaml.Node → α → Prop}

/-! ## Lists in mappings -/

/-- The items of the list that a mapping has under a key: none if there is no entry or it is null. -/
inductive ItemsAt (d : Yaml.Document) (flat : List (Text × Yaml.Node)) (key : Text) : List Yaml.Node → Prop
  | absent : flat.lookup key = none → ItemsAt d flat key []
  | null {n : Yaml.Node} : flat.lookup key = some n → d.isNull n = true → ItemsAt d flat key []
  | list {n : Yaml.Node} {items : List Yaml.Node} : flat.lookup key = some n → d.HasItems n items →
      ItemsAt d flat key items

/-- What was read from the list under a key: one value for each item that is not null. -/
def ListAt (d : Yaml.Document) (R : Yaml.Node → α → Prop) (flat : List (Text × Yaml.Node)) (key : Text)
    (as : List α) : Prop :=
  ∃ items, ItemsAt d flat key items ∧ List.Forall₂ R (items.filter (!d.isNull ·)) as

section ListAt

variable {seen : List (Text × Yaml.Node)} {key other : Text} {n : Yaml.Node} {as : List α}

theorem lookup_eq_none_of_not_mem (h : key ∉ seen.map Prod.fst) : seen.lookup key = none := by
  rw [List.lookup_eq_none_iff]
  intro entry hentry
  exact bne_iff_ne.mpr fun he => h (he ▸ List.mem_map_of_mem hentry)

theorem lookup_concat_self (h : key ∉ seen.map Prod.fst) : (seen ++ [(key, n)]).lookup key = some n := by
  simp [List.lookup_append, lookup_eq_none_of_not_mem h]

theorem lookup_concat_of_idle (h : other = key → key ∈ seen.map Prod.fst) :
    (seen ++ [(other, n)]).lookup key = seen.lookup key := by
  rw [List.lookup_append]
  by_cases hkey : other = key
  · obtain ⟨entry, hentry, rfl⟩ := List.mem_map.mp (h hkey)
    have hsome : (seen.lookup entry.1).isSome = true := List.lookup_isSome_iff.mpr ⟨entry, hentry, by simp⟩
    rw [Option.or_of_isSome hsome]
  · have hnone : [(other, n)].lookup key = none := List.lookup_eq_none_iff.mpr (by simpa using Ne.symm hkey)
    rw [hnone, Option.or_none]

theorem ItemsAt.of_lookup_eq {flat flat' : List (Text × Yaml.Node)} {items : List Yaml.Node}
    (h : ItemsAt d flat key items) (hlookup : flat'.lookup key = flat.lookup key) : ItemsAt d flat' key items := by
  cases h with
  | absent hnone => exact .absent (hlookup.trans hnone)
  | null hsome hnull => exact .null (hlookup.trans hsome) hnull
  | list hsome hlist => exact .list (hlookup.trans hsome) hlist

theorem listAt_nil : ListAt d R [] key [] := ⟨[], .absent rfl, .nil⟩

theorem ListAt.concat_idle (h : ListAt d R seen key as) (hidle : other = key → key ∈ seen.map Prod.fst) :
    ListAt d R (seen ++ [(other, n)]) key as := by
  obtain ⟨items, hitems, has⟩ := h
  exact ⟨items, hitems.of_lookup_eq (lookup_concat_of_idle hidle), has⟩

theorem listAt_concat {o : Option (List α)} (h : key ∉ seen.map Prod.fst)
    (ho : d.Fits (d.HasList R) n o) : ListAt d R (seen ++ [(key, n)]) key (o.getD []) := by
  cases ho with
  | null hnull => exact ⟨[], .null (lookup_concat_self h) hnull, .nil⟩
  | value _ hlist =>
    obtain ⟨items, hn, has⟩ := hlist
    exact ⟨items, .list (lookup_concat_self h) hn, has⟩

end ListAt

/-! ## Drafts -/

theorem gives_int? (target : Text) (n : Yaml.Node) : (d.int? target n : Decode _).Gives fun _ => True := by
  refine Yaml.Document.gives_read ?_
  cases d.deref n with
  | scalar tag value line =>
    have hfound (found : Option Int64) (m : Yaml.Misfit) :
        (if found.isNone = true then Yaml.Decode.misfit m >>= fun _ => pure found else pure found :
          Decode _).Gives fun _ => True := by
      split
      · exact (Yaml.Decode.gives_misfit m).bind fun _ => .pure fun _ => trivial
      · exact .pure trivial
    simp only
    split
    · intro p a p' hrun
      cases hrun
    · exact .pure trivial
    all_goals
      rw [pure_bind]
      exact hfound _ _
  | sequence | mapping | reference => exact (Yaml.gives_collectionMisfits _ _).bind fun _ => .pure fun h => h

theorem gives_shape? (n : Yaml.Node) : (shape? d n).Gives fun _ => True := by
  refine Yaml.Document.gives_read ?_
  split
  · split
    · exact (Yaml.gives_noScalar _ _ _).bind fun _ => .pure fun _ => trivial
    · exact (Yaml.gives_collectionMisfits _ _).bind fun _ => .pure fun h => h
  · split
    · exact .pure trivial
    · exact Yaml.Decode.gives_throw _

/-- A mapping can be read if its entries can. -/
theorem gives_entries {σ : Type} {fields : Yaml.Document.Fields} {step : σ → Text → Yaml.Node → Decode σ}
    {start : σ} (hstep : ∀ v key n, (step v key n).Gives fun _ => True)
    (hplain : ∀ record ∈ fields, ∀ key ∈ record.2, Yaml.Document.isPlain key = true) (target : Text)
    (n : Yaml.Node) : (d.mapping? target fields step start n).Gives (d.Fits (fun _ _ => True) n) := by
  have hkeeps : Keeps fields step fun _ _ => True :=
    ⟨fun _ _ => trivial, fun v key n => (hstep v key n).imp fun _ _ _ _ _ => trivial, hplain⟩
  refine (Yaml.Document.gives_mapping? hkeeps trivial target n).imp fun o ho => ?_
  cases ho with
  | null hnull => exact .null hnull
  | value hnull _ => exact .value hnull trivial

theorem gives_attributes? (n : Yaml.Node) : (attributes? d n).Gives (d.Fits (fun _ _ => True) n) := by
  refine gives_entries (fun v key n => ?_) ?_ _ n
  · exact Yaml.Decode.gives_visit.bind fun _ => .pure fun h => h
  · rintro record ⟨⟩

theorem gives_declaration? (n : Yaml.Node) : (declaration? d n).Gives (d.Fits (fun _ _ => True) n) := by
  refine gives_entries (fun v key n => ?_) ?_ _ n
  · unfold declarationStep
    split
    · exact Yaml.Document.gives_text?.bind fun _ => .pure fun _ => trivial
    split
    · exact Yaml.Document.gives_text?.bind fun _ => .pure fun _ => trivial
    · exact (gives_shape? n).bind fun _ => .pure fun h => h
  · rintro record ⟨⟩
    decide

theorem gives_declarations? (n : Yaml.Node) : (declarations? d n).Gives fun _ => True :=
  (Yaml.Document.gives_list? gives_declaration? _).imp fun _ _ => trivial

/-! ## Nodes -/

theorem gives_texts? (n : Yaml.Node) : (texts? d n).Gives (d.Fits (d.HasList d.HasText) n) :=
  Yaml.Document.gives_list? (fun _ => Yaml.Document.gives_text?) _

/-- The names of a draft are those of the lists in a mapping. -/
def NodeNames (d : Yaml.Document) (flat : List (Text × Yaml.Node)) (v : NodeDraft) : Prop :=
  ListAt d d.HasText flat "inputs" v.inputs ∧ ListAt d d.HasText flat "outputs" v.outputs

theorem keeps_nodeStep : Keeps (some nodeFields) (nodeStep d) (NodeNames d) where
  idle := by
    rintro seen v key n ⟨hinputs, houtputs⟩ hidle
    refine ⟨hinputs.concat_idle ?_, houtputs.concat_idle ?_⟩
    · rintro rfl
      exact hidle nodeFields rfl (by decide)
    · rintro rfl
      exact hidle nodeFields rfl (by decide)
  step := by
    intro v key n
    -- a field that is no list of names leaves both lists alone
    have hother {β : Type} {P : β → Prop} {x : Decode β} {f : β → NodeDraft} (hx : x.Gives P)
        (hf : ∀ b, (f b).inputs = v.inputs ∧ (f b).outputs = v.outputs)
        (hkey : key ≠ "inputs" ∧ key ≠ "outputs") : (x >>= fun b => pure (f b)).Gives fun w =>
          ∀ seen, NodeNames d seen v → Due (some nodeFields) seen key → NodeNames d (seen ++ [(key, n)]) w := by
      refine hx.bind fun b => .pure fun _ seen ⟨hinputs, houtputs⟩ _ => ?_
      rw [NodeNames, (hf b).1, (hf b).2]
      exact ⟨hinputs.concat_idle fun he => absurd he hkey.1, houtputs.concat_idle fun he => absurd he hkey.2⟩
    simp only [nodeStep, beq_iff_eq]
    split
    · next hkey =>
      subst hkey
      exact hother Yaml.Document.gives_text? (fun _ => ⟨rfl, rfl⟩) (by decide)
    split
    · next hkey =>
      subst hkey
      exact hother Yaml.Document.gives_text? (fun _ => ⟨rfl, rfl⟩) (by decide)
    split
    · next hkey =>
      subst hkey
      exact hother Yaml.Document.gives_text? (fun _ => ⟨rfl, rfl⟩) (by decide)
    split
    · next hkey =>
      subst hkey
      exact (gives_texts? n).bind fun _ => .pure fun ho seen hv hdue =>
        ⟨listAt_concat (hdue nodeFields rfl).2 ho, hv.2.concat_idle fun he => absurd he (by decide)⟩
    split
    · next hkey =>
      subst hkey
      exact (gives_texts? n).bind fun _ => .pure fun ho seen hv hdue =>
        ⟨hv.1.concat_idle fun he => absurd he (by decide), listAt_concat (hdue nodeFields rfl).2 ho⟩
    · next hin hout => exact hother (gives_attributes? n) (fun _ => ⟨rfl, rfl⟩) ⟨hin, hout⟩
  plain := by
    rintro record ⟨⟩
    decide

/-- A draft of a node has the names of the lists in a mapping. -/
def DraftNodeOf (d : Yaml.Document) (n : Yaml.Node) (v : NodeDraft) : Prop :=
  ∃ flat, d.HasEntries n flat ∧ NodeNames d flat v

theorem gives_node? (n : Yaml.Node) : (node? d n).Gives (d.Fits (DraftNodeOf d) n) :=
  Yaml.Document.gives_mapping? keeps_nodeStep ⟨listAt_nil, listAt_nil⟩ _ n

theorem keeps_draftStep : Keeps (some draftFields) (draftStep d) fun flat v =>
    ListAt d (DraftNodeOf d) flat "nodes" v.nodes where
  idle := by
    intro seen v key n hnodes hidle
    refine hnodes.concat_idle ?_
    rintro rfl
    exact hidle draftFields rfl (by decide)
  step := by
    intro v key n
    -- the other fields are read too, since any fault counts, but what they hold does not matter
    have hother {β : Type} {P : β → Prop} {x : Decode β} {f : β → Draft} (hx : x.Gives P)
        (hf : ∀ b, (f b).nodes = v.nodes) (hkey : key ≠ "nodes") : (x >>= fun b => pure (f b)).Gives fun w =>
          ∀ seen, ListAt d (DraftNodeOf d) seen "nodes" v.nodes → Due (some draftFields) seen key →
            ListAt d (DraftNodeOf d) (seen ++ [(key, n)]) "nodes" w.nodes := by
      refine hx.bind fun b => .pure fun _ seen hnodes _ => ?_
      rw [hf b]
      exact hnodes.concat_idle fun he => absurd he hkey
    simp only [draftStep, beq_iff_eq]
    split
    · next hkey => exact hother Yaml.Document.gives_text? (fun _ => rfl) (ne_of_eq_of_ne hkey (by decide))
    split
    · next hkey => exact hother (gives_int? _ n) (fun _ => rfl) (ne_of_eq_of_ne hkey (by decide))
    split
    · next hkey => exact hother Yaml.Document.gives_text? (fun _ => rfl) (ne_of_eq_of_ne hkey (by decide))
    split
    · next hkey => exact hother (gives_int? _ n) (fun _ => rfl) (ne_of_eq_of_ne hkey (by decide))
    split
    · next hkey => exact hother (gives_declarations? n) (fun _ => rfl) (ne_of_eq_of_ne hkey (by decide))
    split
    · next hkey => exact hother (gives_declarations? n) (fun _ => rfl) (ne_of_eq_of_ne hkey (by decide))
    split
    · next hkey => exact hother (gives_declarations? n) (fun _ => rfl) (ne_of_eq_of_ne hkey (by decide))
    split
    · next hkey => exact hother (gives_declarations? n) (fun _ => rfl) (ne_of_eq_of_ne hkey (by decide))
    · refine (Yaml.Document.gives_list? gives_node? _).bind fun o => .pure fun ho seen hnodes hdue => ?_
      -- a key that counts is a field, and this one is left
      obtain ⟨hknown, hfresh⟩ := hdue draftFields rfl
      obtain rfl : key = "nodes" := by simp_all [draftFields]
      exact listAt_concat hfresh ho
  plain := by
    rintro record ⟨⟩
    decide

/-- What a draft says about nodes: nothing if the document is null. -/
def DraftOf (d : Yaml.Document) (v : Draft) : Prop :=
  d.isNull d.root = true ∧ v.nodes = [] ∨
    ∃ flat, d.HasEntries d.root flat ∧ ListAt d (DraftNodeOf d) flat "nodes" v.nodes

theorem gives_draft : (draft d).Gives (DraftOf d) := by
  refine Yaml.Decode.gives_visit.bind fun _ =>
    (Yaml.Document.gives_mapping? keeps_draftStep listAt_nil _ d.root).bind fun o => .pure fun ho _ => ?_
  cases ho with
  | null hnull => exact .inl ⟨hnull, rfl⟩
  | value _ hflat => exact .inr hflat

theorem draftOf_eq_ok {v : Draft} (h : draftOf (some d) = .ok v) : DraftOf d v := by
  simp only [draftOf] at h
  split at h
  · cases h
  · cases h
  · next v' p hrun =>
    split at h
    · next hnone =>
      cases h
      exact (gives_draft _ _ _ hrun).2 (List.isEmpty_iff.mp hnone)
    · cases h

/-! ## Positions -/

/-- The names that a list of items gives. Only an item that is null has no text, and it takes no
place: an item stands after the others before it that are not null, so all stand where they stood
just if none is null. -/
structure Placed (d : Yaml.Document) (items : List Yaml.Node) (names : List Text) : Prop where
  text : ∀ n ∈ items, (d.textOf? n).isSome = !d.isNull n
  order : names = items.filterMap d.textOf?
  place : ∀ i n, items[i]? = some n → d.isNull n = false →
    names[(items.take i).countP (!d.isNull ·)]? = d.textOf? n
  kept : names = items.map (fun n => (d.textOf? n).getD .empty) ↔ ∀ n ∈ items, d.isNull n = false

theorem getElem?_filterMap_countP {α β : Type} {f : α → Option β} {as : List α} {i : Nat} {a : α}
    (h : as[i]? = some a) (ha : (f a).isSome = true) :
    (as.filterMap f)[(as.take i).countP fun a => (f a).isSome]? = f a := by
  induction as generalizing i with
  | nil => cases h
  | cons b as ih =>
    cases i with
    | zero =>
      cases h
      obtain ⟨c, hc⟩ := Option.isSome_iff_exists.mp ha
      simp [hc]
    | succ i =>
      cases hb : f b with
      | none => simpa [hb] using ih h
      | some c => simpa [hb] using ih h

theorem texts_of_forall₂ {items : List Yaml.Node} {names : List Text}
    (h : List.Forall₂ d.HasText (items.filter (!d.isNull ·)) names) :
    (∀ n ∈ items, (d.textOf? n).isSome = !d.isNull n) ∧ names = items.filterMap d.textOf? := by
  induction items generalizing names with
  | nil =>
    cases h
    simp
  | cons n items ih =>
    cases hnull : d.isNull n with
    | true =>
      rw [List.filter_cons_of_neg (by simp [hnull])] at h
      have hnone : d.textOf? n = none := Yaml.Document.textOf?_of_isNull hnull
      simpa [hnone, hnull] using ih h
    | false =>
      rw [List.filter_cons_of_pos (by simp [hnull])] at h
      cases h with
      | @cons _ t _ _ ht hrest =>
        have ht : d.textOf? n = some t := ht
        simpa [ht, hnull] using ih hrest

theorem placed_of_forall₂ {items : List Yaml.Node} {names : List Text}
    (h : List.Forall₂ d.HasText (items.filter (!d.isNull ·)) names) : Placed d items names := by
  obtain ⟨htext, horder⟩ := texts_of_forall₂ h
  have hcount (l : List Yaml.Node) (hl : l ⊆ items) :
      l.countP (fun n => (d.textOf? n).isSome) = l.countP (!d.isNull ·) :=
    List.countP_congr fun n hn => by simp [htext n (hl hn)]
  refine ⟨htext, horder, fun i n hi hn => ?_, fun hall => ?_, fun hall => ?_⟩
  · have hsome : (d.textOf? n).isSome = true := by simp [htext n (List.mem_of_getElem? hi), hn]
    rw [horder, ← hcount _ (List.take_subset i items)]
    exact getElem?_filterMap_countP hi hsome
  · -- a list with a null is shorter than what was written
    have hlength : items.countP (!d.isNull ·) = items.length := by
      rw [← hcount items (List.Subset.refl _), ← List.length_filterMap_eq_countP, ← horder, hall,
        List.length_map]
    simpa using List.countP_eq_length.mp hlength
  · rw [horder, ← List.filterMap_eq_map]
    refine List.filterMap_congr fun n hn => ?_
    obtain ⟨t, ht⟩ := Option.isSome_iff_exists.mp ((htext n hn).trans (by simp [hall n hn]))
    simp [ht]

/-- The names under a key of a mapping. -/
def NamesAt (d : Yaml.Document) (flat : List (Text × Yaml.Node)) (key : Text) (names : List Text) : Prop :=
  ∃ items, ItemsAt d flat key items ∧ Placed d items names

/-- A node has the names of the lists in a mapping. -/
def NodeOf (d : Yaml.Document) (y : Yaml.Node) (n : Node) : Prop :=
  ∃ flat, d.HasEntries y flat ∧ NamesAt d flat "inputs" n.inputs ∧ NamesAt d flat "outputs" n.outputs

/-- A graph has one node for each item of a list in a mapping that is not null. -/
def NodesOf (d : Yaml.Document) (nodes : List Node) : Prop :=
  d.isNull d.root = true ∧ nodes = [] ∨
    ∃ flat, d.HasEntries d.root flat ∧ ListAt d (NodeOf d) flat "nodes" nodes

theorem nodes_of_modelOf {v : Draft} {m : Model} (h : modelOf v = .ok m) :
    v.nodes.zipIdx.mapM node = .ok m.graph.nodes := by
  unfold modelOf at h
  obtain ⟨inputs, -, h⟩ := bind_eq_ok.mp h
  obtain ⟨outputs, -, h⟩ := bind_eq_ok.mp h
  obtain ⟨intermediates, -, h⟩ := bind_eq_ok.mp h
  obtain ⟨constants, -, h⟩ := bind_eq_ok.mp h
  cases hfind : constants.find? (·.info.shape.isNone) with
  | some c =>
    rw [hfind] at h
    cases h
  | none =>
    rw [hfind] at h
    obtain ⟨nodes, hnodes, h⟩ := bind_eq_ok.mp h
    cases h
    exact hnodes

theorem names_of_node {v : NodeDraft × Nat} {n : Node} (h : node v = .ok n) :
    n.inputs = v.1.inputs ∧ n.outputs = v.1.outputs := by
  unfold node at h
  split at h
  · cases h
  · obtain ⟨attributes, -, h⟩ := bind_eq_ok.mp h
    cases h
    exact ⟨rfl, rfl⟩

theorem forall₂_comp {α β γ : Type} {R : α → β → Prop} {S : β → γ → Prop} {as : List α} {bs : List β}
    {cs : List γ} (hR : List.Forall₂ R as bs) (hS : List.Forall₂ S bs cs) :
    List.Forall₂ (fun a c => ∃ b, R a b ∧ S b c) as cs := by
  induction hR generalizing cs with
  | nil =>
    cases hS
    exact .nil
  | @cons a b as bs hab _ ih =>
    cases hS with
    | cons hbc hrest => exact .cons ⟨b, hab, hbc⟩ (ih hrest)

theorem nodeOf_of_names {y : Yaml.Node} {v : NodeDraft} {n : Node} (h : DraftNodeOf d y v)
    (hn : n.inputs = v.inputs ∧ n.outputs = v.outputs) : NodeOf d y n := by
  obtain ⟨flat, hflat, ⟨inputs, hinputs, hin⟩, outputs, houtputs, hout⟩ := h
  rw [NodeOf, hn.1, hn.2]
  exact ⟨flat, hflat, ⟨inputs, hinputs, placed_of_forall₂ hin⟩, outputs, houtputs, placed_of_forall₂ hout⟩

theorem nodesOf_modelOf {v : Draft} {m : Model} (hv : DraftOf d v) (h : modelOf v = .ok m) :
    NodesOf d m.graph.nodes := by
  have hnodes : List.Forall₂ (fun (v : NodeDraft) (n : Node) => n.inputs = v.inputs ∧ n.outputs = v.outputs)
      v.nodes m.graph.nodes := by
    rw [← List.zipIdx_map_fst 0 v.nodes, List.forall₂_map_left_iff]
    exact (mapM_eq_ok.mp (nodes_of_modelOf h)).imp fun _ _ => names_of_node
  obtain ⟨hnull, hnil⟩ | ⟨flat, hflat, items, hitems, hdrafts⟩ := hv
  · rw [hnil, List.forall₂_nil_left_iff] at hnodes
    exact .inl ⟨hnull, hnodes⟩
  · refine .inr ⟨flat, hflat, items, hitems, (forall₂_comp hdrafts hnodes).imp ?_⟩
    rintro y n ⟨v, hv, hn⟩
    exact nodeOf_of_names hv hn

/-- **What a description says about nodes.** If it is accepted, every node has the names of its
lists without the items that are null, and they stand where they were written just if there is
no such item. -/
theorem nodesOf_read {t : Text} {m : Model} (h : read t = .ok m) :
    (Yaml.Document.ofText? t = some none ∧ m.graph.nodes = []) ∨
      ∃ d, Yaml.Document.ofText? t = some (some d) ∧ NodesOf d m.graph.nodes := by
  unfold read at h
  split at h
  · cases h
  next o hdocument =>
  obtain ⟨v, hv, hm⟩ := bind_eq_ok.mp h
  cases o with
  | none =>
    cases hv
    exact .inl ⟨hdocument, List.forall₂_nil_left_iff.mp (mapM_eq_ok.mp (nodes_of_modelOf hm))⟩
  | some d => exact .inr ⟨d, hdocument, nodesOf_modelOf (draftOf_eq_ok hv) hm⟩

/-- A node whose second input is left out. -/
def skipped : Text := "nodes:\n- op: Conv\n  inputs: [x, null, b]\n  outputs: [y]\n"

theorem read_skipped : ∃ m, read skipped = .ok m ∧ m.graph.nodes.map Node.inputs = [[("x" : Text), "b"]] := by
  have hread : (read skipped).toOption.map (fun m => m.graph.nodes.map Node.inputs) =
      some [[("x" : Text), "b"]] := by
    decide +kernel
  cases hm : read skipped with
  | error e =>
    rw [hm] at hread
    cases hread
  | ok m =>
    rw [hm] at hread
    exact ⟨m, rfl, Option.some_inj.mp hread⟩

theorem nodesOf_read_skipped : ∃ d m, Yaml.Document.ofText? skipped = some (some d) ∧ read skipped = .ok m ∧
    m.graph.nodes.map Node.inputs = [[("x" : Text), "b"]] ∧ NodesOf d m.graph.nodes := by
  obtain ⟨m, hm, hinputs⟩ := read_skipped
  obtain ⟨-, hnil⟩ | ⟨d, hd, hnodes⟩ := nodesOf_read hm
  · rw [hnil] at hinputs
    cases hinputs
  · exact ⟨d, m, hd, hm, hinputs, hnodes⟩

/-- The items of the list under a key of a mapping. -/
def itemsUnder (d : Yaml.Document) (key : Text) (n : Yaml.Node) : List Yaml.Node :=
  match d.deref n with
  | .mapping _ entries _ =>
    match ((d.keyed entries).lookup key).map d.deref with
    | some (.sequence _ items _) => items
    | _ => []
  | _ => []

/-- The inputs of all nodes as they are written. -/
def writtenInputs (d : Yaml.Document) : List (List (Option Text)) :=
  (itemsUnder d "nodes" d.root).map fun y => (itemsUnder d "inputs" y).map d.textOf?

/-- The third input becomes the second. -/
theorem shifted_skipped : ∃ d m, Yaml.Document.ofText? skipped = some (some d) ∧ read skipped = .ok m ∧
    writtenInputs d = [[some ("x" : Text), none, some ("b" : Text)]] ∧
      m.graph.nodes.map Node.inputs = [[("x" : Text), "b"]] := by
  have hwritten : (Yaml.Document.ofText? skipped).join.map writtenInputs =
      some [[some ("x" : Text), none, some ("b" : Text)]] := by
    decide +kernel
  obtain ⟨d, hd, hwritten⟩ := Option.map_eq_some_iff.mp hwritten
  obtain ⟨m, hm, hinputs⟩ := read_skipped
  exact ⟨d, m, Option.join_eq_some_iff.mp hd, hm, hwritten, hinputs⟩

end ShapeFlow.Description
