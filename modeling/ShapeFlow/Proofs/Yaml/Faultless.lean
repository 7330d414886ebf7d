/-
What a document says when it is read without a fault. Reading notes what does not fit and goes
on, so what is read only counts if nothing was noted in the end; since notes are never taken
back, nothing was noted on the way either (`Decode.Gives`).

Then a node is null or fits what is asked for (`Fits`). A text is that of a scalar (`gives_text?`),
and of a sequence every item counts that is not null, in their order (`gives_list?`).
-/
import Mathlib
import ShapeFlow.Yaml.Decode

namespace ShapeFlow.Yaml

variable {ε α β σ : Type}

namespace Decode

/-! ## Reading without a fault -/

/-- What is read has a property, unless something was noted. Notes are never taken back. -/
def Gives (x : Decode ε α) (P : α → Prop) : Prop :=
  ∀ p a p', x.run p = .ok (a, p') → p.misfits ⊆ p'.misfits ∧ (p'.misfits = [] → P a)

theorem Gives.pure {P : α → Prop} {a : α} (h : P a) : Gives (pure a : Decode ε α) P := by
  intro p b p' hrun
  cases hrun
  exact ⟨List.Subset.refl _, fun _ => h⟩

theorem Gives.imp {P Q : α → Prop} {x : Decode ε α} (hx : x.Gives P) (h : ∀ a, P a → Q a) : x.Gives Q :=
  fun p a p' hrun => ⟨(hx p a p' hrun).1, fun hnone => h a ((hx p a p' hrun).2 hnone)⟩

/-- What follows may rest on what was read, if nothing is noted afterwards. -/
theorem Gives.bind {P : α → Prop} {Q : β → Prop} {x : Decode ε α} {f : α → Decode ε β} (hx : x.Gives P)
    (hf : ∀ a, (f a).Gives fun b => P a → Q b) : (x >>= f).Gives Q := by
  intro p b p' hrun
  rw [StateT.run_bind] at hrun
  cases hfirst : x.run p with
  | error e =>
    rw [hfirst] at hrun
    cases hrun
  | ok r =>
    obtain ⟨a, p₁⟩ := r
    rw [hfirst] at hrun
    obtain ⟨hbefore, ha⟩ := hx p a p₁ hfirst
    obtain ⟨hafter, hb⟩ := hf a p₁ b p' hrun
    refine ⟨List.Subset.trans hbefore hafter, fun hnone => ?_⟩
    rw [hnone] at hafter
    exact hb hnone (ha (List.subset_nil.mp hafter))

theorem Gives.map {P : α → Prop} {Q : β → Prop} {x : Decode ε α} (hx : x.Gives P) {f : α → β}
    (h : ∀ a, P a → Q (f a)) : (f <$> x).Gives Q := by
  rw [map_eq_pure_bind]
  exact hx.bind fun a => .pure (h a)

theorem gives_throw {P : α → Prop} (halt : Halt ε) : (throw halt : Decode ε α).Gives P := by
  intro p a p' hrun
  cases hrun

theorem gives_modify {f : Progress → Progress} (h : ∀ p, p.misfits ⊆ (f p).misfits) :
    (modify f : Decode ε Unit).Gives fun _ => True := by
  intro p a p' hrun
  cases hrun
  exact ⟨h p, fun _ => trivial⟩

theorem gives_misfits (ms : List Misfit) : (misfits ms : Decode ε Unit).Gives fun _ => ms = [] := by
  intro p a p' hrun
  cases hrun
  exact ⟨List.subset_append_left _ _, fun hnone => (List.append_eq_nil_iff.mp hnone).2⟩

theorem gives_misfit (m : Misfit) : (misfit m : Decode ε Unit).Gives fun _ => False :=
  (gives_misfits [m]).imp fun _ h => by cases h

theorem gives_visit : (visit : Decode ε Unit).Gives fun _ => True := by
  intro p a p' hrun
  simp only [visit, StateT.run_bind, StateT.run_get, StateT.run_set, pure_bind] at hrun
  generalize (if p.depth = 0 then p.aliased else p.aliased + 1) = aliased at hrun
  split at hrun
  · cases hrun
  · cases hrun
    exact ⟨List.Subset.refl _, fun _ => trivial⟩

theorem Gives.behind {P : α → Prop} {x : Decode ε α} (h : x.Gives P) : (behind x).Gives P := by
  refine Gives.bind (gives_modify fun p => ?_) fun _ => h.bind fun a =>
    Gives.bind (gives_modify fun p => ?_) fun _ => .pure fun _ ha _ => ha
  · exact List.Subset.refl p.misfits
  · exact List.Subset.refl p.misfits

end Decode

/-! ## Scalars -/

theorem Resolved.tag_eq_null {r : Resolved} : r.tag = "!!null" ↔ r = .null := by
  cases r <;> simp [Resolved.tag] <;> decide

theorem resolveAs_cases {tag value : Text} {r : Resolved} (h : resolveAs tag value = some r) :
    isResolvable tag = false ∧ r = .text ∨ r = resolve value ∧ r.tag = tag ∨
      ∃ n, resolve value = .int n ∧ tag = "!!float" ∧ r = .float (.ofInt n) := by
  unfold resolveAs at h
  split at h
  · next hfree =>
    cases h
    exact .inl ⟨by simpa using hfree, rfl⟩
  simp only at h
  split at h
  · next htag =>
    cases h
    exact .inr (.inl ⟨rfl, htag⟩)
  split at h
  · next n hn =>
    split at h
    · next hfloat =>
      cases h
      exact .inr (.inr ⟨n, hn, beq_iff_eq.mp hfloat, rfl⟩)
    · cases h
  · cases h

/-- The text of a scalar with a tag: none for null, and bytes are written in base 64. -/
def scalarText? (tag value : Text) : Option Text :=
  if tag == "!!null" then none else if tag == "!!binary" then value.ofBase64? else some value

/-- A scalar that fits its tag is null and the tag says so, or it has a text. It is more than a
text only if it does not have the form of one. -/
theorem scalarValue?_cases {tag value : Text} {v : ScalarValue} (h : scalarValue? tag value = some v) :
    tag = "!!null" ∧ v = .null ∨ tag ≠ "!!null" ∧ ∃ t, scalarText? tag value = some t ∧
      (v = .text t ∨ t = value ∧ resolve value ≠ .text ∧ ∃ r, v = .resolved r t) := by
  unfold scalarValue? at h
  split at h
  · next htag =>
    cases h
    rw [beq_iff_eq] at htag
    subst htag
    exact .inr ⟨by decide, value, rfl, .inl rfl⟩
  split at h
  · next htag =>
    rw [beq_iff_eq] at htag
    subst htag
    obtain ⟨t, ht, rfl⟩ := Option.map_eq_some_iff.mp h
    exact .inr ⟨by decide, t, ht, .inl rfl⟩
  next hstr hbinary =>
  -- a tag that is neither for texts nor for bytes is resolved by the form of the scalar
  have htext (hnull : tag ≠ "!!null") : scalarText? tag value = some value := by
    simp [scalarText?, beq_false_of_ne hnull, hbinary]
  have hother {r : Resolved} (hr : resolveAs tag value = some r) (hne : r ≠ .null) : tag ≠ "!!null" := by
    rintro rfl
    obtain ⟨hfree, -⟩ | ⟨-, htag⟩ | ⟨n, -, htag, -⟩ := resolveAs_cases hr
    · cases hfree
    · exact hne (Resolved.tag_eq_null.mp htag)
    · exact absurd htag (by decide)
  split at h
  · cases h
  · next hr =>
    cases h
    obtain ⟨-, htext⟩ | ⟨-, htag⟩ | ⟨n, -, -, hfloat⟩ := resolveAs_cases hr
    · cases htext
    · exact .inl ⟨htag.symm, rfl⟩
    · cases hfloat
  · next hr =>
    cases h
    have hnull := hother hr (fun he => by cases he)
    exact .inr ⟨hnull, value, htext hnull, .inl rfl⟩
  · next r hnotNull hnotText hr =>
    cases h
    have hnull := hother hr hnotNull
    refine .inr ⟨hnull, value, htext hnull, .inr ⟨rfl, fun hplain => ?_, r, rfl⟩⟩
    obtain ⟨-, hr⟩ | ⟨hr, -⟩ | ⟨n, hn, -⟩ := resolveAs_cases hr
    · exact hnotText hr
    · exact hnotText (hr.trans hplain)
    · cases hn.symm.trans hplain

theorem null_of_scalarValue? {tag value : Text} (h : scalarValue? tag value = some .null) :
    tag = "!!null" := by
  obtain ⟨htag, -⟩ | ⟨-, t, -, hv | ⟨-, -, r, hv⟩⟩ := scalarValue?_cases h
  · exact htag
  · cases hv
  · cases hv

theorem text_of_scalarValue? {tag value t : Text} (h : scalarValue? tag value = some (.text t)) :
    tag ≠ "!!null" ∧ scalarText? tag value = some t := by
  obtain ⟨-, hv⟩ | ⟨htag, t, ht, hv | ⟨-, -, r, hv⟩⟩ := scalarValue?_cases h
  · cases hv
  · cases hv
    exact ⟨htag, ht⟩
  · cases hv

theorem resolved_of_scalarValue? {tag value t : Text} {r : Resolved}
    (h : scalarValue? tag value = some (.resolved r t)) :
    tag ≠ "!!null" ∧ scalarText? tag value = some t ∧ resolve t ≠ .text := by
  obtain ⟨-, hv⟩ | ⟨htag, t, ht, hv | ⟨rfl, hform, r, hv⟩⟩ := scalarValue?_cases h
  · cases hv
  · cases hv
  · cases hv
    exact ⟨htag, ht, hform⟩

theorem gives_noScalar (tag value : Text) (m : Misfit) :
    (noScalar tag value m : Decode ε Unit).Gives fun _ => tag = "!!null" := by
  unfold noScalar
  split
  · exact Decode.gives_throw _
  · next hv => exact .pure (null_of_scalarValue? hv)
  · exact (Decode.gives_misfit m).imp fun _ h => h.elim

theorem collectionMisfits_ne_nil (n : Node) (target : Text) : collectionMisfits n target ≠ [] := by
  unfold collectionMisfits
  split
  · simp only
    split
    · exact List.cons_ne_nil _ _
    · next h =>
      intro hnil
      exact h (List.isEmpty_iff.mpr hnil)
  · exact List.cons_ne_nil _ _

theorem gives_collectionMisfits {P : Unit → Prop} (n : Node) (target : Text) :
    (Decode.misfits (collectionMisfits n target) : Decode ε Unit).Gives P :=
  (Decode.gives_misfits _).imp fun _ h => absurd h (collectionMisfits_ne_nil n target)

namespace Document

/-- Whether a node stands for null. -/
def isNull (d : Document) (n : Node) : Bool :=
  match d.deref n with
  | .scalar tag _ _ => tag == "!!null"
  | _ => false

/-- The text that a node stands for. -/
def textOf? (d : Document) (n : Node) : Option Text :=
  match d.deref n with
  | .scalar tag value _ => scalarText? tag value
  | _ => none

/-- A node stands for a text. -/
def HasText (d : Document) (n : Node) (t : Text) : Prop := d.textOf? n = some t

/-- A node stands for a list of items. -/
def HasItems (d : Document) (n : Node) (items : List Node) : Prop :=
  ∃ tag line, d.deref n = .sequence tag items line

/-- A node stands for a list, and there is one value for each item that is not null. -/
def HasList (d : Document) (R : Node → α → Prop) (n : Node) (as : List α) : Prop :=
  ∃ items, d.HasItems n items ∧ List.Forall₂ R (items.filter (!d.isNull ·)) as

/-- What was read from a node: nothing if it is null, and else what it fits. -/
inductive Fits (d : Document) (R : Node → α → Prop) (n : Node) : Option α → Prop
  | null : d.isNull n = true → Fits d R n none
  | value {a : α} : d.isNull n = false → R n a → Fits d R n (some a)

variable {d : Document} {n : Node}

theorem gives_read {P : α → Prop} {f : Node → Decode ε α} (h : (f (d.deref n)).Gives P) :
    (d.read n f).Gives P := by
  refine Decode.gives_visit.bind fun _ => Decode.Gives.imp ?_ fun _ hp _ => hp
  cases n with
  | reference name target line =>
    exact (Decode.gives_visit.bind fun _ => h.imp fun _ hp _ => hp).behind
  | scalar | sequence | mapping => exact h

section Scalar

variable {tag value : Text} {line : Nat}

theorem isNull_of_null (hn : d.deref n = .scalar tag value line) (h : tag = "!!null") :
    d.isNull n = true := by
  simp [isNull, hn, h]

theorem isNull_of_ne (hn : d.deref n = .scalar tag value line) (h : tag ≠ "!!null") :
    d.isNull n = false := by
  simp [isNull, hn, h]

theorem textOf?_of_deref (hn : d.deref n = .scalar tag value line) :
    d.textOf? n = scalarText? tag value := by
  simp [textOf?, hn]

theorem textOf?_of_isNull (h : d.isNull n = true) : d.textOf? n = none := by
  unfold isNull at h
  unfold textOf?
  split at h
  · simp [scalarText?, h]
  · cases h

end Scalar

/-- **A node that is read as a text is a scalar.** -/
theorem gives_text? : (d.text? n : Decode ε _).Gives (d.Fits d.HasText n) := by
  refine gives_read ?_
  cases hn : d.deref n with
  | scalar tag value line =>
    simp only
    split
    · exact Decode.gives_throw _
    · next hv => exact .pure (.null (isNull_of_null hn (null_of_scalarValue? hv)))
    · next t hv =>
      obtain ⟨htag, ht⟩ := text_of_scalarValue? hv
      exact .pure (.value (isNull_of_ne hn htag) ((textOf?_of_deref hn).trans ht))
    · next r t hv =>
      obtain ⟨htag, ht, -⟩ := resolved_of_scalarValue? hv
      exact .pure (.value (isNull_of_ne hn htag) ((textOf?_of_deref hn).trans ht))
  | sequence | mapping | reference =>
    exact (gives_collectionMisfits _ _).bind fun _ => .pure fun h => h

/-! ## Sequences -/

theorem gives_items {R : Node → α → Prop} {item : Node → Decode ε (Option α)}
    (h : ∀ n, (item n).Gives (d.Fits R n)) (ns : List Node) :
    (items item ns).Gives (List.Forall₂ R (ns.filter (!d.isNull ·))) := by
  induction ns with
  | nil => exact .pure .nil
  | cons n ns ih =>
    refine (h n).bind fun o => ?_
    cases o with
    | none =>
      refine ih.imp fun as has hfits => ?_
      cases hfits with
      | null hnull => simpa [hnull] using has
    | some a =>
      refine ih.bind fun as => .pure fun has hfits => ?_
      cases hfits with
      | value hnull ha =>
        rw [List.filter_cons_of_pos (by simp [hnull])]
        exact .cons ha has

/-- **Of a sequence every item counts that is not null.** -/
theorem gives_list? {R : Node → α → Prop} {item : Node → Decode ε (Option α)}
    (h : ∀ n, (item n).Gives (d.Fits R n)) (target : Text) :
    (d.list? target item n).Gives (d.Fits (d.HasList R) n) := by
  refine gives_read ?_
  cases hn : d.deref n with
  | scalar tag value line =>
    exact (gives_noScalar _ _ _).bind fun _ => .pure fun htag => .null (isNull_of_null hn htag)
  | sequence tag ns line =>
    refine (gives_items h ns).map fun as has => .value ?_ ⟨ns, ⟨tag, line, hn⟩, has⟩
    simp [isNull, hn]
  | mapping | reference => exact (gives_collectionMisfits _ _).bind fun _ => .pure fun h => h

end Document

end ShapeFlow.Yaml
