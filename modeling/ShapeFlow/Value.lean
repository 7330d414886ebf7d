/-
The state of a value during propagation: what is known about it and where that
comes from. `ValueState.merge` adds what the inference of a node found: an
inferred element type or dimension replaces a different one (a conflict), and
fills one that is not known; constants and overrides are never changed.
-/
import ShapeFlow.Tensor.Info

namespace ShapeFlow

inductive Provenance where
  | unknown
  /-- Declared for an intermediate value or an output. -/
  | declared
  /-- Declared for an input. -/
  | input
  | constant
  | inferred
  | override
  /-- None of these: what a code that has no meaning stands for. -/
  | invalid
deriving DecidableEq

namespace Provenance

def ofCode : Int → Provenance
  | 0 => unknown
  | 1 => declared
  | 2 => input
  | 3 => constant
  | 4 => inferred
  | 5 => override
  | _ => invalid

def name : Provenance → Text
  | unknown => "unknown"
  | declared => "value_info"
  | input => "input"
  | constant => "initializer"
  | inferred => "inferred"
  | override => "override"
  | invalid => "invalid"

/-- Whether inference never changes such a value. -/
def isAuthoritative : Provenance → Bool
  | constant | override => true
  | _ => false

end Provenance

structure ValueState where
  info : TensorInfo := {}
  provenance : Provenance := .unknown
deriving DecidableEq

/-- A part of the information after merging, whether it changed, and whether
something known was replaced. -/
structure Merged (α : Type) where
  value : α
  changed : Bool := false
  conflict : Bool := false
deriving DecidableEq

namespace Merged

def map {α β : Type} (f : α → β) (m : Merged α) : Merged β := ⟨f m.value, m.changed, m.conflict⟩

/-- Both parts; one that changed or conflicts is enough. -/
def pair {α β γ : Type} (f : α → β → γ) (a : Merged α) (b : Merged β) : Merged γ :=
  ⟨f a.value b.value, a.changed || b.changed, a.conflict || b.conflict⟩

end Merged

/-- An inferred element type replaces a different one. -/
def ElementType.merge (current inferred : Option ElementType) : Merged (Option ElementType) :=
  if inferred.isNone || inferred == current then { value := current }
  else { value := inferred, changed := true, conflict := current.isSome }

/-- A known inferred dimension replaces a different one. -/
def Dim.merge (current inferred : Dim) : Merged Dim :=
  match inferred, current with
  | .unknown _, _ => { value := current }
  | .known n, .known m =>
    if m = n then { value := current } else { value := inferred, changed := true, conflict := true }
  | .known _, .unknown _ => { value := inferred, changed := true }

def Shape.merge : Shape → Shape → Merged Shape
  | d :: current, e :: inferred => Merged.pair List.cons (d.merge e) (merge current inferred)
  | current, _ => { value := current }

/-- An inferred shape of another rank replaces the shape. -/
def Shape?.merge (current inferred : Shape?) : Merged Shape? :=
  match current, inferred with
  | _, none => { value := current }
  | none, some _ => { value := inferred, changed := true }
  | some s, some t =>
    if s.length = t.length then (Shape.merge s t).map some
    else { value := inferred, changed := true, conflict := true }

def TensorInfo.merge (current inferred : TensorInfo) : Merged TensorInfo :=
  Merged.pair TensorInfo.mk (ElementType.merge current.element inferred.element)
    (Shape?.merge current.shape inferred.shape)

namespace ValueState

/-- Adds inferred information; a value that changes is then an inferred one. -/
def merge (v : ValueState) (inferred : TensorInfo?) : Merged ValueState :=
  match inferred with
  | none => { value := v }
  | some inferred =>
    if v.provenance.isAuthoritative then { value := v }
    else
      (v.info.merge inferred).map fun info =>
        ⟨info, if (v.info.merge inferred).changed then .inferred else v.provenance⟩

end ValueState

end ShapeFlow
