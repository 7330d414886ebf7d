/-
Decoding a message by folding over its fields. What goes wrong is a cause under
the places that it was found in. A decoder also notes values whose element type
it does not know; notes made before an error are kept.
-/
import ShapeFlow.Number.Single
import ShapeFlow.Tensor.Element
import ShapeFlow.Wire.Field

namespace ShapeFlow

/-- A value whose element type is declared but not known. -/
structure UntypedValue where
  name : Text
  cause : ElementError

def UntypedValue.message (v : UntypedValue) : Text :=
  "value " ++ v.name.quote ++ ": " ++ v.cause.message

namespace Wire

inductive Place where
  | operatorSet
  | graph
  | node (index : Nat)
  | constant (index : Nat)
  | sparseConstant (index : Nat)
  | attr (name : Text)
  | value (name : Text)

def Place.text : Place → Text
  | .operatorSet => "opset_import"
  | .graph => "graph"
  | .node i => "node #" ++ Text.ofNat i
  | .constant i => "initializer #" ++ Text.ofNat i
  | .sparseConstant i => "sparse_initializer #" ++ Text.ofNat i
  | .attr name => "attribute " ++ name.quote
  | .value name => "value " ++ name.quote

inductive DecodeError where
  | malformed (e : FieldError)
  | packedInt (field : Nat) (e : WireError)
  | packedFloat (field : Nat) (e : WireError)
  | intType (field type : Nat)
  | floatType (field type : Nat)
  | within (place : Place) (e : DecodeError)

def DecodeError.message : DecodeError → Text
  | .malformed e => e.message
  | .packedInt field e =>
    "invalid packed int64 in field " ++ Text.ofNat field ++ ": " ++ e.message
  | .packedFloat field e =>
    "invalid packed float in field " ++ Text.ofNat field ++ ": " ++ e.message
  | .intType field type =>
    "field " ++ Text.ofNat field ++ " has wire type " ++ Text.ofNat type ++ ", expected an int64"
  | .floatType field type =>
    "field " ++ Text.ofNat field ++ " has wire type " ++ Text.ofNat type ++ ", expected a float"
  | .within place e => place.text ++ ": " ++ e.message

/-- A result together with the notes made on the way to it. -/
structure Noted (α : Type) where
  value : Except DecodeError α
  notes : List UntypedValue := []

namespace Noted

instance : Monad Noted where
  pure a := ⟨.ok a, []⟩
  bind x f :=
    match x.value with
    | .error e => ⟨.error e, x.notes⟩
    | .ok a => ⟨(f a).value, x.notes ++ (f a).notes⟩

def fail {α : Type} (e : DecodeError) : Noted α := ⟨.error e, []⟩

def ofExcept {α : Type} (x : Except DecodeError α) : Noted α := ⟨x, []⟩

def note (v : UntypedValue) : Noted Unit := ⟨.ok (), [v]⟩

def within {α : Type} (place : Place) (x : Noted α) : Noted α :=
  ⟨x.value.mapError (.within place), x.notes⟩

@[simp] theorem value_pure {α : Type} (a : α) : (pure a : Noted α).value = .ok a := rfl

@[simp] theorem notes_pure {α : Type} (a : α) : (pure a : Noted α).notes = [] := rfl

@[simp] theorem pure_bind {α β : Type} (a : α) (f : α → Noted β) : (pure a >>= f) = f a := rfl

@[simp] theorem within_pure {α : Type} (place : Place) (a : α) :
    (pure a : Noted α).within place = pure a := rfl

@[simp] theorem ofExcept_ok {α : Type} (a : α) : Noted.ofExcept (.ok a) = pure a := rfl

@[simp] theorem value_bind {α β : Type} (x : Noted α) (f : α → Noted β) :
    (x >>= f).value = x.value.bind fun a => (f a).value := by
  show (match x.value with
    | .error e => (⟨.error e, x.notes⟩ : Noted β)
    | .ok a => ⟨(f a).value, x.notes ++ (f a).notes⟩).value = _
  cases x.value <;> rfl

end Noted

/-- Steps through fields; `locate` puts an error where the state says it is. -/
def foldFields {σ : Type} (locate : σ → DecodeError → DecodeError) (step : σ → Field → Noted σ)
    (error : Option FieldError) : σ → List Field → Noted σ
  | state, [] =>
    match error with
    | none => pure state
    | some e => .fail (locate state (.malformed e))
  | state, f :: rest =>
    let next := step state f
    match next.value with
    | .error e => ⟨.error (locate state e), next.notes⟩
    | .ok state =>
      let done := foldFields locate step error state rest
      ⟨done.value, next.notes ++ done.notes⟩

/-- Decodes a message, field after field, and locates an error in it. -/
def messageAt {σ : Type} (locate : σ → DecodeError → DecodeError) (step : σ → Field → Noted σ)
    (start : σ) (b : Bytes) : Noted σ :=
  let s := split b
  foldFields locate step s.error start s.fields

def message {σ : Type} (step : σ → Field → Noted σ) (start : σ) (b : Bytes) : Noted σ :=
  messageAt (fun _ e => e) step start b

def packedInts (b : Bytes) : Except WireError (List Int64) :=
  if b.isEmpty then .ok []
  else
    match _h : varint b with
    | .error e => .error e
    | .ok (n, rest) => (packedInts rest).map ((UInt64.ofNat n).toInt64 :: ·)
termination_by b.length
decreasing_by exact varintUpTo_length _h

def packedFloats : Bytes → Except WireError (List Single)
  | [] => .ok []
  | a :: b :: c :: d :: rest =>
    let bits := a.toUInt32 ||| b.toUInt32 <<< 8 ||| c.toUInt32 <<< 16 ||| d.toUInt32 <<< 24
    (packedFloats rest).map (⟨bits⟩ :: ·)
  | _ => .error .truncated

namespace Field

/-- The numbers that one field adds to a list: one, or a packed list. -/
def ints (f : Field) : Except DecodeError (List Int64) :=
  match f.value with
  | .varint n => .ok [n.toInt64]
  | .bytes b => (packedInts b).mapError (.packedInt f.number)
  | _ => .error (.intType f.number f.type)

def floats (f : Field) : Except DecodeError (List Single) :=
  match f.value with
  | .fixed32 n => .ok [⟨n⟩]
  | .bytes b => (packedFloats b).mapError (.packedFloat f.number)
  | _ => .error (.floatType f.number f.type)

end Field

end Wire

end ShapeFlow
