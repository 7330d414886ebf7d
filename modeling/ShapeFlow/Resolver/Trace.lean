/-
Why a value has no shape: the values that it depends on, back to those that have
one or that no node writes. Each value is shown once and only mentioned later.
-/
import ShapeFlow.Resolver.Query

namespace ShapeFlow

inductive TraceLine where
  | again (depth : Nat) (name : Text)
  | source (depth : Nat) (name : Text) (info : TensorInfo?) (provenance : Provenance)
  | written (depth : Nat) (name : Text) (info : TensorInfo?) (provenance : Provenance) (op : Text)
      (failure : Option InferError)

def TraceLine.text : TraceLine → Text
  | .again depth name => Text.replicate depth "  " ++ name ++ " [already listed]\n"
  | .source depth name info provenance =>
    Text.replicate depth "  " ++ name ++ ": " ++ TensorInfo?.text info ++ " (" ++ provenance.name ++ ")\n"
  | .written depth name info provenance op failure =>
    Text.replicate depth "  " ++ name ++ ": " ++ TensorInfo?.text info ++ " (" ++ provenance.name ++
      ") <- " ++ op ++ (failure.elim Text.empty fun e => " FAILED: " ++ e.message) ++ "\n"

/-- The node that writes each value, with its place; the last writer counts. -/
def Graph.writers (g : Graph) : Dict (Node × Nat) :=
  Dict.ofList (g.nodes.zipIdx.flatMap fun n => n.1.namedOutputs.map fun name => (name, n))

def unlisted (writers : Dict (Node × Nat)) (listed : List Text) : Nat :=
  writers.keys.countP fun name => !listed.contains name

theorem unlisted_cons_le (writers : Dict (Node × Nat)) (listed : List Text) (name : Text) :
    unlisted writers (name :: listed) ≤ unlisted writers listed := by
  refine List.countP_mono_left fun x _ hx => ?_
  simp_all

theorem lookup_mem {α : Type} {key : Text} {es : List (Text × α)} {a : α}
    (h : Dict.lookup key es = some a) : key ∈ es.map Prod.fst := by
  induction es with
  | nil => simp [Dict.lookup] at h
  | cons e es ih =>
    simp only [Dict.lookup] at h
    split at h
    · simp_all
    · exact List.mem_cons_of_mem _ (ih h)

theorem countP_lt {α : Type} {p q : α → Bool} {l : List α} {a : α} (ha : a ∈ l)
    (hpq : ∀ x, p x = true → q x = true) (hp : p a = false) (hq : q a = true) :
    l.countP p < l.countP q := by
  induction l with
  | nil => simp at ha
  | cons b l ih =>
    have hle : l.countP p ≤ l.countP q := List.countP_mono_left fun x _ => hpq x
    rcases List.mem_cons.mp ha with rfl | ha
    · simp only [List.countP_cons, hp, hq]
      simp
      omega
    · have := ih ha
      simp only [List.countP_cons]
      cases hb : p b
      · simp; omega
      · simp [hpq b hb]; omega

theorem unlisted_cons_lt {writers : Dict (Node × Nat)} {listed : List Text} {name : Text}
    {n : Node × Nat} (hw : writers.get? name = some n) (hl : listed.contains name = false) :
    unlisted writers (name :: listed) < unlisted writers listed := by
  refine countP_lt (a := name) (lookup_mem hw) (fun x hx => ?_) (by simp) (by simpa using hl)
  simp_all

/-- A pair decreases if its first part does not grow and its second shrinks. -/
theorem lex_of_le {a b c d : Nat} (h : a ≤ b) (h' : c < d) :
    Prod.Lex (· < ·) (· < ·) (a, c) (b, d) := by
  rcases Nat.lt_or_eq_of_le h with h | rfl
  · exact Prod.Lex.left _ _ h
  · exact Prod.Lex.right _ h'

namespace Resolver

/-- The lines for values that are still to be shown, given those listed. -/
def traceFrom (r : Resolver) (writers : Dict (Node × Nat)) (listed : List Text) :
    List (Nat × Text) → List TraceLine
  | [] => []
  | (depth, name) :: rest =>
    if _hl : listed.contains name then .again depth name :: traceFrom r writers listed rest
    else
      let info := (r.values.get? name).map ValueState.info
      match _hw : writers.get? name with
      | none =>
        .source depth name info (r.provenance name) :: traceFrom r writers (name :: listed) rest
      | some (n, i) =>
        let line := .written depth name info (r.provenance name) n.op (r.failure? i)
        if (TensorInfo?.shape? info).isSome then
          line :: traceFrom r writers (name :: listed) rest
        else
          line :: traceFrom r writers (name :: listed)
            (n.namedInputs.map (fun input => (depth + 1, input)) ++ rest)
termination_by waiting => (unlisted writers listed, waiting.length)
decreasing_by
  · exact Prod.Lex.right _ (by simp)
  · exact lex_of_le (unlisted_cons_le _ _ _) (by simp)
  · exact lex_of_le (unlisted_cons_le _ _ _) (by simp)
  · exact Prod.Lex.left _ _ (unlisted_cons_lt _hw (by simpa using _hl))

def traceLines (r : Resolver) (name : Text) : List TraceLine :=
  r.traceFrom r.model.graph.writers [] [(0, name)]

def trace (r : Resolver) (name : Text) : Text := Text.concat ((r.traceLines name).map TraceLine.text)

end Resolver

end ShapeFlow
