/-
Dependency levels. The nodes of a level read only values that nodes of earlier
levels write, or that no node writes; within a level, nodes keep the order of
the graph. There are no levels if two nodes write one value, or if nodes wait
for each other.

Every node counts the values that it still lacks. When a level is taken off, the
nodes that wait for one of its values count down, and those that then lack
nothing are the next level.
-/
import ShapeFlow.Graph

namespace ShapeFlow

inductive GraphError where
  | twoWriters (value : Text) (first second : Node)
  /-- How many nodes are in no level, out of `total`, and those that still lack
  a value. -/
  | cycle (left total : Nat) (stuck : List Node)

def GraphError.message : GraphError → Text
  | .twoWriters value first second =>
    "value " ++ value.quote ++ " is produced by more than one node: " ++ first.text ++ " and " ++
      second.text
  | .cycle left total stuck =>
    "sorting operations graph failed: " ++ Text.ofNat left ++ " of " ++ Text.ofNat total ++
      " nodes are part of or depend on a cycle: " ++ Text.join "; " (stuck.map Node.text)

namespace Graph

/-- The written values with their writers, in graph order. -/
def writes (g : Graph) : List (Text × Node) :=
  g.nodes.flatMap fun n => n.namedOutputs.map fun value => (value, n)

def clash? : List (Text × Node) → List (Text × Node) → Option GraphError
  | _, [] => none
  | seen, (value, n) :: rest =>
    match Dict.lookup value seen with
    | some other => some (.twoWriters value other n)
    | none => clash? ((value, n) :: seen) rest

/-- The values that a node waits for: its inputs that some node writes, each
once. -/
def awaited (written : List Text) (n : Node) : List Text :=
  Text.distinct (n.namedInputs.filter fun value => written.contains value)

def awaits (g : Graph) : List (List Text) :=
  let written := g.writes.map Prod.fst
  g.nodes.map (awaited written)

def outputsAt (g : Graph) (i : Nat) : List Text := (g.nodes[i]?).elim [] Node.namedOutputs

def dependants (awaits : List (List Text)) (value : Text) : List Nat :=
  (awaits.zipIdx.filter fun entry => entry.1.contains value).map Prod.snd

/-- The nodes to tell when a level is taken off: those that wait for its values,
once for each such value. -/
def arrivals (g : Graph) (awaits : List (List Text)) (level : List Nat) : List Nat :=
  level.flatMap fun i => (g.outputsAt i).flatMap (dependants awaits)

/-- How many values each node lacks, by place, and the nodes that came to lack
nothing during the count. -/
structure Countdown where
  lacking : List Nat
  ready : List Nat := []

def Countdown.tell (c : Countdown) (i : Nat) : Countdown :=
  match c.lacking[i]? with
  | some (k + 1) =>
    ⟨c.lacking.set i k, if k = 0 then c.ready ++ [i] else c.ready⟩
  | _ => c

def Countdown.tellAll (c : Countdown) (places : List Nat) : Countdown := places.foldl tell c

def total : List Nat → Nat
  | [] => 0
  | n :: rest => n + total rest

theorem total_set {counts : List Nat} {i k : Nat} (h : counts[i]? = some (k + 1)) :
    total (counts.set i k) + 1 = total counts := by
  induction counts generalizing i with
  | nil => simp at h
  | cons n rest ih =>
    cases i with
    | zero =>
      simp only [List.getElem?_cons_zero, Option.some.injEq] at h
      simp only [List.set_cons_zero, total, h]
      omega
    | succ i =>
      have := ih (by simpa using h)
      simp only [List.set_cons_succ, total]
      omega

/-- Whoever becomes ready has counted down. -/
theorem Countdown.total_tellAll (c : Countdown) (places : List Nat) :
    total (c.tellAll places).lacking + (c.tellAll places).ready.length ≤
      total c.lacking + c.ready.length := by
  induction places generalizing c with
  | nil => exact Nat.le_refl _
  | cons i places ih =>
    refine Nat.le_trans (ih (c.tell i)) ?_
    unfold tell
    split
    · rename_i k hk
      have := total_set hk
      by_cases hz : k = 0 <;> simp [hz] at this ⊢ <;> omega
    · exact Nat.le_refl _

/-- Takes a level off, then the level of the nodes that become ready by that,
and so on. Returns the levels and what the nodes lack in the end. -/
def takeLevels (g : Graph) (awaits : List (List Text)) (level lacking : List Nat) :
    List (List Nat) × List Nat :=
  if _h : level = [] then ([], lacking)
  else
    let c := Countdown.tellAll ⟨lacking, []⟩ (g.arrivals awaits level)
    let (levels, left) := takeLevels g awaits (c.ready.mergeSort (· ≤ ·)) c.lacking
    (level :: levels, left)
termination_by total lacking + level.length
decreasing_by
  have := Countdown.total_tellAll ⟨lacking, []⟩ (g.arrivals awaits level)
  have := List.length_pos_iff.mpr _h
  simp only [List.length_mergeSort, List.length_nil] at *
  omega

def zeros (counts : List Nat) : List Nat :=
  (counts.zipIdx.filter fun entry => entry.1 == 0).map Prod.snd

def levels (g : Graph) : Except GraphError (List (List Nat)) :=
  match clash? [] g.writes with
  | some e => .error e
  | none =>
    let awaits := g.awaits
    let lacking := awaits.map List.length
    let (levels, left) := g.takeLevels awaits (zeros lacking) lacking
    let sorted := total (levels.map List.length)
    if sorted = g.nodes.length then .ok levels
    else
      let stuck := (g.nodes.zip left).filter fun entry => 0 < entry.2
      .error (.cycle (g.nodes.length - sorted) g.nodes.length (stuck.map Prod.fst))

end Graph

end ShapeFlow
