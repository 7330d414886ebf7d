/-
How many terminal columns a text takes: one for each printed byte of ASCII, those
of its clusters for other text, and none for controls and control sequences. A
text that is cut to a number of columns keeps all its control sequences.
-/
import ShapeFlow.Terminal.Control
import ShapeFlow.Text.Cluster
import ShapeFlow.Text.Split

namespace ShapeFlow

namespace Terminal

/-- The columns of bytes that are read in a state; a step takes at least one byte. -/
def widthFrom : Nat → State → List UInt8 → Nat
  | 0, _, _ => 0
  | _, _, [] => 0
  | fuel + 1, s, b :: rest =>
    match s.step b with
    | (_, .cluster) =>
      let (width, rest) := Cluster.read (b :: rest)
      width + widthFrom fuel .ground rest
    | (s, .print) => 1 + widthFrom fuel s rest
    | (s, _) => widthFrom fuel s rest

/-- What stays of bytes that are read in a state if `room` columns are left. After
the first character that has no room, none stays and no control of one byte does,
and what is left out does not change the state. -/
def cutFrom : Nat → State → Option Nat → List UInt8 → List UInt8
  | 0, _, _, _ => []
  | _, _, _, [] => []
  | fuel + 1, s, room, b :: rest =>
    match s.step b with
    | (_, .cluster) =>
      let (width, after) := Cluster.read (b :: rest)
      match room with
      | some room =>
        if width ≤ room then
          (b :: rest).take ((b :: rest).length - after.length) ++
            cutFrom fuel .ground (some (room - width)) after
        else cutFrom fuel s none after
      | none => cutFrom fuel s none after
    | (next, .print) =>
      match room with
      | some (room + 1) => b :: cutFrom fuel next (some room) rest
      | _ => cutFrom fuel s none rest
    | (next, .execute) =>
      if room.isSome then b :: cutFrom fuel next room rest else cutFrom fuel s room rest
    | (next, .nothing) => b :: cutFrom fuel next room rest

end Terminal

namespace Text

def width (t : Text) : Nat := Terminal.widthFrom t.length .ground t.bytes

def cut (columns : Nat) (t : Text) : Text :=
  if t.width ≤ columns then t else ⟨Terminal.cutFrom t.length .ground (some columns) t.bytes⟩

def lines (t : Text) : List Text := t.split 0x0A

def widest (lines : List Text) : Nat := (lines.map width).foldl max 0

def extent (t : Text) : Nat := widest t.lines

end Text

end ShapeFlow
