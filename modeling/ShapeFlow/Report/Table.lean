/-
Tables drawn with lines, and titles above them. A column is four wider than its
widest text, headers are centred, and the cells of a row have one space at both
sides. A text of several lines makes its row as many lines high; lines that tabs
made too wide are broken.
-/
import ShapeFlow.Terminal.Width
import ShapeFlow.Terminal.Wrap

namespace ShapeFlow

namespace Text

def spaces (n : Nat) : Text := replicate n " "

def unixBreaks : List UInt8 → List UInt8
  | 0x0D :: 0x0A :: rest => 0x0A :: unixBreaks rest
  | b :: rest => b :: unixBreaks rest
  | [] => []

/-- The text as it is laid out: a tab is drawn as four spaces, and lines end in
one way. -/
def laidOut (t : Text) : Text :=
  ⟨unixBreaks (t.bytes.flatMap fun b => if b = 0x09 then List.replicate 4 0x20 else [b])⟩

def padded (columns : Nat) (t : Text) : Text := t ++ spaces (columns - t.width)

def levelled (lines : List Text) : List Text := lines.map (padded (widest lines))

end Text

def titleText (title : Text) : Text :=
  let line (t : Text) : Text := Text.spaces 4 ++ t ++ Text.spaces 4
  let inner := title.laidOut.lines.map line
  Text.join "\n" (Text.levelled ([Text.empty] ++ inner ++ [Text.empty])) ++ "\n"

inductive Side where
  | left
  | right

structure Column where
  header : Text
  side : Side := .left

structure Table where
  columns : List Column
  /-- A text for each column. -/
  rows : List (List Text) := []

namespace Table

def widths (t : Table) : List Nat :=
  t.columns.zipIdx.map fun (c, i) =>
    t.rows.foldl (fun w row => max w (row.getD i .empty).extent) c.header.extent + 4

def rule (left cross right : Text) (widths : List Nat) : Text :=
  left ++ Text.join cross (widths.map fun w => Text.replicate w "─") ++ right

def centred (width : Nat) (t : Text) : Text :=
  let gap := width - t.width
  Text.spaces (gap / 2) ++ t ++ Text.spaces (gap - gap / 2)

def height (width : Nat) (t : Text) : Nat :=
  (Text.mk (Text.unixBreaks t.bytes)).lines.foldl (fun n l => n + Terminal.lineCount (width - 4) l) 0

def cellLines (side : Side) (width height : Nat) (t : Text) : List Text :=
  let lines := (Terminal.wrap (width - 2) t.laidOut).lines.map fun l : Text => " " ++ l ++ " "
  let lines := lines ++ List.replicate (height - lines.length) Text.empty
  let room := max width (Text.widest lines)
  let placed (l : Text) : Text :=
    match side with
    | .left => l.padded room
    | .right => Text.spaces (room - l.width) ++ l
  (lines.map fun l => (placed l).cut width).take height

/-- Blocks of lines side by side. -/
def beside (height : Nat) (blocks : List (List Text)) : List Text :=
  (List.range height).map fun i => Text.concat (blocks.map fun b => b.getD i .empty)

/-- The lines of a row, as many as its highest cell has, in columns of these widths. -/
def rowLines (t : Table) (widths : List Nat) (row : List Text) : List Text :=
  let cells := (t.columns.zip widths).zip row
  let high := (cells.map fun ((_, w), text) => height w text).foldl max 1
  let wall := List.replicate high (Text.ofString "│")
  let blocks := cells.map fun ((c, w), text) => Text.levelled (cellLines c.side w high text)
  beside high (wall :: blocks.flatMap fun b => [b, wall])

def walled (cells : List Text) : Text := "│" ++ Text.join "│" cells ++ "│"

def text (t : Table) : Text :=
  let ws := t.widths
  let headers := walled ((t.columns.zip ws).map fun (c, w) => centred w c.header)
  Text.join "\n" (Text.levelled ([rule "┌" "┬" "┐" ws, headers, rule "├" "┼" "┤" ws] ++
    t.rows.flatMap (t.rowLines ws) ++ [rule "└" "┴" "┘" ws])) ++ "\n"

end Table

end ShapeFlow
