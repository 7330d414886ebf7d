/-
Breaking text into lines of at most so many columns, at blanks and behind hyphens
if that is possible, inside words if not. A pen or a link that is on at a line
break is set back before the break and on again after it.

`lineCount` counts the lines of a text that is broken in a simpler way, which
gives every control a column.
-/
import ShapeFlow.Terminal.Control
import ShapeFlow.Terminal.Sequence
import ShapeFlow.Text.Blank

namespace ShapeFlow

namespace Terminal

/-- Text that is being broken. The bytes are kept in reverse. -/
structure Wrapping where
  text : List UInt8 := []
  /-- The columns of the line so far. -/
  column : Nat := 0
  /-- Blanks that become part of the line only with the next word. -/
  blanks : Nat := 0
  word : List UInt8 := []
  wordWidth : Nat := 0
  /-- The pen and the link at the end of what has been read. -/
  pen : Pen := {}
  link : Link := {}
  /-- The pen and the link at the end of the text. -/
  textPen : Pen := {}
  textLink : Link := {}

namespace Wrapping

def put (w : Wrapping) (t : Text) : Wrapping := { w with text := t.bytes.reverse ++ w.text }

def addBlanks (w : Wrapping) : Wrapping :=
  { w with
    text := List.replicate w.blanks 0x20 ++ w.text
    column := w.column + w.blanks
    blanks := 0 }

def addWord (w : Wrapping) : Wrapping :=
  if w.word.isEmpty then w
  else
    let w := { w with textPen := w.pen, textLink := w.link }.addBlanks
    { w with text := w.word ++ w.text, column := w.column + w.wordWidth, word := [], wordWidth := 0 }

/-- Starts a new line; blanks before it are dropped. -/
def newline (w : Wrapping) : Wrapping :=
  let off : Text := (if w.textPen = {} then Text.empty else Pen.resetText) ++
    (if w.textLink = {} then Text.empty else Link.text {})
  let on : Text := (if w.textLink = {} then Text.empty else w.textLink.text) ++
    (if w.textPen = {} then Text.empty else w.textPen.text)
  { w.put (off ++ "\n" ++ on) with column := 0, blanks := 0 }

/-- Ends a line without a word: its blanks stay if they fit. -/
def endBlanks (w : Wrapping) (limit : Nat) : Wrapping :=
  if w.wordWidth = 0 then
    if limit < w.column + w.blanks then { w with column := 0, blanks := 0 }
    else { w with text := List.replicate w.blanks 0x20 ++ w.text, blanks := 0 }
  else w

/-- Adds to the word, which may not be wider than a line. -/
def addToWord (w : Wrapping) (limit : Nat) (s : Sequence) : Wrapping :=
  let w := if limit < w.wordWidth + s.width then w.addWord else w
  let w := { w with word := s.bytes.reverse ++ w.word, wordWidth := w.wordWidth + s.width }
  if limit < w.column + w.wordWidth + w.blanks then w.newline else w

/-- What takes no column goes along with the word. -/
def addFlat (w : Wrapping) (s : Sequence) : Wrapping :=
  let w :=
    match s.request with
    | .nothing => w
    | .pen parameters => { w with pen := w.pen.read parameters }
    | .link l => { w with link := l }
  { w with word := s.bytes.reverse ++ w.word }

def add (limit : Nat) (w : Wrapping) (s : Sequence) : Wrapping :=
  if s.width = 0 then
    if s.bytes = [0x0A] then (w.endBlanks limit).addWord.newline else w.addFlat s
  else if s.bytes = [0x20] && w.pen.blanksVanish then
    let w := w.addWord
    { w with blanks := w.blanks + 1 }
  else if s.bytes = [0x2D] then
    let w := w.addBlanks
    if w.column + w.wordWidth + 1 ≤ limit then
      let w := w.addWord
      { w with text := 0x2D :: w.text, column := w.column + 1 }
    else w.addToWord limit s
  else w.addToWord limit s

def finish (w : Wrapping) (limit : Nat) : Text :=
  let w := (w.endBlanks limit).addWord
  let off : Text := (if w.textLink = {} then Text.empty else Link.text {}) ++
    (if w.textPen = {} then Text.empty else Pen.resetText)
  ⟨(w.put off).text.reverse⟩

end Wrapping

/-- Breaks a text without tabs into lines of at most `limit` columns. -/
def wrap (limit : Nat) (t : Text) : Text :=
  if limit = 0 then t else ((sequences t).foldl (Wrapping.add limit) {}).finish limit

structure Counting where
  lines : Nat := 1
  column : Nat := 0
  blanks : Nat := 0
  /-- Whether there is a word, and its columns. -/
  hasWord : Bool := false
  word : Nat := 0

namespace Counting

def addBlanks (c : Counting) : Counting := { c with column := c.column + c.blanks, blanks := 0 }

def addWord (c : Counting) : Counting :=
  if c.hasWord then
    let c := c.addBlanks
    { c with column := c.column + c.word, hasWord := false, word := 0 }
  else c

def newline (c : Counting) : Counting := { c with lines := c.lines + 1, column := 0, blanks := 0 }

def addBlank (c : Counting) (width : Nat) : Counting :=
  let c := c.addWord
  { c with blanks := c.blanks + width }

/-- A new line if the word does not fit. -/
def fit (c : Counting) (limit : Nat) : Counting :=
  if limit < c.column + c.word + c.blanks then c.newline else c

def addByte (c : Counting) (limit : Nat) (b : UInt8) : Counting :=
  if isBlankCode b.toNat then c.addBlank 1
  else if b = 0x2D then
    let c := c.addBlanks
    if limit ≤ c.column + c.word then { c with hasWord := true, word := c.word + 1 }
    else
      let c := c.addWord
      { c with column := c.column + 1 }
  else
    let c := if c.column = limit then c.newline else c
    let c := { c with hasWord := true, word := c.word + 1 }
    (if c.word = limit then c.addWord else c).fit limit

def addCluster (c : Counting) (limit code width : Nat) : Counting :=
  if isBlankCode code && code != 0xA0 then c.addBlank width
  else
    let c := if limit < c.word + width then c.addWord else c
    ({ c with hasWord := true, word := c.word + width }).fit limit

end Counting

def countFrom (limit : Nat) : Nat → State → Counting → List UInt8 → Nat
  | 0, _, c, _ => c.lines
  | _, _, c, [] => c.lines
  | fuel + 1, s, c, b :: rest =>
    match s.step b with
    | (_, .cluster) =>
      let (width, after) := Cluster.read (b :: rest)
      let code := ((Cluster.next? (b :: rest)).map Prod.fst).getD 0
      countFrom limit fuel .ground (c.addCluster limit code width) after
    | (s, .nothing) => countFrom limit fuel s { c with hasWord := true } rest
    | (s, _) => countFrom limit fuel s (c.addByte limit b) rest

/-- How many lines of at most `limit` columns a line is broken into. -/
def lineCount (limit : Nat) (line : Text) : Nat :=
  if limit = 0 then 1 else countFrom limit line.length .ground {} line.bytes

end Terminal

end ShapeFlow
