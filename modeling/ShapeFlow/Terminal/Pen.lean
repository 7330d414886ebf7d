/-
The pen of a terminal: how it draws the characters that follow. Parameters of a
command change it, and it can be told by a command that sets it anew.
-/
import ShapeFlow.Text

namespace ShapeFlow

namespace Terminal

/-- A parameter of a command, if it is given, and whether another one that
belongs to it follows. -/
structure Parameter where
  value : Option Nat := none
  hasMore : Bool := false

def Parameter.number (p : Parameter) : Nat := p.value.getD 0

inductive Colour where
  /-- One of sixteen. -/
  | basic (n : Nat)
  /-- One of a palette of 256. -/
  | indexed (n : Nat)
  | mixed (red green blue : Nat)
deriving DecidableEq

structure Pen where
  bold : Bool := false
  faint : Bool := false
  italic : Bool := false
  slowBlink : Bool := false
  rapidBlink : Bool := false
  reverse : Bool := false
  conceal : Bool := false
  struck : Bool := false
  /-- The form of underlining; zero for none. -/
  underline : Nat := 0
  foreground : Option Colour := none
  background : Option Colour := none
  underlineColour : Option Colour := none
deriving DecidableEq

namespace Colour

/-- The parameters that set a colour: those of a basic one start at `first` and at
`bright`, others follow `head`. -/
def codes (first bright head : Nat) : Colour → Text
  | basic n => Text.ofNat (if n < 8 then first + n else bright + (n - 8))
  | indexed n => Text.ofNat head ++ ";5;" ++ Text.ofNat n
  | mixed red green blue =>
    Text.ofNat head ++ ";2;" ++ Text.ofNat red ++ ";" ++ Text.ofNat green ++ ";" ++ Text.ofNat blue

/-- A colour of an underlining has no parameters of its own for basic ones. -/
def underlineCodes : Colour → Text
  | basic n => codes 0 0 58 (.indexed n)
  | c => codes 0 0 58 c

def ofParts (red green blue : Parameter) : Colour :=
  .mixed (red.number % 256) (green.number % 256) (blue.number % 256)

/-- The colour after the parameter that asks for one, and how many parameters it
takes with that one. Its parts all belong together, or none does. -/
def read? : List Parameter → Option (Option Colour × Nat)
  | head :: form :: rest =>
    match form.number with
    | 0 => some (none, 2)
    | 1 => some (some (.mixed 0 0 0), 2)
    | 2 =>
      match rest with
      | a :: b :: c :: more =>
        let together := head.hasMore && form.hasMore && a.hasMore && b.hasMore
        let apart := !head.hasMore && !form.hasMore && !a.hasMore && !b.hasMore
        if (together || apart) && !c.hasMore then some (some (ofParts a b c), 5)
        else
          match more with
          | d :: _ =>
            -- The first part names the space of the colour.
            if together && c.hasMore && !d.hasMore then some (some (ofParts b c d), 6) else none
          | [] => none
      | _ => none
    | 5 =>
      match rest with
      | a :: _ =>
        if head.hasMore == form.hasMore && !a.hasMore then some (some (.indexed (a.number % 256)), 3)
        else none
      | [] => none
    | _ => none
  | _ => none

end Colour

namespace Pen

def set (p : Pen) (n : Nat) : Pen :=
  match n with
  | 0 => {}
  | 1 => { p with bold := true }
  | 2 => { p with faint := true }
  | 3 => { p with italic := true }
  | 4 => { p with underline := 1 }
  | 5 => { p with slowBlink := true }
  | 6 => { p with rapidBlink := true }
  | 7 => { p with reverse := true }
  | 8 => { p with conceal := true }
  | 9 => { p with struck := true }
  | 22 => { p with bold := false, faint := false }
  | 23 => { p with italic := false }
  | 24 => { p with underline := 0 }
  | 25 => { p with slowBlink := false, rapidBlink := false }
  | 27 => { p with reverse := false }
  | 28 => { p with conceal := false }
  | 29 => { p with struck := false }
  | 39 => { p with foreground := none }
  | 49 => { p with background := none }
  | 59 => { p with underlineColour := none }
  | n =>
    if 30 ≤ n ∧ n ≤ 37 then { p with foreground := some (.basic (n - 30)) }
    else if 40 ≤ n ∧ n ≤ 47 then { p with background := some (.basic (n - 40)) }
    else if 90 ≤ n ∧ n ≤ 97 then { p with foreground := some (.basic (n - 82)) }
    else if 100 ≤ n ∧ n ≤ 107 then { p with background := some (.basic (n - 92)) }
    else p

def readFrom : Nat → List Parameter → Pen → Pen
  | 0, _, p => p
  | _, [], p => p
  | fuel + 1, head :: rest, p =>
    let colour (set : Option Colour → Pen) : Pen :=
      match Colour.read? (head :: rest) with
      | some (c, taken) => readFrom fuel (rest.drop (taken - 1)) (set c)
      | none => readFrom fuel rest p
    match head.number with
    | 38 => colour fun c => { p with foreground := c }
    | 48 => colour fun c => { p with background := c }
    | 58 => colour fun c => { p with underlineColour := c }
    | 4 =>
      match head.hasMore, rest with
      | true, form :: rest =>
        if form.number ≤ 5 then readFrom fuel rest { p with underline := form.number }
        else readFrom fuel (form :: rest) p
      | _, rest => readFrom fuel rest (p.set 4)
    | n => readFrom fuel rest (p.set n)

/-- The pen after a command; without parameters it is set back. -/
def read (parameters : List Parameter) (p : Pen) : Pen :=
  if parameters.isEmpty then {} else readFrom parameters.length parameters p

def blanksVanish (p : Pen) : Bool := !p.reverse && p.background.isNone && p.underline = 0

def resetText : Text := "\x1b[m"

def underlineCode (n : Nat) : Text := if n = 1 then "4" else "4:" ++ Text.ofNat n

/-- The parameters that make the pen of a plain one. -/
def codes (p : Pen) : List Text :=
  let marks : List (Bool × Text) :=
    [(p.bold, "1"), (p.faint, "2"), (p.italic, "3"), (p.slowBlink, "5"), (p.rapidBlink, "6"),
      (p.reverse, "7"), (p.conceal, "8"), (p.struck, "9"),
      (p.underline != 0, underlineCode p.underline)]
  (marks.filter Prod.fst).map Prod.snd ++ (p.foreground.map (Colour.codes 30 90 38)).toList ++
    (p.background.map (Colour.codes 40 100 48)).toList ++
    (p.underlineColour.map Colour.underlineCodes).toList

def text (p : Pen) : Text := "\x1b[" ++ Text.join ";" p.codes ++ "m"

end Pen

end Terminal

end ShapeFlow
