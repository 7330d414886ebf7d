/-
Control sequences of terminals, read byte by byte. Between them every byte of
ASCII that is no control is printed, and a byte that starts another character
starts a cluster; what belongs to a sequence shows nothing.
-/

namespace ShapeFlow

namespace Terminal

inductive State where
  | ground
  | escape
  | escapeMore
  /-- A command: at its start, in its parameters, and behind them. -/
  | command
  | parameters
  | commandMore
  /-- A device string: at its start, in its parameters, behind them, and inside. -/
  | device
  | deviceParameters
  | deviceMore
  | deviceString
  /-- A command to the operating system. -/
  | system
  /-- Any other string. -/
  | string
deriving DecidableEq

inductive Effect where
  | print
  /-- A control of one byte. -/
  | execute
  | nothing
  /-- A character that is not of ASCII starts here. -/
  | cluster
deriving DecidableEq

def isBetween (first last b : UInt8) : Bool := first ≤ b && b ≤ last

/-- Controls of ASCII that start or cancel no sequence. -/
def isPlainControl (b : UInt8) : Bool := b < 0x20 && b != 0x18 && b != 0x1A && b != 0x1B

/-- What a byte does in any state that has no rule of its own for it. -/
def anywhere (b : UInt8) : State × Effect :=
  if b = 0x18 || b = 0x1A then (.ground, .execute)
  else if b = 0x1B then (.escape, .nothing)
  else if b = 0x90 then (.device, .nothing)
  else if b = 0x98 || b = 0x9E || b = 0x9F then (.string, .nothing)
  else if b = 0x9B then (.command, .nothing)
  else if b = 0x9D then (.system, .nothing)
  else if isBetween 0x80 0x9F b then (.ground, .execute)
  else if isBetween 0xC2 0xF4 b then (.ground, .cluster)
  else (.ground, .nothing)

/-- The state after an escape and a byte of ASCII that is no control. -/
def afterEscape (b : UInt8) : State :=
  if b < 0x30 then .escapeMore
  else if b = 0x50 then .device
  else if b = 0x58 || b = 0x5E || b = 0x5F then .string
  else if b = 0x5B then .command
  else if b = 0x5D then .system
  else .ground

/-- A byte inside a string: `ends` tells which bytes other than the common ones
end it, and `taken` which belong to it. -/
def inString (s : State) (ends taken : UInt8 → Bool) (b : UInt8) : State × Effect :=
  if b = 0x1B then (.escape, .nothing)
  else if b = 0x18 || b = 0x1A || b = 0x9C || ends b then (.ground, .nothing)
  else if taken b then (s, .nothing)
  else anywhere b

def inDevice (s : State) (b : UInt8) (next : UInt8 → State) : State × Effect :=
  if isPlainControl b || b = 0x7F then (s, .nothing)
  else if isBetween 0x20 0x7E b then (next b, .nothing)
  else anywhere b

def inCommand (s : State) (b : UInt8) (next : UInt8 → State) : State × Effect :=
  if isPlainControl b then (s, .execute)
  else if b = 0x7F then (s, .nothing)
  else if isBetween 0x20 0x7E b then (next b, .nothing)
  else anywhere b

def State.step (s : State) (b : UInt8) : State × Effect :=
  match s with
  | .ground =>
    if isPlainControl b || b = 0x7F then (.ground, .execute)
    else if isBetween 0x20 0x7E b then (.ground, .print)
    else anywhere b
  | .escape => inCommand .escape b afterEscape
  | .escapeMore => inCommand .escapeMore b fun b => if b < 0x30 then .escapeMore else .ground
  | .command =>
    inCommand .command b fun b =>
      if b < 0x30 then .commandMore else if b < 0x40 then .parameters else .ground
  | .parameters =>
    inCommand .parameters b fun b =>
      if b < 0x30 then .commandMore else if b < 0x40 then .parameters else .ground
  | .commandMore => inCommand .commandMore b fun b => if b < 0x30 then .commandMore else .ground
  | .device =>
    -- An escape may stand at the start of a device string.
    if b = 0x1B || isBetween 0x08 0x0D b then (.deviceString, .nothing)
    else
      inDevice .device b fun b =>
        if b < 0x30 then .deviceMore else if b < 0x40 then .deviceParameters else .deviceString
  | .deviceParameters =>
    inDevice .deviceParameters b fun b =>
      if b < 0x30 then .deviceMore else if b < 0x40 then .deviceParameters else .deviceString
  | .deviceMore => inDevice .deviceMore b fun b => if b < 0x30 then .deviceMore else .deviceString
  | .deviceString => inString .deviceString (fun _ => false) (fun _ => true) b
  | .system => inString .system (· = 0x07) (fun _ => true) b
  | .string => inString .string (fun _ => false) (· < 0x80) b

end Terminal

end ShapeFlow
