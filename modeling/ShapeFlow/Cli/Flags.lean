/-
The flags of the command. A flag is `-name` or `--name`; its value follows after
`=` or as the next argument, except that a switch takes a value only after `=`.
The first argument that is no flag, or the one after `--`, ends them.
-/
import ShapeFlow.Override

namespace ShapeFlow

namespace Cli

structure Settings where
  overrides : Overrides := {}
  opset : Int64 := 0
  parallelism : Int64 := 0
  maxPasses : Int64 := 10
  /-- Whether constants are listed too. -/
  all : Bool := false
  /-- Whether the model is printed first. -/
  model : Bool := false
  /-- The value whose dependencies are printed; none if empty. -/
  trace : Text := .empty

inductive Flag where
  | input
  | opset
  | parallelism
  | maxPasses
  | all
  | model
  | trace

namespace Flag

def name : Flag → Text
  | input => "input"
  | opset => "opset"
  | parallelism => "parallelism"
  | maxPasses => "max_passes"
  | all => "all"
  | model => "model"
  | trace => "trace"

def ofName? (name : Text) : Option Flag :=
  [input, opset, parallelism, maxPasses, all, model, trace].find? (·.name == name)

end Flag

inductive FlagError where
  | form (arg : Text)
  | undefined (name : Text)
  | help
  | noValue (flag : Flag)
  | switch (flag : Flag) (value : Text)
  | number (flag : Flag) (value : Text) (error : NumberError)
  | override (value : Text) (error : OverrideError)

namespace FlagError

def invalid (flag : Flag) (value reason : Text) : Text :=
  "invalid value " ++ value.quote ++ " for flag -" ++ flag.name ++ ": " ++ reason

def message : FlagError → Text
  | form arg => "bad flag syntax: " ++ arg
  | undefined name => "flag provided but not defined: -" ++ name
  | help => "flag: help requested"
  | noValue flag => "flag needs an argument: -" ++ flag.name
  | switch flag value =>
    "invalid boolean value " ++ value.quote ++ " for -" ++ flag.name ++ ": parse error"
  | number flag value .form => invalid flag value "parse error"
  | number flag value .range => invalid flag value "value out of range"
  | override value e => invalid .input value e.message

end FlagError

inductive Argument where
  /-- The first argument of the command itself. -/
  | operand
  /-- Two dashes, after which there are no more flags. -/
  | done
  | malformed
  | flag (name : Text) (value : Option Text)

/-- The name and the value of a flag without its dashes. An equals sign at the
start belongs to no name. -/
def named : List UInt8 → Argument
  | [] => .malformed
  | b :: rest =>
    if b = 0x2D ∨ b = 0x3D then .malformed
    else
      match Text.cut? 0x3D ⟨b :: rest⟩ with
      | some (name, value) => .flag name (some value)
      | none => .flag ⟨b :: rest⟩ none

def argument (arg : Text) : Argument :=
  match arg.bytes with
  | [0x2D] => .operand
  | [0x2D, 0x2D] => .done
  | 0x2D :: 0x2D :: rest => named rest
  | 0x2D :: rest => named rest
  | _ => .operand

def switch? (value : Text) : Option Bool :=
  let yes : List Text := ["1", "t", "T", "TRUE", "true", "True"]
  let no : List Text := ["0", "f", "F", "FALSE", "false", "False"]
  if yes.contains value then some true else if no.contains value then some false else none

def readSwitch (flag : Flag) : Option Text → Except FlagError Bool
  | none => .ok true
  | some value =>
    match switch? value with
    | some b => .ok b
    | none => .error (.switch flag value)

def readNumber (flag : Flag) (value : Text) : Except FlagError Int64 :=
  (readLiteral value).mapError (.number flag value)

namespace Settings

/-- Sets what a switch sets; none for the flags that need a value. -/
def switched (s : Settings) (flag : Flag) (value : Option Text) :
    Option (Except FlagError Settings) :=
  match flag with
  | .all => some ((readSwitch flag value).map fun b => { s with all := b })
  | .model => some ((readSwitch flag value).map fun b => { s with model := b })
  | _ => none

def valued (s : Settings) (flag : Flag) (value : Text) : Except FlagError Settings :=
  match flag with
  | .input =>
    match s.overrides.set value with
    | .ok overrides => .ok { s with overrides }
    | .error e => .error (.override value e)
  | .opset => (readNumber flag value).map fun n => { s with opset := n }
  | .parallelism => (readNumber flag value).map fun n => { s with parallelism := n }
  | .maxPasses => (readNumber flag value).map fun n => { s with maxPasses := n }
  | .trace => .ok { s with trace := value }
  | .all | .model => .ok s

end Settings

/-- Reads the flags at the start of a list of arguments onto settings; the other
arguments remain. -/
def readFlags (s : Settings) : List Text → Except FlagError (Settings × List Text)
  | [] => .ok (s, [])
  | arg :: rest =>
    match argument arg with
    | .operand => .ok (s, arg :: rest)
    | .done => .ok (s, rest)
    | .malformed => .error (.form arg)
    | .flag name value =>
      match Flag.ofName? name with
      | none => .error (if name = "h" ∨ name = "help" then .help else .undefined name)
      | some flag =>
        match s.switched flag value with
        | some (.error e) => .error e
        | some (.ok s) => readFlags s rest
        | none =>
          match value, rest with
          | some value, rest =>
            match s.valued flag value with
            | .error e => .error e
            | .ok s => readFlags s rest
          | none, value :: rest =>
            match s.valued flag value with
            | .error e => .error e
            | .ok s => readFlags s rest
          | none, [] => .error (.noValue flag)

end Cli

end ShapeFlow
