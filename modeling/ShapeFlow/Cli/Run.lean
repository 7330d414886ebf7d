/-
The command: read a model, propagate its shapes, report on them. What it prints
and logs is a value here; errors of the propagation come after the report.
-/
import ShapeFlow.Cli.Flags
import ShapeFlow.ModelFile
import ShapeFlow.Report
import ShapeFlow.Resolver.Run
import ShapeFlow.Resolver.Trace

namespace ShapeFlow

namespace Cli

inductive RunError where
  | file (error : FileError)
  | propagation (error : PropagateError)
  /-- A value's elements have no size in bytes. -/
  | unsized (element : ElementType)

def RunError.message : RunError → Text
  | file e => e.message
  | propagation e => e.message
  | unsized element => element.unsizedMessage

structure Outcome where
  output : Text := .empty
  log : List Text := []
  error : Option RunError := none

namespace Settings

/-- A resolver of a model under these settings; zero leaves a choice open. -/
def resolver (s : Settings) (m : Model) : Resolver :=
  let r := (Resolver.ofModel m).withMaxPasses s.maxPasses.toInt
  let r := if 0 < s.parallelism then r.withParallelism s.parallelism.toInt else r
  let r := if 0 < s.opset then r.withOpset s.opset.toInt else r
  if s.overrides.entries.isEmpty then r else r.withOverrides s.overrides

def traceText (s : Settings) (r : Resolver) : Text :=
  if s.trace.isEmpty then .empty
  else titleText ("Dependencies of " ++ s.trace) ++ r.trace s.trace

end Settings

/-- The log of failed nodes and of operators whose outputs have no shape. -/
def problems (r : Resolver) : List Text :=
  let failures := r.failureTable.sorted.map fun (key, e) => "Node " ++ key ++ ": " ++ e.message
  let summary := r.unresolvedSummary
  let entries :=
    if summary.isEmpty then failures
    else failures ++ ["Unresolved outputs per op type: " ++ summary]
  entries.map Text.asEntry

def runModel (s : Settings) (m : Model) : Outcome :=
  let p := (s.resolver m).propagate fun _ => false
  let start := (if s.model then m.text ++ "\n" else Text.empty) ++ titleText "Values"
  let log := Event.messages 0 p.events
  match Report.ofResolver p.resolver s.all with
  | .error element => ⟨start, log, some (.unsized element)⟩
  | .ok report =>
    let error := match p.result with | .ok _ => none | .error e => some (.propagation e)
    ⟨start ++ report.text ++ s.traceText p.resolver, log ++ problems p.resolver, error⟩

/-- Runs the command on the file at a path, given its contents or why there are
none. -/
def run (s : Settings) (path : Text) (contents : Except PathFault Text) : Outcome :=
  let loaded := loadFile path contents
  match loaded.model with
  | .error e => { log := Event.messages 0 loaded.events, error := some (.file e) }
  | .ok m =>
    let outcome := runModel s m
    { outcome with log := Event.messages 0 loaded.events ++ outcome.log }

end Cli

end ShapeFlow
