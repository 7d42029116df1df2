import ClassLowering.Batch
import ClassLowering.CommandLine.Arguments
import ClassLowering.CommandLine.Inputs

/-! # Running a command line

A run takes a command line and the files that it sees to what it leaves behind. -/

namespace ClassLowering

/-- What a run leaves behind. -/
structure RunOutcome where
  /-- What is printed. -/
  printed : String := ""
  /-- The log, as detailed as asked for. -/
  log : List LogRecord := []
  failure : Option Failure := none
  /-- The files afterwards. -/
  tree : FileTree

/-- The exit code of a run. -/
def RunOutcome.exitCode (outcome : RunOutcome) : UInt32 :=
  if outcome.failure.isSome then 1 else 0

/-- The least important level that is logged. -/
def Arguments.level (arguments : Arguments) : LogLevel :=
  match arguments.verbosity with
  | 0 => .info
  | 1 => .debug
  | _ => .trace

/-- The settings, with what the command line adds to them. -/
def Arguments.config (arguments : Arguments) (tree : FileTree) : Except Failure Config :=
  (loadConfig tree arguments.input).map fun config =>
    { config with
      isolate := config.isolate || arguments.isolate
      dumpClasses := config.dumpClasses || arguments.dumpClasses }

/-- The dump that a command line asks for. -/
def Arguments.dump (arguments : Arguments) (catalog : Catalog) (tree : FileTree) :
    Logged Failure String := do
  let config ← arguments.config tree
  let buffers ← loadInputs tree config.inputs
  (dumpBatch catalog config buffers).mapError .classes

/-- Runs a command line; a file is written only after all else has succeeded. -/
def run (catalog : Catalog) (tree : FileTree) (words : List String) : RunOutcome :=
  match Arguments.ofWords? words with
  | none => { failure := some .usage, tree }
  | some arguments =>
    let dump := arguments.dump catalog tree
    let log := LogRecord.upTo arguments.level dump.log
    match dump.result, arguments.output with
    | .error failure, _ => { log, failure := some failure, tree }
    | .ok printed, none => { printed, log, tree }
    | .ok text, some path =>
      match tree.write? path (Utf8.encode text) with
      | some tree => { log, tree }
      | none => { log, failure := some .files, tree }

end ClassLowering
