import ClassLowering.Error

/-! # Failures of a run -/

namespace ClassLowering

/-- Why a run has no output. -/
inductive Failure where
  /-- The command line makes no sense. -/
  | usage
  /-- The settings make no sense. -/
  | settings
  /-- A file cannot be read or written, or is no archive. -/
  | files
  /-- The class files cannot be read or lowered. -/
  | classes (error : Error)
  deriving DecidableEq, Repr

/-- The wording of a failure. -/
def Failure.message : Failure → String
  | usage => "usage: input [output] [--isolate] [--classes] [-v | --verbose]"
  | settings => "the settings cannot be read"
  | files => "a file cannot be read or written"
  | classes error => error.message

end ClassLowering
