/-! # Settings of a run -/

namespace ClassLowering

/-- What to read and what to make of it. -/
structure Config where
  /-- Paths of class files, archives and directories. -/
  inputs : List String := []
  /-- The name of the module. -/
  module : String := "JavaProgram"
  /-- Whether a class at fault leaves the others alone. -/
  isolate : Bool := false
  /-- Whether to dump the classes instead of the module. -/
  dumpClasses : Bool := false
  deriving DecidableEq, Repr

/-- The settings for one input. -/
def Config.ofInput (path : String) : Config := { inputs := [path] }

end ClassLowering
