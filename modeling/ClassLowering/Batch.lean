import ClassLowering.Config.Basic
import ClassLowering.Document.Pretty
import ClassLowering.Lowering.Module
import ClassLowering.Target.Dump

/-! # From class files to a dump -/

namespace ClassLowering

/-- Reads class files in order, up to the first that is at fault. -/
def parseAll : List (List UInt8) → Logged Error (List ClassFile)
  | [] => pure []
  | bytes :: others => do
    let file ← ClassFile.parse bytes
    let files ← parseAll others
    return file :: files

/-- The dump of some class files: the module they are lowered to, or the classes themselves. -/
def dumpBatch (catalog : Catalog) (config : Config) (buffers : List (List UInt8)) :
    Logged Error String := do
  Logged.record .info s!"parsing {buffers.length} class files"
  let files ← parseAll buffers
  if config.dumpClasses then
    return (toDocument files).pretty
  else
    let module ← lowerBatch catalog config.module config.isolate files
    Logged.record .info
      s!"translated module {module.name} with {module.types.length} types"
    return (toDocument module).pretty

end ClassLowering
