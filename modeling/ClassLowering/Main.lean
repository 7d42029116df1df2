import ClassLowering.CommandLine.Run

/-! # The program

Takes a picture of the files that a command line can reach, runs the command line on it, and
writes what the run leaves behind. -/

namespace ClassLowering

/-- A picture of what a path leads to. -/
partial def snapshot (path : String) : IO FileNode := do
  let place ← IO.FS.realPath path
  if ← place.isDir then
    let entries ← (← place.readDir).toList.mapM fun entry => do
      return (entry.fileName, ← snapshot (Path.join path entry.fileName))
    return .directory (entries.foldl
      (fun entries (name, node) => FileNode.insertEntry name node entries) [])
  else
    return .file (← IO.FS.readBinFile path).toList

/-- Adds a picture of what a path leads to, if it can be reached. -/
def addSnapshot (tree : FileTree) (path : String) : IO FileTree := do
  try
    return tree.add path (← snapshot path)
  catch _ =>
    return tree

/-- Whether a path is in danger of being taken as a pattern. -/
def hasWildcard (path : String) : Bool := path.toList.any ("*?[".toList.contains ·)

/-- Adds a picture of all that an input can mean. -/
def addInput (tree : FileTree) (path : String) : IO FileTree := do
  if hasWildcard path then
    let plain := (Path.pieces path).takeWhile fun piece => !hasWildcard piece
    let start := "/".intercalate plain
    addSnapshot tree (if Path.isAbsolute path then start ++ "/" else Path.join "." start)
  else
    addSnapshot tree path

/-- Adds a directory without its entries, if a path leads to one that is not in the picture. -/
def addDirectory (tree : FileTree) (path : String) : IO FileTree := do
  try
    if (← (← IO.FS.realPath path).isDir) && (tree.find? path).isNone then
      return tree.add path (.directory [])
    else
      return tree
  catch _ =>
    return tree

/-- Adds the directories that decide whether a file can be written. -/
def addOutput (tree : FileTree) (path : String) : IO FileTree := do
  let around := "/".intercalate (Path.pieces path).dropLast
  let tree ← addDirectory tree
    (if Path.isAbsolute path then around ++ "/" else Path.join "." around)
  addDirectory tree path

/-- The files that a command line can reach. -/
def reachable (arguments : Arguments) : IO FileTree := do
  let here := toString (← IO.currentDir)
  let names := (Path.pieces here).filter (· ≠ "")
  let root := FileNode.put (.directory []) (.directory []) names
  let tree ← addInput { root, workingDirectory := names } arguments.input
  let tree ← match loadConfig tree arguments.input with
    | .ok config => config.inputs.foldlM addInput tree
    | .error _ => pure tree
  match arguments.output with
  | some path => addOutput tree path
  | none => return tree

/-- Writes what a run leaves behind, and gives its exit code. -/
def deliver (outcome : RunOutcome) (output : Option String) : IO UInt32 := do
  for record in outcome.log do
    IO.eprintln s!"{record.level.name} {record.message}"
  if let some failure := outcome.failure then
    IO.eprintln s!"Error: {failure.message}"
    return 1
  match output with
  | none => IO.print outcome.printed
  | some path =>
    let content := (outcome.tree.read? path).getD []
    IO.FS.writeBinFile path ⟨content.toArray⟩
  return outcome.exitCode

end ClassLowering

open ClassLowering in
/-- Runs the command line. -/
def main (words : List String) : IO UInt32 := do
  match Arguments.ofWords? words with
  | none => deliver (run Catalog.standard {} words) none
  | some arguments =>
    let tree ← reachable arguments
    deliver (run Catalog.standard tree words) arguments.output
