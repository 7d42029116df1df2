import ClassLowering.CommandLine.Failure
import ClassLowering.Config.Parser
import ClassLowering.Files.Archive
import ClassLowering.Files.Pattern
import ClassLowering.Log

/-! # Loading inputs

An input is a directory, of which all class files at any depth are loaded, a class file, or an
archive, of which all class files are loaded. -/

namespace ClassLowering

/-- The outcome or a failure to reach files. -/
def orFiles {α : Type} : Option α → Except Failure α
  | some value => .ok value
  | none => .error .files

/-- The settings for the input of a command line: the input alone if it can be loaded, else those
that it holds. -/
def loadConfig (tree : FileTree) (input : String) : Except Failure Config :=
  let extension := Path.extension? input
  if tree.isDirectory input ∨ extension = some "class" ∨ extension = some "jar" then
    .ok (Config.ofInput input)
  else
    match tree.read? input with
    | none => .error .files
    | some bytes =>
      match (Utf8.decode? bytes).bind Config.ofText? with
      | some config => .ok config
      | none => .error .settings

/-- Loads files one after the other, each with a word about it, up to a directory that cannot be
listed. -/
def loadEncounters (tree : FileTree) : List Encounter → Logged Failure (List (List UInt8))
  | [] => pure []
  | .path path :: encounters => do
    Logged.record .debug s!"loading {path}"
    let bytes ← orFiles (tree.read? path)
    let others ← loadEncounters tree encounters
    return bytes :: others
  | .unlisted _ :: _ => throw .files

/-- Loads the class files below a directory, whose path may have wildcards itself. -/
def loadDirectory (tree : FileTree) (path : String) : Logged Failure (List (List UInt8)) := do
  let pattern ← orFiles (Pattern.ofText? (Path.join (Path.join path "**") "*.class"))
  loadEncounters tree (pattern.expand tree)

/-- Loads the class files among the entries of an archive, each with a word about it. -/
def loadEntries (archive : Archive) (path : String) :
    List ArchiveEntry → Logged Failure (List (List UInt8))
  | [] => pure []
  | entry :: entries => do
    let place ← orFiles (entry.open? archive)
    if entry.name.endsWith ".class" then
      Logged.record .debug s!"loading {entry.name} from {path}"
      let bytes ← orFiles (entry.content? archive place)
      let others ← loadEntries archive path entries
      return bytes :: others
    else
      loadEntries archive path entries

/-- Loads one input. -/
def loadInput (tree : FileTree) (path : String) : Logged Failure (List (List UInt8)) := do
  if tree.isDirectory path then
    loadDirectory tree path
  else
    let bytes ← orFiles (tree.read? path)
    if Path.extension? path = some "class" then
      return [bytes]
    else
      let archive : Archive := ⟨bytes⟩
      loadEntries archive path (← orFiles archive.entries?)

/-- Loads inputs in order. -/
def loadInputs (tree : FileTree) : List String → Logged Failure (List (List UInt8))
  | [] => pure []
  | path :: paths => do
    let files ← loadInput tree path
    let others ← loadInputs tree paths
    return files ++ others

end ClassLowering
