import ClassLowering.Config.Basic
import ClassLowering.Config.Table

/-! # Reading settings

`Config.ofText?` takes the settings from the entries outside of tables. Keys that mean nothing are
passed over; a key that means something may stand once, with a value of its own type, and no table
may have its name. -/

namespace ClassLowering

namespace Settings

/-- The text that a value is. -/
def Value.text? : Value → Option String
  | .text value => some value
  | _ => none

/-- The keys that mean something. -/
def knownKeys : List String := ["inputs", "module", "isolate", "dump_classes"]

/-- Applies an entry. -/
def apply (config : Config) (key : String) (value : Value) : Option Config :=
  match key, value with
  | "inputs", .list items =>
    (items.mapM Value.text?).map fun inputs => { config with inputs }
  | "module", .text module => some { config with module }
  | "isolate", .boolean isolate => some { config with isolate }
  | "dump_classes", .boolean dumpClasses => some { config with dumpClasses }
  | key, _ => if key ∈ knownKeys then none else some config

/-- Applies entries; `used` are the known keys that were set. -/
def applyAll (config : Config) (used : List String) : Entries → Option Config
  | [] => some config
  | (key, value) :: rest =>
    if key ∈ used then none
    else
      match apply config key value with
      | some config => applyAll config (if key ∈ knownKeys then key :: used else used) rest
      | none => none

/-- Whether a table takes the place of a setting. -/
def Table.isMisplaced (table : Table) : Bool := table.header.path.head?.any (· ∈ knownKeys)

end Settings

/-- The settings that a text describes, if it is well formed. -/
def Config.ofText? (text : String) : Option Config :=
  match Settings.document? text with
  | some (entries, tables) =>
    if tables.any Settings.Table.isMisplaced then none else Settings.applyAll {} [] entries
  | none => none

end ClassLowering
