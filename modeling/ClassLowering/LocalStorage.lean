import ClassLowering.ClassFile.Attribute
import ClassLowering.Log
import ClassLowering.Resolution.Scope

/-! # Storage for local slots

Source instructions address numbered slots that are reused for values of different types; target
variables have one type each. The first slots hold the arguments. For the others, the table of
local variables says which variable is alive where, and each slot and type gets a target variable:

* the first type of a slot keeps the number of the slot as its label, and further rows with that
  type share its variable;
* every row with another type gets a variable of its own, labelled with a number past all slots of
  the table, as long as such numbers last: labels have 16 bits, and counting starts again behind the
  last one;
* an access that no row covers gets a variable for its slot and kind of value, made on the first
  such access. -/

namespace ClassLowering

open Bytecode (ValueKind)
open Target (Local TypeSig)

/-- Where a slot is kept. -/
inductive Place where
  /-- In a parameter of the method. -/
  | parameter (index : UInt16)
  /-- In a local variable of the body. -/
  | localVariable (index : UInt16)
  deriving DecidableEq, Repr

/-- A row of the table of local variables, bound to a variable of the body. -/
structure BoundRow where
  row : LocalVariable
  kind : ValueKind
  place : UInt16
  deriving DecidableEq, Repr

/-- A variable for accesses that no row covers. -/
structure SyntheticLocal where
  slot : Nat
  kind : ValueKind
  place : UInt16
  deriving DecidableEq, Repr

/-- The storage of a method's slots. -/
structure LocalStorage where
  /-- For each argument slot its parameter, or nothing for the upper half of a two-slot one. -/
  arguments : List (Option UInt16)
  rows : List BoundRow
  synthetic : List SyntheticLocal
  locals : List Local
  /-- The type of variables for references of unknown class. -/
  object : TypeSig
  deriving DecidableEq, Repr

namespace LocalStorage

/-- The slots of parameters that are numbered from `index` on. -/
def parameterSlots (index : Nat) : List FieldType → List (Option UInt16)
  | [] => []
  | type :: types =>
    some index.toUInt16 :: (if type.slots = 2 then [none] else []) ++
      parameterSlots (index + 1) types

/-- The argument slots of a method; the object it works on is the first parameter. -/
def argumentSlots (parameters : List FieldType) (hasThis : Bool) : List (Option UInt16) :=
  if hasThis then some 0 :: parameterSlots 1 parameters else parameterSlots 0 parameters

/-- The type of a variable for a kind of values. -/
def kindSig (object : TypeSig) : ValueKind → TypeSig
  | .int => .i32
  | .long => .i64
  | .float => .f32
  | .double => .f64
  | .ref => object

/-- The index that the next variable gets. -/
def nextIndex (storage : LocalStorage) : UInt16 := storage.locals.length.toUInt16

/-- Binds a row to a new variable. -/
def declareRow (storage : LocalStorage) (label : UInt16) (row : LocalVariable) (kind : ValueKind)
    (sig : TypeSig) : LocalStorage :=
  { storage with
    rows := storage.rows ++ [⟨row, kind, storage.nextIndex⟩]
    locals := storage.locals ++ [⟨label, some row.name, sig⟩] }

/-- Binds a row to the variable of an earlier one. -/
def shareRow (storage : LocalStorage) (first : BoundRow) (row : LocalVariable)
    (kind : ValueKind) : LocalStorage :=
  { storage with rows := storage.rows ++ [⟨row, kind, first.place⟩] }

/-- Adds a row of the table; `fresh` is the label for the next type that is not the first one of its
slot. -/
def addRow (scope : Scope) (storage : LocalStorage) (fresh : UInt16) (row : LocalVariable) :
    Logged Error (LocalStorage × UInt16) :=
  if row.index.toNat < storage.arguments.length then
    pure (storage, fresh)
  else do
    let type ← FieldType.ofDescriptor row.descriptor
    match storage.rows.find? fun bound => bound.row.index = row.index with
    | none =>
      let sig ← scope.fieldSig type
      return (storage.declareRow row.index row type.kind sig, fresh)
    | some first =>
      if first.row.descriptor = row.descriptor then
        return (storage.shareRow first row type.kind, fresh)
      else
        Logged.record .trace <|
          s!"slot {row.index} changes type to {row.descriptor} at {row.start}, " ++
          s!"remapped to {fresh}"
        let sig ← scope.fieldSig type
        return (storage.declareRow fresh row type.kind sig, fresh + 1)

/-- Adds rows of the table in order. -/
def addRows (scope : Scope) (storage : LocalStorage) (fresh : UInt16) :
    List LocalVariable → Logged Error LocalStorage
  | [] => pure storage
  | row :: rows => do
    let (storage, fresh) ← addRow scope storage fresh row
    addRows scope storage fresh rows

/-- The label behind all slots of a table; behind the last slot there is that of the first one. -/
def freshLabel (rows : List LocalVariable) : UInt16 :=
  rows.foldl (fun label row => max label (row.index + 1)) 0

/-- The storage for a table of local variables. -/
def ofTable (scope : Scope) (rows : List LocalVariable) (arguments : List (Option UInt16)) :
    Logged Error LocalStorage := do
  let object ← scope.objectSig
  addRows scope ⟨arguments, [], [], [], object⟩ (freshLabel rows) rows

/-- The variable for accesses to a slot that no row covers. -/
def lookupSynthetic (storage : LocalStorage) (slot : Nat) (offset : UInt32) (kind : ValueKind) :
    Logged Error (UInt16 × LocalStorage) :=
  match storage.synthetic.find? fun known => known.slot = slot && known.kind = kind with
  | some known => pure (known.place, storage)
  | none => do
    Logged.record .trace s!"synthetic {kind.name} local for slot {slot} first seen at {offset}"
    let place := storage.nextIndex
    return (place, { storage with
      synthetic := storage.synthetic ++ [⟨slot, kind, place⟩]
      locals := storage.locals ++ [⟨slot.toUInt16, none, kindSig storage.object kind⟩] })

/-- The rows of a slot that hold a kind of value at an offset. -/
def covering (storage : LocalStorage) (slot : Nat) (offset : UInt32) (kind : ValueKind) :
    List BoundRow :=
  storage.rows.filter fun bound =>
    bound.row.index.toNat = slot && bound.kind = kind && bound.row.inRange offset

/-- Where a slot is kept for an access at an offset. -/
def lookup (storage : LocalStorage) (slot : Nat) (offset : UInt32) (kind : ValueKind) :
    Logged Error (Place × LocalStorage) :=
  match storage.arguments[slot]? with
  | some (some index) => pure (.parameter index, storage)
  | some none => throw (.consistency (.splitArgument slot))
  | none =>
    match storage.covering slot offset kind with
    | [] => do
      let (place, storage) ← storage.lookupSynthetic slot offset kind
      return (.localVariable place, storage)
    | [bound] => pure (.localVariable bound.place, storage)
    | bounds => throw (.consistency (.overlappingLocals slot offset bounds.length))

end LocalStorage

end ClassLowering
