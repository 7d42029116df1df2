/-! # Documents

A document is the tree that dumps are made of: texts, numbers and truth values in lists and in
records with named fields. Floating-point numbers are kept as bits, so that a document loses
nothing of them. -/

namespace ClassLowering

/-- A tree of texts, numbers and truth values. -/
inductive Document where
  | null
  | bool (value : Bool)
  | int (value : Int)
  /-- A single-precision number, by its bits. -/
  | single (bits : UInt32)
  /-- A double-precision number, by its bits. -/
  | double (bits : UInt64)
  | text (value : String)
  | list (items : List Document)
  /-- Named fields in order. -/
  | record (fields : List (String × Document))

/-- Values that can be dumped. -/
class ToDocument (α : Type) where
  /-- The document of a value. -/
  toDocument : α → Document

export ToDocument (toDocument)

namespace Document

/-- A case of a variant type, with what it carries. -/
def variant (name : String) (payload : Document) : Document := record [(name, payload)]

instance : ToDocument Bool := ⟨bool⟩

instance : ToDocument String := ⟨text⟩

instance : ToDocument Nat := ⟨fun value => int value⟩

instance : ToDocument UInt8 := ⟨fun value => int value.toNat⟩

instance : ToDocument UInt16 := ⟨fun value => int value.toNat⟩

instance : ToDocument UInt32 := ⟨fun value => int value.toNat⟩

instance : ToDocument Int32 := ⟨fun value => int value.toInt⟩

instance : ToDocument Int64 := ⟨fun value => int value.toInt⟩

instance {α : Type} [ToDocument α] : ToDocument (List α) :=
  ⟨fun items => list (items.map toDocument)⟩

instance {α : Type} [ToDocument α] : ToDocument (Option α) where
  toDocument
    | some value => toDocument value
    | none => null

end Document

end ClassLowering
