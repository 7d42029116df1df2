import ClassLowering.ClassFile.AccessFlags
import ClassLowering.ClassFile.Attribute
import ClassLowering.ConstantPool.Reader

/-! # Class files

A class file is a signature, a version, a constant pool and the description of one class by
indices into it. `ClassFile.read` follows the indices, so a `ClassFile` holds names. Bytes behind
the description are not looked at. -/

namespace ClassLowering

open Read

/-- A field or a method. -/
structure Member where
  flags : AccessFlags
  name : String
  descriptor : String
  attributes : List Attribute

/-- A class. -/
structure ClassFile where
  name : String
  flags : AccessFlags
  superClass : Option String
  interfaces : List String
  fields : List Member
  methods : List Member
  attributes : List Attribute
  pool : ConstantPool

namespace ClassFile

/-- The first bytes of every class file. -/
def magic : List UInt8 := [0xCA, 0xFE, 0xBA, 0xBE]

/-- Reads a field or a method. -/
def readMember (pool : ConstantPool) : LoggedRead Member := do
  let flags ← u16
  let name ← pool.utf8 (← u16)
  let descriptor ← pool.utf8 (← u16)
  let attributes ← Attribute.readList pool
  return ⟨⟨flags⟩, name, descriptor, attributes⟩

/-- Reads a list of fields or methods, count included. -/
def readMembers (pool : ConstantPool) : LoggedRead (List Member) := do
  let count ← u16
  LoggedRead.times count.toNat (readMember pool)

/-- Reads a class name. -/
def readClassName (pool : ConstantPool) : Read String := do
  let index ← u16
  pool.className index

/-- Reads the description of a class, with the names of a pool. -/
def readBody (pool : ConstantPool) : LoggedRead ClassFile := do
  let flags ← u16
  let name ← readClassName pool
  let superClass ← pool.className? (← u16)
  let count ← u16
  let interfaces ← times count.toNat (readClassName pool)
  let fields ← readMembers pool
  let methods ← readMembers pool
  let attributes ← Attribute.readList pool
  return ⟨name, ⟨flags⟩, superClass, interfaces, fields, methods, attributes, pool⟩

/-- Reads a class file. -/
def read : LoggedRead ClassFile := do
  let signature ← bytes 4
  if signature = magic then
    let minor ← u16
    let major ← u16
    let pool ← ConstantPool.read
    let file ← readBody pool
    LoggedRead.record .trace s!"parsed {file.name} (version {major}.{minor})"
    return file
  else
    fail (.format (.badMagic signature))

/-- The class that a buffer starts with. -/
def parse (bytes : List UInt8) : Logged Error ClassFile := do
  let (file, _) ← read (Cursor.ofBytes bytes)
  return file

end ClassFile

end ClassLowering
