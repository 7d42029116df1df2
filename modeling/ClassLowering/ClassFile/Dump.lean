import ClassLowering.ClassFile.Basic
import ClassLowering.Document.Basic

/-! # Class files as documents -/

namespace ClassLowering

open Bytecode (Operation Operand Instruction)

/-- An operation is its mnemonic; a byte without a meaning is given as such. -/
def Bytecode.Operation.document : Operation → Document
  | .reserved n => .variant "Reserved" (.int (0xcb + n.val))
  | operation => .text operation.name

instance : ToDocument Operation := ⟨Bytecode.Operation.document⟩

/-- An operand is the case of its shape. -/
def Bytecode.Operand.document : Operand → Document
  | .simple => .text "Simple"
  | .oneValue value => .variant "OneValue" (toDocument value)
  | .twoValue first second => .variant "TwoValue" (.list [toDocument first, toDocument second])
  | .branch displacement => .variant "Branch" (toDocument displacement)
  | .valueExtra value extra => .variant "ValueExtra" (.list [toDocument value, toDocument extra])

instance : ToDocument Operand := ⟨Bytecode.Operand.document⟩

instance : ToDocument Instruction where
  toDocument instruction := .record [
    ("operation", toDocument instruction.operation),
    ("offset", toDocument instruction.offset),
    ("operand", toDocument instruction.operand),
    ("wide", toDocument instruction.wide)]

/-- A member reference by its indices. -/
def Constant.pairDocument (owner pair : UInt16) : Document :=
  .record [("class", toDocument owner), ("name_and_type", toDocument pair)]

/-- A computed constant or call site by its indices. -/
def Constant.bootstrapDocument (bootstrap pair : UInt16) : Document :=
  .record [("bootstrap", toDocument bootstrap), ("name_and_type", toDocument pair)]

/-- A constant is the case of its kind. -/
def Constant.document : Constant → Document
  | .utf8 text => .variant "Utf8" (.text text)
  | .integer value => .variant "Integer" (toDocument value)
  | .float bits => .variant "Float" (.single bits)
  | .long value => .variant "Long" (toDocument value)
  | .double bits => .variant "Double" (.double bits)
  | .string text => .variant "String" (.text text)
  | .classRef name => .variant "Class" (toDocument name)
  | .nameAndType name descriptor => .variant "NameAndType" (.record [
      ("name", toDocument name), ("descriptor", toDocument descriptor)])
  | .fieldRef owner pair => .variant "FieldRef" (pairDocument owner pair)
  | .methodRef owner pair => .variant "MethodRef" (pairDocument owner pair)
  | .interfaceMethodRef owner pair => .variant "InterfaceMethodRef" (pairDocument owner pair)
  | .methodHandle kind reference => .variant "MethodHandle" (.record [
      ("kind", toDocument kind), ("reference", toDocument reference)])
  | .methodType descriptor => .variant "MethodType" (toDocument descriptor)
  | .dynamic bootstrap pair => .variant "Dynamic" (bootstrapDocument bootstrap pair)
  | .invokeDynamic bootstrap pair => .variant "InvokeDynamic" (bootstrapDocument bootstrap pair)
  | .moduleRef name => .variant "Module" (toDocument name)
  | .packageRef name => .variant "Package" (toDocument name)

instance : ToDocument Constant := ⟨Constant.document⟩

/-- A pool is the table of its entries, from the absent one on. -/
instance : ToDocument ConstantPool where
  toDocument pool := .record [
    ("entries", .list (.null :: pool.constants.toList.map toDocument))]

instance : ToDocument MemberReference where
  toDocument member := .record [
    ("class", toDocument member.owner),
    ("name", toDocument member.name),
    ("descriptor", toDocument member.descriptor)]

instance : ToDocument LocalVariable where
  toDocument row := .record [
    ("start", toDocument row.start),
    ("length", toDocument row.length),
    ("name", toDocument row.name),
    ("descriptor", toDocument row.descriptor),
    ("index", toDocument row.index)]

instance : ToDocument ExceptionHandler where
  toDocument handler := .record [
    ("start", toDocument handler.start),
    ("end", toDocument handler.stop),
    ("handler", toDocument handler.handler),
    ("catch_class", toDocument handler.catchClass)]

/-- The code of a method, given the document of its attributes. -/
def CodeFrame.document (frame : CodeFrame) (attributes : Document) : Document :=
  .record [
    ("max_stack", toDocument frame.maxStack),
    ("max_locals", toDocument frame.maxLocals),
    ("code_length", toDocument frame.codeLength),
    ("opcodes", toDocument frame.instructions),
    ("exception_table", toDocument frame.exceptionTable),
    ("attributes", attributes)]

mutual

/-- An attribute is its name and the case of its data. -/
def Attribute.document (value : Attribute) : Document :=
  .record [("name", .text value.name), ("data", value.dataDocument)]

/-- The data of an attribute. -/
def Attribute.dataDocument : Attribute → Document
  | .raw _ bytes => .variant "Raw" (toDocument bytes)
  | .code frame attributes =>
    .variant "Code" (frame.document (.list (Attribute.documents attributes)))
  | .localVariableTable rows =>
    .variant "LocalVariableTable" (toDocument rows)
  | .nestHost name => .variant "NestHost" (.text name)
  | .constantValue constant => .variant "ConstantValue" constant.document
  | .sourceFile name => .variant "SourceFile" (.text name)

/-- The documents of some attributes. -/
def Attribute.documents : List Attribute → List Document
  | [] => []
  | first :: others => first.document :: documents others

end

instance : ToDocument Attribute := ⟨Attribute.document⟩

instance : ToDocument MethodCode where
  toDocument code := code.toCodeFrame.document (toDocument code.attributes)

instance : ToDocument AccessFlags := ⟨fun flags => toDocument flags.bits⟩

instance : ToDocument Member where
  toDocument member := .record [
    ("flags", toDocument member.flags),
    ("name", toDocument member.name),
    ("descriptor", toDocument member.descriptor),
    ("attributes", toDocument member.attributes)]

/-- A class without its pool. -/
instance : ToDocument ClassFile where
  toDocument file := .record [
    ("name", toDocument file.name),
    ("flags", toDocument file.flags),
    ("super_class", toDocument file.superClass),
    ("interfaces", toDocument file.interfaces),
    ("fields", toDocument file.fields),
    ("methods", toDocument file.methods),
    ("attributes", toDocument file.attributes)]

end ClassLowering
