import ClassLowering.ClassFile.Dump
import ClassLowering.Target.Module

/-! # Modules as documents -/

namespace ClassLowering.Target

open Bytecode (Arithmetic Bitwise)

instance : ToDocument TypeId := ⟨fun id => toDocument id.index⟩

instance : ToDocument Origin where
  toDocument
    | .library => .text "Shim"
    | .module id => .variant "Defined" (toDocument id)

instance : ToDocument TypeRef where
  toDocument type := .record [
    ("name", toDocument type.name),
    ("origin", toDocument type.origin)]

/-- A type is its name, or the case of its structure. -/
def TypeSig.document : TypeSig → Document
  | void => .text "Void"
  | bool => .text "Bool"
  | char => .text "Char"
  | i8 => .text "I8"
  | i16 => .text "I16"
  | i32 => .text "I32"
  | i64 => .text "I64"
  | f32 => .text "F32"
  | f64 => .text "F64"
  | nativeString => .text "NativeString"
  | object type => .variant "Class" (toDocument type)
  | array element => .variant "Array" element.document

instance : ToDocument TypeSig := ⟨TypeSig.document⟩

instance : ToDocument MethodSig where
  toDocument sig := .record [
    ("has_this", toDocument sig.hasThis),
    ("params", toDocument sig.params),
    ("ret", toDocument sig.ret)]

instance : ToDocument MethodRef where
  toDocument method := .record [
    ("owner", toDocument method.owner),
    ("name", toDocument method.name),
    ("sig", toDocument method.sig)]

instance : ToDocument FieldRef where
  toDocument field := .record [
    ("owner", toDocument field.owner),
    ("name", toDocument field.name),
    ("sig", toDocument field.sig),
    ("is_static", toDocument field.isStatic)]

/-- The word for a bitwise operation of the target. -/
def bitwiseName : Bitwise → String
  | .ushr => "ShrUn"
  | op => op.name

instance : ToDocument NumberType where
  toDocument
    | .i1 => .text "I1"
    | .u2 => .text "U2"
    | .i2 => .text "I2"
    | .i4 => .text "I4"
    | .i8 => .text "I8"
    | .r4 => .text "R4"
    | .r8 => .text "R8"

instance : ToDocument ElementType where
  toDocument
    | .number type => toDocument type
    | .ref => .text "Ref"

instance : ToDocument RuntimeHelper where
  toDocument
    | .typeFromHandle => .text "TypeFromHandle"
    | .uninitializedObject => .text "UninitializedObject"

instance : ToDocument Instruction where
  toDocument
    | .nop => .text "Nop"
    | .ldnull => .text "Ldnull"
    | .ldcI4 value => .variant "LdcI4" (toDocument value)
    | .ldcI8 value => .variant "LdcI8" (toDocument value)
    | .ldcR4 bits => .variant "LdcR4" (.single bits)
    | .ldcR8 bits => .variant "LdcR8" (.double bits)
    | .ldstr text => .variant "Ldstr" (.text text)
    | .ldarg index => .variant "Ldarg" (toDocument index)
    | .starg index => .variant "Starg" (toDocument index)
    | .ldloc index => .variant "Ldloc" (toDocument index)
    | .stloc index => .variant "Stloc" (toDocument index)
    | .arith op => .variant "Arith" (.text op.name)
    | .neg => .text "Neg"
    | .bit op => .variant "Bit" (.text (bitwiseName op))
    | .conv type => .variant "Conv" (toDocument type)
    | .dup => .text "Dup"
    | .pop => .text "Pop"
    | .ret => .text "Ret"
    | .throw => .text "Throw"
    | .ldtoken type => .variant "Ldtoken" (toDocument type)
    | .callRuntime helper => .variant "CallRuntime" (toDocument helper)
    | .call method => .variant "Call" (toDocument method)
    | .callvirt method => .variant "Callvirt" (toDocument method)
    | .ldfld field => .variant "Ldfld" (toDocument field)
    | .ldsfld field => .variant "Ldsfld" (toDocument field)
    | .stfld field => .variant "Stfld" (toDocument field)
    | .stsfld field => .variant "Stsfld" (toDocument field)
    | .ldelem type => .variant "Ldelem" (toDocument type)
    | .stelem type => .variant "Stelem" (toDocument type)
    | .newarr element => .variant "Newarr" (toDocument element)
    | .ldlen => .text "Ldlen"
    | .castclass type => .variant "Castclass" (toDocument type)

instance : ToDocument Local where
  toDocument entry := .record [
    ("slot", toDocument entry.slot),
    ("name", toDocument entry.name),
    ("sig", toDocument entry.sig)]

instance : ToDocument Deferred where
  toDocument
    | .branch offset operation target => .variant "Branch" (.record [
        ("offset", toDocument offset),
        ("operation", toDocument operation),
        ("target", toDocument target)])
    | .unmapped offset operation => .variant "Unmapped" (.record [
        ("offset", toDocument offset),
        ("operation", toDocument operation)])

instance : ToDocument Region where
  toDocument region := .record [
    ("start", toDocument region.start),
    ("end", toDocument region.stop),
    ("handler", toDocument region.handler),
    ("catch_class", toDocument region.catchClass)]

instance : ToDocument Body where
  toDocument body := .record [
    ("max_stack", toDocument body.maxStack),
    ("locals", toDocument body.locals),
    ("instructions", .list (body.instructions.map fun (offset, instruction) =>
      .list [toDocument offset, toDocument instruction])),
    ("deferred", toDocument body.deferred),
    ("regions", toDocument body.regions)]

instance : ToDocument TypeFlags where
  toDocument flags := .record [
    ("is_public", toDocument flags.isPublic),
    ("is_nested_private", toDocument flags.isNestedPrivate),
    ("is_abstract", toDocument flags.isAbstract),
    ("is_sealed", toDocument flags.isSealed),
    ("is_interface", toDocument flags.isInterface)]

instance : ToDocument MethodFlags where
  toDocument flags := .record [
    ("is_public", toDocument flags.isPublic),
    ("is_private", toDocument flags.isPrivate),
    ("is_final", toDocument flags.isFinal),
    ("is_static", toDocument flags.isStatic),
    ("is_abstract", toDocument flags.isAbstract),
    ("is_virtual", toDocument flags.isVirtual),
    ("is_external", toDocument flags.isExternal),
    ("is_special_name", toDocument flags.isSpecialName)]

instance : ToDocument FieldFlags where
  toDocument flags := .record [
    ("is_public", toDocument flags.isPublic),
    ("is_private", toDocument flags.isPrivate),
    ("is_static", toDocument flags.isStatic),
    ("is_init_only", toDocument flags.isInitOnly)]

instance : ToDocument Literal where
  toDocument
    | .int value => .variant "Int" (toDocument value)
    | .long value => .variant "Long" (toDocument value)
    | .float bits => .variant "Float" (.single bits)
    | .double bits => .variant "Double" (.double bits)
    | .string text => .variant "String" (.text text)

instance : ToDocument FieldDef where
  toDocument field := .record [
    ("name", toDocument field.name),
    ("descriptor", toDocument field.descriptor),
    ("flags", toDocument field.flags),
    ("sig", toDocument field.sig),
    ("constant", toDocument field.constant)]

instance : ToDocument MethodDef where
  toDocument method := .record [
    ("name", toDocument method.name),
    ("source_name", toDocument method.sourceName),
    ("descriptor", toDocument method.descriptor),
    ("flags", toDocument method.flags),
    ("sig", toDocument method.sig),
    ("body", toDocument method.body)]

instance : ToDocument TypeDef where
  toDocument type := .record [
    ("source", toDocument type.source),
    ("namespace", toDocument type.space),
    ("name", toDocument type.name),
    ("flags", toDocument type.flags),
    ("super_name", toDocument type.superName),
    ("base", toDocument type.base),
    ("interfaces", toDocument type.interfaces),
    ("enclosing", toDocument type.enclosing),
    ("nested", toDocument type.nested),
    ("fields", toDocument type.fields),
    ("methods", toDocument type.methods)]

instance : ToDocument Module where
  toDocument module := .record [
    ("name", toDocument module.name),
    ("types", toDocument module.types),
    ("top_level", toDocument module.topLevel)]

end ClassLowering.Target
