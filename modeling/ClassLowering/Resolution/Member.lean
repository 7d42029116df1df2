import ClassLowering.ConstantPool.Basic
import ClassLowering.Resolution.Search

/-! # References to members

A reference names a class, a member and a descriptor. It is resolved to the one member that the
search from that class finds with the same name and the same readable type. -/

namespace ClassLowering

open Target (FieldRef MethodRef)

namespace Scope

variable (scope : Scope)

/-- The methods of a surface with a target name and a readable type. -/
def methodCandidates (name description : String) (surface : Surface) : List MemberKey :=
  surface.methods.filter fun key =>
    key.name = name && (MethodType.ofDescriptor? key.descriptor).any (·.description = description)

/-- The fields of a surface with a name and a readable type. -/
def fieldCandidates (name description : String) (surface : Surface) : List MemberKey :=
  surface.fields.filter fun key =>
    key.name = name && (FieldType.ofDescriptor? key.descriptor).any (·.description = description)

/-- The method that a reference stands for. -/
def method (reference : MemberReference) : Logged Error MethodRef := do
  discard (scope.resolve reference.owner)
  let name := Naming.member reference.name
  let type ← MethodType.ofDescriptor reference.descriptor
  match ← scope.search (methodCandidates name type.description) reference.owner with
  | .one owner key =>
    Logged.record .trace
      s!"resolved {reference.owner}.{reference.name}{reference.descriptor} on {owner.name}"
    let sig ← scope.methodSig type !key.isStatic
    return ⟨owner, name, sig⟩
  | .missing =>
    throw (.resolution (.unknownMethod reference.owner reference.name reference.descriptor))
  | .many count =>
    throw (.resolution
      (.ambiguousMethod reference.owner reference.name reference.descriptor count))

/-- The field that a reference stands for. -/
def field (reference : MemberReference) : Logged Error FieldRef := do
  discard (scope.resolve reference.owner)
  let type ← FieldType.ofDescriptor reference.descriptor
  match ← scope.search (fieldCandidates reference.name type.description) reference.owner with
  | .one owner key =>
    let sig ← scope.fieldSig type
    return ⟨owner, reference.name, sig, key.isStatic⟩
  | .missing =>
    throw (.resolution (.unknownField reference.owner reference.name reference.descriptor))
  | .many count =>
    throw (.resolution
      (.ambiguousField reference.owner reference.name reference.descriptor count))

end Scope

end ClassLowering
