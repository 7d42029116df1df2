import ClassLowering.Naming
import ClassLowering.Target.Signature

/-! # The library of the target

A catalog lists the classes that the target provides, with the members that code may refer to.
`Catalog.standard` is the library that comes with the target. -/

namespace ClassLowering

open Target (MethodRef TypeRef)

/-- What a reference to a member is matched against. -/
structure MemberKey where
  /-- The target name. -/
  name : String
  descriptor : String
  isStatic : Bool
  deriving DecidableEq, Repr

/-- What a type offers to references: its place in the hierarchy and its members. -/
structure Surface where
  superName : Option String
  interfaces : List String
  methods : List MemberKey
  fields : List MemberKey
  deriving DecidableEq, Repr

/-- A class of the library. -/
structure LibraryType where
  name : String
  superName : Option String
  methods : List MemberKey := []
  fields : List MemberKey := []
  deriving DecidableEq, Repr

/-- What a library class offers; library classes have no interfaces. -/
def LibraryType.surface (type : LibraryType) : Surface :=
  ⟨type.superName, [], type.methods, type.fields⟩

/-- The classes of a library. -/
structure Catalog where
  types : List LibraryType
  deriving DecidableEq, Repr

namespace Catalog

/-- The class with a name. -/
def get? (catalog : Catalog) (name : String) : Option LibraryType :=
  catalog.types.find? fun type => type.name = name

/-- A class is found under its own name. -/
theorem name_of_get? {catalog : Catalog} {name : String} {type : LibraryType}
    (found : catalog.get? name = some type) : type.name = name := by
  rw [get?] at found
  have same := List.find?_some found
  exact of_decide_eq_true same

/-- The type for a class of the library. -/
def typeRef? (catalog : Catalog) (name : String) : Option TypeRef :=
  (catalog.get? name).map fun type => ⟨type.name, .library⟩

/-- The root of all classes. -/
def objectClass : String := "java/lang/Object"

/-- The class of texts. -/
def stringClass : String := "java/lang/String"

/-- The static method that wraps a native text into an object of the text class. -/
def stringFactory : MethodRef :=
  let owner : TypeRef := ⟨stringClass, .library⟩
  ⟨owner, "FromNetString", ⟨false, [.nativeString], .object owner⟩⟩

/-- A method that works on an object, by its name in class files. -/
def method (name descriptor : String) : MemberKey := ⟨Naming.member name, descriptor, false⟩

/-- A field of an object. -/
def field (name descriptor : String) : MemberKey := ⟨name, descriptor, false⟩

/-- A field of a class. -/
def staticField (name descriptor : String) : MemberKey := ⟨name, descriptor, true⟩

/-- The library that comes with the target. -/
def standard : Catalog where
  types := [
    { name := objectClass, superName := none
      methods := [
        method "<init>" "()V",
        method "clone" "()Ljava/lang/Object;",
        method "equals" "(Ljava/lang/Object;)Z",
        method "finalize" "()V"] },
    { name := stringClass, superName := objectClass
      methods := [
        method "toUpperCase" "()Ljava/lang/String;",
        method "toLowerCase" "()Ljava/lang/String;",
        method "toCharArray" "()[C",
        method "codePoints" "()Ljava/util/stream/IntStream;"] },
    { name := "java/lang/System", superName := objectClass
      fields := [
        staticField "out" "Ljava/io/PrintStream;",
        staticField "err" "Ljava/io/PrintStream;"] },
    { name := "java/util/stream/IntStream", superName := objectClass
      methods := [
        method "toArray" "()[I",
        method "count" "()J"] },
    { name := "java/io/OutputStream", superName := objectClass
      methods := [
        method "<init>" "()V",
        method "write" "(I)V",
        method "write" "([B)V",
        method "write" "([BII)V",
        method "flush" "()V",
        method "close" "()V"] },
    { name := "java/io/FilterOutputStream", superName := "java/io/OutputStream"
      methods := [
        method "<init>" "(Ljava/io/OutputStream;)V",
        method "write" "(I)V",
        method "flush" "()V",
        method "close" "()V"]
      fields := [
        field "out" "Ljava/io/OutputStream;"] },
    { name := "java/io/PrintStream", superName := "java/io/FilterOutputStream"
      methods := [
        method "<init>" "(Ljava/io/OutputStream;)V",
        method "print" "(Ljava/lang/String;)V",
        method "print" "(I)V",
        method "println" "(Ljava/lang/String;)V",
        method "println" "(I)V",
        method "println" "()V"] }]

end Catalog

end ClassLowering
