/-! # Names in the target

Class names are paths with `/`, nested classes are joined with `$`; in the target a type has a
dotted namespace and a dotted name. Constructors and class initialisers have fixed names of their
own. -/

namespace ClassLowering.Naming

/-- The target name of a member. -/
def member (name : String) : String :=
  match name with
  | "<init>" => ".ctor"
  | "<clinit>" => ".cctor"
  | name => name

/-- Replaces one character by a dot. -/
def dotted (separator : Char) (text : List Char) : List Char :=
  text.map fun c => if c = separator then '.' else c

/-- The namespace and the name of the type for a class: what stands before and after the last
slash. -/
def typeName (name : String) : String × String :=
  let reversed := name.toList.reverse
  let last := (reversed.takeWhile (· ≠ '/')).reverse
  let path := ((reversed.dropWhile (· ≠ '/')).drop 1).reverse
  (String.ofList (dotted '/' path), String.ofList (dotted '$' last))

end ClassLowering.Naming
