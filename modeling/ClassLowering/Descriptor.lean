import ClassLowering.Bytecode.Operation

/-! # Type descriptors

A descriptor spells a type as text: one letter for a primitive type, `L` and `;` around a class
name, `[` in front of an element type; a method descriptor lists its parameters in parentheses and
its result behind them, `V` for none.

* `FieldType.ofDescriptor?` and `MethodType.ofDescriptor?` read descriptors;
* `FieldType.description` and `MethodType.description` are the readable forms that members are
  matched by. -/

namespace ClassLowering

open Bytecode (ValueKind)

/-- The type of a field, a parameter or a result. -/
inductive FieldType where
  | byte
  | char
  | double
  | float
  | int
  | long
  | short
  | boolean
  | object (name : String)
  | array (element : FieldType)
  deriving DecidableEq, Repr

/-- The parameters and the result of a method. -/
structure MethodType where
  parameters : List FieldType
  /-- The result, or nothing. -/
  result : Option FieldType
  deriving DecidableEq, Repr

namespace FieldType

/-- The kind of value that a variable of the type holds. -/
def kind : FieldType → ValueKind
  | byte | char | int | short | boolean => .int
  | long => .long
  | float => .float
  | double => .double
  | object _ | array _ => .ref

/-- How many local slots a variable of the type takes. -/
def slots : FieldType → Nat
  | long | double => 2
  | _ => 1

/-- The readable form of the type. -/
def description : FieldType → String
  | byte => "int8"
  | char => "char"
  | double => "float64"
  | float => "float32"
  | int => "int32"
  | long => "int64"
  | short => "int16"
  | boolean => "bool"
  | object name => "class " ++ name
  | array element => element.description ++ "[]"

/-- Reads a class name up to its semicolon; the name is not empty. -/
def readName (text : List Char) : Option (FieldType × List Char) :=
  match text.takeWhile (· ≠ ';'), text.dropWhile (· ≠ ';') with
  | letter :: letters, _ :: rest => some (object (String.ofList (letter :: letters)), rest)
  | _, _ => none

/-- Reads the type at the start of a text. -/
def read : List Char → Option (FieldType × List Char)
  | 'B' :: rest => some (byte, rest)
  | 'C' :: rest => some (char, rest)
  | 'D' :: rest => some (double, rest)
  | 'F' :: rest => some (float, rest)
  | 'I' :: rest => some (int, rest)
  | 'J' :: rest => some (long, rest)
  | 'S' :: rest => some (short, rest)
  | 'Z' :: rest => some (boolean, rest)
  | 'L' :: rest => readName rest
  | '[' :: rest =>
    match read rest with
    | some (element, rest) => some (array element, rest)
    | none => none
  | _ => none

/-- What is left after a class name is shorter than the text. -/
theorem readName_length_lt {text rest : List Char} {type : FieldType}
    (found : readName text = some (type, rest)) : rest.length < text.length := by
  have whole := congrArg List.length (List.takeWhile_append_dropWhile (p := (· ≠ ';')) (l := text))
  unfold readName at found
  split at found
  · next taken dropped =>
    cases found
    rw [taken, dropped, List.length_append, List.length_cons, List.length_cons] at whole
    omega
  · cases found

/-- What is left after a type is shorter than the text. -/
theorem read_length_lt {text rest : List Char} {type : FieldType}
    (found : read text = some (type, rest)) : rest.length < text.length := by
  fun_induction read text generalizing type rest with
  | case9 tail =>
    have := readName_length_lt found
    simp only [List.length_cons]
    omega
  | case10 tail element next inner step =>
    cases found
    have := step inner
    simp only [List.length_cons]
    omega
  | case11 => cases found
  | case12 => cases found
  | _ => cases found; simp

/-- The type that a descriptor spells. -/
def ofDescriptor? (descriptor : String) : Option FieldType :=
  match read descriptor.toList with
  | some (type, []) => some type
  | _ => none

end FieldType

namespace MethodType

/-- Reads parameter types up to the closing parenthesis. -/
def readParameters (text : List Char) : Option (List FieldType × List Char) :=
  match text with
  | ')' :: rest => some ([], rest)
  | text =>
    match _step : FieldType.read text with
    | some (type, rest) =>
      match readParameters rest with
      | some (types, rest) => some (type :: types, rest)
      | none => none
    | none => none
termination_by text.length
decreasing_by exact FieldType.read_length_lt _step

/-- Reads a result type. -/
def readResult : List Char → Option (Option FieldType × List Char)
  | 'V' :: rest => some (none, rest)
  | text =>
    match FieldType.read text with
    | some (type, rest) => some (some type, rest)
    | none => none

/-- The method type that a descriptor spells. -/
def ofDescriptor? (descriptor : String) : Option MethodType :=
  match descriptor.toList with
  | '(' :: text =>
    match readParameters text with
    | some (parameters, text) =>
      match readResult text with
      | some (result, []) => some ⟨parameters, result⟩
      | _ => none
    | none => none
  | _ => none

/-- The readable form of a method type. -/
def description (type : MethodType) : String :=
  let result := match type.result with
    | some type => type.description
    | none => "void"
  result ++ "(" ++ ",".intercalate (type.parameters.map FieldType.description) ++ ")"

end MethodType

end ClassLowering
