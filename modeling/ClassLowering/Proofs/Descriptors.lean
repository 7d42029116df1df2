import Mathlib.Data.List.Basic
import ClassLowering.Descriptor

/-! # Descriptors and readable types

A descriptor spells its type in one way only (`FieldType.ofDescriptor?_inj`,
`MethodType.ofDescriptor?_inj`). The readable form of a type is not as faithful, since a class name
may hold any mark that the form is built from; it determines the type of descriptors whose class
names are free of those marks (`FieldType.description_inj`, `MethodType.description_inj`). -/

namespace ClassLowering

/-! ## Spelling -/

namespace FieldType

/-- The text that spells a type. -/
def spelling : FieldType → List Char
  | byte => ['B']
  | char => ['C']
  | double => ['D']
  | float => ['F']
  | int => ['I']
  | long => ['J']
  | short => ['S']
  | boolean => ['Z']
  | object name => 'L' :: (name.toList ++ [';'])
  | array element => '[' :: element.spelling

/-- A class name is read off the text in front of its semicolon. -/
theorem eq_of_readName {text rest : List Char} {type : FieldType}
    (found : readName text = some (type, rest)) : 'L' :: text = type.spelling ++ rest := by
  have whole := List.takeWhile_append_dropWhile (p := (· ≠ ';')) (l := text)
  have next := List.head?_dropWhile_not (· ≠ ';') text
  unfold readName at found
  split at found
  · next letter letters mark tail taken dropped =>
    cases found
    rw [dropped, List.head?_cons] at next
    have semicolon : mark = ';' := by simpa using next
    rw [taken, dropped, semicolon] at whole
    rw [← whole, spelling, String.toList_ofList]
    simp only [List.cons_append, List.append_assoc, List.nil_append]
  · cases found

/-- A type is read off the text that spells it. -/
theorem eq_of_read {text rest : List Char} {type : FieldType}
    (found : read text = some (type, rest)) : text = type.spelling ++ rest := by
  fun_induction read text generalizing type rest with
  | case9 tail => exact eq_of_readName found
  | case10 tail element next inner step =>
    cases found
    rw [spelling, List.cons_append, ← step inner]
  | case11 => cases found
  | case12 => cases found
  | _ => cases found; rfl

/-- The descriptor of a type is the text that spells it. -/
theorem toList_of_ofDescriptor? {descriptor : String} {type : FieldType}
    (found : ofDescriptor? descriptor = some type) : descriptor.toList = type.spelling := by
  unfold ofDescriptor? at found
  split at found
  · next parsed =>
    cases found
    rw [eq_of_read parsed, List.append_nil]
  · cases found

/-- A type has one descriptor. -/
theorem ofDescriptor?_inj {first second : String} {type : FieldType}
    (found : ofDescriptor? first = some type) (foundSecond : ofDescriptor? second = some type) :
    first = second := by
  rw [← String.toList_inj, toList_of_ofDescriptor? found, toList_of_ofDescriptor? foundSecond]

end FieldType

namespace MethodType

/-- The text that spells a result type. -/
def resultSpelling : Option FieldType → List Char
  | some type => type.spelling
  | none => ['V']

/-- The text that spells a method type. -/
def spelling (type : MethodType) : List Char :=
  '(' :: (type.parameters.flatMap FieldType.spelling ++ ')' :: resultSpelling type.result)

/-- Parameter types are read off the text that spells them. -/
theorem eq_of_readParameters {text rest : List Char} {types : List FieldType}
    (found : readParameters text = some (types, rest)) :
    text = types.flatMap FieldType.spelling ++ ')' :: rest := by
  fun_induction readParameters text generalizing types rest with
  | case1 => cases found; rfl
  | case2 text notClosed type tail parsed others last remaining step =>
    cases found
    rw [List.flatMap_cons, List.append_assoc, ← step remaining, ← FieldType.eq_of_read parsed]
  | case3 => cases found
  | case4 => cases found

/-- A result type is read off the text that spells it. -/
theorem eq_of_readResult {text rest : List Char} {result : Option FieldType}
    (found : readResult text = some (result, rest)) : text = resultSpelling result ++ rest := by
  unfold readResult at found
  split at found
  · cases found; rfl
  · split at found
    · next parsed =>
      cases found
      exact FieldType.eq_of_read parsed
    · cases found

/-- The descriptor of a method type is the text that spells it. -/
theorem toList_of_ofDescriptor? {descriptor : String} {type : MethodType}
    (found : ofDescriptor? descriptor = some type) : descriptor.toList = type.spelling := by
  unfold ofDescriptor? at found
  split at found
  · next text start =>
    split at found
    · next parsed =>
      split at found
      · next last =>
        cases found
        rw [start, eq_of_readParameters parsed, eq_of_readResult last, List.append_nil]
        rfl
      · cases found
    · cases found
  · cases found

/-- A method type has one descriptor. -/
theorem ofDescriptor?_inj {first second : String} {type : MethodType}
    (found : ofDescriptor? first = some type) (foundSecond : ofDescriptor? second = some type) :
    first = second := by
  rw [← String.toList_inj, toList_of_ofDescriptor? found, toList_of_ofDescriptor? foundSecond]

end MethodType

/-! ## Readable forms -/

namespace FieldType

/-- Readable forms take commas and parentheses from class names only. -/
theorem mem_spelling_of_mem_description {type : FieldType} {mark : Char}
    (special : mark = ',' ∨ mark = '(') (listed : mark ∈ type.description.toList) :
    mark ∈ type.spelling := by
  induction type with
  | object name =>
    rw [description, String.toList_append, List.mem_append] at listed
    rw [spelling, List.mem_cons, List.mem_append]
    obtain word | named := listed
    · obtain rfl | rfl := special <;> exact absurd word (by decide)
    · exact .inr (.inl named)
  | array element step =>
    rw [description, String.toList_append, List.mem_append] at listed
    obtain inner | brackets := listed
    · exact List.mem_cons_of_mem _ (step inner)
    · obtain rfl | rfl := special <;> exact absurd brackets (by decide)
  | _ => obtain rfl | rfl := special <;> exact absurd listed (by decide)

/-- A type has a readable form. -/
theorem description_ne_nil (type : FieldType) : type.description.toList ≠ [] := by
  cases type <;> simp [description]

/-- No type reads like the lack of one. -/
theorem description_ne_void (type : FieldType) : type.description ≠ "void" := by
  rw [Ne, ← String.toList_inj]
  cases type with
  | array element =>
    intro same
    have last := congrArg List.getLast? same
    simp [description] at last
  | _ => simp [description]

/-- The readable form of an array type ends in a bracket, and no other form does without a bracket
in a class name. -/
theorem getLast?_description_iff {type : FieldType} (plain : ']' ∉ type.spelling) :
    type.description.toList.getLast? = some ']' ↔ ∃ element, type = array element := by
  cases type with
  | array element => simp [description]
  | object name =>
    refine ⟨fun last => ?_, fun ⟨_, impossible⟩ => by cases impossible⟩
    have listed := List.mem_of_getLast? last
    rw [description, String.toList_append, List.mem_append] at listed
    obtain word | named := listed
    · exact absurd word (by decide)
    · exact absurd (List.mem_cons_of_mem _ (List.mem_append_left _ named)) plain
  | _ => simp [description]

/-- Types that are no array types have different readable forms. -/
theorem eq_of_simple_description {first second : FieldType}
    (simple : ∀ element, first ≠ array element) (simpleSecond : ∀ element, second ≠ array element)
    (same : first.description = second.description) : first = second := by
  rw [← String.toList_inj] at same
  cases first <;> cases second <;> simp_all [description, String.toList_inj]

/-- Types without brackets in class names have different readable forms. -/
theorem eq_of_description {first second : FieldType} (plain : ']' ∉ first.spelling)
    (plainSecond : ']' ∉ second.spelling) (same : first.description = second.description) :
    first = second := by
  have arrays : (∃ element, first = array element) ↔ ∃ element, second = array element := by
    rw [← getLast?_description_iff plain, same, getLast?_description_iff plainSecond]
  induction first generalizing second with
  | array element step =>
    obtain ⟨other, rfl⟩ := arrays.1 ⟨element, rfl⟩
    have plain := List.not_mem_of_not_mem_cons plain
    have plainSecond := List.not_mem_of_not_mem_cons plainSecond
    have same : element.description = other.description := by
      simpa [description, ← String.toList_inj] using same
    refine congrArg array (step plain plainSecond same ?_)
    rw [← getLast?_description_iff plain, same, getLast?_description_iff plainSecond]
  | _ =>
    refine eq_of_simple_description (by rintro _ ⟨⟩) (fun other array => ?_) same
    obtain ⟨element, impossible⟩ := arrays.2 ⟨other, array⟩
    cases impossible

/-- The mark that makes the readable form of a class name that of an array type. -/
def marks : List Char := [']']

/-- Types without marks in class names have different readable forms. -/
theorem description_inj {first second : FieldType}
    (plain : ∀ mark ∈ marks, mark ∉ first.spelling.tail)
    (plainSecond : ∀ mark ∈ marks, mark ∉ second.spelling.tail)
    (same : first.description = second.description) : first = second := by
  have whole {type : FieldType} (free : ']' ∉ type.spelling.tail) : ']' ∉ type.spelling := by
    cases type <;> simp_all [spelling]
  exact eq_of_description (whole (plain _ List.mem_cons_self))
    (whole (plainSecond _ List.mem_cons_self)) same

end FieldType

/-- Texts without a separator, none of them empty, are determined by the text that joins them. -/
theorem intercalate_inj {separator : Char} {first second : List (List Char)}
    (free : ∀ text ∈ first, separator ∉ text) (freeSecond : ∀ text ∈ second, separator ∉ text)
    (filled : [] ∉ first) (filledSecond : [] ∉ second)
    (same : [separator].intercalate first = [separator].intercalate second) : first = second := by
  cases first with
  | nil =>
    cases second with
    | nil => rfl
    | cons text rest =>
      have split := List.splitOn_intercalate separator freeSecond (List.cons_ne_nil _ _)
      rw [← same, List.intercalate_nil, List.splitOn_nil] at split
      exact absurd (split ▸ List.mem_singleton_self []) filledSecond
  | cons text rest =>
    have split := List.splitOn_intercalate separator free (List.cons_ne_nil _ _)
    cases second with
    | nil =>
      rw [same, List.intercalate_nil, List.splitOn_nil] at split
      exact absurd (split ▸ List.mem_singleton_self []) filled
    | cons other others =>
      rw [← split, same, List.splitOn_intercalate separator freeSecond (List.cons_ne_nil _ _)]

namespace MethodType

/-- The readable form of a result type. -/
def resultDescription : Option FieldType → String
  | some type => type.description
  | none => "void"

/-- The readable form of a method, character by character. -/
theorem toList_description (type : MethodType) :
    type.description.toList = (resultDescription type.result).toList ++
      '(' :: ([','].intercalate (type.parameters.map fun type => type.description.toList) ++
        [')']) := by
  cases result : type.result <;>
    simp [description, resultDescription, result, String.toList_intercalate, Function.comp_def]

/-- Result types without brackets in class names have different readable forms. -/
theorem resultDescription_inj {first second : Option FieldType}
    (plain : ']' ∉ resultSpelling first) (plainSecond : ']' ∉ resultSpelling second)
    (same : resultDescription first = resultDescription second) : first = second := by
  cases first with
  | none =>
    cases second with
    | none => rfl
    | some type => exact absurd same.symm type.description_ne_void
  | some type =>
    cases second with
    | none => exact absurd same type.description_ne_void
    | some other => exact congrArg some (FieldType.eq_of_description plain plainSecond same)

/-- Readable forms take parentheses in results from class names only. -/
theorem mem_resultSpelling_of_mem_resultDescription {result : Option FieldType}
    (listed : '(' ∈ (resultDescription result).toList) : '(' ∈ resultSpelling result := by
  cases result with
  | none => exact absurd listed (by decide)
  | some type => exact FieldType.mem_spelling_of_mem_description (.inr rfl) listed

/-- Parameter types without commas and brackets in class names have different readable forms. -/
theorem eq_of_map_description {first second : List FieldType}
    (plain : ∀ type ∈ first, ']' ∉ type.spelling)
    (plainSecond : ∀ type ∈ second, ']' ∉ type.spelling)
    (same : first.map (fun type => type.description.toList) =
      second.map fun type => type.description.toList) : first = second := by
  induction first generalizing second with
  | nil => exact (List.map_eq_nil_iff.1 same.symm).symm
  | cons type types step =>
    obtain ⟨other, others, rfl, one, rest⟩ := List.map_eq_cons_iff.1 same.symm
    obtain ⟨plainType, plain⟩ := List.forall_mem_cons.1 plain
    obtain ⟨plainOther, plainSecond⟩ := List.forall_mem_cons.1 plainSecond
    rw [FieldType.eq_of_description plainType plainOther (String.toList_inj.1 one.symm),
      step plain plainSecond rest.symm]

section

variable {type : MethodType} {mark : Char} (free : mark ∉ type.spelling.tail)

include free

/-- A mark that is not in a descriptor is in no parameter. -/
theorem notMem_parameter {parameter : FieldType} (listed : parameter ∈ type.parameters) :
    mark ∉ parameter.spelling := fun inside =>
  free (List.mem_append_left _ (List.mem_flatMap_of_mem listed inside))

/-- A mark that is not in a descriptor is not in its result. -/
theorem notMem_result : mark ∉ resultSpelling type.result := fun inside =>
  free (List.mem_append_right _ (List.mem_cons_of_mem _ inside))

end

/-- Commas between the readable forms of parameters are separators. -/
theorem comma_notMem_parameterDescriptions {type : MethodType} (free : ',' ∉ type.spelling.tail) :
    ∀ text ∈ type.parameters.map fun type => type.description.toList, ',' ∉ text := by
  intro text listed inside
  obtain ⟨parameter, member, rfl⟩ := List.mem_map.1 listed
  exact notMem_parameter free member
    (FieldType.mem_spelling_of_mem_description (.inl rfl) inside)

/-- No parameter has an empty readable form. -/
theorem nil_notMem_parameterDescriptions (types : List FieldType) :
    [] ∉ types.map fun type => type.description.toList := by
  intro listed
  obtain ⟨type, -, empty⟩ := List.mem_map.1 listed
  exact type.description_ne_nil empty

/-- The marks that readable forms of method types are built from. -/
def marks : List Char := [',', '(', ']']

/-- Method types without marks in class names have different readable forms. -/
theorem description_inj {first second : MethodType}
    (plain : ∀ mark ∈ marks, mark ∉ first.spelling.tail)
    (plainSecond : ∀ mark ∈ marks, mark ∉ second.spelling.tail)
    (same : first.description = second.description) : first = second := by
  simp only [marks, List.forall_mem_cons] at plain plainSecond
  obtain ⟨commas, parentheses, brackets, -⟩ := plain
  obtain ⟨commasSecond, parenthesesSecond, bracketsSecond, -⟩ := plainSecond
  rw [← String.toList_inj, toList_description, toList_description] at same
  -- the first parenthesis ends the result
  have results : resultDescription first.result = resultDescription second.result := by
    have before (type : MethodType) (free : '(' ∉ type.spelling.tail) (rest : List Char) :
        ((resultDescription type.result).toList ++ '(' :: rest).takeWhile (· ≠ '(') =
          (resultDescription type.result).toList := by
      rw [List.takeWhile_append_of_pos, List.takeWhile_cons_of_neg (by simp), List.append_nil]
      rintro mark listed
      refine decide_eq_true fun same => ?_
      exact notMem_result free (mem_resultSpelling_of_mem_resultDescription (same ▸ listed))
    have cut := congrArg (List.takeWhile (· ≠ '(')) same
    rw [before first parentheses, before second parenthesesSecond] at cut
    exact String.toList_inj.1 cut
  rw [results, List.append_cancel_left_eq, List.cons.injEq, List.append_cancel_right_eq] at same
  have parameters := intercalate_inj (comma_notMem_parameterDescriptions commas)
    (comma_notMem_parameterDescriptions commasSecond) (nil_notMem_parameterDescriptions _)
    (nil_notMem_parameterDescriptions _) same.2
  have sameParameters := eq_of_map_description (fun _ => notMem_parameter brackets)
    (fun _ => notMem_parameter bracketsSecond) parameters
  have sameResult := resultDescription_inj (notMem_result brackets) (notMem_result bracketsSecond)
    results
  cases first
  cases second
  rw [MethodType.mk.injEq]
  exact ⟨sameParameters, sameResult⟩

end MethodType

end ClassLowering
