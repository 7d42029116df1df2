import Mathlib.Data.List.TakeWhile
import ClassLowering.Proofs.Descriptors
import ClassLowering.Proofs.Outcomes
import ClassLowering.Proofs.TypeNames
import ClassLowering.Proofs.Utf8

/-! # The grammar of descriptors

Descriptors are read exactly: a text is read as a type if and only if it spells the type and the
class names in it are legal (`FieldType.ofDescriptor?_eq_some_iff`,
`MethodType.ofDescriptor?_eq_some_iff`). Reading does not depend on characters being whole: the
bytes of a text can be read one by one with the same outcome, and no position or part of them is
ever missing or ill-formed (`DescriptorBytes.field_encode`, `DescriptorBytes.method_encode`). -/

namespace ClassLowering

/-! ## Types that have a descriptor -/

/-- Class names in descriptors are not empty, and no semicolon stands in them. -/
def FieldType.IsLegal : FieldType → Prop
  | .object name => name ≠ "" ∧ ';' ∉ name.toList
  | .array element => element.IsLegal
  | _ => True

/-- The types of all parameters and of the result are legal. -/
def MethodType.IsLegal (type : MethodType) : Prop :=
  (∀ parameter ∈ type.parameters, parameter.IsLegal) ∧ ∀ result ∈ type.result, result.IsLegal

namespace FieldType

/-- What stands in front of the first semicolon is a class name, unless it is empty. -/
theorem readName_append {letters : List Char} (free : ';' ∉ letters) (rest : List Char) :
    readName (letters ++ ';' :: rest) =
      if letters = [] then none else some (object (String.ofList letters), rest) := by
  have inside := forall_decide_ne free
  rw [readName, List.takeWhile_append_of_pos inside, List.dropWhile_append_of_pos inside]
  cases letters with
  | nil => rfl
  | cons letter letters => simp

/-- Without a semicolon there is no class name. -/
theorem readName_eq_none {text : List Char} (free : ';' ∉ text) : readName text = none := by
  rw [readName, List.dropWhile_eq_nil_iff.2 (forall_decide_ne free)]
  split <;> simp_all

/-- A legal type is read off its spelling, whatever follows. -/
theorem read_spelling {type : FieldType} (legal : type.IsLegal) (rest : List Char) :
    read (type.spelling ++ rest) = some (type, rest) := by
  induction type with
  | object name =>
    obtain ⟨named, free⟩ := legal
    have letters : name.toList ≠ [] := by simpa using named
    rw [spelling, List.cons_append, List.append_assoc, List.singleton_append, read,
      readName_append free, if_neg letters, String.ofList_toList]
  | array element step =>
    rw [spelling, List.cons_append, read, step legal]
  | _ => rfl

/-- What is read is legal. -/
theorem isLegal_of_read {text rest : List Char} {type : FieldType}
    (found : read text = some (type, rest)) : type.IsLegal := by
  fun_induction read text generalizing type rest with
  | case9 tail =>
    unfold readName at found
    split at found
    · next letter letters mark rest taken dropped =>
      cases found
      refine ⟨by simp, fun listed => ?_⟩
      rw [String.toList_ofList, ← taken] at listed
      simpa using List.mem_takeWhile_imp listed
    · cases found
  | case10 tail element next inner step =>
    cases found
    change element.IsLegal
    exact step inner
  | case11 => cases found
  | case12 => cases found
  | _ => cases found; trivial

/-- A descriptor is the spelling of a legal type. -/
theorem ofDescriptor?_eq_some_iff {descriptor : String} {type : FieldType} :
    ofDescriptor? descriptor = some type ↔ type.IsLegal ∧ descriptor.toList = type.spelling := by
  constructor
  · intro found
    refine ⟨?_, toList_of_ofDescriptor? found⟩
    unfold ofDescriptor? at found
    split at found
    · next parsed =>
      cases found
      exact isLegal_of_read parsed
    · cases found
  · rintro ⟨legal, spelled⟩
    have whole := read_spelling legal []
    rw [List.append_nil] at whole
    rw [ofDescriptor?, spelled, whole]

end FieldType

namespace MethodType

/-- A parameter is read in front of the others. -/
theorem readParameters_of_read {text rest : List Char} {type : FieldType}
    (found : FieldType.read text = some (type, rest)) :
    readParameters text = (readParameters rest).map fun found => (type :: found.1, found.2) := by
  have notClosed (tail : List Char) : text ≠ ')' :: tail := by
    rintro rfl
    cases found
  rw [readParameters]
  · split
    · next same =>
      rw [found] at same
      cases same
      cases readParameters rest <;> rfl
    · next none =>
      rw [found] at none
      cases none
  · exact notClosed

/-- Legal parameters are read off their spelling, up to the closing parenthesis. -/
theorem readParameters_spelling {types : List FieldType} (legal : ∀ type ∈ types, type.IsLegal)
    (rest : List Char) :
    readParameters (types.flatMap FieldType.spelling ++ ')' :: rest) = some (types, rest) := by
  induction types with
  | nil =>
    rw [List.flatMap_nil, List.nil_append, readParameters]
  | cons type types step =>
    rw [List.forall_mem_cons] at legal
    rw [List.flatMap_cons, List.append_assoc,
      readParameters_of_read (FieldType.read_spelling legal.1 _), step legal.2, Option.map_some]

/-- A result that is not void is read like a field type. -/
theorem readResult_of_read {text rest : List Char} {type : FieldType}
    (found : FieldType.read text = some (type, rest)) :
    readResult text = some (some type, rest) := by
  unfold readResult
  split
  · cases found
  · rw [found]

/-- Parameters that are read are legal. -/
theorem isLegal_of_readParameters {text rest : List Char} {types : List FieldType}
    (found : readParameters text = some (types, rest)) : ∀ type ∈ types, type.IsLegal := by
  fun_induction readParameters text generalizing types rest with
  | case1 => cases found; simp
  | case2 text notClosed type tail parsed others last remaining step =>
    cases found
    exact List.forall_mem_cons.2 ⟨FieldType.isLegal_of_read parsed, step remaining⟩
  | case3 => cases found
  | case4 => cases found

/-- A result that is read is legal. -/
theorem isLegal_of_readResult {text rest : List Char} {result : Option FieldType}
    (found : readResult text = some (result, rest)) : ∀ type ∈ result, type.IsLegal := by
  unfold readResult at found
  split at found
  · cases found; simp
  · split at found
    · next parsed =>
      cases found
      intro other same
      cases same
      exact FieldType.isLegal_of_read parsed
    · cases found

/-- A descriptor is the spelling of a legal method type. -/
theorem ofDescriptor?_eq_some_iff {descriptor : String} {type : MethodType} :
    ofDescriptor? descriptor = some type ↔ type.IsLegal ∧ descriptor.toList = type.spelling := by
  constructor
  · intro found
    refine ⟨?_, toList_of_ofDescriptor? found⟩
    unfold ofDescriptor? at found
    split at found
    · split at found
      · next parsed =>
        split at found
        · next last =>
          cases found
          exact ⟨isLegal_of_readParameters parsed, isLegal_of_readResult last⟩
        · cases found
      · cases found
    · cases found
  · rintro ⟨legal, spelled⟩
    obtain ⟨parameters, result⟩ := type
    -- behind the parameters the result takes all that is left
    have ends : readResult (resultSpelling result) = some (result, []) := by
      cases result with
      | none => rfl
      | some type =>
        have whole := FieldType.read_spelling (legal.2 type rfl) []
        rw [List.append_nil] at whole
        exact readResult_of_read whole
    rw [ofDescriptor?, spelled, spelling]
    simp only [readParameters_spelling legal.1, ends]

end MethodType

/-! ## Reading bytes

The bytes of a descriptor can be read one by one, with a position in them in place of the rest of
the text. This could fail in two ways that have nothing to do with the grammar: a position may be
past the end, and a part of the bytes may be no text. -/

/-- Why a type is not read off bytes. -/
inductive ByteFault where
  /-- The bytes spell no type. -/
  | refused
  /-- There is no such part of the bytes. -/
  | outOfRange
  /-- A part of the bytes is no text. -/
  | illFormed
  deriving DecidableEq, Repr

namespace DescriptorBytes

/-- The bytes from one position up to another. -/
def slice (bytes : List UInt8) (first last : Nat) : Except ByteFault (List UInt8) :=
  if first ≤ last ∧ last ≤ bytes.length then .ok ((bytes.drop first).take (last - first))
  else .error .outOfRange

/-- The text of a part of the bytes. -/
def text (bytes : List UInt8) : Except ByteFault String :=
  match Utf8.decode? bytes with
  | some text => .ok text
  | none => .error .illFormed

/-- The letters of the primitive types. -/
def primitives : List (Char × FieldType) :=
  [('B', .byte), ('C', .char), ('D', .double), ('F', .float), ('I', .int), ('J', .long),
   ('S', .short), ('Z', .boolean)]

/-- The primitive type that a byte stands for. -/
def primitive? (code : UInt8) : Option FieldType :=
  (primitives.find? fun entry => entry.1.toUInt8 = code).map Prod.snd

/-- Reads a class name that starts at a position, up to its semicolon. -/
def readName (bytes : List UInt8) (position : Nat) : Except ByteFault (Option FieldType × Nat) := do
  let rest ← slice bytes position bytes.length
  match rest.findIdx? (· = ';'.toUInt8) with
  | none => .error .refused
  | some size =>
    let name ← text (← slice bytes position (position + size))
    if name = "" then .error .refused else .ok (some (.object name), position + size + 1)

/-- Reads the type that starts at a position; a result may be void. -/
def read (bytes : List UInt8) (isResult : Bool) (position : Nat) :
    Except ByteFault (Option FieldType × Nat) :=
  match _present : bytes[position]? with
  | none => .error .refused
  | some code =>
    match primitive? code with
    | some type => .ok (some type, position + 1)
    | none =>
      if code = 'V'.toUInt8 ∧ isResult then
        .ok (none, position + 1)
      else if code = 'L'.toUInt8 then
        readName bytes (position + 1)
      else if code = '['.toUInt8 then
        match read bytes false (position + 1) with
        | .ok (some element, next) => .ok (some (.array element), next)
        | .ok (none, _) => .error .refused
        | .error fault => .error fault
      else
        .error .refused
termination_by bytes.length - position
decreasing_by
  have := (List.getElem?_eq_some_iff.1 _present).1
  omega

/-- A class name takes at least one byte. -/
theorem lt_of_readName {bytes : List UInt8} {position next : Nat} {type : Option FieldType}
    (found : readName bytes position = .ok (type, next)) : position < next := by
  obtain ⟨rest, -, found⟩ := Except.bind_eq_ok.1 found
  split at found
  · cases found
  · obtain ⟨part, -, found⟩ := Except.bind_eq_ok.1 found
    obtain ⟨name, -, found⟩ := Except.bind_eq_ok.1 found
    split at found <;> cases found
    omega

/-- A type takes at least one byte. -/
theorem lt_of_read {bytes : List UInt8} {isResult : Bool} {position next : Nat}
    {type : Option FieldType}
    (found : read bytes isResult position = .ok (type, next)) : position < next := by
  fun_induction read bytes isResult position generalizing type next with
  | case1 => cases found
  | case2 => cases found; omega
  | case3 => cases found; omega
  | case4 =>
    have := lt_of_readName found
    omega
  | case5 isResult position element last inner present notPrimitive notVoid notName step =>
    cases found
    have := step inner
    omega
  | case6 => cases found
  | case7 => cases found
  | case8 => cases found

/-- Reads parameter types from a position up to the closing parenthesis. -/
def readParameters (bytes : List UInt8) (position : Nat) :
    Except ByteFault (List FieldType × Nat) :=
  match _present : bytes[position]? with
  | none => .error .refused
  | some code =>
    if code = ')'.toUInt8 then
      .ok ([], position + 1)
    else
      match _step : read bytes false position with
      | .ok (some type, next) =>
        match readParameters bytes next with
        | .ok (types, last) => .ok (type :: types, last)
        | .error fault => .error fault
      | .ok (none, _) => .error .refused
      | .error fault => .error fault
termination_by bytes.length - position
decreasing_by
  have := (List.getElem?_eq_some_iff.1 _present).1
  have := lt_of_read _step
  omega

/-- The field type that bytes spell. -/
def field (bytes : List UInt8) : Except ByteFault FieldType := do
  match ← read bytes false 0 with
  | (some type, last) => if last = bytes.length then .ok type else .error .refused
  | (none, _) => .error .refused

/-- The method type that bytes spell. -/
def method (bytes : List UInt8) : Except ByteFault MethodType := do
  if bytes.head? = some '('.toUInt8 then
    let (parameters, next) ← readParameters bytes 1
    let (result, last) ← read bytes true next
    if last = bytes.length then .ok ⟨parameters, result⟩ else .error .refused
  else
    .error .refused

/-! ## Positions and the text behind them -/

/-- The bytes from a position on are those of a text. -/
def StandsAt (bytes : List UInt8) (position : Nat) (text : List Char) : Prop :=
  ∃ before, bytes = before ++ Utf8.encodeChars text ∧ before.length = position

namespace StandsAt

variable {bytes : List UInt8} {position : Nat} {text part : List Char} {letter : Char}

/-- Behind the bytes of a part of the text stand the bytes of the rest. -/
theorem append (standing : StandsAt bytes position (part ++ text)) :
    StandsAt bytes (position + (Utf8.encodeChars part).length) text := by
  obtain ⟨before, rfl, rfl⟩ := standing
  refine ⟨before ++ Utf8.encodeChars part, ?_, List.length_append⟩
  rw [Utf8.encodeChars_append, List.append_assoc]

/-- The text stands up to the end of the bytes. -/
theorem length_eq (standing : StandsAt bytes position text) :
    bytes.length = position + (Utf8.encodeChars text).length := by
  obtain ⟨before, rfl, rfl⟩ := standing
  exact List.length_append

/-- There are no more bytes exactly if there is no more text. -/
theorem eq_length_iff (standing : StandsAt bytes position text) :
    position = bytes.length ↔ text = [] := by
  rw [standing.length_eq]
  cases text with
  | nil => simp
  | cons letter text =>
    have := List.length_pos_iff.2 (String.utf8EncodeChar_ne_nil (c := letter))
    rw [Utf8.encodeChars_cons, List.length_append]
    simp only [List.cons_ne_nil, iff_false]
    omega

/-- The byte at the position is the first one of the text. -/
theorem getElem?_eq (standing : StandsAt bytes position text) :
    bytes[position]? = (Utf8.encodeChars text).head? := by
  obtain ⟨before, rfl, rfl⟩ := standing
  rw [List.getElem?_append_right (Nat.le_refl _), Nat.sub_self, List.head?_eq_getElem?]

/-- A small character is one byte. -/
theorem step (standing : StandsAt bytes position (letter :: text)) (small : letter.toNat < 128) :
    bytes[position]? = some letter.toUInt8 ∧ StandsAt bytes (position + 1) text := by
  have single := Utf8.encodeChar_of_lt small
  constructor
  · rw [standing.getElem?_eq, Utf8.encodeChars_cons, single, List.singleton_append, List.head?_cons]
  · have one : (Utf8.encodeChars [letter]).length = 1 := by
      rw [Utf8.encodeChars_cons, single]
      rfl
    have behind : StandsAt bytes (position + (Utf8.encodeChars [letter]).length) text :=
      append standing
    rwa [one] at behind

/-- A small byte is a character. -/
theorem head?_eq (standing : StandsAt bytes position text) (small : letter.toNat < 128)
    (present : bytes[position]? = some letter.toUInt8) : text.head? = some letter := by
  rw [standing.getElem?_eq] at present
  cases text with
  | nil => cases present
  | cons other text =>
    rw [Utf8.encodeChars_cons,
      List.head?_append_of_ne_nil _ String.utf8EncodeChar_ne_nil] at present
    rw [Utf8.eq_of_mem_encodeChar small (List.mem_of_head? present), List.head?_cons]

/-- A part of the bytes that is asked for exists. -/
theorem slice_eq (standing : StandsAt bytes position (part ++ text)) :
    slice bytes position (position + (Utf8.encodeChars part).length) =
      .ok (Utf8.encodeChars part) := by
  obtain ⟨before, rfl, rfl⟩ := standing
  have inside : before.length + (Utf8.encodeChars part).length ≤
      (before ++ Utf8.encodeChars (part ++ text)).length := by
    rw [Utf8.encodeChars_append, List.length_append, List.length_append]
    omega
  rw [slice, if_pos ⟨Nat.le_add_right _ _, inside⟩, List.drop_left, Nat.add_sub_cancel_left,
    Utf8.encodeChars_append, List.take_left]

end StandsAt

/-- Without a semicolon in the text there is none in its bytes. -/
theorem findIdx?_eq_none {text : List Char} (free : ';' ∉ text) :
    (Utf8.encodeChars text).findIdx? (· = ';'.toUInt8) = none := by
  rw [List.findIdx?_eq_none_iff]
  intro byte listed
  obtain ⟨letter, member, inside⟩ := List.mem_flatMap.1 listed
  by_contra same
  simp only [decide_eq_false_iff_not, not_not] at same
  rw [same] at inside
  rw [Utf8.eq_of_mem_encodeChar (by decide) inside] at member
  exact free member

/-- The first semicolon of a text is the first one in its bytes. -/
theorem findIdx?_eq_some {letters : List Char} (free : ';' ∉ letters) (rest : List Char) :
    (Utf8.encodeChars (letters ++ ';' :: rest)).findIdx? (· = ';'.toUInt8) =
      some (Utf8.encodeChars letters).length := by
  have here : (Utf8.encodeChars (';' :: rest)).findIdx? (· = ';'.toUInt8) = some 0 := by
    rw [Utf8.encodeChars_cons, Utf8.encodeChar_of_lt (by decide), List.singleton_append,
      List.findIdx?_cons, if_pos (by simp)]
  rw [Utf8.encodeChars_append, List.findIdx?_append, findIdx?_eq_none free, here, Option.none_or,
    Option.map_some, Nat.zero_add]

/-! ## Bytes are read like the text -/

/-- Reading bytes ends as reading the text does; only the grammar refuses them. -/
def Agrees {α : Type} (bytes : List UInt8) (outcome : Except ByteFault (α × Nat)) :
    Option (α × List Char) → Prop
  | some (value, rest) => ∃ next, outcome = .ok (value, next) ∧ StandsAt bytes next rest
  | none => outcome = .error .refused

section

variable {bytes : List UInt8} {position : Nat} {text : List Char}

/-- A class name is read from the bytes as it is from the characters. -/
theorem agrees_readName (standing : StandsAt bytes position text) :
    Agrees bytes (readName bytes position) ((FieldType.readName text).map (Prod.map some id)) := by
  have rest : slice bytes position bytes.length = .ok (Utf8.encodeChars text) := by
    have whole : StandsAt bytes position (text ++ []) := by rwa [List.append_nil]
    rw [standing.length_eq, whole.slice_eq]
  by_cases semicolon : ';' ∈ text
  · obtain ⟨letters, behind, rfl, free⟩ := List.eq_append_cons_of_mem semicolon
    have next : StandsAt bytes (position + (Utf8.encodeChars letters).length + 1) behind :=
      (standing.append.step (by decide)).2
    have name : DescriptorBytes.text (Utf8.encodeChars letters) = .ok (String.ofList letters) := by
      rw [DescriptorBytes.text, Utf8.decode?_encodeChars]
    rw [FieldType.readName_append free, readName, rest]
    simp only [bind, Except.bind, findIdx?_eq_some free, standing.slice_eq, name]
    by_cases empty : letters = []
    · simp [empty, Agrees]
    · have named : String.ofList letters ≠ "" := by simpa using empty
      rw [if_neg empty, if_neg named]
      exact ⟨_, rfl, next⟩
  · rw [FieldType.readName_eq_none semicolon, readName, rest]
    simp only [bind, Except.bind, findIdx?_eq_none semicolon]
    rfl

/-- A byte that is no letter of a primitive type stands for none. -/
theorem primitive?_eq_none {code : UInt8} (other : ∀ entry ∈ primitives, code ≠ entry.1.toUInt8) :
    primitive? code = none := by
  rw [primitive?, Option.map_eq_none_iff, List.find?_eq_none]
  intro entry listed
  simpa using (other entry listed).symm

variable {isResult : Bool}

/-- Behind the last byte there is no type. -/
theorem read_of_absent (absent : bytes[position]? = none) :
    read bytes isResult position = .error .refused := by
  rw [read]
  split
  · rfl
  · next present => simp [absent] at present

/-- What a byte leads to. -/
theorem read_of_present {code : UInt8} (present : bytes[position]? = some code) :
    read bytes isResult position =
      match primitive? code with
      | some type => .ok (some type, position + 1)
      | none =>
        if code = 'V'.toUInt8 ∧ isResult then
          .ok (none, position + 1)
        else if code = 'L'.toUInt8 then
          readName bytes (position + 1)
        else if code = '['.toUInt8 then
          match read bytes false (position + 1) with
          | .ok (some element, next) => .ok (some (.array element), next)
          | .ok (none, _) => .error .refused
          | .error fault => .error fault
        else
          .error .refused := by
  rw [read]
  split
  · next absent => simp [present] at absent
  · next other found =>
    rw [present] at found
    cases found
    rfl

/-- A letter of a primitive type is read as the type. -/
theorem agrees_primitive {letter : Char} {type : FieldType}
    (standing : StandsAt bytes position (letter :: text)) (small : letter.toNat < 128)
    (primitive : primitive? letter.toUInt8 = some type) :
    Agrees bytes (read bytes isResult position) (some (some type, text)) := by
  obtain ⟨present, next⟩ := standing.step small
  refine ⟨position + 1, ?_, next⟩
  rw [read_of_present present, primitive]

/-- A byte is not that of a letter that the text does not start with. -/
theorem ne_toUInt8 {code : UInt8} {letter : Char} (standing : StandsAt bytes position text)
    (present : bytes[position]? = some code) (small : letter.toNat < 128)
    (never : ∀ tail, text = letter :: tail → False) : code ≠ letter.toUInt8 := by
  rintro rfl
  obtain ⟨tail, same⟩ := List.head?_eq_some_iff.1 (standing.head?_eq small present)
  exact never tail same

/-- A type is read off bytes like off the text, unless it is void. -/
theorem agrees_read (standing : StandsAt bytes position text)
    (plain : isResult = true → text.head? ≠ some 'V') :
    Agrees bytes (read bytes isResult position) ((FieldType.read text).map (Prod.map some id)) := by
  -- the cases of the primitive types are all alike and come last
  fun_induction FieldType.read text generalizing position isResult with
  | case9 tail =>
    obtain ⟨present, next⟩ := standing.step (by decide)
    have notPrimitive : primitive? 'L'.toUInt8 = none := by decide
    rw [read_of_present present, notPrimitive]
    exact agrees_readName next
  | case10 tail element rest inner step =>
    obtain ⟨present, next⟩ := standing.step (by decide)
    have notPrimitive : primitive? '['.toUInt8 = none := by decide
    have elementRead : Agrees bytes (read bytes false (position + 1)) _ :=
      step next fun result => absurd result Bool.false_ne_true
    rw [inner] at elementRead
    obtain ⟨last, same, behind⟩ := elementRead
    rw [read_of_present present, notPrimitive, same]
    exact ⟨last, rfl, behind⟩
  | case11 tail inner step =>
    obtain ⟨present, next⟩ := standing.step (by decide)
    have notPrimitive : primitive? '['.toUInt8 = none := by decide
    have elementRead : Agrees bytes (read bytes false (position + 1)) _ :=
      step next fun result => absurd result Bool.false_ne_true
    rw [inner] at elementRead
    rw [read_of_present present, notPrimitive, elementRead]
    rfl
  | case12 text notB notC notD notF notI notJ notS notZ notL notArray =>
    cases present : bytes[position]? with
    | none => exact read_of_absent present
    | some code =>
      have notPrimitive : primitive? code = none := by
        apply primitive?_eq_none
        simp only [primitives, List.forall_mem_cons, List.not_mem_nil, false_implies, implies_true,
          and_true]
        exact ⟨ne_toUInt8 standing present (by decide) notB,
          ne_toUInt8 standing present (by decide) notC,
          ne_toUInt8 standing present (by decide) notD,
          ne_toUInt8 standing present (by decide) notF,
          ne_toUInt8 standing present (by decide) notI,
          ne_toUInt8 standing present (by decide) notJ,
          ne_toUInt8 standing present (by decide) notS,
          ne_toUInt8 standing present (by decide) notZ⟩
      have notVoid : ¬(code = 'V'.toUInt8 ∧ isResult) := by
        rintro ⟨rfl, result⟩
        exact plain result (standing.head?_eq (by decide) present)
      rw [read_of_present present, notPrimitive]
      change (if _ then _ else _) = _
      rw [if_neg notVoid, if_neg (ne_toUInt8 standing present (by decide) notL),
        if_neg (ne_toUInt8 standing present (by decide) notArray)]
  | _ => exact agrees_primitive standing (by decide) (by decide)

/-- A type that is not a result is read off bytes like off the text. -/
theorem agrees_readType (standing : StandsAt bytes position text) :
    Agrees bytes (read bytes false position) ((FieldType.read text).map (Prod.map some id)) :=
  agrees_read standing fun result => absurd result Bool.false_ne_true

/-- A result is read off bytes like off the text. -/
theorem agrees_readResult (standing : StandsAt bytes position text) :
    Agrees bytes (read bytes true position) (MethodType.readResult text) := by
  by_cases void : text.head? = some 'V'
  · obtain ⟨tail, rfl⟩ := List.head?_eq_some_iff.1 void
    obtain ⟨present, next⟩ := standing.step (by decide)
    have notPrimitive : primitive? 'V'.toUInt8 = none := by decide
    refine ⟨position + 1, ?_, next⟩
    rw [read_of_present present, notPrimitive]
    rfl
  · have same : MethodType.readResult text = (FieldType.read text).map (Prod.map some id) := by
      unfold MethodType.readResult
      split
      · simp at void
      · cases FieldType.read _ <;> rfl
    rw [same]
    exact agrees_read standing fun _ => void

/-- What is read in front of the closing parenthesis is a parameter. -/
theorem readParameters_of_ne (notClosed : bytes[position]? ≠ some ')'.toUInt8) :
    readParameters bytes position =
      match read bytes false position with
      | .ok (some type, next) =>
        match readParameters bytes next with
        | .ok (types, last) => .ok (type :: types, last)
        | .error fault => .error fault
      | .ok (none, _) => .error .refused
      | .error fault => .error fault := by
  rw [readParameters]
  split
  · next absent => rw [read_of_absent absent]
  · next code present =>
    have other : code ≠ ')'.toUInt8 := by
      rintro rfl
      exact notClosed present
    rw [if_neg other]
    split <;> simp_all

/-- Parameters are read off bytes like off the text. -/
theorem agrees_readParameters (standing : StandsAt bytes position text) :
    Agrees bytes (readParameters bytes position) (MethodType.readParameters text) := by
  -- the closing parenthesis is a byte of its own
  have open_of {text : List Char} {position : Nat} (standing : StandsAt bytes position text)
      (notClosed : ∀ rest, text = ')' :: rest → False) : bytes[position]? ≠ some ')'.toUInt8 :=
    fun present => ne_toUInt8 standing present (by decide) notClosed rfl
  fun_induction MethodType.readParameters text generalizing position with
  | case1 rest =>
    obtain ⟨present, next⟩ := standing.step (by decide)
    refine ⟨position + 1, ?_, next⟩
    rw [readParameters]
    split
    · next absent => simp [present] at absent
    · next code found =>
      rw [present] at found
      cases found
      rw [if_pos rfl]
  | case2 text notClosed type tail parsed others last remaining step =>
    have typeRead := agrees_readType standing
    rw [parsed] at typeRead
    obtain ⟨next, same, behind⟩ := typeRead
    have othersRead := step behind
    rw [remaining] at othersRead
    obtain ⟨stop, sameOthers, rest⟩ := othersRead
    refine ⟨stop, ?_, rest⟩
    rw [readParameters_of_ne (open_of standing notClosed), same]
    simp only [sameOthers]
  | case3 text notClosed type tail parsed remaining step =>
    have typeRead := agrees_readType standing
    rw [parsed] at typeRead
    obtain ⟨next, same, behind⟩ := typeRead
    have refused : readParameters bytes next = .error .refused := by
      have othersRead := step behind
      rwa [remaining] at othersRead
    change readParameters bytes position = _
    rw [readParameters_of_ne (open_of standing notClosed), same]
    simp only [refused]
  | case4 text notClosed parsed =>
    have typeRead := agrees_readType standing
    rw [parsed] at typeRead
    change readParameters bytes position = _
    rw [readParameters_of_ne (open_of standing notClosed), typeRead]

end

/-- A result, or the refusal of the grammar. -/
def accepted {α : Type} : Option α → Except ByteFault α
  | some value => .ok value
  | none => .error .refused

/-- The bytes of a text stand at their start. -/
theorem standsAt_encode (text : String) : StandsAt (Utf8.encode text) 0 text.toList :=
  ⟨[], by rw [Utf8.encode_eq, List.nil_append], rfl⟩

/-- Descriptors of fields are read from the bytes of a text as they are from the text. -/
theorem field_encode (text : String) :
    field (Utf8.encode text) = accepted (FieldType.ofDescriptor? text) := by
  have agrees := agrees_readType (standsAt_encode text)
  rw [FieldType.ofDescriptor?, field]
  cases found : FieldType.read text.toList with
  | none =>
    rw [found] at agrees
    rw [agrees]
    rfl
  | some pair =>
    obtain ⟨type, rest⟩ := pair
    rw [found] at agrees
    obtain ⟨next, same, behind⟩ := agrees
    rw [same]
    change (if next = (Utf8.encode text).length then _ else _) = _
    simp only [behind.eq_length_iff]
    cases rest <;> rfl

/-- Descriptors of methods are read from the bytes of a text as they are from the text. -/
theorem method_encode (text : String) :
    method (Utf8.encode text) = accepted (MethodType.ofDescriptor? text) := by
  have standing := standsAt_encode text
  rw [method, List.head?_eq_getElem?]
  -- both readers go on only behind an opening parenthesis
  by_cases parenthesis : text.toList.head? = some '('
  · obtain ⟨tail, split⟩ := List.head?_eq_some_iff.1 parenthesis
    rw [split] at standing
    obtain ⟨present, next⟩ := standing.step (by decide)
    have parametersRead := agrees_readParameters next
    rw [if_pos present, MethodType.ofDescriptor?, split]
    cases found : MethodType.readParameters tail with
    | none =>
      rw [found] at parametersRead
      rw [parametersRead]
      simp only [found]
      rfl
    | some pair =>
      obtain ⟨parameters, rest⟩ := pair
      rw [found] at parametersRead
      obtain ⟨middle, sameParameters, behind⟩ := parametersRead
      have resultRead := agrees_readResult behind
      rw [sameParameters]
      simp only [found]
      change (read (Utf8.encode text) true middle >>= _) = _
      cases foundResult : MethodType.readResult rest with
      | none =>
        rw [foundResult] at resultRead
        rw [resultRead]
        rfl
      | some pair =>
        obtain ⟨result, last⟩ := pair
        rw [foundResult] at resultRead
        obtain ⟨stop, sameResult, ends⟩ := resultRead
        rw [sameResult]
        change (if stop = (Utf8.encode text).length then _ else _) = _
        -- the bytes end where the text ends
        simp only [ends.eq_length_iff]
        cases last <;> rfl
  · have other : (Utf8.encode text)[0]? ≠ some '('.toUInt8 := by
      intro present
      exact parenthesis (standing.head?_eq (by decide) present)
    have none : MethodType.ofDescriptor? text = none := by
      unfold MethodType.ofDescriptor?
      split
      · next split => simp [split] at parenthesis
      · rfl
    rw [if_neg other, none]
    rfl

end DescriptorBytes

/-- **Descriptors are read exactly.** A text is read as a type if and only if it spells the type and
class names are legal, so a text spells one type at most. The bytes of a text are read like the
text, and nothing but the grammar refuses them. -/
theorem ofDescriptor?_exact (text : String) :
    (∀ type : FieldType, FieldType.ofDescriptor? text = some type ↔
      type.IsLegal ∧ text.toList = type.spelling) ∧
    (∀ type : MethodType, MethodType.ofDescriptor? text = some type ↔
      type.IsLegal ∧ text.toList = type.spelling) ∧
    (∀ type other : FieldType, type.IsLegal → other.IsLegal → text.toList = type.spelling →
      text.toList = other.spelling → type = other) ∧
    (∀ type other : MethodType, type.IsLegal → other.IsLegal → text.toList = type.spelling →
      text.toList = other.spelling → type = other) ∧
    DescriptorBytes.field (Utf8.encode text) =
      DescriptorBytes.accepted (FieldType.ofDescriptor? text) ∧
    DescriptorBytes.method (Utf8.encode text) =
      DescriptorBytes.accepted (MethodType.ofDescriptor? text) := by
  refine ⟨fun type => FieldType.ofDescriptor?_eq_some_iff,
    fun type => MethodType.ofDescriptor?_eq_some_iff,
    fun type other legal legalOther spelled spelledOther => ?_,
    fun type other legal legalOther spelled spelledOther => ?_,
    DescriptorBytes.field_encode text, DescriptorBytes.method_encode text⟩
  · have read := FieldType.ofDescriptor?_eq_some_iff.2 ⟨legal, spelled⟩
    have readOther := FieldType.ofDescriptor?_eq_some_iff.2 ⟨legalOther, spelledOther⟩
    exact Option.some.inj (read.symm.trans readOther)
  · have read := MethodType.ofDescriptor?_eq_some_iff.2 ⟨legal, spelled⟩
    have readOther := MethodType.ofDescriptor?_eq_some_iff.2 ⟨legalOther, spelledOther⟩
    exact Option.some.inj (read.symm.trans readOther)

/-- A class name with a character of two bytes and all marks of descriptors but the semicolon. -/
theorem ofDescriptor?_exact_marked :
    MethodType.ofDescriptor? "([Lï([);J)V" = some ⟨[.array (.object "ï([)"), .long], none⟩ ∧
    DescriptorBytes.method (Utf8.encode "([Lï([);J)V") =
      .ok ⟨[.array (.object "ï([)"), .long], none⟩ := by
  obtain ⟨-, spelled, -, -, -, bytes⟩ := ofDescriptor?_exact "([Lï([);J)V"
  have legal : MethodType.IsLegal ⟨[.array (.object "ï([)"), .long], none⟩ := by
    simp [MethodType.IsLegal, FieldType.IsLegal]
  have read := (spelled _).2 ⟨legal, by decide⟩
  rw [bytes, read]
  exact ⟨rfl, rfl⟩

end ClassLowering
