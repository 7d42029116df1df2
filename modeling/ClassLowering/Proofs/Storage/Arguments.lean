import Mathlib.Algebra.BigOperators.Group.List.Basic
import Mathlib.Logic.ExistsUnique
import ClassLowering.Proofs.ArgumentLayout
import ClassLowering.Proofs.ConstantPool.Texts
import ClassLowering.Proofs.Descriptors

/-! # Slots and numbers of arguments

Slots and parameters are counted at different speeds, since a long or double parameter takes two
slots and has one number. `LaidOut` says what stands in every slot. Whatever is laid out so names
each parameter in exactly one slot, in increasing order (`LaidOut.namesInOrder`).

Numbers of parameters have 16 bits. `Numbering` gives them one after the other with a counter of
that size and fails if the counter overflows. It runs through if there are at most 65535 arguments,
and then gives the argument slots (`Numbering.run?_eq`). The descriptor of a method with more
arguments would not fit into a text constant (`MethodType.length_parameters_le`). -/

namespace ClassLowering

namespace FieldType

/-- Only longs and doubles take two slots. -/
theorem slots_eq_two_iff (type : FieldType) : type.slots = 2 ↔ type = .long ∨ type = .double := by
  cases type <;> simp [slots]

/-- No type takes more than two slots. -/
theorem slots_le_two (type : FieldType) : type.slots ≤ 2 := by
  unfold slots
  split <;> omega

end FieldType

/-- Every slot of the parameters is the first one or the upper half of a parameter. -/
theorem exists_parameter_of_lt {parameters : List FieldType} {slot : Nat}
    (inside : slot < firstSlot parameters parameters.length) :
    ∃ index type, parameters[index]? = some type ∧
      (slot = firstSlot parameters index ∨
        type.slots = 2 ∧ slot = firstSlot parameters index + 1) := by
  induction parameters generalizing slot with
  | nil =>
    rw [List.length_nil, firstSlot_zero] at inside
    omega
  | cons type parameters induction =>
    rw [List.length_cons, firstSlot_cons] at inside
    -- the slots of the first parameter are its own, all others belong to the rest
    by_cases own : slot < type.slots
    · have narrow := type.slots_le_two
      refine ⟨0, type, rfl, ?_⟩
      rw [firstSlot_zero]
      omega
    · obtain ⟨index, found, listed, place⟩ :=
        induction (show slot - type.slots < firstSlot parameters parameters.length by omega)
      refine ⟨index + 1, found, listed, ?_⟩
      rw [firstSlot_cons]
      omega

/-! ## The types of all arguments -/

/-- The types of all arguments: the object that a method works on is a reference in front of the
parameters. -/
def argumentTypes (hasThis : Bool) (parameters : List FieldType) : List FieldType :=
  if hasThis then .object "java/lang/Object" :: parameters else parameters

section

variable (hasThis : Bool) (parameters : List FieldType)

/-- There is an argument for the receiver, if there is one, and for each parameter. -/
@[simp] theorem length_argumentTypes :
    (argumentTypes hasThis parameters).length = receiverWidth hasThis + parameters.length := by
  cases hasThis <;> simp [argumentTypes, receiverWidth, Nat.add_comm]

/-- The parameters stand behind the slot of the object. -/
theorem firstSlot_argumentTypes (index : Nat) :
    firstSlot (argumentTypes hasThis parameters) (receiverWidth hasThis + index) =
      receiverWidth hasThis + firstSlot parameters index := by
  cases hasThis with
  | false => simp [argumentTypes, receiverWidth]
  | true =>
    rw [receiverWidth, if_pos rfl, Nat.add_comm 1 index, argumentTypes, if_pos rfl, firstSlot_cons]
    rfl

end

namespace LocalStorage

variable {hasThis : Bool} {parameters : List FieldType} {slots : List (Option UInt16)}

/-! ## What stands in the slots -/

/-- The slots of a method hold its arguments in order, and nothing else. -/
structure LaidOut (hasThis : Bool) (parameters : List FieldType) (slots : List (Option UInt16)) :
    Prop where
  length : slots.length = receiverWidth hasThis + firstSlot parameters parameters.length
  /-- The object that the method works on has the first slot and number 0. -/
  receiver : hasThis = true → slots[0]? = some (some 0)
  /-- A parameter is named behind the slots of all parameters in front of it. -/
  first : ∀ index < parameters.length, ∃ number : UInt16,
    number.toNat = receiverWidth hasThis + index ∧
      slots[receiverWidth hasThis + firstSlot parameters index]? = some (some number)
  /-- The slot behind the first one of a long or double parameter names nothing. -/
  upper : ∀ index type, parameters[index]? = some type → type = .long ∨ type = .double →
    slots[receiverWidth hasThis + firstSlot parameters index + 1]? = some none
  /-- There are no other slots. -/
  only : ∀ slot < slots.length, hasThis = true ∧ slot = 0 ∨
    ∃ index type, parameters[index]? = some type ∧
      (slot = receiverWidth hasThis + firstSlot parameters index ∨
        (type = .long ∨ type = .double) ∧
          slot = receiverWidth hasThis + firstSlot parameters index + 1)

/-- The slot behind the first one of a two-slot parameter names nothing. -/
theorem getElem?_parameterSlots_upper (start : Nat) {index : Nat} {type : FieldType}
    (listed : parameters[index]? = some type) (wide : type.slots = 2) :
    (parameterSlots start parameters)[firstSlot parameters index + 1]? = some none := by
  induction parameters generalizing start index with
  | nil => cases listed
  | cons other parameters induction =>
    cases index with
    | zero =>
      cases listed
      rw [parameterSlots, if_pos wide]
      rfl
    | succ index =>
      rw [firstSlot_cons, Nat.add_assoc, getElem?_parameterSlots_cons]
      exact induction (start + 1) listed

/-- The argument slots of a method are laid out as long as their numbers have 16 bits. -/
theorem laidOut_argumentSlots (few : receiverWidth hasThis + parameters.length ≤ 65535) :
    LaidOut hasThis parameters (argumentSlots parameters hasThis) where
  length := argumentSlots_length parameters hasThis
  receiver has := by
    subst has
    rfl
  first index bound := by
    refine ⟨_, ?_, getElem?_argumentSlots hasThis bound⟩
    have small : receiverWidth hasThis + index < 65536 := by omega
    exact UInt16.toNat_ofNat_of_lt' small
  upper index type listed wide := by
    rw [Nat.add_assoc, getElem?_argumentSlots_add]
    exact getElem?_parameterSlots_upper _ listed (type.slots_eq_two_iff.2 wide)
  only slot inside := by
    rw [argumentSlots_length, argumentWidth] at inside
    -- a slot is that of the receiver, or the first or second one of a parameter
    by_cases own : slot < receiverWidth hasThis
    · left
      cases hasThis with
      | false => cases own
      | true => exact ⟨rfl, Nat.lt_one_iff.1 own⟩
    · right
      obtain ⟨index, type, listed, place⟩ := exists_parameter_of_lt
        (show slot - receiverWidth hasThis < firstSlot parameters parameters.length by omega)
      refine ⟨index, type, listed, ?_⟩
      rw [← type.slots_eq_two_iff]
      omega

/-! ## Which slots name parameters -/

/-- Every number below a count is named by one slot, no other number is, and the numbers
increase. -/
structure NamesInOrder (count : Nat) (slots : List (Option UInt16)) : Prop where
  unique : ∀ number < count,
    ∃! slot : Nat, ∃ entry : UInt16, entry.toNat = number ∧ slots[slot]? = some (some entry)
  bound : ∀ (slot : Nat) (entry : UInt16), slots[slot]? = some (some entry) → entry.toNat < count
  increasing : ∀ (first second : Nat) (before after : UInt16), slots[first]? = some (some before) →
    slots[second]? = some (some after) → (first < second ↔ before < after)

/-- Every argument is named by its first slot. -/
theorem LaidOut.exists_entry (laid : LaidOut hasThis parameters slots) {number : Nat}
    (less : number < receiverWidth hasThis + parameters.length) :
    ∃ entry : UInt16, entry.toNat = number ∧
      slots[firstSlot (argumentTypes hasThis parameters) number]? = some (some entry) := by
  by_cases own : number < receiverWidth hasThis
  · cases hasThis with
    | false => cases own
    | true =>
      obtain rfl : number = 0 := Nat.lt_one_iff.1 own
      exact ⟨0, rfl, laid.receiver rfl⟩
  · obtain ⟨index, rfl⟩ : ∃ index, number = receiverWidth hasThis + index :=
      ⟨number - receiverWidth hasThis, by omega⟩
    rw [firstSlot_argumentTypes]
    exact laid.first index (by omega)

/-- A slot that names an argument is its first one. -/
theorem LaidOut.eq_firstSlot (laid : LaidOut hasThis parameters slots) {slot : Nat} {entry : UInt16}
    (found : slots[slot]? = some (some entry)) :
    entry.toNat < receiverWidth hasThis + parameters.length ∧
      slot = firstSlot (argumentTypes hasThis parameters) entry.toNat := by
  obtain ⟨inside, -⟩ := List.getElem?_eq_some_iff.1 found
  rcases laid.only slot inside with ⟨has, rfl⟩ | ⟨index, type, listed, rfl | ⟨wide, rfl⟩⟩
  · rw [laid.receiver has] at found
    cases found
    subst has
    exact ⟨Nat.lt_of_lt_of_le Nat.zero_lt_one (Nat.le_add_right 1 _), rfl⟩
  · obtain ⟨bound, -⟩ := List.getElem?_eq_some_iff.1 listed
    obtain ⟨number, value, named⟩ := laid.first index bound
    rw [found] at named
    cases named
    rw [value, firstSlot_argumentTypes]
    exact ⟨by omega, rfl⟩
  · -- an upper half names nothing
    rw [laid.upper index type listed wide] at found
    cases found

/-- Slots that are laid out name the arguments in their order. -/
theorem LaidOut.namesInOrder (laid : LaidOut hasThis parameters slots) :
    NamesInOrder (receiverWidth hasThis + parameters.length) slots where
  unique number less := by
    refine ⟨_, laid.exists_entry less, ?_⟩
    rintro slot ⟨entry, rfl, found⟩
    exact (laid.eq_firstSlot found).2
  bound slot entry found := (laid.eq_firstSlot found).1
  increasing first second before after foundFirst foundSecond := by
    obtain ⟨beforeLess, rfl⟩ := laid.eq_firstSlot foundFirst
    obtain ⟨afterLess, rfl⟩ := laid.eq_firstSlot foundSecond
    rw [← length_argumentTypes] at beforeLess afterLess
    rw [UInt16.lt_iff_toNat_lt]
    -- slots are in the order of the numbers, whichever of the two is greater
    rcases Nat.lt_trichotomy before.toNat after.toNat with less | same | more
    · exact iff_of_true (firstSlot_lt less (Nat.le_of_lt afterLess)) less
    · rw [same]
      exact iff_of_false (Nat.lt_irrefl _) (Nat.lt_irrefl _)
    · have reversed := firstSlot_lt more (Nat.le_of_lt beforeLess)
      exact iff_of_false (Nat.lt_asymm reversed) (Nat.lt_asymm more)

/-! ## Counting with 16 bits -/

/-- A parameter behind others is named after them, and may leave a slot without a name. -/
theorem parameterSlots_concat (start : Nat) (parameters : List FieldType) (type : FieldType) :
    parameterSlots start (parameters ++ [type]) = parameterSlots start parameters ++
      some (start + parameters.length).toUInt16 :: (if type.slots = 2 then [none] else []) := by
  induction parameters generalizing start with
  | nil => simp [parameterSlots]
  | cons first parameters induction =>
    rw [List.cons_append, parameterSlots, parameterSlots, induction, List.length_cons,
      Nat.add_right_comm, Nat.add_assoc, List.append_assoc]

/-- An argument behind others is named after them, and may leave a slot without a name. -/
theorem argumentSlots_concat (hasThis : Bool) (parameters : List FieldType) (type : FieldType) :
    argumentSlots (parameters ++ [type]) hasThis = argumentSlots parameters hasThis ++
      some (receiverWidth hasThis + parameters.length).toUInt16 ::
        (if type.slots = 2 then [none] else []) := by
  cases hasThis <;> simp [argumentSlots, receiverWidth, parameterSlots_concat]

/-- The slots that are filled so far, and the number of the next parameter. -/
structure Numbering where
  slots : List (Option UInt16)
  next : UInt16

namespace Numbering

/-- Before the first parameter: the object that a method works on has number 0. -/
def start (hasThis : Bool) : Numbering := if hasThis then ⟨[some 0], 1⟩ else ⟨[], 0⟩

/-- Gives the next number to a parameter; nothing if the counter overflows. -/
def push? (state : Numbering) (type : FieldType) : Option Numbering :=
  if state.next.toNat + 1 < 65536 then
    some ⟨state.slots ++ some state.next :: (if type.slots = 2 then [none] else []), state.next + 1⟩
  else
    none

/-- Numbers all parameters in order. -/
def run? (hasThis : Bool) (parameters : List FieldType) : Option Numbering :=
  parameters.foldlM push? (start hasThis)

/-- The state behind some parameters if the counter did not overflow. -/
def behind (hasThis : Bool) (parameters : List FieldType) : Numbering :=
  ⟨argumentSlots parameters hasThis, (receiverWidth hasThis + parameters.length).toUInt16⟩

/-- The counter stands behind all arguments as long as it does not wrap around. -/
theorem toNat_next_behind (few : receiverWidth hasThis + parameters.length ≤ 65535) :
    (behind hasThis parameters).next.toNat = receiverWidth hasThis + parameters.length :=
  UInt16.toNat_ofNat_of_lt' (Nat.lt_succ_of_le few)

/-- One more parameter is numbered if the counter can go on. -/
theorem push?_behind (few : receiverWidth hasThis + parameters.length ≤ 65535) (type : FieldType) :
    (behind hasThis parameters).push? type =
      if receiverWidth hasThis + parameters.length < 65535 then
        some (behind hasThis (parameters ++ [type]))
      else none := by
  have value := toNat_next_behind few
  by_cases room : receiverWidth hasThis + parameters.length < 65535
  · have next : (behind hasThis parameters).next + 1 =
        (behind hasThis (parameters ++ [type])).next := by
      simp only [behind, List.length_append, List.length_singleton, Nat.toUInt16_eq]
      exact (UInt16.ofNat_add _ 1).symm
    rw [push?, if_pos (by omega), if_pos room, next, behind, behind, argumentSlots_concat]
  · rw [push?, if_neg (by omega), if_neg room]

/-- The invariant of the loop: behind every parameter, the slots are the argument slots of the
parameters so far, and the counter is their number. -/
theorem foldlM_push?_behind (few : receiverWidth hasThis + parameters.length ≤ 65535)
    (rest : List FieldType) :
    rest.foldlM push? (behind hasThis parameters) =
      if receiverWidth hasThis + (parameters ++ rest).length ≤ 65535 then
        some (behind hasThis (parameters ++ rest))
      else none := by
  induction rest generalizing parameters with
  | nil =>
    rw [List.append_nil, if_pos few]
    rfl
  | cons type rest induction =>
    rw [List.foldlM_cons, push?_behind few]
    by_cases room : receiverWidth hasThis + parameters.length < 65535
    · have still : receiverWidth hasThis + (parameters ++ [type]).length ≤ 65535 := by
        rw [List.length_append, List.length_singleton]
        omega
      have inner := induction still
      rw [List.append_assoc, List.singleton_append] at inner
      rw [if_pos room]
      exact inner
    · -- the counter is at its last value, so that it overflows at this parameter
      have many : ¬receiverWidth hasThis + (parameters ++ type :: rest).length ≤ 65535 := by
        rw [List.length_append, List.length_cons]
        omega
      rw [if_neg room, if_neg many]
      rfl

/-- The counter overflows exactly if there are more than 65535 arguments. -/
theorem run?_eq (hasThis : Bool) (parameters : List FieldType) :
    run? hasThis parameters =
      if receiverWidth hasThis + parameters.length ≤ 65535 then some (behind hasThis parameters)
      else none := by
  have start : start hasThis = behind hasThis [] := by cases hasThis <;> rfl
  have few : receiverWidth hasThis + ([] : List FieldType).length ≤ 65535 := by
    cases hasThis <;> decide
  rw [run?, start, foldlM_push?_behind few, List.nil_append]

end Numbering

end LocalStorage

/-! ## Descriptors -/

/-- Parts that are not empty are together at least as long as they are many. -/
theorem length_le_length_flatMap {α β : Type} {part : α → List β} (parts : ∀ item, part item ≠ [])
    (items : List α) : items.length ≤ (items.flatMap part).length := by
  have ones : ∀ size ∈ items.map (fun item => (part item).length), 1 ≤ size := by
    intro size listed
    obtain ⟨item, -, rfl⟩ := List.mem_map.1 listed
    exact List.length_pos_iff.2 (parts item)
  calc items.length = (items.map fun item => (part item).length).length := (List.length_map _).symm
    _ ≤ (items.map fun item => (part item).length).sum := List.length_le_sum_of_one_le _ ones
    _ = (items.flatMap part).length := List.length_flatMap.symm

/-- A type is spelled with at least one letter. -/
theorem FieldType.spelling_ne_nil (type : FieldType) : type.spelling ≠ [] := by
  cases type <;> simp [spelling]

/-- A character is written with at least one byte. -/
theorem ModifiedUtf8.encodeChar_ne_nil (letter : Char) : encodeChar letter ≠ [] := by
  rw [← List.length_pos_iff, length_encodeChar]
  split_ifs <;> omega

/-- The descriptor of a method has a letter for every parameter, and three more at least: the
parentheses and the result. -/
theorem MethodType.length_parameters_le {descriptor : String} {type : MethodType}
    (spelled : ofDescriptor? descriptor = some type) :
    type.parameters.length + 3 ≤ (ModifiedUtf8.encode descriptor).length := by
  have letters := length_le_length_flatMap FieldType.spelling_ne_nil type.parameters
  have bytes := length_le_length_flatMap ModifiedUtf8.encodeChar_ne_nil descriptor.toList
  have result : 0 < (resultSpelling type.result).length := by
    rw [List.length_pos_iff]
    cases type.result with
    | none => simp [resultSpelling]
    | some result => exact result.spelling_ne_nil
  have whole : descriptor.toList.length =
      (type.parameters.flatMap FieldType.spelling).length +
        (resultSpelling type.result).length + 2 := by
    rw [toList_of_ofDescriptor? spelled, spelling]
    simp only [List.length_cons, List.length_append]
    omega
  rw [ModifiedUtf8.encode]
  omega

namespace LocalStorage

/-- The argument slots of a method are laid out as they have to be if it has at most 65535
arguments: then every argument is named by one slot, in increasing order, and numbering them with a
counter of 16 bits runs through, which it does not with more arguments. A method whose descriptor
fits into a text constant has so few arguments, and all texts of a pool that was read do fit. -/
theorem argumentSlots_layout (hasThis : Bool) :
    (∀ parameters : List FieldType, receiverWidth hasThis + parameters.length ≤ 65535 →
      LaidOut hasThis parameters (argumentSlots parameters hasThis) ∧
      NamesInOrder (receiverWidth hasThis + parameters.length) (argumentSlots parameters hasThis) ∧
      ∃ next : UInt16,
        Numbering.run? hasThis parameters = some ⟨argumentSlots parameters hasThis, next⟩ ∧
        next.toNat = receiverWidth hasThis + parameters.length) ∧
    (∀ parameters : List FieldType, 65535 < receiverWidth hasThis + parameters.length →
      Numbering.run? hasThis parameters = none) ∧
    (∀ descriptor type, (ModifiedUtf8.encode descriptor).length ≤ 65535 →
      MethodType.ofDescriptor? descriptor = some type →
        receiverWidth hasThis + type.parameters.length ≤ 65535) ∧
    ∀ start stop pool index text, (ConstantPool.read start).result = .ok (pool, stop) →
      pool.utf8 index = .ok text → (ModifiedUtf8.encode text).length ≤ 65535 := by
  refine ⟨fun parameters few => ?_, fun parameters many => ?_,
    fun descriptor type fits spelled => ?_,
    fun start stop pool index text given found => ConstantPool.length_encode_le_of_read given found⟩
  · have laid := laidOut_argumentSlots few
    refine ⟨laid, laid.namesInOrder, _, ?_, Numbering.toNat_next_behind few⟩
    rw [Numbering.run?_eq, if_pos few]
    rfl
  · rw [Numbering.run?_eq, if_neg (Nat.not_le.2 many)]
  · have short := MethodType.length_parameters_le spelled
    have one : receiverWidth hasThis ≤ 1 := by cases hasThis <;> decide
    omega

/-- A pool with one constant, the descriptor `(IJLx;)V`. -/
def descriptorBytes : List UInt8 := [0, 2, 1, 0, 8, 40, 73, 74, 76, 120, 59, 41, 86]

/-- A receiver and three parameters, one of which takes two slots. -/
theorem argumentSlots_layout_mixed :
    ∃ pool stop type,
      (ConstantPool.read (Cursor.ofBytes descriptorBytes)).result = .ok (pool, stop) ∧
      pool.utf8 1 = .ok "(IJLx;)V" ∧ MethodType.ofDescriptor? "(IJLx;)V" = some type ∧
      receiverWidth true + type.parameters.length = 4 ∧
      LaidOut true type.parameters [some 0, some 1, some 2, none, some 3] ∧
      NamesInOrder 4 [some 0, some 1, some 2, none, some 3] ∧
      Numbering.run? true type.parameters = some ⟨[some 0, some 1, some 2, none, some 3], 4⟩ ∧
      Numbering.run? true (List.replicate 65535 .int) = none := by
  obtain ⟨⟨pool, stop⟩, given, found⟩ :
      ∃ outcome ∈ (ConstantPool.read (Cursor.ofBytes descriptorBytes)).result.toOption,
        outcome.1.utf8 1 = .ok "(IJLx;)V" := by
    decide +kernel
  have given := Except.eq_ok_of_mem_toOption given
  have spelled : MethodType.ofDescriptor? "(IJLx;)V" = some ⟨[.int, .long, .object "x"], none⟩ := by
    decide +kernel
  obtain ⟨layout, overflow, few, fits⟩ := argumentSlots_layout true
  have short := fits _ _ _ _ _ given found
  obtain ⟨laid, names, next, counted, value⟩ := layout _ (few _ _ short spelled)
  obtain rfl : next = 4 := UInt16.toNat_inj.1 value
  refine ⟨pool, stop, _, given, found, spelled, rfl, laid, names, counted, overflow _ ?_⟩
  rw [List.length_replicate]
  decide

end LocalStorage

end ClassLowering
