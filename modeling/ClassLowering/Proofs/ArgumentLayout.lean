import ClassLowering.LocalStorage

/-! # The layout of arguments in slots

The arguments of a method stand in its first slots, in order: the object it works on, if there is
one, and then the parameters, where a long or double one takes two slots. `firstSlot` counts the
slots in front of a parameter; `getElem?_argumentSlots` says that `LocalStorage.argumentSlots` puts
every parameter there, and `argumentSlots_length` that it has no further slots. -/

namespace ClassLowering

/-- A type takes at least one slot. -/
theorem FieldType.slots_pos (type : FieldType) : 0 < type.slots := by
  unfold FieldType.slots
  split <;> omega

/-- How many slots the parameters in front of an index take. -/
def firstSlot (parameters : List FieldType) (index : Nat) : Nat :=
  (parameters.take index).foldr (fun type width => type.slots + width) 0

/-- Nothing stands in front of the first parameter. -/
@[simp] theorem firstSlot_zero (parameters : List FieldType) : firstSlot parameters 0 = 0 := rfl

/-- The first parameter shifts the later ones by its own slots. -/
@[simp] theorem firstSlot_cons (type : FieldType) (parameters : List FieldType) (index : Nat) :
    firstSlot (type :: parameters) (index + 1) = type.slots + firstSlot parameters index := by
  simp [firstSlot]

/-- Later parameters stand in later slots. -/
theorem firstSlot_lt {parameters : List FieldType} {first second : Nat} (less : first < second)
    (bound : second ≤ parameters.length) :
    firstSlot parameters first < firstSlot parameters second := by
  induction parameters generalizing first second with
  | nil =>
    rw [List.length_nil] at bound
    omega
  | cons type parameters rest =>
    obtain ⟨second, rfl⟩ : ∃ before, second = before + 1 := ⟨second - 1, by omega⟩
    rw [List.length_cons] at bound
    have wide := type.slots_pos
    cases first with
    | zero =>
      rw [firstSlot_zero, firstSlot_cons]
      omega
    | succ first =>
      rw [firstSlot_cons, firstSlot_cons]
      have := rest (Nat.lt_of_succ_lt_succ less) (Nat.le_of_succ_le_succ bound)
      omega

/-- A parameter has at least as many slots in front as parameters. -/
theorem le_firstSlot {parameters : List FieldType} {index : Nat}
    (bound : index ≤ parameters.length) : index ≤ firstSlot parameters index := by
  induction index with
  | zero => exact Nat.zero_le _
  | succ index before =>
    have := before (Nat.le_of_succ_le bound)
    have := firstSlot_lt (Nat.lt_add_one index) bound
    omega

/-- The slot of the object that a method works on. -/
def receiverWidth (hasThis : Bool) : Nat := if hasThis then 1 else 0

/-- How many slots the arguments of a method take. -/
def argumentWidth (hasThis : Bool) (parameters : List FieldType) : Nat :=
  receiverWidth hasThis + firstSlot parameters parameters.length

namespace LocalStorage

/-- The parameters fill as many slots as they are wide. -/
theorem parameterSlots_length (start : Nat) (parameters : List FieldType) :
    (parameterSlots start parameters).length = firstSlot parameters parameters.length := by
  induction parameters generalizing start with
  | nil => rfl
  | cons type parameters rest =>
    rw [List.length_cons, firstSlot_cons, parameterSlots, List.cons_append, List.length_cons,
      List.length_append, rest]
    cases type <;> simp +arith [FieldType.slots]

/-- The other parameters stand behind the slots of the first one. -/
theorem getElem?_parameterSlots_cons (start : Nat) (type : FieldType) (parameters : List FieldType)
    (slot : Nat) :
    (parameterSlots start (type :: parameters))[type.slots + slot]? =
      (parameterSlots (start + 1) parameters)[slot]? := by
  rw [parameterSlots]
  cases type <;> simp [FieldType.slots, Nat.add_comm]

/-- A parameter is named by its first slot. -/
theorem getElem?_parameterSlots (start : Nat) {parameters : List FieldType} {index : Nat}
    (bound : index < parameters.length) :
    (parameterSlots start parameters)[firstSlot parameters index]? =
      some (some (start + index).toUInt16) := by
  induction parameters generalizing start index with
  | nil => cases bound
  | cons type parameters rest =>
    cases index with
    | zero => rfl
    | succ index =>
      rw [List.length_cons] at bound
      have inner := rest (start + 1) (Nat.lt_of_succ_lt_succ bound)
      rw [show start + 1 + index = start + (index + 1) by omega] at inner
      rw [firstSlot_cons, getElem?_parameterSlots_cons, inner]

/-- The argument slots are as many as the arguments are wide. -/
theorem argumentSlots_length (parameters : List FieldType) (hasThis : Bool) :
    (argumentSlots parameters hasThis).length = argumentWidth hasThis parameters := by
  cases hasThis <;>
    simp +arith [argumentSlots, argumentWidth, receiverWidth, parameterSlots_length]

/-- The parameters stand behind the object that the method works on. -/
theorem getElem?_argumentSlots_add (parameters : List FieldType) (hasThis : Bool) (slot : Nat) :
    (argumentSlots parameters hasThis)[receiverWidth hasThis + slot]? =
      (parameterSlots (receiverWidth hasThis) parameters)[slot]? := by
  cases hasThis with
  | false =>
    rw [receiverWidth, if_neg Bool.false_ne_true, Nat.zero_add]
    rfl
  | true =>
    rw [receiverWidth, if_pos rfl, Nat.add_comm]
    rfl

/-- A parameter is named by its first slot behind the object that the method works on. -/
theorem getElem?_argumentSlots {parameters : List FieldType} (hasThis : Bool) {index : Nat}
    (bound : index < parameters.length) :
    (argumentSlots parameters hasThis)[receiverWidth hasThis + firstSlot parameters index]? =
      some (some (receiverWidth hasThis + index).toUInt16) := by
  rw [getElem?_argumentSlots_add, getElem?_parameterSlots _ bound]

end LocalStorage

end ClassLowering
