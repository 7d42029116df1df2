import ClassLowering.Proofs.IntegerCode.Simulation

/-! # Lowering preserves the meaning of integer code

The frames that the two machines start with are related (`related_start`), so that straight-line
integer code of a parsed class and its lowered form return the same value or none
(`run_lowerBody_eq`). -/

namespace ClassLowering

open Bytecode (Instruction ValueKind)

/-! ## Arguments in slots -/

/-- The kinds of the arguments of a method. -/
def argumentKinds (hasThis : Bool) (parameters : List FieldType) : List ValueKind :=
  List.replicate (receiverWidth hasThis) .ref ++ parameters.map FieldType.kind

/-- Values fill as many slots as their types are wide. -/
theorem layOut_length {types : List FieldType} {values : List Value}
    (lengths : types.length = values.length) :
    (layOut types values).length = firstSlot types types.length := by
  induction types generalizing values with
  | nil => cases values <;> rfl
  | cons type types induction =>
    cases values with
    | nil => cases lengths
    | cons value values =>
      have positive := type.slots_pos
      rw [layOut, List.length_cons, firstSlot_cons, List.cons_append, List.length_cons,
        List.length_append, List.length_replicate, induction (Nat.succ.inj lengths)]
      omega

/-- A value is in the first slot of its parameter. -/
theorem getElem?_layOut {types : List FieldType} {values : List Value} {index : Nat}
    (typed : index < types.length) (valued : index < values.length) :
    (layOut types values)[firstSlot types index]? = some values[index]? := by
  induction types generalizing values index with
  | nil => cases typed
  | cons type types induction =>
    cases values with
    | nil => cases valued
    | cons value values =>
      cases index with
      | zero => rfl
      | succ index =>
        have width : (some value :: List.replicate (type.slots - 1) none).length = type.slots := by
          have positive := type.slots_pos
          rw [List.length_cons, List.length_replicate]
          omega
        rw [layOut, firstSlot_cons, List.getElem?_append_right (by omega), width,
          Nat.add_sub_cancel_left, List.getElem?_cons_succ]
        exact induction (Nat.lt_of_succ_lt_succ typed) (Nat.lt_of_succ_lt_succ valued)

section

variable {hasThis : Bool} {parameters : List FieldType} {arguments : List Value}

/-- The arguments fill as many slots as they are wide. -/
theorem layOutArguments_length
    (count : arguments.length = receiverWidth hasThis + parameters.length) :
    (layOutArguments hasThis parameters arguments).length = argumentWidth hasThis parameters := by
  rw [layOutArguments, List.length_append, List.length_map, List.length_take, layOut_length,
    argumentWidth]
  · omega
  · rw [List.length_drop]
    omega

/-- An argument is in the first slot of its parameter. -/
theorem getElem?_layOutArguments {index : Nat} (bound : index < parameters.length)
    (count : arguments.length = receiverWidth hasThis + parameters.length) :
    (layOutArguments hasThis parameters arguments)[
      receiverWidth hasThis + firstSlot parameters index]? =
        some arguments[receiverWidth hasThis + index]? := by
  have front : ((arguments.take (receiverWidth hasThis)).map some).length =
      receiverWidth hasThis := by
    rw [List.length_map, List.length_take]
    omega
  rw [layOutArguments, List.getElem?_append_right (by omega), front, Nat.add_sub_cancel_left,
    getElem?_layOut bound (by rw [List.length_drop]; omega), List.getElem?_drop]

/-- The argument for a parameter of integer type is an integer. -/
theorem int_of_argumentKinds {index : Nat} (integer : parameters[index]? = some .int)
    (kinds : arguments.map Value.kind = argumentKinds hasThis parameters) :
    ∃ value, arguments[receiverWidth hasThis + index]? = some (.int value) := by
  have kind : (arguments.map Value.kind)[receiverWidth hasThis + index]? = some .int := by
    rw [kinds, argumentKinds, List.getElem?_append_right (by rw [List.length_replicate]; omega),
      List.length_replicate, Nat.add_sub_cancel_left, List.getElem?_map, integer]
    rfl
  rw [List.getElem?_map] at kind
  obtain ⟨value, found, same⟩ := Option.map_eq_some_iff.1 kind
  cases value with
  | int value => exact ⟨value, found⟩
  | long | float | double | ref => cases same

end

/-! ## Where slots are kept -/

/-- A slot that integer code may use: that of an integer parameter or one behind the arguments. -/
def IsIntegerSlot (hasThis : Bool) (parameters : List FieldType) (slot : Nat) : Prop :=
  slot < argumentWidth hasThis parameters →
    ∃ index, parameters[index]? = some .int ∧
      slot = receiverWidth hasThis + firstSlot parameters index

/-- The place where the storage of a method keeps a slot that integer code may use. -/
structure Keeps (hasThis : Bool) (parameters : List FieldType) (storage : LocalStorage)
    (slot : Nat) (place : Place) : Prop where
  bound : slot < 65536
  integer : IsIntegerSlot hasThis parameters slot
  holds : storage.KeepsInt slot place

section

variable {hasThis : Bool} {parameters : List FieldType} {storage : LocalStorage}

/-- A slot that is kept in a parameter is the slot of that parameter, which is an integer. -/
theorem Keeps.parameter {slot : Nat} {index : UInt16}
    (own : storage.arguments = LocalStorage.argumentSlots parameters hasThis)
    (kept : Keeps hasThis parameters storage slot (.parameter index)) :
    ∃ position, parameters[position]? = some .int ∧
      slot = receiverWidth hasThis + firstSlot parameters position ∧
      index.toNat = receiverWidth hasThis + position := by
  obtain ⟨bound, integer, holds⟩ := kept
  have found : storage.arguments[slot]? = some (some index) := holds
  rw [own] at found
  obtain ⟨inside, -⟩ := List.getElem?_eq_some_iff.1 found
  rw [LocalStorage.argumentSlots_length] at inside
  obtain ⟨position, typed, rfl⟩ := integer inside
  obtain ⟨listed, -⟩ := List.getElem?_eq_some_iff.1 typed
  rw [LocalStorage.getElem?_argumentSlots hasThis listed] at found
  cases found
  -- the number of the parameter fits into 16 bits since it is at most the slot
  have small := le_firstSlot (Nat.le_of_lt listed)
  refine ⟨position, typed, rfl, ?_⟩
  rw [Nat.toUInt16_eq, UInt16.toNat_ofNat', Nat.mod_eq_of_lt]
  omega

/-- A slot that is kept in a local variable is behind the arguments. -/
theorem Keeps.localVariable {slot : Nat} {index : UInt16}
    (own : storage.arguments = LocalStorage.argumentSlots parameters hasThis)
    (kept : Keeps hasThis parameters storage slot (.localVariable index)) :
    argumentWidth hasThis parameters ≤ slot ∧ ⟨slot, .int, index⟩ ∈ storage.synthetic := by
  obtain ⟨outside, listed⟩ := kept.holds
  rw [own, List.getElem?_eq_none_iff, LocalStorage.argumentSlots_length] at outside
  exact ⟨outside, listed⟩

/-- Slots and the places where a storage keeps them determine each other. -/
theorem faithful_keeps (own : storage.arguments = LocalStorage.argumentSlots parameters hasThis)
    (synthetic : storage.Synthetic) (few : storage.locals.length ≤ 65536) :
    Faithful (Keeps hasThis parameters storage) where
  unique first second := first.holds.unique synthetic second.holds
  injective {first second place} firstKept secondKept := by
    cases place with
    | parameter index =>
      obtain ⟨one, -, rfl, named⟩ := firstKept.parameter own
      obtain ⟨other, -, rfl, same⟩ := secondKept.parameter own
      obtain rfl : one = other := by omega
      rfl
    | localVariable index =>
      have same := synthetic.eq_of_place few (firstKept.localVariable own).2
        (secondKept.localVariable own).2 rfl
      cases same
      rfl

/-- The machines start in related frames. -/
theorem related_start {arguments : List Value} {body : Target.Body}
    (own : storage.arguments = LocalStorage.argumentSlots parameters hasThis)
    (synthetic : storage.Synthetic) (locals : body.locals = storage.locals)
    (kinds : arguments.map Value.kind = argumentKinds hasThis parameters) :
    Related (Keeps hasThis parameters storage) (.start hasThis parameters arguments)
      (.start arguments body) where
  stack := rfl
  values {slot place} kept := by
    have count : arguments.length = receiverWidth hasThis + parameters.length := by
      simpa [argumentKinds] using congrArg List.length kinds
    rw [SourceFrame.read, SourceFrame.start]
    dsimp only
    -- arguments are laid out slot by slot in the source, and in the target one after the other
    cases place with
    | parameter index =>
      obtain ⟨position, integer, rfl, named⟩ := kept.parameter own
      obtain ⟨value, found⟩ := int_of_argumentKinds integer kinds
      obtain ⟨listed, -⟩ := List.getElem?_eq_some_iff.1 integer
      rw [getElem?_layOutArguments listed count, TargetFrame.read, TargetFrame.start, named, found]
      exact ⟨value, rfl, rfl⟩
    | localVariable index =>
      -- all other variables start as 0 on both sides
      obtain ⟨outside, listed⟩ := kept.localVariable own
      have declared := synthetic.place_lt listed
      rw [← locals] at declared
      rw [List.getElem?_eq_none (by rw [layOutArguments_length count]; exact outside),
        TargetFrame.read, TargetFrame.start, List.getElem?_replicate, if_pos declared]
      exact ⟨0, rfl, rfl⟩

end

/-! ## Whole methods -/

/-- Straight-line integer code of a parsed class and its lowered form have the same outcome for all
arguments: they return the same value, or neither of them returns one. -/
theorem run_lowerBody_eq {bytes : List UInt8} {file : ClassFile} {method : Member}
    {code : MethodCode} {type : MethodType} {scope : Scope} {body : Target.Body}
    (parsed : (ClassFile.parse bytes).result = .ok file) (declared : method ∈ file.methods)
    (coded : Attribute.code? method.attributes = some code)
    (typed : MethodType.ofDescriptor? method.descriptor = some type)
    (rows : ∀ row ∈ Attribute.localVariables code.attributes,
      row.index.toNat < argumentWidth (!method.flags.isStatic) type.parameters)
    (integer : ∀ instruction ∈ code.instructions, (instruction.action? file.pool).isSome)
    (slots : ∀ instruction ∈ code.instructions, ∀ action slot,
      instruction.action? file.pool = some action → action.slot? = some slot →
        IsIntegerSlot (!method.flags.isStatic) type.parameters slot)
    (lowered : (lowerBody scope file.pool method code).result = .ok body)
    (few : body.locals.length ≤ 65536) (arguments : List Value)
    (kinds : arguments.map Value.kind =
      argumentKinds (!method.flags.isStatic) type.parameters) :
    SourceFrame.run file.pool code.instructions
        (.start (!method.flags.isStatic) type.parameters arguments) =
      TargetFrame.run body (.start arguments body) := by
  obtain ⟨_, storage, contributions, later, found, tabled, emitted, locals, instructions⟩ :=
    lowerBody_spec lowered
  cases typed.symm.trans found
  have shaped := ClassFile.shaped_of_parse parsed declared coded
  obtain ⟨synthetic, own⟩ := LocalStorage.synthetic_of_ofTable
    (by simpa only [LocalStorage.argumentSlots_length] using rows) tabled
  -- every instruction of the code stands in a pair with its next offset
  have listed {pair : Instruction × UInt32}
      (member : pair ∈ withNext code.codeLength code.instructions) :
      pair.1 ∈ code.instructions := by
    rw [← map_fst_withNext code.codeLength code.instructions]
    exact List.mem_map_of_mem member
  obtain ⟨laterSynthetic, grows, lists, flat, realized⟩ :=
    realizedBy_of_lowerInstructions synthetic (fun _ member => shaped _ (listed member))
      (fun _ member => integer _ (listed member)) emitted
  rw [map_fst_withNext] at realized
  have laterOwn := grows.arguments.trans own
  have kept : List.Forall₂ (Instruction.RealizedBy file.pool
      (Keeps (!method.flags.isStatic) type.parameters later)) code.instructions lists := by
    have members :=
      (List.forall₂_and_left code.instructions lists).2 ⟨fun _ member => member, realized⟩
    refine members.imp ?_
    rintro instruction list ⟨member, action, meaning, realizes⟩
    refine ⟨action, meaning, realizes.mono fun slot place accessed holds => ?_⟩
    exact ⟨slot_lt_of_action? (shaped _ member) meaning accessed,
      slots _ member _ _ meaning accessed, holds⟩
  have related := related_start laterOwn laterSynthetic locals kinds
  have faithful := faithful_keeps laterOwn laterSynthetic (locals ▸ few)
  rw [SourceFrame.run, TargetFrame.run, instructions, flat]
  exact (alike_execute faithful kept related).value?_eq

/-- A class whose only method belongs to an object, has descriptor `(JI)I`, and multiplies its
second argument by -7, adds 1000 with a wide increment, and returns the low byte. -/
def incrementClass : List UInt8 :=
  [0xCA, 0xFE, 0xBA, 0xBE, 0, 0, 0, 52,
    -- the pool: `A` as a text and a class, `f`, `(JI)I` and `Code`
    0, 6, 1, 0, 1, 65, 7, 0, 1, 1, 0, 1, 102, 1, 0, 5, 40, 74, 73, 41, 73,
    1, 0, 4, 67, 111, 100, 101,
    0, 0x21, 0, 2, 0, 0, 0, 0, 0, 0,
    -- the method and its code
    0, 1, 0, 1, 0, 3, 0, 4, 0, 1, 0, 5, 0, 0, 0, 28, 0, 2, 0, 5, 0, 0, 0, 16,
    0x1D, 0x10, 0xF9, 0x68, 0x36, 4, 0xC4, 0x84, 0, 4, 3, 0xE8, 0x15, 4, 0x91, 0xAC,
    0, 0, 0, 0, 0, 0]

/-- The method of the class is integer code that is lowered, and -59 is the low byte of 965. -/
theorem incrementClass_spec :
    ∃ file ∈ (ClassFile.parse incrementClass).result.toOption,
      ∃ method ∈ file.methods, ∃ code ∈ Attribute.code? method.attributes,
        method.flags.isStatic = false ∧
        MethodType.ofDescriptor? method.descriptor = some ⟨[.long, .int], some .int⟩ ∧
        Attribute.localVariables code.attributes = [] ∧
        (∀ instruction ∈ code.instructions, (instruction.action? file.pool).isSome) ∧
        (∀ instruction ∈ code.instructions, ∀ action ∈ instruction.action? file.pool,
          ∀ slot ∈ action.slot?, slot = 3 ∨ slot = 4) ∧
        SourceFrame.run file.pool code.instructions
          (.start true [.long, .int] [.ref 0, .long 9, .int 5]) = some (-59) ∧
        ∃ body ∈ (lowerBody ⟨Catalog.standard, .empty "M"⟩ file.pool method code).result.toOption,
          body.locals.length = 1 := by
  decide +kernel

/-- The lowered method gives -59 for the integer 5: the low byte of 965, as a signed number. -/
theorem run_lowerBody_eq_increment :
    ∃ file method code body,
      (ClassFile.parse incrementClass).result = .ok file ∧ method ∈ file.methods ∧
      Attribute.code? method.attributes = some code ∧
      (lowerBody ⟨Catalog.standard, .empty "M"⟩ file.pool method code).result = .ok body ∧
      TargetFrame.run body (.start [.ref 0, .long 9, .int 5] body) = some (-59) := by
  obtain ⟨file, parsed, method, declared, code, coded, object, typed, rows, integer, slots, outcome,
    body, lowered, few⟩ := incrementClass_spec
  have parsed := Except.eq_ok_of_mem_toOption parsed
  have lowered := Except.eq_ok_of_mem_toOption lowered
  refine ⟨file, method, code, body, parsed, declared, coded, lowered, ?_⟩
  rw [← outcome]
  have same := run_lowerBody_eq parsed declared coded typed (by simp [rows]) integer ?_ lowered
    (by omega) [.ref 0, .long 9, .int 5] (by rw [object]; rfl)
  · rw [object] at same
    exact same.symm
  · intro instruction member action slot meaning accessed inside
    rw [object] at inside ⊢
    obtain rfl | rfl := slots instruction member action meaning slot accessed
    · exact ⟨1, rfl, rfl⟩
    · cases Nat.lt_irrefl _ inside

end ClassLowering
