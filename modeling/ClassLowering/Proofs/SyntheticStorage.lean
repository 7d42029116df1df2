import Mathlib.Data.List.Nodup
import ClassLowering.Proofs.Outcomes

/-! # Storage without a table of variables

When no row of the table is for a slot behind the arguments, every local variable of a body is made
for accesses that no row covers. Such a storage only grows (`Grows`), each slot and kind of value
has at most one place in it (`Holds.unique`), and places are not shared as long as their numbers
fit into 16 bits (`Synthetic.eq_of_place`). -/

namespace ClassLowering

open Bytecode (ValueKind)

namespace LocalStorage

variable {storage middle later : LocalStorage} {slot : Nat} {kind : ValueKind} {place : Place}

/-- Every variable was made for accesses that no row covers. -/
structure Synthetic (storage : LocalStorage) : Prop where
  rows : storage.rows = []
  /-- Variables are numbered in the order in which they were made. -/
  places : storage.synthetic.map SyntheticLocal.place =
    (List.range storage.locals.length).map Nat.toUInt16
  /-- No slot has two variables for one kind of value. -/
  keys : (storage.synthetic.map fun known => (known.slot, known.kind)).Nodup

/-- The later storage has the variables of the earlier one and maybe more. -/
structure Grows (storage later : LocalStorage) : Prop where
  arguments : later.arguments = storage.arguments
  synthetic : storage.synthetic <+: later.synthetic

/-- The place where a slot with a kind of value is kept. -/
def Holds (storage : LocalStorage) (slot : Nat) (kind : ValueKind) : Place → Prop
  | .parameter index => storage.arguments[slot]? = some (some index)
  | .localVariable index =>
    storage.arguments[slot]? = none ∧ ⟨slot, kind, index⟩ ∈ storage.synthetic

/-- A storage has grown by nothing. -/
theorem Grows.refl (storage : LocalStorage) : Grows storage storage :=
  ⟨rfl, List.prefix_rfl⟩

/-- A storage that has grown twice has grown. -/
theorem Grows.trans (first : Grows storage middle) (second : Grows middle later) :
    Grows storage later :=
  ⟨second.arguments.trans first.arguments, first.synthetic.trans second.synthetic⟩

/-- A place is kept when the storage grows. -/
theorem Holds.grow (holds : storage.Holds slot kind place) (grows : Grows storage later) :
    later.Holds slot kind place := by
  cases place with
  | parameter index =>
    change later.arguments[slot]? = some (some index)
    rw [grows.arguments]
    exact holds
  | localVariable index =>
    refine ⟨?_, grows.synthetic.subset holds.2⟩
    rw [grows.arguments]
    exact holds.1

/-- Rows for arguments do not add variables. -/
theorem addRows_of_arguments (scope : Scope) (storage : LocalStorage) (fresh : UInt16)
    {rows : List LocalVariable}
    (inside : ∀ row ∈ rows, row.index.toNat < storage.arguments.length) :
    addRows scope storage fresh rows = pure storage := by
  induction rows with
  | nil => rfl
  | cons row rows induction =>
    obtain ⟨first, inside⟩ := List.forall_mem_cons.1 inside
    rw [addRows, addRow, if_pos first, pure_bind]
    exact induction inside

/-- A table with rows for arguments only gives a storage without variables. -/
theorem synthetic_of_ofTable {scope : Scope} {rows : List LocalVariable}
    {arguments : List (Option UInt16)} (inside : ∀ row ∈ rows, row.index.toNat < arguments.length)
    (found : (ofTable scope rows arguments).result = .ok storage) :
    storage.Synthetic ∧ storage.arguments = arguments := by
  obtain ⟨object, -, found⟩ := Logged.bind_eq_ok.1 found
  rw [addRows_of_arguments scope _ _ inside] at found
  cases found
  exact ⟨⟨rfl, rfl, List.nodup_nil⟩, rfl⟩

/-! ## Looking slots up -/

/-- Two variables for the same slot and kind of value are the same one. -/
theorem Synthetic.eq_of_key (synthetic : storage.Synthetic) {first second : SyntheticLocal}
    (firstListed : first ∈ storage.synthetic) (secondListed : second ∈ storage.synthetic)
    (slots : first.slot = second.slot) (kinds : first.kind = second.kind) : first = second :=
  List.inj_on_of_nodup_map synthetic.keys firstListed secondListed (Prod.ext slots kinds)

/-- A new variable gets the next number. -/
theorem Synthetic.push (synthetic : storage.Synthetic) (slot : Nat) (kind : ValueKind)
    (fresh : ∀ known ∈ storage.synthetic, ¬(known.slot = slot ∧ known.kind = kind))
    (added : Target.Local) :
    Synthetic { storage with
      synthetic := storage.synthetic ++ [⟨slot, kind, storage.nextIndex⟩]
      locals := storage.locals ++ [added] } where
  rows := synthetic.rows
  places := by
    dsimp only
    rw [List.map_append, synthetic.places, List.length_append, List.length_singleton,
      List.range_succ, List.map_append]
    rfl
  keys := by
    dsimp only
    rw [List.map_append, List.map_singleton]
    refine List.nodup_append.2 ⟨synthetic.keys, List.nodup_singleton _, ?_⟩
    rintro key listed other single rfl
    obtain ⟨known, member, same⟩ := List.mem_map.1 listed
    rw [List.mem_singleton.1 single, Prod.mk.injEq] at same
    exact fresh known member same

/-- The variable for a slot and kind of value is found or made. -/
theorem lookupSynthetic_spec (synthetic : storage.Synthetic) {offset : UInt32} {index : UInt16}
    (found : (storage.lookupSynthetic slot offset kind).result = .ok (index, later)) :
    later.Synthetic ∧ Grows storage later ∧ ⟨slot, kind, index⟩ ∈ later.synthetic := by
  unfold lookupSynthetic at found
  split at found
  · next known listed =>
    cases found
    have member := List.mem_of_find?_eq_some listed
    have same := List.find?_some listed
    rw [Bool.and_eq_true, decide_eq_true_eq, decide_eq_true_eq] at same
    obtain ⟨rfl, rfl⟩ := same
    exact ⟨synthetic, Grows.refl storage, member⟩
  · next missing =>
    obtain ⟨_, -, found⟩ := Logged.bind_eq_ok.1 found
    cases found
    refine ⟨synthetic.push slot kind ?_ _, ⟨rfl, List.prefix_append _ _⟩, ?_⟩
    · rintro known member ⟨sameSlot, sameKind⟩
      have differs := List.find?_eq_none.1 missing known member
      rw [sameSlot, sameKind] at differs
      simp at differs
    · exact List.mem_append_right _ (List.mem_singleton_self _)

/-- Looking up a slot gives a place where it is kept from then on. -/
theorem lookup_spec (synthetic : storage.Synthetic) {offset : UInt32}
    (found : (storage.lookup slot offset kind).result = .ok (place, later)) :
    later.Synthetic ∧ Grows storage later ∧ later.Holds slot kind place := by
  unfold lookup at found
  split at found
  · next index argument =>
    cases found
    exact ⟨synthetic, Grows.refl storage, argument⟩
  · cases found
  · next outside =>
    have uncovered : storage.covering slot offset kind = [] := by
      rw [covering, synthetic.rows, List.filter_nil]
    rw [uncovered] at found
    obtain ⟨⟨index, grown⟩, found, same⟩ := Logged.bind_eq_ok.1 found
    cases same
    obtain ⟨laterSynthetic, grows, member⟩ := lookupSynthetic_spec synthetic found
    refine ⟨laterSynthetic, grows, ?_, member⟩
    rw [grows.arguments]
    exact outside

/-- A slot with a kind of value has one place. -/
theorem Holds.unique (synthetic : storage.Synthetic) {first second : Place}
    (firstHolds : storage.Holds slot kind first) (secondHolds : storage.Holds slot kind second) :
    first = second := by
  -- a slot has an argument or a variable, and a variable is known by its slot and its kind
  cases first with
  | parameter index =>
    cases second with
    | parameter other =>
      have same : some (some index) = some (some other) := firstHolds.symm.trans secondHolds
      cases same
      rfl
    | localVariable other =>
      have same : some (some index) = none := firstHolds.symm.trans secondHolds.1
      cases same
  | localVariable index =>
    cases second with
    | parameter other =>
      have same : none = some (some other) := firstHolds.1.symm.trans secondHolds
      cases same
    | localVariable other =>
      have same := synthetic.eq_of_key firstHolds.2 secondHolds.2 rfl rfl
      cases same
      rfl

/-- Numbers below 65536 are told apart by their 16-bit forms. -/
theorem toUInt16_injective {first second : Nat} (firstBound : first < 65536)
    (secondBound : second < 65536) (same : first.toUInt16 = second.toUInt16) : first = second := by
  have := congrArg UInt16.toNat same
  simp only [Nat.toUInt16_eq, UInt16.toNat_ofNat'] at this
  omega

/-- A variable is one of those that are declared. -/
theorem Synthetic.place_lt (synthetic : storage.Synthetic) {known : SyntheticLocal}
    (listed : known ∈ storage.synthetic) : known.place.toNat < storage.locals.length := by
  have named := List.mem_map_of_mem (f := SyntheticLocal.place) listed
  rw [synthetic.places] at named
  obtain ⟨number, declared, same⟩ := List.mem_map.1 named
  rw [List.mem_range] at declared
  rw [← same, Nat.toUInt16_eq, UInt16.toNat_ofNat']
  exact Nat.lt_of_le_of_lt (Nat.mod_le _ _) declared

/-- Two slots do not share a variable while numbers of variables fit into 16 bits. -/
theorem Synthetic.eq_of_place (synthetic : storage.Synthetic)
    (few : storage.locals.length ≤ 65536) {first second : SyntheticLocal}
    (firstListed : first ∈ storage.synthetic) (secondListed : second ∈ storage.synthetic)
    (same : first.place = second.place) : first = second := by
  have nodup : (storage.synthetic.map SyntheticLocal.place).Nodup := by
    rw [synthetic.places]
    refine (List.nodup_map_iff_inj_on List.nodup_range).2 ?_
    intro one listedOne other listedOther equal
    rw [List.mem_range] at listedOne listedOther
    exact toUInt16_injective (by omega) (by omega) equal
  exact List.inj_on_of_nodup_map nodup firstListed secondListed same

end LocalStorage

end ClassLowering
