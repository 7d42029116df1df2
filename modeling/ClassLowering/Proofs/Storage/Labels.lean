import Mathlib.Data.List.Pairwise
import Mathlib.Data.List.Perm.Subperm
import ClassLowering.Proofs.Storage.Answers

/-! # Labels of variables

The variable that the first row of a slot declares is labelled with the slot. A row with another
type declares a variable with a label from a counter, which starts past all slots of the table. Both
kinds of labels come from one run over the table, whatever the order of slots and types is, and rows
for arguments take no part in it (`ofTable_filter`).

Labels have 16 bits. `labelEnd` counts without a bound how far the labels of a table go. As long as
this is not past 65536, the counter is right whenever a label is taken from it (`Counts`), and then
labels are told apart (`Labelled`) and rows are bound to the labels of their types (`BindsLabels`).
A counter that is checked at each step overflows exactly if the labels go past 65535
(`overflows_iff`): it already fails at the step behind the last label. -/

namespace ClassLowering

open Bytecode (ValueKind)
open Target (Local TypeSig)

/-- What follows a computation matters for the values only that it can give. -/
theorem Logged.bind_congr_of_ok {ε α β : Type} {first : Logged ε α} {next other : α → Logged ε β}
    (same : ∀ value, first.result = .ok value → next value = other value) :
    first >>= next = first >>= other := by
  obtain ⟨log, result⟩ := first
  cases result with
  | error failure => rfl
  | ok value =>
    change (⟨log ++ (next value).log, (next value).result⟩ : Logged ε β) =
      ⟨log ++ (other value).log, (other value).result⟩
    rw [same value rfl]

namespace LocalStorage

variable {scope : Scope} {storage later : LocalStorage} {counter next : UInt16} {fresh limit : Nat}
  {row : LocalVariable} {before rows : List LocalVariable} {arguments : List (Option UInt16)}

/-! ## How far labels go -/

/-- The least number past all slots of a table. -/
def pastSlots (rows : List LocalVariable) : Nat :=
  rows.foldl (fun label row => max label (row.index.toNat + 1)) 0

/-- The largest of some labels is below a bound exactly if all slots are. -/
theorem foldl_label_le_iff {bound : Nat} (rows : List LocalVariable) (start : Nat) :
    rows.foldl (fun label row => max label (row.index.toNat + 1)) start ≤ bound ↔
      start ≤ bound ∧ ∀ row ∈ rows, row.index.toNat < bound := by
  induction rows generalizing start with
  | nil => simp
  | cons row rows induction =>
    rw [List.foldl_cons, induction, Nat.max_le, List.forall_mem_cons, and_assoc]
    rfl

/-- A number is past all slots from the least such number on. -/
theorem pastSlots_le_iff {bound : Nat} :
    pastSlots rows ≤ bound ↔ ∀ row ∈ rows, row.index.toNat < bound := by
  rw [pastSlots, foldl_label_le_iff]
  exact and_iff_right (Nat.zero_le bound)

/-- A slot is below the first label that is free for all. -/
theorem index_lt_pastSlots (listed : row ∈ rows) : row.index.toNat < pastSlots rows :=
  pastSlots_le_iff.1 (Nat.le_refl _) row listed

/-- Behind a label that is not the last one there is the next number. -/
theorem toNat_add_one {label : UInt16} (inside : label.toNat < 65535) :
    (label + 1).toNat = label.toNat + 1 := by
  rw [UInt16.toNat_add]
  exact Nat.mod_eq_of_lt (by change label.toNat + 1 < 65536; omega)

/-- The largest of some labels is counted in 16 bits as long as no slot is the last one. -/
theorem toNat_foldl_label (rows : List LocalVariable) (start : UInt16)
    (inside : ∀ row ∈ rows, row.index.toNat < 65535) :
    (rows.foldl (fun label row => max label (row.index + 1)) start).toNat =
      rows.foldl (fun label row => max label (row.index.toNat + 1)) start.toNat := by
  induction rows generalizing start with
  | nil => rfl
  | cons row rows induction =>
    obtain ⟨first, inside⟩ := List.forall_mem_cons.1 inside
    rw [List.foldl_cons, List.foldl_cons, induction _ inside, UInt16.toNat_max, toNat_add_one first]

/-- The first fresh label is past all slots if none of them is the last one. -/
theorem toNat_freshLabel (small : pastSlots rows ≤ 65535) :
    (freshLabel rows).toNat = pastSlots rows :=
  toNat_foldl_label rows 0 (pastSlots_le_iff.1 small)

/-- The row has the type of the first row of its slot. -/
def FirstTyped (rows : List LocalVariable) (row : LocalVariable) : Prop :=
  (rows.find? (·.index = row.index)).map LocalVariable.descriptor = some row.descriptor

instance (rows : List LocalVariable) (row : LocalVariable) : Decidable (FirstTyped rows row) :=
  inferInstanceAs (Decidable (_ = _))

/-- The row takes a label from the counter: it is not for an argument and has another type than the
first row of its slot. -/
def Mints (rows : List LocalVariable) (arguments : List (Option UInt16)) (row : LocalVariable) :
    Prop :=
  arguments.length ≤ row.index.toNat ∧ ¬FirstTyped rows row

instance (rows : List LocalVariable) (arguments : List (Option UInt16)) (row : LocalVariable) :
    Decidable (Mints rows arguments row) :=
  inferInstanceAs (Decidable (_ ∧ _))

/-- The number behind all labels of a table: the slots come first, and then a label for each row
that takes one from the counter. -/
def labelEnd (rows : List LocalVariable) (arguments : List (Option UInt16)) : Nat :=
  pastSlots rows + rows.countP (Mints rows arguments ·)

/-- A row adds one to the new labels exactly if it makes one. -/
theorem countP_mints_cons (table : List LocalVariable) :
    (row :: rows).countP (Mints table arguments ·) =
      rows.countP (Mints table arguments ·) + if Mints table arguments row then 1 else 0 := by
  rw [List.countP_cons]
  simp only [decide_eq_true_eq]

/-! ## The counter -/

/-- A counter that has `left` labels to give, from `fresh` on: all of these labels have 16 bits, and
the counter is at the first of them, unless there is none. -/
structure Counts (counter : UInt16) (fresh left : Nat) : Prop where
  room : fresh + left ≤ 65536
  exact : left = 0 ∨ counter.toNat = fresh

/-- A label is taken from a counter that has one to give. -/
theorem Counts.take {left : Nat} (counts : Counts counter fresh (left + 1)) :
    counter.toNat = fresh ∧ Counts (counter + 1) (fresh + 1) left := by
  have same := counts.exact.resolve_left (Nat.succ_ne_zero left)
  have room := counts.room
  refine ⟨same, by omega, ?_⟩
  by_cases last : left = 0
  · exact .inl last
  · exact .inr (by rw [toNat_add_one (by omega), same])

/-- In the beginning the counter has the labels of all rows that take one to give. -/
theorem counts_freshLabel (room : labelEnd rows arguments ≤ 65536) :
    Counts (freshLabel rows) (pastSlots rows) (rows.countP (Mints rows arguments ·)) where
  room := room
  exact := by
    rw [labelEnd] at room
    by_cases small : pastSlots rows ≤ 65535
    · exact .inr (toNat_freshLabel small)
    · exact .inl (by omega)

/-- A row that is bound to a variable is one more row of the table. -/
theorem BindsTable.append {kind : ValueKind} {place : UInt16}
    (binds : BindsTable before arguments storage)
    (sameArguments : later.arguments = storage.arguments)
    (more : later.rows = storage.rows ++ [⟨row, kind, place⟩])
    (outside : arguments.length ≤ row.index.toNat) :
    BindsTable (before ++ [row]) arguments later where
  sameArguments := sameArguments.trans binds.sameArguments
  bound := by simp [more, binds.bound, outside]

/-- Whether a row takes a label is told from the rows that are bound before it. -/
theorem BindsTable.mints_iff (binds : BindsTable before arguments storage)
    (after : List LocalVariable) :
    Mints (before ++ row :: after) arguments row ↔
      storage.arguments.length ≤ row.index.toNat ∧
        ∃ head, storage.head? row.index = some head ∧ head.row.descriptor ≠ row.descriptor := by
  rw [Mints, binds.sameArguments]
  refine and_congr_right fun outside => ?_
  rw [FirstTyped, List.find?_append, ← binds.map_head? outside]
  cases storage.head? row.index <;> simp

/-- Adding a row binds it, and the counter goes on exactly if the row takes a label. -/
theorem AddsRow.counter_eq (adds : AddsRow scope storage counter row later next)
    (binds : BindsTable before arguments storage) (after : List LocalVariable) :
    BindsTable (before ++ [row]) arguments later ∧
      next = if Mints (before ++ row :: after) arguments row then counter + 1 else counter := by
  have mints_iff : Mints (before ++ row :: after) arguments row ↔ _ := binds.mints_iff after
  cases adds with
  | argument inside =>
    have plain := mt mints_iff.1 fun mints => absurd mints.1 (Nat.not_le.2 inside)
    refine ⟨⟨binds.sameArguments, ?_⟩, (if_neg plain).symm⟩
    rw [binds.sameArguments] at inside
    simp [binds.bound, Nat.not_le.2 inside]
  | first outside typed lowered new =>
    have plain := mt mints_iff.1 fun mints => by simp [new] at mints
    exact ⟨binds.append rfl rfl (binds.sameArguments ▸ outside), (if_neg plain).symm⟩
  | share outside typed known same =>
    have plain := mt mints_iff.1 fun mints => by simp [known, same] at mints
    exact ⟨binds.append rfl rfl (binds.sameArguments ▸ outside), (if_neg plain).symm⟩
  | change outside typed lowered known differs =>
    have mints := mints_iff.2 ⟨outside, _, known, differs⟩
    exact ⟨binds.append rfl rfl (binds.sameArguments ▸ outside), (if_pos mints).symm⟩

/-! ## Rows for arguments -/

/-- Rows for arguments are passed over. -/
theorem addRows_filter (scope : Scope) (storage : LocalStorage) (counter : UInt16)
    (rows : List LocalVariable) :
    addRows scope storage counter (rows.filter (storage.arguments.length ≤ ·.index.toNat)) =
      addRows scope storage counter rows := by
  induction rows generalizing storage counter with
  | nil => rfl
  | cons row rows induction =>
    by_cases inside : row.index.toNat < storage.arguments.length
    · rw [List.filter_cons_of_neg (by simpa using inside), induction, addRows, addRow,
        if_pos inside, pure_bind]
    · rw [List.filter_cons_of_pos (by simpa using inside), addRows, addRows]
      refine Logged.bind_congr_of_ok fun answer added => ?_
      obtain ⟨later, next⟩ := answer
      rw [← (addsRow_of_addRow added).rows_eq.1]
      exact induction later next

/-- The slots of arguments are below all others, so that leaving them out changes no fresh label. -/
theorem freshLabel_filter (small : pastSlots rows ≤ 65535)
    (filled : rows.filter (arguments.length ≤ ·.index.toNat) ≠ []) :
    freshLabel (rows.filter (arguments.length ≤ ·.index.toNat)) = freshLabel rows := by
  have same : pastSlots (rows.filter (arguments.length ≤ ·.index.toNat)) = pastSlots rows := by
    refine Nat.le_antisymm (pastSlots_le_iff.2 fun row listed => ?_)
      (pastSlots_le_iff.2 fun row listed => ?_)
    · exact index_lt_pastSlots (List.mem_of_mem_filter listed)
    · obtain ⟨other, otherListed⟩ := List.exists_mem_of_ne_nil _ filled
      have outside := of_decide_eq_true (List.mem_filter.1 otherListed).2
      have past := index_lt_pastSlots otherListed
      by_cases inside : arguments.length ≤ row.index.toNat
      · exact index_lt_pastSlots (List.mem_filter.2 ⟨listed, decide_eq_true inside⟩)
      · omega
  rw [← UInt16.toNat_inj, toNat_freshLabel small, toNat_freshLabel (same ▸ small), same]

/-- A row that takes no label is added in the same way whatever the counter is. -/
theorem addRow_of_not_mints (binds : BindsTable before arguments storage)
    {after : List LocalVariable} (plain : ¬Mints (before ++ row :: after) arguments row)
    (counter other : UInt16) :
    addRow scope storage other row =
      (fun answer => (answer.1, other)) <$> addRow scope storage counter row := by
  unfold addRow
  split
  · rfl
  · next outside =>
    have outside := Nat.le_of_not_lt outside
    rw [map_bind]
    congr 1
    funext type
    -- only a row of another type than the first one of its slot looks at the counter
    cases known : storage.rows.find? fun bound => bound.row.index = row.index with
    | none =>
      dsimp only
      rw [map_bind]
      rfl
    | some head =>
      dsimp only
      split
      · rfl
      · next differs =>
        exact absurd ((binds.mints_iff after).2 ⟨outside, head, known, differs⟩) plain

/-- Rows that take no labels are added in the same way whatever the counter is. -/
theorem addRows_of_not_mints (binds : BindsTable before arguments storage)
    (plain : ∀ row ∈ rows, ¬Mints (before ++ rows) arguments row) (counter other : UInt16) :
    addRows scope storage counter rows = addRows scope storage other rows := by
  induction rows generalizing before storage counter other with
  | nil => rfl
  | cons row rows induction =>
    obtain ⟨first, others⟩ := List.forall_mem_cons.1 plain
    rw [addRows, addRows, addRow_of_not_mints binds first counter other, bind_map_left]
    refine Logged.bind_congr_of_ok fun answer added => ?_
    obtain ⟨binds, -⟩ := (addsRow_of_addRow added).counter_eq binds rows
    refine induction binds (fun row listed => ?_) answer.2 other
    rw [List.append_assoc]
    exact others row listed

/-- Rows for arguments make no difference to a storage. -/
theorem ofTable_filter (scope : Scope) (room : labelEnd rows arguments ≤ 65536) :
    ofTable scope (rows.filter (arguments.length ≤ ·.index.toNat)) arguments =
      ofTable scope rows arguments := by
  refine Logged.bind_congr_of_ok fun object _ => ?_
  have passed := addRows_filter scope ⟨arguments, [], [], [], object⟩
    (freshLabel (rows.filter (arguments.length ≤ ·.index.toNat))) rows
  rw [passed]
  by_cases minted : ∃ row ∈ rows, Mints rows arguments row
  · -- a label is needed, and so there is no slot past which there is none
    have some : 0 < rows.countP (Mints rows arguments ·) :=
      List.countP_pos_iff.2 (by simpa using minted)
    obtain ⟨row, listed, outside, -⟩ := minted
    rw [labelEnd] at room
    rw [freshLabel_filter (by omega)]
    exact List.ne_nil_of_mem (List.mem_filter.2 ⟨listed, decide_eq_true outside⟩)
  · have empty : BindsTable [] arguments ⟨arguments, [], [], [], object⟩ := ⟨rfl, rfl⟩
    exact addRows_of_not_mints empty (fun row listed mints => minted ⟨row, listed, mints⟩) _ _

/-! ## Where labels come from -/

/-- Labels are slots of rows or come from the counter, which started at the limit and is to give the
fresh label next. -/
structure Labelled (storage : LocalStorage) (limit fresh : Nat) : Prop where
  limit_le : limit ≤ fresh
  inside : ∀ bound ∈ storage.rows, bound.row.index.toNat < limit
  distinct : (storage.locals.map Local.slot).Nodup
  origin : ∀ declared ∈ storage.locals,
    (∃ bound ∈ storage.rows, bound.row.index = declared.slot) ∨
      limit ≤ declared.slot.toNat ∧ declared.slot.toNat < fresh

/-- A row that declares a variable with a new label. -/
theorem Labelled.declareRow (labelled : storage.Labelled limit fresh)
    (bound : row.index.toNat < limit)
    {label : UInt16} {more : Nat} (new : ∀ declared ∈ storage.locals, declared.slot ≠ label)
    (later : fresh ≤ more)
    (origin : row.index = label ∨ limit ≤ label.toNat ∧ label.toNat < more) (kind : ValueKind)
    (sig : TypeSig) : (storage.declareRow label row kind sig).Labelled limit more where
  limit_le := Nat.le_trans labelled.limit_le later
  inside := List.forall_mem_append.2 ⟨labelled.inside, List.forall_mem_singleton.2 bound⟩
  distinct := by
    dsimp only [LocalStorage.declareRow]
    rw [List.map_append, List.map_singleton]
    refine List.nodup_append.2 ⟨labelled.distinct, List.nodup_singleton _, ?_⟩
    rintro old listed _ single rfl
    obtain ⟨declared, known, same⟩ := List.mem_map.1 listed
    exact new declared known (same.trans (List.mem_singleton.1 single))
  origin := by
    refine List.forall_mem_append.2 ⟨fun declared listed => ?_, List.forall_mem_singleton.2 ?_⟩
    · refine (labelled.origin declared listed).imp ?_ fun ⟨least, most⟩ => ⟨least, by omega⟩
      exact fun ⟨old, known, same⟩ => ⟨old, List.mem_append_left _ known, same⟩
    · exact origin.imp_left fun same =>
        ⟨_, List.mem_append_right _ (List.mem_singleton_self _), same⟩

/-- The first row of a slot declares a variable with the slot as a new label. -/
theorem Labelled.first (labelled : storage.Labelled limit fresh) (bound : row.index.toNat < limit)
    (new : storage.head? row.index = none) (kind : ValueKind) (sig : TypeSig) :
    (storage.declareRow row.index row kind sig).Labelled limit fresh := by
  refine labelled.declareRow bound (fun declared listed same => ?_) (Nat.le_refl _) (.inl rfl) _ _
  obtain ⟨old, known, slot⟩ | ⟨past, -⟩ := labelled.origin declared listed
  · -- the slot would have a row already
    obtain ⟨head, found⟩ := exists_head? known
    rw [slot.trans same, new] at found
    cases found
  · rw [same] at past
    omega

/-- A row that takes a label declares a variable with a new one. -/
theorem Labelled.change (labelled : storage.Labelled limit fresh) (bound : row.index.toNat < limit)
    (exact : counter.toNat = fresh) (kind : ValueKind) (sig : TypeSig) :
    (storage.declareRow counter row kind sig).Labelled limit (fresh + 1) := by
  have least := labelled.limit_le
  refine labelled.declareRow bound (fun declared listed same => ?_) (Nat.le_succ _) (.inr ?_) _ _
  · obtain ⟨old, known, slot⟩ | ⟨-, below⟩ := labelled.origin declared listed
    · have := labelled.inside old known
      rw [slot, same] at this
      omega
    · rw [same] at below
      omega
  · omega

/-- A row that shares a variable takes no label. -/
theorem Labelled.share (labelled : storage.Labelled limit fresh) (bound : row.index.toNat < limit)
    (head : BoundRow) (kind : ValueKind) :
    (storage.shareRow head row kind).Labelled limit fresh := by
  refine ⟨labelled.limit_le, ?_, labelled.distinct, fun declared listed => ?_⟩
  · exact List.forall_mem_append.2 ⟨labelled.inside, List.forall_mem_singleton.2 bound⟩
  · refine (labelled.origin declared listed).imp_left ?_
    exact fun ⟨old, known, same⟩ => ⟨old, List.mem_append_left _ known, same⟩

/-- Distinct labels of 16 bits are those of at most so many variables. -/
theorem Labelled.length_le (labelled : storage.Labelled limit fresh) :
    storage.locals.length ≤ 65536 := by
  have distinct := labelled.distinct.map fun _ _ => UInt16.toNat_inj.1
  have small : (storage.locals.map Local.slot).map UInt16.toNat ⊆ List.range 65536 := by
    intro label listed
    obtain ⟨slot, -, rfl⟩ := List.mem_map.1 listed
    exact List.mem_range.2 slot.toNat_lt
  have few := (distinct.subperm small).length_le
  rwa [List.length_map, List.length_map, List.length_range] at few

/-! ## How rows are bound to labels -/

/-- The row is bound to a variable that is labelled with its slot if the row has the first type of
the slot, and otherwise from the limit on. -/
def LabelsRow (storage : LocalStorage) (limit : Nat) (bound : BoundRow) : Prop :=
  ∃ declared, storage.locals[bound.place.toNat]? = some declared ∧
    (storage.HasFirstType bound → declared.slot = bound.row.index) ∧
    (¬storage.HasFirstType bound → limit ≤ declared.slot.toNat)

/-- The rows are bound to the labels of their types, and every variable has a row. -/
structure BindsLabels (storage : LocalStorage) (limit : Nat) : Prop where
  rows : ∀ bound ∈ storage.rows, storage.LabelsRow limit bound
  /-- Only rows with the first type of a slot share a variable. -/
  own : storage.rows.Pairwise fun one other =>
    one.place = other.place → storage.HasFirstType one ∧ storage.HasFirstType other
  covered : ∀ index < storage.locals.length, ∃ bound ∈ storage.rows, bound.place.toNat = index

/-- The place of a row that has a label is that of a variable. -/
theorem LabelsRow.place_lt {bound : BoundRow} (labels : storage.LabelsRow limit bound) :
    bound.place.toNat < storage.locals.length := by
  obtain ⟨_, found, -⟩ := labels
  exact (List.getElem?_eq_some_iff.1 found).1

/-- One more row keeps the labels of the rows that are bound. -/
theorem LabelsRow.append {new bound : BoundRow} (labels : storage.LabelsRow limit bound)
    (listed : bound ∈ storage.rows) (more : later.rows = storage.rows ++ [new])
    (grows : storage.locals <+: later.locals) : later.LabelsRow limit bound := by
  obtain ⟨declared, found, first, other⟩ := labels
  refine ⟨declared, getElem?_of_prefix grows found, ?_⟩
  rw [hasFirstType_append more listed]
  exact ⟨first, other⟩

/-- One more row that is bound to the label of its type. -/
theorem BindsLabels.append {new : BoundRow} (binds : storage.BindsLabels limit)
    (more : later.rows = storage.rows ++ [new]) (grows : storage.locals <+: later.locals)
    (labels : later.LabelsRow limit new)
    (own : ∀ old ∈ storage.rows, old.place = new.place →
      storage.HasFirstType old ∧ later.HasFirstType new)
    (covered : ∀ index, storage.locals.length ≤ index → index < later.locals.length →
      new.place.toNat = index) : later.BindsLabels limit where
  rows bound listed := by
    rw [more, List.mem_append, List.mem_singleton] at listed
    obtain listed | rfl := listed
    · exact (binds.rows bound listed).append listed more grows
    · exact labels
  own := by
    rw [more]
    refine List.pairwise_append.2 ⟨?_, List.pairwise_singleton _ _, ?_⟩
    · refine binds.own.imp_of_mem fun oneListed otherListed shares => ?_
      rwa [hasFirstType_append more oneListed, hasFirstType_append more otherListed]
    -- only the pairs with the new row are new
    · intro old listed _ single same
      rw [List.mem_singleton.1 single] at same ⊢
      rw [hasFirstType_append more listed]
      exact own old listed same
  covered index inside := by
    rw [more]
    by_cases known : index < storage.locals.length
    · obtain ⟨bound, listed, same⟩ := binds.covered index known
      exact ⟨bound, List.mem_append_left _ listed, same⟩
    · exact ⟨new, List.mem_append_right _ (List.mem_singleton_self _),
        covered index (Nat.le_of_not_lt known) inside⟩

/-- A row that declares a variable is bound to it, and no other row is. -/
theorem BindsLabels.declareRow (binds : storage.BindsLabels limit)
    (few : storage.locals.length < 65536) {label : UInt16} {kind : ValueKind} {sig : TypeSig}
    (labels : (storage.declareRow label row kind sig).HasFirstType ⟨row, kind, storage.nextIndex⟩ ∧
        label = row.index ∨
      ¬(storage.declareRow label row kind sig).HasFirstType ⟨row, kind, storage.nextIndex⟩ ∧
        limit ≤ label.toNat) :
    (storage.declareRow label row kind sig).BindsLabels limit := by
  have number := toNat_nextIndex few
  refine binds.append rfl (List.prefix_append _ _) ⟨⟨label, some row.name, sig⟩, ?_, ?_⟩ ?_ ?_
  · dsimp only [LocalStorage.declareRow]
    rw [number, List.getElem?_concat_length]
  · obtain ⟨isFirst, same⟩ | ⟨other, past⟩ := labels
    · exact ⟨fun _ => same, fun other => absurd isFirst other⟩
    · exact ⟨fun isFirst => absurd isFirst other, fun _ => past⟩
  -- no earlier row has the place of the new variable
  · intro old listed same
    have bound := (binds.rows old listed).place_lt
    rw [same, number] at bound
    exact absurd bound (Nat.lt_irrefl _)
  · intro index least inside
    rw [length_declareRow] at inside
    dsimp only
    omega

/-- Two rows with one variable are one row, or both have the first type of a slot. -/
theorem BindsLabels.eq_or_hasFirstType (binds : storage.BindsLabels limit) {one other : BoundRow}
    (listed : one ∈ storage.rows) (otherListed : other ∈ storage.rows)
    (same : one.place = other.place) :
    one = other ∨ storage.HasFirstType one ∧ storage.HasFirstType other := by
  have symmetric : Std.Symm fun one other : BoundRow => one.place = other.place →
      storage.HasFirstType one ∧ storage.HasFirstType other :=
    ⟨fun _ _ shares same => (shares same.symm).symm⟩
  by_cases equal : one = other
  · exact .inl equal
  · exact .inr (binds.own.forall listed otherListed equal same)

/-- A row that shares the variable of the first row of its slot. -/
theorem BindsLabels.shareRow (binds : storage.BindsLabels limit) {head : BoundRow}
    (known : storage.head? row.index = some head) (same : head.row.descriptor = row.descriptor)
    (kind : ValueKind) : (storage.shareRow head row kind).BindsLabels limit := by
  obtain ⟨headListed, headSlot⟩ := mem_of_head? known
  have headFirst : storage.HasFirstType head := ⟨head, by rw [headSlot, known], rfl⟩
  have isFirst : (storage.shareRow head row kind).HasFirstType ⟨row, kind, head.place⟩ :=
    ⟨head, head?_append rfl known, same⟩
  obtain ⟨declared, found, label, -⟩ := binds.rows head headListed
  refine binds.append rfl List.prefix_rfl ⟨declared, found, ?_, ?_⟩ ?_ ?_
  · exact fun _ => (label headFirst).trans headSlot
  · exact fun other => absurd isFirst other
  · intro old listed shares
    obtain rfl | ⟨oldFirst, -⟩ := binds.eq_or_hasFirstType listed headListed shares
    · exact ⟨headFirst, isFirst⟩
    · exact ⟨oldFirst, isFirst⟩
  · exact fun index least inside => absurd inside (Nat.not_lt.2 least)

/-- The first row of a slot is bound to the label of its type. -/
theorem BindsLabels.first (binds : storage.BindsLabels limit) (few : storage.locals.length < 65536)
    (new : storage.head? row.index = none) (kind : ValueKind) (sig : TypeSig) :
    (storage.declareRow row.index row kind sig).BindsLabels limit := by
  refine binds.declareRow few (.inl ⟨⟨_, ?_, rfl⟩, rfl⟩)
  rw [head?] at new ⊢
  dsimp only [LocalStorage.declareRow]
  rw [List.find?_append, new]
  simp

/-- A row that takes a label is bound to it. -/
theorem BindsLabels.change (binds : storage.BindsLabels limit) (few : storage.locals.length < 65536)
    {head : BoundRow} (known : storage.head? row.index = some head)
    (differs : head.row.descriptor ≠ row.descriptor) (least : limit ≤ counter.toNat)
    (kind : ValueKind) (sig : TypeSig) :
    (storage.declareRow counter row kind sig).BindsLabels limit := by
  refine binds.declareRow few (.inr ⟨?_, least⟩)
  rintro ⟨head, found, same⟩
  cases (head?_append rfl known).symm.trans found
  exact differs same

/-! ## Whole tables -/

/-- Adding a row keeps labels apart and binds the row to the label of its type, if the counter has
the labels of the row and of those behind it to give. -/
theorem AddsRow.labels (adds : AddsRow scope storage counter row later next)
    (binds : BindsTable before arguments storage) (labelled : storage.Labelled limit fresh)
    (labels : storage.BindsLabels limit) (bound : row.index.toNat < limit)
    (counts : Counts counter fresh
      ((row :: rows).countP (Mints (before ++ row :: rows) arguments ·))) :
    ∃ more, later.Labelled limit more ∧ later.BindsLabels limit ∧
      Counts next more (rows.countP (Mints (before ++ row :: rows) arguments ·)) := by
  have mints_iff : Mints (before ++ row :: rows) arguments row ↔ _ := binds.mints_iff rows
  rw [countP_mints_cons] at counts
  -- a variable that is declared has one of the 16-bit labels
  have few {label : UInt16} {more : Nat} {kind : ValueKind} {sig : TypeSig}
      (declares : (storage.declareRow label row kind sig).Labelled limit more) :
      storage.locals.length < 65536 := by
    have many := declares.length_le
    rwa [length_declareRow] at many
  cases adds with
  | argument inside =>
    rw [if_neg (mt mints_iff.1 fun mints => absurd mints.1 (Nat.not_le.2 inside))] at counts
    exact ⟨fresh, labelled, labels, counts⟩
  | @first type sig outside typed lowered new =>
    rw [if_neg (mt mints_iff.1 fun mints => by simp [new] at mints)] at counts
    have declares := labelled.first bound new type.kind sig
    exact ⟨fresh, declares, labels.first (few declares) new _ _, counts⟩
  | @share type head outside typed known same =>
    rw [if_neg (mt mints_iff.1 fun mints => by simp [known, same] at mints)] at counts
    exact ⟨fresh, labelled.share bound head type.kind, labels.shareRow known same _, counts⟩
  | @change type sig head outside typed lowered known differs =>
    rw [if_pos (mints_iff.2 ⟨outside, head, known, differs⟩)] at counts
    obtain ⟨exact, counts⟩ := counts.take
    have declares := labelled.change bound exact type.kind sig
    have least : limit ≤ counter.toNat := exact ▸ labelled.limit_le
    exact ⟨fresh + 1, declares, labels.change (few declares) known differs least _ _, counts⟩

/-- What the labels of a storage are after some rows of a table. -/
theorem addRows_labels (added : (addRows scope storage counter rows).result = .ok later)
    (binds : BindsTable before arguments storage) (labelled : storage.Labelled limit fresh)
    (labels : storage.BindsLabels limit) (bound : ∀ row ∈ rows, row.index.toNat < limit)
    (counts : Counts counter fresh (rows.countP (Mints (before ++ rows) arguments ·))) :
    (∃ more, later.Labelled limit more) ∧ later.BindsLabels limit := by
  induction rows generalizing before storage counter fresh with
  | nil =>
    cases added
    exact ⟨⟨fresh, labelled⟩, labels⟩
  | cons row rows induction =>
    obtain ⟨rowBound, bound⟩ := List.forall_mem_cons.1 bound
    obtain ⟨⟨middle, next⟩, first, others⟩ := Logged.bind_eq_ok.1 added
    have adds := addsRow_of_addRow first
    obtain ⟨more, labelled, labels, counts⟩ := adds.labels binds labelled labels rowBound counts
    obtain ⟨binds, -⟩ := adds.counter_eq binds rows
    refine induction others binds labelled labels bound ?_
    rwa [List.append_assoc]

/-- Behind the arguments, rows with the first type of their slot are those that have it in the
table. -/
theorem BindsTable.firstTyped_iff (binds : BindsTable rows arguments storage) {bound : BoundRow}
    (listed : bound ∈ storage.rows) : storage.HasFirstType bound ↔ FirstTyped rows bound.row := by
  have member : bound.row ∈ rows.filter (arguments.length ≤ ·.index.toNat) :=
    binds.bound ▸ List.mem_map_of_mem listed
  rw [binds.hasFirstType_iff (of_decide_eq_true (List.mem_filter.1 member).2), FirstTyped,
    Option.map_eq_some_iff]
  simp only [eq_comm]

/-- The row is bound to the variable, which has the type of the row. -/
structure BindsTo (scope : Scope) (storage : LocalStorage) (bound : BoundRow) (declared : Local) :
    Prop where
  found : storage.locals[bound.place.toNat]? = some declared
  typed : ∃ type, FieldType.ofDescriptor? bound.row.descriptor = some type ∧
    scope.fieldSig type = .ok declared.sig

/-- A storage for a table with labels of 16 bits has each label once. A row that has the first type
of its slot is bound to a variable labelled with the slot; every other row is bound to a variable of
its own, labelled past all slots of the table. Rows for arguments make no difference. -/
theorem ofTable_labels (built : (ofTable scope rows arguments).result = .ok storage)
    (room : labelEnd rows arguments ≤ 65536) :
    (storage.locals.map Local.slot).Nodup ∧
    storage.rows.map BoundRow.row = rows.filter (arguments.length ≤ ·.index.toNat) ∧
    (∀ bound ∈ storage.rows, ∃ declared, storage.BindsTo scope bound declared ∧
      (FirstTyped rows bound.row → declared.slot = bound.row.index) ∧
      (¬FirstTyped rows bound.row → ∀ row ∈ rows, row.index < declared.slot)) ∧
    (storage.rows.Pairwise fun one other => one.place = other.place →
      FirstTyped rows one.row ∧ FirstTyped rows other.row) ∧
    (∀ index < storage.locals.length, ∃ bound ∈ storage.rows, bound.place.toNat = index) ∧
    ofTable scope (rows.filter (arguments.length ≤ ·.index.toNat)) arguments =
      ofTable scope rows arguments := by
  obtain ⟨sameArguments, bound, well⟩ := ofTable_spec built
  obtain ⟨object, -, added⟩ := Logged.bind_eq_ok.1 built
  -- the run over the table starts with nothing bound and the counter past all slots
  have empty : BindsTable [] arguments ⟨arguments, [], [], [], object⟩ := ⟨rfl, rfl⟩
  have start : Labelled ⟨arguments, [], [], [], object⟩ (pastSlots rows) (pastSlots rows) :=
    ⟨Nat.le_refl _, List.forall_mem_nil _, List.nodup_nil, List.forall_mem_nil _⟩
  have unbound : BindsLabels ⟨arguments, [], [], [], object⟩ (pastSlots rows) :=
    ⟨List.forall_mem_nil _, .nil, fun _ inside => absurd inside (Nat.not_lt_zero _)⟩
  obtain ⟨⟨_, labelled⟩, binds⟩ := addRows_labels added empty start unbound
    (fun row listed => index_lt_pastSlots listed) (counts_freshLabel room)
  have few := labelled.length_le
  have table : BindsTable rows arguments storage := ⟨sameArguments, bound⟩
  refine ⟨labelled.distinct, bound, fun row listed => ?_, ?_, binds.covered,
    ofTable_filter scope room⟩
  · obtain ⟨declared, found, first, other⟩ := binds.rows row listed
    obtain ⟨type, typed, -, _, foundToo, -, lowered⟩ := (well few).rows row listed
    cases found.symm.trans foundToo
    rw [table.firstTyped_iff listed] at first other
    refine ⟨declared, ⟨found, type, typed, lowered⟩, first, fun differs row member => ?_⟩
    exact UInt16.lt_iff_toNat_lt.2 (Nat.lt_of_lt_of_le (index_lt_pastSlots member) (other differs))
  · refine binds.own.imp_of_mem fun oneListed otherListed shares same => ?_
    rw [← table.firstTyped_iff oneListed, ← table.firstTyped_iff otherListed]
    exact shares same

/-- The rows of `changingTable`, and one for an argument with a text that is no type. -/
def mistypedTable : List LocalVariable := ⟨0, 9, "x", "?", 1⟩ :: changingTable

/-- Five variables with the labels 3 to 7; the fourth row behind the arguments has a label past all
slots. -/
theorem ofTable_labels_changing :
    ∃ storage,
      (ofTable ⟨Catalog.standard, .empty "M"⟩ mistypedTable [some 0, some 1, none]).result =
        .ok storage ∧
      labelEnd mistypedTable [some 0, some 1, none] = 8 ∧
      storage.locals.map Local.slot = [3, 5, 6, 4, 7] ∧
      (storage.locals.map Local.slot).Nodup ∧
      -- the second long of slot 3, which is the fourth row behind the arguments
      ∃ bound ∈ storage.rows, bound.row = ⟨30, 10, "m", "J", 3⟩ ∧
        ¬FirstTyped mistypedTable bound.row ∧
        ∃ declared, storage.BindsTo ⟨Catalog.standard, .empty "M"⟩ bound declared ∧
          ∀ row ∈ mistypedTable, row.index < declared.slot := by
  have evaluated : ∃ storage ∈ (ofTable ⟨Catalog.standard, .empty "M"⟩ mistypedTable
        [some 0, some 1, none]).result.toOption,
      storage.locals.map Local.slot = [3, 5, 6, 4, 7] ∧
        ∃ bound ∈ storage.rows, bound.row = ⟨30, 10, "m", "J", 3⟩ := by
    decide +kernel
  obtain ⟨storage, built, labels, bound, listed, row⟩ := evaluated
  have built := Except.eq_ok_of_mem_toOption built
  have last : labelEnd mistypedTable [some 0, some 1, none] = 8 := by decide
  obtain ⟨distinct, -, binds, -⟩ := ofTable_labels built (by omega)
  obtain ⟨declared, typed, -, past⟩ := binds bound listed
  have differs : ¬FirstTyped mistypedTable bound.row := by
    rw [row]
    decide
  exact ⟨storage, built, last, labels, distinct, bound, listed, row, differs, declared, typed,
    past differs⟩

/-! ## Overflow -/

/-- The counter passes the last label while rows are added: at some step its next number is not a
larger one. -/
inductive Wraps (scope : Scope) : LocalStorage → UInt16 → List LocalVariable → Prop where
  | now {storage later : LocalStorage} {counter next : UInt16} {row : LocalVariable}
      {rows : List LocalVariable}
      (added : (addRow scope storage counter row).result = .ok (later, next))
      (smaller : next < counter) : Wraps scope storage counter (row :: rows)
  | later {storage later : LocalStorage} {counter next : UInt16} {row : LocalVariable}
      {rows : List LocalVariable}
      (added : (addRow scope storage counter row).result = .ok (later, next))
      (wraps : Wraps scope later next rows) : Wraps scope storage counter (row :: rows)

/-- A number of 16 bits is passed while the labels of a table are computed: behind one of its slots,
or by the counter. -/
def Overflows (scope : Scope) (rows : List LocalVariable) (arguments : List (Option UInt16)) :
    Prop :=
  ∃ object, scope.objectSig = .ok object ∧
    ((∃ row ∈ rows, row.index + 1 < row.index) ∨
      Wraps scope ⟨arguments, [], [], [], object⟩ (freshLabel rows) rows)

/-- The next number is a smaller one only behind the last number. -/
theorem add_one_lt_iff (label : UInt16) : label + 1 < label ↔ label.toNat = 65535 := by
  have bound := label.toNat_lt
  rw [UInt16.lt_iff_toNat_lt]
  by_cases last : label.toNat < 65535
  · rw [toNat_add_one last]
    omega
  · have same : label = 65535 := UInt16.toNat_inj.1 (by change label.toNat = 65535; omega)
    subst same
    decide

/-- A counter that wraps around has more labels to give than there are. -/
theorem Wraps.lt (wraps : Wraps scope storage counter rows)
    (binds : BindsTable before arguments storage) :
    65535 < counter.toNat + rows.countP (Mints (before ++ rows) arguments ·) := by
  -- along the rows up to the one that wraps; each row that makes a label moves the counter by one
  induction wraps generalizing before with
  | @now storage later counter next row rows added smaller =>
    obtain ⟨-, moves⟩ := (addsRow_of_addRow added).counter_eq binds rows
    rw [countP_mints_cons]
    split at moves
    · next mints =>
      rw [moves, add_one_lt_iff] at smaller
      rw [if_pos mints]
      omega
    · exact absurd (moves ▸ smaller) (UInt16.lt_irrefl _)
  | @later storage middle counter next row rows added wraps induction =>
    obtain ⟨binds, moves⟩ := (addsRow_of_addRow added).counter_eq binds rows
    have more := induction binds
    rw [List.append_assoc, List.singleton_append] at more
    rw [countP_mints_cons]
    split at moves
    · next mints =>
      rw [if_pos mints]
      by_cases last : counter.toNat < 65535
      · rw [moves, toNat_add_one last] at more
        omega
      · omega
    · next plain =>
      rw [if_neg plain, ← moves]
      exact more

/-- A counter with more labels to give than there are wraps around, unless a row fails before. -/
theorem wraps_of_lt (added : (addRows scope storage counter rows).result = .ok later)
    (binds : BindsTable before arguments storage)
    (exceeds : 65535 < counter.toNat + rows.countP (Mints (before ++ rows) arguments ·)) :
    Wraps scope storage counter rows := by
  induction rows generalizing before storage counter with
  | nil =>
    -- a word is below its bound, so no labels are left to give
    have bound := counter.toNat_lt
    rw [List.countP_nil] at exceeds
    omega
  | cons row rows induction =>
    obtain ⟨⟨middle, next⟩, first, others⟩ := Logged.bind_eq_ok.1 added
    obtain ⟨binds, moves⟩ := (addsRow_of_addRow first).counter_eq binds rows
    -- if the counter did not wrap here, there are still as many labels to give as before
    by_cases smaller : next < counter
    · exact .now first smaller
    · refine .later first (induction others binds ?_)
      rw [List.append_assoc, List.singleton_append]
      rw [countP_mints_cons] at exceeds
      split at moves
      · next mints =>
        rw [moves, add_one_lt_iff] at smaller
        have bound := counter.toNat_lt
        rw [if_pos mints] at exceeds
        rw [moves, toNat_add_one (by omega)]
        omega
      · next plain =>
        rw [if_neg plain] at exceeds
        rw [moves]
        exact exceeds

/-- The number past all slots has 16 bits, unless there is nothing behind one of them. -/
theorem pastSlots_le_of_not_last (inside : ¬∃ row ∈ rows, row.index + 1 < row.index) :
    pastSlots rows ≤ 65535 := by
  refine pastSlots_le_iff.2 fun row listed => ?_
  have bound := row.index.toNat_lt
  have last := mt (fun smaller => ⟨row, listed, smaller⟩) inside
  rw [add_one_lt_iff] at last
  omega

/-- Numbers of 16 bits are passed only if the labels of a table go past 65535. -/
theorem Overflows.lt (overflows : Overflows scope rows arguments) :
    65535 < labelEnd rows arguments := by
  obtain ⟨object, -, overflows⟩ := overflows
  rw [labelEnd]
  by_cases last : ∃ row ∈ rows, row.index + 1 < row.index
  · obtain ⟨row, listed, smaller⟩ := last
    have past := index_lt_pastSlots listed
    rw [add_one_lt_iff] at smaller
    omega
  · have empty : BindsTable [] arguments ⟨arguments, [], [], [], object⟩ := ⟨rfl, rfl⟩
    have exceeds := (overflows.resolve_left last).lt empty
    rwa [toNat_freshLabel (pastSlots_le_of_not_last last)] at exceeds

/-- Numbers of 16 bits are passed exactly if the labels of a table go past 65535, in a table that
has a storage. -/
theorem overflows_iff (built : (ofTable scope rows arguments).result = .ok storage) :
    Overflows scope rows arguments ↔ 65535 < labelEnd rows arguments := by
  refine ⟨Overflows.lt, fun exceeds => ?_⟩
  obtain ⟨object, found, added⟩ := Logged.bind_eq_ok.1 built
  refine ⟨object, found, ?_⟩
  by_cases last : ∃ row ∈ rows, row.index + 1 < row.index
  · exact .inl last
  · have empty : BindsTable [] arguments ⟨arguments, [], [], [], object⟩ := ⟨rfl, rfl⟩
    rw [labelEnd, ← toNat_freshLabel (pastSlots_le_of_not_last last)] at exceeds
    exact .inr (wraps_of_lt added empty exceeds)

end LocalStorage

end ClassLowering
