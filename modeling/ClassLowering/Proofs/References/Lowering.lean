import ClassLowering.Proofs.References.Resolution

/-! # Lowering commutes with renaming types

Lowering gets types only by looking names up. What is lowered in a scope that finds renamed types is
what is lowered in the first scope, with types renamed: instructions (`Emit.follows_lower`), bodies
(`follows_lowerBody`), declarations and whole classes (`follows_lowerContents`). -/

namespace ClassLowering

open Target (FieldRef MethodRef MethodSig TypeRef TypeSig)

/-! ## Lowering instructions -/

/-- The second step gives what the first one gives, changed by a function, when it starts with a
storage whose types are renamed; and it leaves such a storage. -/
def Emit.Follows {α β : Type} (f : TypeRef → TypeRef) (g : α → β) (first : Emit α)
    (second : Emit β) : Prop :=
  ∀ storage, Logged.Follows (Prod.map g (LocalStorage.rename f)) (first storage)
    (second (storage.rename f))

namespace Emit.Follows

variable {α β γ δ : Type} {f : TypeRef → TypeRef} {g : α → β} {h : γ → δ}

/-- A value follows the one that it is changed from. -/
theorem pure {value : α} {changed : β} (same : changed = g value) :
    Follows f g (Pure.pure value) (Pure.pure changed) := fun _ => by
  rw [same]
  rfl

/-- A sequence follows another one if its first step and its continuation do. -/
theorem bind {first : Emit α} {second : Emit β} {next : α → Emit γ} {nextSecond : β → Emit δ}
    (follows : Follows f g first second)
    (rest : ∀ value, Follows f h (next value) (nextSecond (g value))) :
    Follows f h (first >>= next) (second >>= nextSecond) := fun storage =>
  Logged.Follows.bind (follows storage) fun (value, later) => rest value later

/-- A computation that is lifted follows another one if it does without storage. -/
theorem lift {first : Logged Error α} {second : Logged Error β}
    (follows : Logged.Follows g first second) : Follows f g (liftM first) (liftM second) :=
  fun _ => Logged.Follows.bind follows fun _ => rfl

/-- An outcome that is there already follows the one that it is changed from. -/
theorem liftExcept {first : Except Error α} {second : Except Error β}
    (same : second = g <$> first) :
    Follows f g (liftM first) (liftM second) :=
  fun _ => Logged.Follows.bind (Logged.Follows.lift same) fun _ => rfl

/-- What is made of a result follows what is made of another one. -/
theorem map {first : Emit α} {second : Emit β} {next : α → γ} {nextSecond : β → δ}
    (follows : Follows f g first second) (rest : ∀ value, nextSecond (g value) = h (next value)) :
    Follows f h (next <$> first) (nextSecond <$> second) := by
  rw [← bind_pure_comp, ← bind_pure_comp]
  exact .bind follows fun value => .pure (rest value)

end Emit.Follows

namespace LocalStorage

open Bytecode (ValueKind)

variable (f : TypeRef → TypeRef) (storage : LocalStorage)

/-- The type of a variable is renamed with that of objects. -/
theorem kindSig_rename (object : TypeSig) (kind : ValueKind) :
    kindSig (object.rename f) kind = (kindSig object kind).rename f := by
  cases kind <;> rfl

/-- Renaming declares no variable. -/
theorem nextIndex_rename : (storage.rename f).nextIndex = storage.nextIndex := by
  rw [nextIndex, nextIndex, rename, List.length_map]

/-- Renaming types keeps the variables for accesses that no row covers. -/
theorem follows_lookupSynthetic (slot : Nat) (offset : UInt32) (kind : ValueKind) :
    Logged.Follows (Prod.map id (rename f)) (storage.lookupSynthetic slot offset kind)
      ((storage.rename f).lookupSynthetic slot offset kind) := by
  unfold lookupSynthetic
  rw [nextIndex_rename]
  dsimp only [rename]
  generalize storage.synthetic.find? _ = known
  cases known with
  | some known => exact .pure (known.place, storage)
  | none =>
    refine .bind (.refl _) fun _ => ?_
    rw [kindSig_rename]
    change Except.ok _ = Except.ok _
    rw [Prod.map_apply, rename, List.map_append]
    rfl

/-- Renaming types keeps where slots are. -/
theorem follows_lookup (slot : Nat) (offset : UInt32) (kind : ValueKind) :
    Logged.Follows (Prod.map id (rename f)) (storage.lookup slot offset kind)
      ((storage.rename f).lookup slot offset kind) := by
  have synthetic := storage.follows_lookupSynthetic f slot offset kind
  unfold lookup covering
  rw [show (storage.rename f).arguments = storage.arguments from rfl,
    show (storage.rename f).rows = storage.rows from rfl]
  generalize storage.arguments[slot]? = argument
  cases argument with
  | some argument =>
    cases argument with
    | some index => exact .pure (Place.parameter index, storage)
    | none => exact .throw _
  | none =>
    generalize storage.rows.filter _ = covering
    match covering with
    | [] => exact .bind synthetic fun _ => rfl
    | [bound] => exact .pure (Place.localVariable bound.place, storage)
    | first :: second :: rest => exact .throw _

end LocalStorage

namespace Emit

open Bytecode (ValueKind)

variable {f : TypeRef → TypeRef}

/-- A load is renamed with the storage that it asks. -/
theorem follows_load (slot : Nat) (offset : UInt32) (kind : ValueKind) :
    Follows f (Target.Instruction.rename f) (load slot offset kind) (load slot offset kind) := by
  refine .bind (fun storage => storage.follows_lookup f slot offset kind) fun place => ?_
  cases place <;> exact .pure rfl

/-- A store is renamed with the storage that it asks. -/
theorem follows_store (slot : Nat) (offset : UInt32) (kind : ValueKind) :
    Follows f (Target.Instruction.rename f) (store slot offset kind) (store slot offset kind) := by
  refine .bind (fun storage => storage.follows_lookup f slot offset kind) fun place => ?_
  cases place <;> exact .pure rfl

/-- A deferred record has nothing to rename. -/
theorem follows_unmapped (instruction : Bytecode.Instruction) :
    Follows f (Contribution.rename f) (unmapped instruction) (unmapped instruction) :=
  .bind (.lift (.refl _)) fun _ => .pure rfl

/-- An outcome that has nothing to rename follows itself. -/
theorem Follows.reflExcept {α : Type} (outcome : Except Error α) :
    Follows f id (liftM outcome) (liftM outcome) :=
  .liftExcept (id_map outcome).symm

/-- The method that wraps texts is not renamed. -/
theorem rename_stringFactory
    (text : f ⟨Catalog.stringClass, .library⟩ = ⟨Catalog.stringClass, .library⟩) :
    Catalog.stringFactory.rename f = Catalog.stringFactory := by
  change (⟨f ⟨_, _⟩, _, ⟨_, [.nativeString], .object (f ⟨_, _⟩)⟩⟩ : MethodRef) = _
  rw [text]
  rfl

/-- A constant has nothing to rename but the type of texts, which is kept. -/
theorem follows_constant
    (text : f ⟨Catalog.stringClass, .library⟩ = ⟨Catalog.stringClass, .library⟩)
    (pool : ConstantPool) (instruction : Bytecode.Instruction) :
    Follows f (Contribution.rename f) (constant pool instruction) (constant pool instruction) := by
  refine .bind (.reflExcept _) fun value => ?_
  cases value with
  | string content =>
    refine .pure ?_
    change _ = Contribution.instructions [.ldstr content, .call (Catalog.stringFactory.rename f)]
    rw [rename_stringFactory text]
  | integer | float | long | double => exact .pure rfl
  | _ => exact follows_unmapped instruction

/-- An increment is renamed with the storage that it asks. -/
theorem follows_increment (instruction : Bytecode.Instruction) (next : UInt32) :
    Follows f (Contribution.rename f) (increment instruction next)
      (increment instruction next) := by
  unfold increment
  split
  · exact .bind (follows_load _ _ _) fun _ => .bind (follows_store _ _ _) fun _ => .pure rfl
  · exact .pure rfl

/-- Fixed counterparts mention no types. -/
theorem rename_fixedCounterpart {operation : Bytecode.Operation}
    {counterpart : Target.Instruction} (fixed : fixedCounterpart operation = some counterpart) :
    counterpart.rename f = counterpart := by
  unfold fixedCounterpart at fixed
  split at fixed <;> cases fixed <;> rfl

/-- Elements of primitive arrays mention no types. -/
theorem rename_primitiveElement {code : Int32} {element : TypeSig}
    (primitive : primitiveElement code = some element) : element.rename f = element := by
  unfold primitiveElement at primitive
  split at primitive <;> cases primitive <;> rfl

/-- An instruction is lowered in the second scope to what it is in the first, renamed. -/
theorem follows_lower {first second : Scope} (renames : first.Renames f second)
    (pool : ConstantPool) (instruction : Bytecode.Instruction) (next : UInt32) :
    Follows f (Contribution.rename f) (lower first pool instruction next)
      (lower second pool instruction next) := by
  unfold lower
  split
  · exact .pure rfl
  · split
    · next counterpart fixed =>
      exact .pure (congrArg Contribution.single (rename_fixedCounterpart fixed).symm)
    · split
      -- by operation, in the order of the definition; only members and classes come from the scope
      · exact .map (follows_load _ _ _) fun _ => rfl
      · exact .map (follows_load _ _ _) fun _ => rfl
      · exact .map (follows_store _ _ _) fun _ => rfl
      · exact .map (follows_store _ _ _) fun _ => rfl
      · exact .pure rfl
      · exact .pure rfl
      · exact follows_constant renames.text pool instruction
      · exact follows_constant renames.text pool instruction
      · exact follows_constant renames.text pool instruction
      · exact follows_increment instruction next
      · next access _ =>
        refine .bind (.reflExcept _) fun reference => ?_
        exact .bind (.lift (renames.field reference)) fun field => .pure (by cases access <;> rfl)
      · next invocation _ =>
        refine .bind (.reflExcept _) fun reference => ?_
        exact .bind (.lift (renames.method reference)) fun method =>
          .pure (by cases invocation <;> rfl)
      · refine .bind (.reflExcept _) fun name => ?_
        exact .bind (.liftExcept (renames.types name)) fun type => .pure rfl
      · split
        · next element found =>
          obtain ⟨code, -, primitive⟩ := Option.bind_eq_some_iff.1 found
          refine .pure ?_
          change _ = Contribution.single (.newarr (element.rename f))
          rw [rename_primitiveElement primitive]
        · exact follows_unmapped instruction
      · refine .bind (.reflExcept _) fun name => ?_
        exact .bind (.liftExcept (renames.types.classSig name)) fun element => .pure rfl
      · refine .bind (.reflExcept _) fun name => ?_
        exact .bind (.liftExcept (renames.types.classSig name)) fun type => .pure rfl
      · exact follows_unmapped instruction

end Emit

/-! ## Lowering bodies -/

section

variable {f : TypeRef → TypeRef} {first second : Scope}

/-- All instructions of a method are lowered in the second scope to what they are in the first,
renamed. -/
theorem follows_lowerInstructions (renames : first.Renames f second) (pool : ConstantPool)
    (code : List (Bytecode.Instruction × UInt32)) :
    Emit.Follows f (List.map (Prod.map id (Contribution.rename f)))
      (lowerInstructions first pool code) (lowerInstructions second pool code) := by
  induction code with
  | nil => exact .pure rfl
  | cons pair rest induction =>
    refine .bind (Emit.follows_lower renames pool pair.1 pair.2) fun contribution => ?_
    exact .bind induction fun others => .pure rfl

/-- Instructions may be renamed before or after they are collected. -/
theorem collectInstructions_rename (contributions : List (UInt32 × Contribution)) :
    collectInstructions (contributions.map (Prod.map id (Contribution.rename f))) =
      (collectInstructions contributions).map (Prod.map id (Target.Instruction.rename f)) := by
  rw [collectInstructions, collectInstructions, List.flatMap_map, List.map_flatMap]
  congr 1
  funext (offset, contribution)
  cases contribution with
  | instructions list =>
    change (list.map _).map _ = (list.map _).map _
    rw [List.map_map, List.map_map]
    rfl
  | deferred record => rfl

/-- Deferred records are collected the same, since there is nothing to rename in them. -/
theorem collectDeferred_rename (contributions : List (UInt32 × Contribution)) :
    collectDeferred (contributions.map (Prod.map id (Contribution.rename f))) =
      collectDeferred contributions := by
  rw [collectDeferred, collectDeferred, List.filterMap_map]
  congr 1
  funext (offset, contribution)
  cases contribution <;> rfl

/-- A variable may be declared before or after renaming. -/
theorem declareRow_rename (storage : LocalStorage) (label : UInt16) (row : LocalVariable)
    (kind : Bytecode.ValueKind) (sig : TypeSig) :
    (storage.rename f).declareRow label row kind (sig.rename f) =
      (storage.declareRow label row kind sig).rename f := by
  rw [LocalStorage.declareRow, LocalStorage.nextIndex_rename, LocalStorage.rename,
    LocalStorage.rename, LocalStorage.declareRow, List.map_append]
  rfl

/-- A row is added in the second scope as it is in the first, with its type renamed. -/
theorem follows_addRow (renames : first.RenamesTypes f second) (storage : LocalStorage)
    (fresh : UInt16) (row : LocalVariable) :
    Logged.Follows (Prod.map (LocalStorage.rename f) id)
      (LocalStorage.addRow first storage fresh row)
      (LocalStorage.addRow second (storage.rename f) fresh row) := by
  unfold LocalStorage.addRow
  rw [show (storage.rename f).arguments = storage.arguments from rfl,
    show (storage.rename f).rows = storage.rows from rfl]
  split
  · exact .pure (storage, fresh)
  · refine .bind (.refl _) fun type => ?_
    dsimp only [id]
    generalize storage.rows.find? _ = known
    cases known with
    | none =>
      refine .bind (.lift (renames.fieldSig type)) fun sig => ?_
      rw [declareRow_rename]
      exact .pure (storage.declareRow _ row type.kind sig, fresh)
    | some bound =>
      dsimp only
      split
      · exact .pure (storage.shareRow bound row type.kind, fresh)
      · refine .bind (.refl _) fun _ => .bind (.lift (renames.fieldSig type)) fun sig => ?_
        rw [declareRow_rename]
        exact .pure (storage.declareRow _ row type.kind sig, fresh + 1)

/-- All rows are added in the second scope as they are in the first, with their types renamed. -/
theorem follows_addRows (renames : first.RenamesTypes f second) (storage : LocalStorage)
    (fresh : UInt16) (rows : List LocalVariable) :
    Logged.Follows (LocalStorage.rename f) (LocalStorage.addRows first storage fresh rows)
      (LocalStorage.addRows second (storage.rename f) fresh rows) := by
  induction rows generalizing storage fresh with
  | nil => exact .pure storage
  | cons row rows induction =>
    exact .bind (follows_addRow renames storage fresh row) fun (later, next) => induction later next

/-- The storage of a table is in the second scope what it is in the first, renamed. -/
theorem follows_ofTable (renames : first.RenamesTypes f second) (rows : List LocalVariable)
    (arguments : List (Option UInt16)) :
    Logged.Follows (LocalStorage.rename f) (LocalStorage.ofTable first rows arguments)
      (LocalStorage.ofTable second rows arguments) :=
  .bind (.lift renames.objectSig) fun _ => follows_addRows renames _ _ _

/-- The body of a method is in the second scope what it is in the first, renamed. -/
theorem follows_lowerBody (renames : first.Renames f second) (pool : ConstantPool)
    (method : Member) (code : MethodCode) :
    Logged.Follows (Target.Body.rename f) (lowerBody first pool method code)
      (lowerBody second pool method code) := by
  refine .bind (.refl _) fun type => .bind (follows_ofTable renames.types _ _) fun storage => ?_
  refine .bind (follows_lowerInstructions renames pool _ storage) fun (contributions, later) => ?_
  dsimp only [Prod.map]
  rw [collectInstructions_rename, collectDeferred_rename]
  exact .pure _

/-! ## Lowering classes -/

/-- A field is declared in the second scope as it is in the first, renamed. -/
theorem declareField_eq_map (renames : first.RenamesTypes f second) (field : Member) :
    declareField second field = Target.FieldDef.rename f <$> declareField first field :=
  Except.bind_eq_map (id_map _).symm fun type =>
    Except.bind_eq_map (renames.fieldSig type) fun _ => rfl

/-- A method is declared in the second scope as it is in the first, renamed. -/
theorem declareMethod_eq_map (renames : first.RenamesTypes f second) (method : Member) :
    declareMethod second method = Target.MethodDef.rename f <$> declareMethod first method :=
  Except.bind_eq_map (id_map _).symm fun type =>
    Except.bind_eq_map (renames.methodSig type _) fun _ => rfl

/-- The base of a class is in the second scope what it is in the first, renamed. -/
theorem baseOf_eq_map (renames : first.RenamesTypes f second) (file : ClassFile) :
    baseOf second file = Option.map f <$> baseOf first file := by
  unfold baseOf
  split
  · rw [renames, Functor.map_map, Functor.map_map]
    rfl
  · rfl

/-- A method with or without code is in the second scope what it is in the first, renamed. -/
theorem follows_lowerMethod (renames : first.Renames f second) (file : ClassFile)
    (method : Member) :
    Logged.Follows (Option.map (Target.Body.rename f)) (lowerMethod first file method)
      (lowerMethod second file method) := by
  unfold lowerMethod
  split
  · exact .pure none
  · split
    · exact .throw _
    · refine .bind (.refl _) fun _ => ?_
      exact .map (follows_lowerBody renames file.pool method _) fun _ => rfl

/-- The contents of a class are in the second scope what they are in the first, renamed. -/
theorem follows_lowerContents (renames : first.Renames f second) (file : ClassFile) :
    Logged.Follows (Prod.map (Option.map f) (List.map (Option.map (Target.Body.rename f))))
      (lowerContents first file) (lowerContents second file) := by
  refine .bind (.lift (baseOf_eq_map renames.types file)) fun base => ?_
  exact .bind (.mapM fun method _ => follows_lowerMethod renames file method) fun _ => .pure _

end

end ClassLowering
