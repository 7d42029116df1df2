import ClassLowering.Proofs.Attachment
import ClassLowering.Proofs.Outline

/-! # Lowering whole batches

In the last pass each class works on the module that the classes before it have left: its host
and all names are looked up there, and in isolation it is recovered by a test of that module.
Nevertheless every class is completed as if it came first (`result_completeNext_of_attached`),
because the module has the outline of the declared one and its places tell which classes have
been attached. So the module of a batch is put together from what each class gives on its own in
the declared module (`result_lowerBatch`), and every type of it has one place
(`lowerBatch_attached`). -/

namespace ClassLowering

open Target (Module TypeDef TypeId)

/-! ## The last pass -/

/-- The next class changes the module by what is found out about it in the declared module, if the
module shows what the declared one shows and exactly the classes before it have been attached. -/
theorem result_completeNext_of_attached {catalog : Catalog} {module declared : Module}
    {placed : PlacedClass} (same : module.outline = declared.outline)
    (attached : module.Attached placed.id.index) (inside : placed.id.index < module.types.length)
    (isolate : Bool) :
    (completeNext catalog isolate module placed).result =
      (fun found => found.finish placed.id module) <$>
        completion ⟨catalog, declared⟩ isolate placed.file := by
  rw [result_completeNext]
  unfold completeClass completion
  rw [← hostOf_congr (Module.sources_eq_of_outline same)]
  cases hosts : hostOf module placed.file with
  | error failure =>
    -- a class that fails here has not been attached
    cases isolate with
    | false => rfl
    | true =>
      refine congrArg Except.ok ?_
      dsimp only
      rw [if_neg (attached.not_isAttached inside), Completion.finish_of_none]
  | ok host =>
    have kept := (module.outline_attach placed.id host).trans same
    have contents := result_lowerContents_congr catalog kept placed.file
    dsimp only
    rw [← contents]
    generalize lowerContents ⟨catalog, module.attach placed.id host⟩ placed.file = lowered
    obtain ⟨log, failure | ⟨base, bodies⟩⟩ := lowered
    · -- a class that fails here has been attached
      have hosted : ∀ above ∈ host, above.index < module.types.length :=
        fun above given => lt_of_hostOf (hosts.trans (congrArg Except.ok given))
      cases isolate with
      | false => rfl
      | true =>
        refine congrArg Except.ok ?_
        dsimp only
        rw [if_pos (attached.isAttached_attach inside hosted), Completion.finish_of_none]
    · rfl

/-! ## Class after class -/

section

variable {declaring : Scope} {catalog : Catalog} {name : String} {isolate : Bool}
  {front back files : List ClassFile} {declared : List TypeDef} {completions : List Completion}
  (declares : files.mapM (declaredType declaring) = .ok declared)

include declares

/-- While classes are completed, the module shows what the declared one shows. -/
theorem outline_of_completes (name : String) {scope : Scope} (first : front <+: files)
    (completes : front.mapM (completion scope isolate) = .ok completions) :
    (assemble name declared completions).outline = Module.outline { name, types := declared } :=
  outline_assemble name fun _ _ completion listed given =>
    fits_of_completions first declares completes listed completion given

/-- While classes are completed, those that have been completed have their places. -/
theorem attached_of_completes
    (completes : front.mapM (completion ⟨catalog, { name, types := declared }⟩ isolate) =
      .ok completions) : (assemble name declared completions).Attached completions.length := by
  refine attached_assemble (fun type listed => ?_) fun completion listed => ?_
  · obtain ⟨file, -, found⟩ := Except.exists_of_mem_mapM declares listed
    exact free_of_declaredType found
  · obtain ⟨file, -, found⟩ := Except.exists_of_mem_mapM completes listed
    exact host_lt_of_completion found

/-- Completing classes, with the classes in front completed before. -/
theorem foldlM_completeNext (first : front ++ back <+: files)
    (completes : front.mapM (completion ⟨catalog, { name, types := declared }⟩ isolate) =
      .ok completions) :
    (placeFrom completions.length back).foldlM
        (fun module placed => (completeNext catalog isolate module placed).result)
        (assemble name declared completions) =
      (fun others => assemble name declared (completions ++ others)) <$>
        back.mapM (completion ⟨catalog, { name, types := declared }⟩ isolate) := by
  induction back generalizing front completions with
  | nil =>
    rw [placeFrom, List.foldlM_nil, List.mapM_nil]
    exact congrArg Except.ok (by dsimp only; rw [List.append_nil])
  | cons file back induction =>
    -- the classes of the front have been attached and nothing else has changed, so the next class
    -- finds what it would find right after the declarations
    have same := outline_of_completes declares name
      ((List.prefix_append front (file :: back)).trans first) completes
    have attached := attached_of_completes declares completes
    have inside : completions.length < (assemble name declared completions).types.length := by
      have sizes := first.length_le
      rw [List.length_append, List.length_cons] at sizes
      rw [assemble, List.length_mapIdx, Except.length_mapM declares, Except.length_mapM completes]
      omega
    rw [placeFrom, List.foldlM_cons, List.mapM_cons,
      result_completeNext_of_attached same attached inside isolate]
    cases found : completion ⟨catalog, { name, types := declared }⟩ isolate file with
    | error failure => rfl
    | ok completed =>
      change List.foldlM _ (completed.finish ⟨completions.length⟩ _) _ = _
      rw [finish_assemble]
      -- with this class the front is one longer
      have more : (front ++ [file]).mapM
          (completion ⟨catalog, { name, types := declared }⟩ isolate) =
          .ok (completions ++ [completed]) := by
        rw [Except.mapM_eq_ok, List.map_append, List.map_append, Except.mapM_eq_ok.1 completes,
          List.map_singleton, List.map_singleton, found]
      have next := induction (by rwa [List.append_assoc]) more
      rw [List.length_append] at next
      refine next.trans ?_
      cases back.mapM (completion ⟨catalog, { name, types := declared }⟩ isolate) with
      | error failure => rfl
      | ok others => exact congrArg Except.ok (by dsimp only; rw [List.append_assoc]; rfl)

/-- The first classes of a batch are completed as each of them would be in the declared module, and
the module is put together from the results. -/
theorem result_completeClasses (first : front <+: files) :
    ((placeFrom 0 front).foldlM (completeNext catalog isolate) { name, types := declared }).result =
      assemble name declared <$>
        front.mapM (completion ⟨catalog, { name, types := declared }⟩ isolate) := by
  have none : [].mapM (completion ⟨catalog, { name, types := declared }⟩ isolate) = .ok [] := rfl
  have all := foldlM_completeNext declares (show [] ++ front <+: files from first) none
  rw [assemble_nil] at all
  rw [Logged.result_foldlM]
  exact all

end

/-! ## All passes -/

/-- A batch is lowered by completing its classes after all members have been declared. -/
theorem lowerBatch_eq_bind (catalog : Catalog) (name : String) (isolate : Bool)
    (files : List ClassFile) :
    lowerBatch catalog name isolate files =
      declareBatch catalog name files >>= fun (declared, placed) =>
        placed.foldlM (completeNext catalog isolate) declared := by
  unfold lowerBatch declareBatch
  simp only [bind_assoc, pure_bind]

/-- A batch is lowered by declaring and completing the kept classes on their own and putting the
results together. -/
theorem result_lowerBatch (catalog : Catalog) (name : String) (isolate : Bool)
    (files : List ClassFile) :
    (lowerBatch catalog name isolate files).result = (do
      let kept := keepFirst [] files
      let declared ← kept.mapM (declaredType ⟨catalog, registered name kept⟩)
      let completions ← kept.mapM (completion ⟨catalog, { name, types := declared }⟩ isolate)
      return assemble name declared completions) := by
  rw [lowerBatch_eq_bind, Logged.result_bind, result_declareBatch]
  dsimp only
  cases declares : (keepFirst [] files).mapM
      (declaredType ⟨catalog, registered name (keepFirst [] files)⟩) with
  | error failure => rfl
  | ok declared =>
    refine (result_completeClasses declares List.prefix_rfl).trans ?_
    change _ = (keepFirst [] files).mapM (completion ⟨catalog, { name, types := declared }⟩ isolate)
      >>= fun completions => pure (assemble name declared completions)
    cases (keepFirst [] files).mapM
      (completion ⟨catalog, { name, types := declared }⟩ isolate) <;> rfl

/-- A batch becomes the module that its classes, declared and completed, are put together to. -/
theorem lowerBatch_eq_ok {catalog : Catalog} {name : String} {isolate : Bool}
    {files : List ClassFile} {module : Module} :
    (lowerBatch catalog name isolate files).result = .ok module ↔
      ∃ declared completions,
        (keepFirst [] files).mapM
          (declaredType ⟨catalog, registered name (keepFirst [] files)⟩) = .ok declared ∧
        (keepFirst [] files).mapM
          (completion ⟨catalog, { name, types := declared }⟩ isolate) = .ok completions ∧
        assemble name declared completions = module := by
  rw [result_lowerBatch]
  constructor
  · intro lowered
    obtain ⟨declared, first, lowered⟩ := Except.bind_eq_ok.1 lowered
    obtain ⟨completions, second, lowered⟩ := Except.bind_eq_ok.1 lowered
    cases lowered
    exact ⟨declared, completions, first, second, rfl⟩
  · rintro ⟨declared, completions, first, second, rfl⟩
    exact Except.bind_eq_ok.2 ⟨declared, first, Except.bind_eq_ok.2 ⟨completions, second, rfl⟩⟩

/-! ## Places -/

/-- In every module that a batch becomes, the types at the top level and those nested in types
are all the types, each of them once; a type is nested in another one exactly if that one
encloses it, and at the top level exactly if none does; and all of these lists are in the order
of the classes. -/
theorem lowerBatch_attached {catalog : Catalog} {name : String} {isolate : Bool}
    {files : List ClassFile} {module : Module}
    (lowered : (lowerBatch catalog name isolate files).result = .ok module) :
    (module.topLevel ++ module.types.flatMap TypeDef.nested).Perm
      ((List.range module.types.length).map TypeId.mk) ∧
    (∀ id type, module.get? id = some type →
      (∀ host, type.enclosing = some host ↔
        ∃ above, module.get? host = some above ∧ id ∈ above.nested) ∧
      (type.enclosing = none ↔ id ∈ module.topLevel)) ∧
    module.topLevel.Pairwise (·.index < ·.index) ∧
    ∀ type ∈ module.types, type.nested.Pairwise (·.index < ·.index) := by
  obtain ⟨declared, completions, declares, completes, rfl⟩ := lowerBatch_eq_ok.1 lowered
  have attached := attached_of_completes declares completes
  have size : (assemble name declared completions).types.length = completions.length := by
    rw [assemble, List.length_mapIdx, Except.length_mapM declares, Except.length_mapM completes]
  refine ⟨size ▸ attached.once, fun id type found => ⟨attached.nested_iff found, ?_⟩,
    attached.topLevel_ascending, attached.nested_ascending⟩
  have inside := (List.getElem?_eq_some_iff.1 found).1
  exact attached.topLevel_iff found (size ▸ inside)

/-- A class that comes before its host, the host, a class that is its own host and has no
superclass, a class without its host, and another class below the first host. -/
def scatteredBatch : List ClassFile :=
  [{ name := "A$B", flags := ⟨0x20⟩, superClass := some "A", interfaces := [], fields := []
     methods := [], attributes := [.nestHost "A"], pool := ⟨#[]⟩ },
   { name := "A", flags := ⟨0x21⟩, superClass := some "java/lang/Object", interfaces := []
     fields := [], methods := [], attributes := [], pool := ⟨#[]⟩ },
   { name := "C", flags := ⟨0x21⟩, superClass := some "Missing", interfaces := [], fields := []
     methods := [], attributes := [.nestHost "C"], pool := ⟨#[]⟩ },
   { name := "D$E", flags := ⟨0x20⟩, superClass := some "A", interfaces := [], fields := []
     methods := [], attributes := [.nestHost "D"], pool := ⟨#[]⟩ },
   { name := "A$F", flags := ⟨0x20⟩, superClass := some "A", interfaces := [], fields := []
     methods := [⟨⟨0x9⟩, "run", "()V", []⟩], attributes := [.nestHost "A"], pool := ⟨#[]⟩ }]

/-- Two classes are in one that comes between them, and a class is its own host. -/
theorem lowerBatch_attached_scattered :
    ∃ module, (lowerBatch Catalog.standard "M" true scatteredBatch).result = .ok module ∧
      module.topLevel = [⟨1⟩, ⟨3⟩] ∧
      module.types.map TypeDef.nested = [[], [⟨0⟩, ⟨4⟩], [⟨2⟩], [], []] ∧
      (module.topLevel ++ module.types.flatMap TypeDef.nested).Perm
        ((List.range 5).map TypeId.mk) ∧
      ∀ id type, module.get? id = some type → (type.enclosing = none ↔ id ∈ module.topLevel) := by
  have evaluated :
      ∃ module ∈ (lowerBatch Catalog.standard "M" true scatteredBatch).result.toOption,
        module.topLevel = [⟨1⟩, ⟨3⟩] ∧
        module.types.map TypeDef.nested = [[], [⟨0⟩, ⟨4⟩], [⟨2⟩], [], []] ∧
        module.types.length = 5 := by
    decide +kernel
  obtain ⟨module, lowered, topLevel, nested, size⟩ := evaluated
  have lowered := Except.eq_ok_of_mem_toOption lowered
  obtain ⟨once, places, -⟩ := lowerBatch_attached lowered
  exact ⟨module, lowered, topLevel, nested, size ▸ once,
    fun id type found => (places id type found).2⟩

end ClassLowering
