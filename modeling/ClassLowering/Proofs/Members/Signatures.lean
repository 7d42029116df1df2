import ClassLowering.Proofs.Members.Agreement
import ClassLowering.Proofs.References.Closed

/-! # Signatures stand for descriptors

A signature is made from the type that a descriptor spells, and it fails to be made only because of
class names. `Scope.Blames scope names found` says of an outcome that it fails exactly if one of the
names is unknown, and because of the first one; outcomes one after the other blame their names one
after the other. Where signatures are made, they determine the descriptors
(`Scope.methodSig_faithful`). -/

namespace ClassLowering

open Target (MethodSig Module TypeDef TypeId)

/-! ## Names in types -/

/-- The class that a type names, at any depth of arrays. -/
def FieldType.classNames : FieldType → List String
  | object name => [name]
  | array element => element.classNames
  | byte | char | double | float | int | long | short | boolean => []

/-- The classes that a method type names, from left to right. -/
def MethodType.classNames (type : MethodType) : List String :=
  type.parameters.flatMap FieldType.classNames ++ type.result.toList.flatMap FieldType.classNames

namespace Scope

variable {α β : Type} {scope : Scope}

/-- A name is known if the library or the module has it. -/
theorem mem_names_iff {name : String} :
    name ∈ scope.names ↔ name ∈ scope.catalog.names ∨ name ∈ scope.module.sources :=
  List.mem_append

/-! ## Who is to blame -/

/-- The outcome is a failure because of the first of the names that is unknown, if there is one. -/
def Blames (scope : Scope) (names : List String) (found : Except Error α) : Prop :=
  match names.find? (· ∉ scope.names) with
  | some name => found = .error (.resolution (.unknownClass name))
  | none => ∃ value, found = .ok value

/-- A value blames nobody. -/
theorem blames_ok (value : α) : scope.Blames [] (.ok value) := ⟨value, rfl⟩

/-- Two outcomes one after the other: if the first one fails, then the second one does not
matter. -/
theorem Blames.bind {first second : List String} {found : Except Error α}
    {next : α → Except Error β} (blames : scope.Blames first found)
    (blamesNext : ∀ value, scope.Blames second (next value)) :
    scope.Blames (first ++ second) (found >>= next) := by
  unfold Blames at blames ⊢
  rw [List.find?_append]
  cases unknown : first.find? (· ∉ scope.names) with
  | some name =>
    rw [unknown] at blames
    dsimp only at blames
    rw [blames]
    rfl
  | none =>
    rw [unknown] at blames
    obtain ⟨value, rfl⟩ := blames
    exact blamesNext value

/-- What is made of a result blames the same names. -/
theorem Blames.map {names : List String} {found : Except Error α}
    (blames : scope.Blames names found) (f : α → β) : scope.Blames names (f <$> found) := by
  have both := blames.bind fun value => blames_ok (f value)
  rw [List.append_nil] at both
  cases found <;> exact both

/-- Looking a class up blames its name. -/
theorem blames_resolve (name : String) : scope.Blames [name] (scope.resolve name) := by
  rw [Blames, resolve_eq]
  by_cases known : name ∈ scope.names
  · rw [List.find?_cons_of_neg (by simpa using known), List.find?_nil]
    cases catalogued : scope.catalog.get? name with
    | some type => exact ⟨_, rfl⟩
    | none =>
      cases found : scope.module.lookup name with
      | some id => exact ⟨_, rfl⟩
      | none =>
        obtain inLibrary | inModule := mem_names_iff.1 known
        · exact absurd inLibrary (Catalog.get?_eq_none_iff.1 catalogued)
        · exact absurd inModule (Target.Module.lookup_eq_none_iff.1 found)
  · rw [List.find?_cons_of_pos (by simpa using known)]
    rw [mem_names_iff, not_or] at known
    rw [Catalog.get?_eq_none_iff.2 known.1, Target.Module.lookup_eq_none_iff.2 known.2]

/-- The signature of a field type blames the class that the type names. -/
theorem blames_fieldSig (type : FieldType) :
    scope.Blames type.classNames (scope.fieldSig type) := by
  induction type with
  | object name => exact (blames_resolve name).map _
  | array element induction => exact induction.map _
  | _ => exact blames_ok _

/-- The signatures of some types blame the classes that the types name, in their order. -/
theorem blames_mapM_fieldSig (types : List FieldType) :
    scope.Blames (types.flatMap FieldType.classNames) (types.mapM scope.fieldSig) := by
  induction types with
  | nil => exact blames_ok _
  | cons type types induction =>
    rw [List.flatMap_cons, List.mapM_cons]
    exact (blames_fieldSig type).bind fun sig => induction.map (sig :: ·)

/-- The signature of a result blames the class that the result names. -/
theorem blames_resultSig (result : Option FieldType) :
    scope.Blames (result.toList.flatMap FieldType.classNames) (scope.resultSig result) := by
  cases result with
  | none => exact blames_ok _
  | some type =>
    have single : (some type).toList.flatMap FieldType.classNames = type.classNames := by simp
    rw [single]
    exact blames_fieldSig type

/-- The signature of a method type blames the classes that the type names, from left to right. -/
theorem blames_methodSig (type : MethodType) (hasThis : Bool) :
    scope.Blames type.classNames (scope.methodSig type hasThis) :=
  (blames_mapM_fieldSig type.parameters).bind fun params =>
    (blames_resultSig type.result).map (MethodSig.mk hasThis params)

/-- An outcome that blames names fails if one of them is unknown, because of the first such name. -/
theorem Blames.eq_error_iff {names : List String} {found : Except Error α}
    (blames : scope.Blames names found) (cause : Error) :
    found = .error cause ↔
      ∃ before name after, names = before ++ name :: after ∧
        (∀ known ∈ before, known ∈ scope.names) ∧
        name ∉ scope.names ∧ cause = .resolution (.unknownClass name) := by
  unfold Blames at blames
  constructor
  -- the first unknown name splits the list
  · rintro rfl
    cases unknown : names.find? (· ∉ scope.names) with
    | none =>
      rw [unknown] at blames
      obtain ⟨_, same⟩ := blames
      cases same
    | some name =>
      rw [unknown] at blames
      cases blames
      obtain ⟨lost, before, after, rfl, known⟩ := List.find?_eq_some_iff_append.1 unknown
      exact ⟨before, name, after, rfl, by simpa using known, by simpa using lost, rfl⟩
  · rintro ⟨before, name, after, rfl, known, lost, rfl⟩
    have unknown : (before ++ name :: after).find? (· ∉ scope.names) = some name := by
      rw [List.find?_eq_some_iff_append]
      exact ⟨by simpa using lost, before, after, rfl, by simpa using known⟩
    rw [unknown] at blames
    exact blames

/-- There is a failure exactly if one of the names is unknown. -/
theorem Blames.exists_error_iff {names : List String} {found : Except Error α}
    (blames : scope.Blames names found) :
    (∃ cause, found = .error cause) ↔ ∃ name ∈ names, name ∉ scope.names := by
  constructor
  · rintro ⟨cause, failed⟩
    obtain ⟨before, name, after, rfl, -, lost, -⟩ := (blames.eq_error_iff cause).1 failed
    exact ⟨name, List.mem_append_right before List.mem_cons_self, lost⟩
  · rintro ⟨name, listed, lost⟩
    unfold Blames at blames
    cases unknown : names.find? (· ∉ scope.names) with
    | none => exact absurd (List.find?_eq_none.1 unknown name listed) (by simpa using lost)
    | some first =>
      rw [unknown] at blames
      exact ⟨_, blames⟩

/-! ## Descriptors and signatures -/

/-- Signatures that are equal are made from the same descriptor. -/
theorem descriptor_of_methodSig {first second : String} {firstType secondType : MethodType}
    {firstThis secondThis : Bool} {sig : MethodSig}
    (typed : MethodType.ofDescriptor? first = some firstType)
    (secondTyped : MethodType.ofDescriptor? second = some secondType)
    (made : scope.methodSig firstType firstThis = .ok sig)
    (secondMade : scope.methodSig secondType secondThis = .ok sig) :
    first = second ∧ firstThis = secondThis := by
  obtain ⟨source, this⟩ := source?_of_methodSig made
  obtain ⟨secondSource, secondThis⟩ := source?_of_methodSig secondMade
  cases source.symm.trans secondSource
  exact ⟨MethodType.ofDescriptor?_inj typed secondTyped, this.symm.trans secondThis⟩

end Scope

/-- Methods of a lowered type with one signature have one descriptor. -/
theorem descriptor_of_sig {catalog : Catalog} {name : String} {isolate : Bool}
    {files : List ClassFile} {module : Module}
    (lowered : (lowerBatch catalog name isolate files).result = .ok module)
    {id : TypeId} {type : TypeDef} (listed : module.get? id = some type)
    {first second : Target.MethodDef} (declared : first ∈ type.methods)
    (secondDeclared : second ∈ type.methods) (same : first.sig = second.sig) :
    first.descriptor = second.descriptor := by
  obtain ⟨types, -, completed⟩ := isCompleted_of_lowerBatch lowered
  obtain ⟨_, _, -, -, complete⟩ := completed id type listed
  obtain ⟨firstType, typed, made⟩ := complete.methods first declared
  obtain ⟨secondType, secondTyped, secondMade⟩ := complete.methods second secondDeclared
  change Scope.methodSig _ _ _ = .ok first.sig at made
  rw [same] at made
  exact (Scope.descriptor_of_methodSig typed secondTyped made secondMade).1

/-- Signatures are faithful to descriptors. Equal signatures come from equal descriptors, so that
the methods of a lowered type that have different descriptors have different signatures. A
descriptor has no signature exactly if it names a class that neither the library nor the module has,
and the failure names the leftmost such class. -/
theorem Scope.methodSig_faithful (scope : Scope) :
    (∀ (first second : String) (firstType secondType : MethodType) (firstThis secondThis : Bool)
      (sig : MethodSig), MethodType.ofDescriptor? first = some firstType →
      MethodType.ofDescriptor? second = some secondType →
      scope.methodSig firstType firstThis = .ok sig →
      scope.methodSig secondType secondThis = .ok sig →
        first = second ∧ firstThis = secondThis) ∧
    (∀ (name : String) (isolate : Bool) (files : List ClassFile) (module : Module),
      (lowerBatch scope.catalog name isolate files).result = .ok module →
      ∀ id type, module.get? id = some type → ∀ first ∈ type.methods, ∀ second ∈ type.methods,
        first.sig = second.sig → first.descriptor = second.descriptor) ∧
    ∀ (descriptor : String) (type : MethodType) (hasThis : Bool),
      MethodType.ofDescriptor? descriptor = some type →
      ((∃ cause, scope.methodSig type hasThis = .error cause) ↔
        ∃ name ∈ type.classNames, name ∉ scope.catalog.names ∧ name ∉ scope.module.sources) ∧
      ∀ cause, scope.methodSig type hasThis = .error cause ↔
        ∃ before name after, type.classNames = before ++ name :: after ∧
          (∀ known ∈ before, known ∈ scope.catalog.names ∨ known ∈ scope.module.sources) ∧
          (name ∉ scope.catalog.names ∧ name ∉ scope.module.sources) ∧
          cause = .resolution (.unknownClass name) := by
  refine ⟨?_, ?_, ?_⟩
  · intro first second firstType secondType firstThis secondThis sig typed secondTyped made
      secondMade
    exact descriptor_of_methodSig typed secondTyped made secondMade
  · intro name isolate files module lowered id type listed first declared second secondDeclared same
    exact descriptor_of_sig lowered listed declared secondDeclared same
  · intro descriptor type hasThis typed
    have blames := scope.blames_methodSig type hasThis
    simp only [← not_or, ← mem_names_iff]
    exact ⟨blames.exists_error_iff, blames.eq_error_iff⟩

/-- A class with two methods of one name, which differ in the depth of an array. -/
def overloadedBatch : List ClassFile :=
  [{ name := "A", flags := ⟨0x21⟩, superClass := some "java/lang/Object", interfaces := []
     fields := []
     methods := [⟨⟨0x101⟩, "m", "([[LA;)V", []⟩, ⟨⟨0x101⟩, "m", "([LA;)V", []⟩]
     attributes := [], pool := ⟨#[]⟩ }]

/-- Overloads with arrays of different depth, and a descriptor with three unknown classes. -/
theorem Scope.methodSig_faithful_overloaded :
    (∃ module type first second,
      (lowerBatch Catalog.standard "M" false overloadedBatch).result = .ok module ∧
      module.get? ⟨0⟩ = some type ∧ type.methods = [first, second] ∧ first.name = second.name ∧
      first.sig ≠ second.sig) ∧
    MethodType.ofDescriptor? "([[Ljava/lang/String;I[LX;LY;)LZ;" =
      some ⟨[.array (.array (.object "java/lang/String")), .int, .array (.object "X"), .object "Y"],
        some (.object "Z")⟩ ∧
    Scope.methodSig ⟨Catalog.standard, .empty "M"⟩
      ⟨[.array (.array (.object "java/lang/String")), .int, .array (.object "X"), .object "Y"],
        some (.object "Z")⟩ true = .error (.resolution (.unknownClass "X")) := by
  have evaluated :
      ∃ module ∈ (lowerBatch Catalog.standard "M" false overloadedBatch).result.toOption,
        ∃ type ∈ module.get? ⟨0⟩, ∃ first ∈ type.methods[0]?, ∃ second ∈ type.methods[1]?,
          type.methods = [first, second] ∧ first.name = second.name ∧
          first.descriptor ≠ second.descriptor := by
    decide +kernel
  obtain ⟨module, lowered, type, listed, first, firstListed, second, secondListed, whole, named,
    different⟩ := evaluated
  have lowered := Except.eq_ok_of_mem_toOption lowered
  obtain ⟨-, overloads, failures⟩ := Scope.methodSig_faithful ⟨Catalog.standard, .empty "M"⟩
  refine ⟨⟨module, type, first, second, lowered, listed, whole, named, fun same => different ?_⟩,
    ?_⟩
  · exact overloads "M" false overloadedBatch module lowered ⟨0⟩ type listed first
      (List.mem_of_getElem? firstListed) second (List.mem_of_getElem? secondListed) same
  · have typed : MethodType.ofDescriptor? "([[Ljava/lang/String;I[LX;LY;)LZ;" =
        some ⟨[.array (.array (.object "java/lang/String")), .int, .array (.object "X"),
          .object "Y"], some (.object "Z")⟩ := by
      decide +kernel
    refine ⟨typed,
      ((failures _ _ true typed).2 _).2 ⟨["java/lang/String"], "X", ["Y", "Z"], rfl, ?_⟩⟩
    decide +kernel

end ClassLowering
