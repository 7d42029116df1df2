import Mathlib.Data.List.TakeWhile
import ClassLowering.Naming

/-! # Names of types

The name of a class is split at its last slash: what is before becomes the namespace of its type,
with dots for slashes, and what is behind becomes the name of its type, with dots for dollar signs.
A dot stands for one of two characters, but it is known on which side of the split it is, and class
names have no dots of their own. So a class name in its internal form can be told from the namespace
and the name (`Naming.className_typeName`), and no two classes have types with the same names. -/

namespace ClassLowering

/-- Text without a letter is passed over in the search for that letter. -/
theorem forall_decide_ne {letter : Char} {text : List Char} (absent : letter ∉ text) :
    ∀ c ∈ text, decide (c ≠ letter) = true :=
  fun c listed => decide_eq_true (List.forall_mem_ne'.2 absent c listed)

namespace Naming

/-- A class name in its internal form: segments with slashes between them, none of them empty or
with a dot in it. -/
def IsInternal (name : String) : Prop :=
  ∀ segment ∈ name.toList.splitOn '/', segment ≠ [] ∧ '.' ∉ segment

instance (name : String) : Decidable (IsInternal name) :=
  inferInstanceAs (Decidable (∀ segment ∈ name.toList.splitOn '/', segment ≠ [] ∧ '.' ∉ segment))

/-- Replaces dots by another character. -/
def undotted (separator : Char) (text : List Char) : List Char :=
  text.map fun c => if c = '.' then separator else c

/-- The name of the class for the namespace and the name of a type. -/
def className (target : String × String) : String :=
  let last := String.ofList (undotted '$' target.2.toList)
  if target.1 = "" then last
  else String.ofList (undotted '/' target.1.toList) ++ "/" ++ last

/-- In a text without dots, dots for separators can be taken back. -/
theorem undotted_dotted {separator : Char} {text : List Char} (plain : '.' ∉ text) :
    undotted separator (dotted separator text) = text := by
  rw [undotted, dotted, List.map_map]
  refine (List.map_congr_left fun c listed => ?_).trans text.map_id
  have other : c ≠ '.' := fun same => plain (same ▸ listed)
  by_cases same : c = separator <;> simp [same, other]

/-- Characters other than dots come from the text, and the replaced one is gone. -/
theorem mem_dotted {separator c : Char} {text : List Char} (other : c ≠ '.')
    (listed : c ∈ dotted separator text) : c ∈ text ∧ c ≠ separator := by
  rw [dotted] at listed
  obtain ⟨origin, known, same⟩ := List.mem_map.1 listed
  split at same
  · exact absurd same.symm other
  · next kept => exact same ▸ ⟨known, kept⟩

/-! ## The last slash -/

/-- A class name with slashes is what stands before and behind its last one. -/
theorem exists_last_slash {name : String} (slash : '/' ∈ name.toList) :
    ∃ path last, name = String.ofList (path ++ '/' :: last) ∧ '/' ∉ last := by
  -- the first slash from the end
  obtain ⟨last, path, split, absent⟩ := List.eq_append_cons_of_mem (List.mem_reverse.2 slash)
  refine ⟨path.reverse, last.reverse, ?_, fun listed => absent (List.mem_reverse.1 listed)⟩
  rw [← String.toList_inj, ← List.reverse_reverse name.toList, split]
  simp

/-- A class without a package has a type without a namespace. -/
theorem typeName_of_not_mem {name : String} (flat : '/' ∉ name.toList) :
    typeName name = ("", String.ofList (dotted '$' name.toList)) := by
  have passed := forall_decide_ne (mt List.mem_reverse.1 flat)
  unfold typeName
  dsimp only
  rw [List.takeWhile_eq_self_iff.2 passed, List.dropWhile_eq_nil_iff.2 passed, List.reverse_reverse]
  rfl

/-- The type of a class is named by what stands before and behind its last slash. -/
theorem typeName_append {path last : List Char} (flat : '/' ∉ last) :
    typeName (String.ofList (path ++ '/' :: last)) =
      (String.ofList (dotted '/' path), String.ofList (dotted '$' last)) := by
  have passed := forall_decide_ne (mt List.mem_reverse.1 flat)
  have reversed : (path ++ '/' :: last).reverse = last.reverse ++ '/' :: path.reverse := by simp
  unfold typeName
  dsimp only
  rw [String.toList_ofList, reversed, List.takeWhile_append_of_pos passed,
    List.dropWhile_append_of_pos passed]
  simp

/-- The names of a type have nothing left of the characters that separate the parts of class
names. -/
theorem not_mem_typeName (name : String) :
    '/' ∉ (typeName name).1.toList ∧ '/' ∉ (typeName name).2.toList ∧
      '$' ∉ (typeName name).2.toList := by
  have slashed : '/' ≠ '.' := by decide
  have dollar : '$' ≠ '.' := by decide
  by_cases slash : '/' ∈ name.toList
  · obtain ⟨path, last, rfl, flat⟩ := exists_last_slash slash
    rw [typeName_append flat, String.toList_ofList, String.toList_ofList]
    exact ⟨fun listed => (mem_dotted slashed listed).2 rfl,
      fun listed => flat (mem_dotted slashed listed).1,
      fun listed => (mem_dotted dollar listed).2 rfl⟩
  · rw [typeName_of_not_mem slash]
    refine ⟨List.not_mem_nil, ?_⟩
    rw [String.toList_ofList]
    exact ⟨fun listed => slash (mem_dotted slashed listed).1,
      fun listed => (mem_dotted dollar listed).2 rfl⟩

/-! ## Internal names -/

/-- A character that does not separate segments is in one of them. -/
theorem exists_segment {separator c : Char} (other : c ≠ separator) {text : List Char}
    (listed : c ∈ text) : ∃ segment ∈ text.splitOn separator, c ∈ segment := by
  induction text with
  | nil => cases listed
  | cons first rest induction =>
    rw [List.splitOn_cons_eq_if_modifyHead]
    obtain ⟨head, tail, segments⟩ := List.exists_cons_of_ne_nil (List.splitOn_ne_nil separator rest)
    rw [segments] at induction ⊢
    split
    · next ends =>
      have later := (List.mem_cons.1 listed).resolve_left (eq_of_beq ends ▸ other)
      obtain ⟨segment, isSegment, inside⟩ := induction later
      exact ⟨segment, List.mem_cons_of_mem _ isSegment, inside⟩
    · -- the first character joins the first segment of the rest
      rw [List.modifyHead_cons]
      obtain rfl | later := List.mem_cons.1 listed
      · exact ⟨_, List.mem_cons_self, List.mem_cons_self⟩
      · obtain ⟨segment, isSegment, inside⟩ := induction later
        obtain rfl | behind := List.mem_cons.1 isSegment
        · exact ⟨_, List.mem_cons_self, List.mem_cons_of_mem _ inside⟩
        · exact ⟨segment, List.mem_cons_of_mem _ behind, inside⟩

/-- A class name in its internal form has no dots. -/
theorem IsInternal.not_mem {name : String} (internal : IsInternal name) : '.' ∉ name.toList := by
  intro listed
  have other : '.' ≠ '/' := by decide
  obtain ⟨segment, isSegment, dot⟩ := exists_segment other listed
  exact (internal segment isSegment).2 dot

/-- An internal name does not start with a slash. -/
theorem IsInternal.path_ne_nil {path last : List Char}
    (internal : IsInternal (String.ofList (path ++ '/' :: last))) : path ≠ [] := by
  rintro rfl
  refine (internal [] ?_).1 rfl
  rw [String.toList_ofList, List.splitOn_append_cons_self, List.splitOn_nil]
  exact List.mem_append_left _ (List.mem_singleton_self _)

/-- The name of a class can be told from the names of its type. -/
theorem className_typeName {name : String} (internal : IsInternal name) :
    className (typeName name) = name := by
  have plain := internal.not_mem
  by_cases slash : '/' ∈ name.toList
  · obtain ⟨path, last, rfl, flat⟩ := exists_last_slash slash
    rw [String.toList_ofList, List.mem_append, List.mem_cons, not_or, not_or] at plain
    -- an empty namespace would be taken for that of a class without a package
    have filled : String.ofList (dotted '/' path) ≠ "" := by
      rw [← String.toList_inj.ne, String.toList_ofList, dotted]
      simpa using internal.path_ne_nil
    unfold className
    dsimp only
    rw [typeName_append flat, if_neg filled, String.toList_ofList, String.toList_ofList,
      undotted_dotted plain.1, undotted_dotted plain.2.2, ← String.toList_inj]
    simp
  · unfold className
    dsimp only
    rw [typeName_of_not_mem slash, if_pos rfl, String.toList_ofList, undotted_dotted plain,
      String.ofList_toList]

/-- The names of a type have dots for all that separates the parts of a class name. Still, the name
of a class in its internal form can be told from them, so that no two classes have types with the
same names. -/
theorem typeName_collisionFree :
    (∀ name, '/' ∉ (typeName name).1.toList ∧ '/' ∉ (typeName name).2.toList ∧
      '$' ∉ (typeName name).2.toList) ∧
    (∀ name, IsInternal name → className (typeName name) = name) ∧
      ∀ first second, IsInternal first → IsInternal second →
        typeName first = typeName second → first = second := by
  refine ⟨not_mem_typeName, fun name => className_typeName,
    fun first second internal internalToo same => ?_⟩
  rw [← className_typeName internal, same, className_typeName internalToo]

/-- A dollar sign in a package stays, and one behind the last slash comes back from a dot. -/
theorem typeName_collisionFree_nested :
    IsInternal "p$q/r/Outer$Inner" ∧ IsInternal "p/q/r/Outer$Inner" ∧
      className (typeName "p$q/r/Outer$Inner") = "p$q/r/Outer$Inner" ∧
      typeName "p$q/r/Outer$Inner" ≠ typeName "p/q/r/Outer$Inner" := by
  have internal : IsInternal "p$q/r/Outer$Inner" := by decide +kernel
  have internalToo : IsInternal "p/q/r/Outer$Inner" := by decide +kernel
  refine ⟨internal, internalToo, typeName_collisionFree.2.1 _ internal, fun same => ?_⟩
  exact absurd (typeName_collisionFree.2.2 _ _ internal internalToo same) (by decide)

end Naming

end ClassLowering
