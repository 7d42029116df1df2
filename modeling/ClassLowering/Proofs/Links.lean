import Mathlib.Data.List.Nodup
import Mathlib.Data.List.Perm.Subperm

/-! # Following links

An item may have a link to another one. In a finite set the links from an item on either end or run
into a cycle (`Links.ends_iff`). -/

namespace ClassLowering.Links

variable {α : Type} (next : α → Option α)

/-- Where a number of links lead. -/
def follow : (steps : Nat) → α → Option α
  | 0, item => some item
  | steps + 1, item => (next item).bind (follow steps)

/-- The links lead to an item without one. -/
def Ends (item : α) : Prop :=
  ∃ steps last, follow next steps item = some last ∧ next last = none

/-- The links come back to an item that they have passed. -/
def RunsIntoCycle (item : α) : Prop :=
  ∃ before around again, follow next before item = some again ∧ 0 < around ∧
    follow next around again = some again

variable {next}

/-- Following links is following some and then the others. -/
theorem follow_add (first second : Nat) (item : α) :
    follow next (first + second) item =
      (follow next first item).bind (follow next second) := by
  induction first generalizing item with
  | zero => rw [Nat.zero_add, follow, Option.bind_some]
  | succ first induction =>
    rw [Nat.succ_add, follow, follow, Option.bind_assoc]
    congr 1
    funext middle
    exact induction middle

/-- The last link may be followed at the end. -/
theorem follow_succ (steps : Nat) (item : α) :
    follow next (steps + 1) item = (follow next steps item).bind next := by
  have single : follow next 1 = next := by
    funext middle
    exact Option.bind_fun_some (next middle)
  rw [follow_add, single]

/-- Behind an item without a link there is nothing. -/
theorem follow_eq_none {steps more : Nat} {item last : α}
    (reached : follow next steps item = some last) (ends : next last = none)
    (later : steps < more) :
    follow next more item = none := by
  obtain ⟨rest, rfl⟩ := Nat.exists_eq_add_of_lt later
  rw [Nat.add_assoc, follow_add, reached, Option.bind_some, follow, ends, Option.bind_none]

/-- Links end in one way. -/
theorem eq_of_ends {steps more : Nat} {item last other : α}
    (reached : follow next steps item = some last) (ends : next last = none)
    (reachedOther : follow next more item = some other) (endsOther : next other = none) :
    steps = more := by
  obtain less | same | greater := Nat.lt_trichotomy steps more
  · rw [follow_eq_none reached ends less] at reachedOther
    cases reachedOther
  · exact same
  · rw [follow_eq_none reachedOther endsOther greater] at reached
    cases reached

/-- Where there is no link, they end. -/
theorem ends_of_next_eq_none {item : α} (none : next item = none) : Ends next item :=
  ⟨0, item, rfl, none⟩

/-- Links end if they end from the next item on. -/
theorem Ends.cons {item second : α} (linked : next item = some second) (ends : Ends next second) :
    Ends next item := by
  obtain ⟨steps, last, reached, none⟩ := ends
  refine ⟨steps + 1, last, ?_, none⟩
  rw [follow, linked, Option.bind_some, reached]

/-- A cycle may be passed any number of times. -/
theorem follow_mul {around : Nat} {again : α} (cycle : follow next around again = some again)
    (times : Nat) : follow next (times * around) again = some again := by
  induction times with
  | zero => rw [Nat.zero_mul, follow]
  | succ times induction => rw [Nat.succ_mul, follow_add, induction, Option.bind_some, cycle]

/-- Links that end do not run into a cycle. -/
theorem Ends.not_runsIntoCycle {item : α} (ends : Ends next item) : ¬RunsIntoCycle next item := by
  rintro ⟨before, around, again, reached, positive, cycle⟩
  obtain ⟨steps, last, reachedLast, none⟩ := ends
  -- more rounds than there are links to the end
  have rounds : follow next (before + (steps + 1) * around) item = some again := by
    rw [follow_add, reached, Option.bind_some, follow_mul cycle]
  have later : steps < before + (steps + 1) * around := by
    have := Nat.le_mul_of_pos_right (steps + 1) positive
    omega
  rw [follow_eq_none reachedLast none later] at rounds
  cases rounds

/-- Links that pass more items than there are run into a cycle. -/
theorem runsIntoCycle_of_length_le {items : List α} {item : α} {steps : Nat}
    (inside : ∀ count ≤ steps, ∃ passed ∈ items, follow next count item = some passed)
    (many : items.length ≤ steps) : RunsIntoCycle next item := by
  by_contra none
  have distinct : ((List.range (steps + 1)).map (follow next · item)).Nodup := by
    refine List.Nodup.map_on (fun first firstListed second secondListed same => ?_) List.nodup_range
    by_contra different
    -- the earlier of two places of one item is where the cycle starts
    have cycle {early late : Nat} (less : early < late) (bound : late ≤ steps)
        (same : follow next early item = follow next late item) : False := by
      obtain ⟨passed, -, reached⟩ := inside early (by omega)
      refine none ⟨early, late - early, passed, reached, by omega, ?_⟩
      have whole : follow next (early + (late - early)) item = some passed := by
        rw [Nat.add_sub_of_le (Nat.le_of_lt less), ← same, reached]
      rwa [follow_add, reached, Option.bind_some] at whole
    rw [List.mem_range] at firstListed secondListed
    obtain less | greater := Nat.lt_or_gt_of_ne different
    · exact cycle less (by omega) same
    · exact cycle greater (by omega) same.symm
  have subset : (List.range (steps + 1)).map (follow next · item) ⊆ items.map some := by
    intro passed listed
    obtain ⟨count, below, rfl⟩ := List.mem_map.1 listed
    obtain ⟨passed, member, reached⟩ := inside count (by have := List.mem_range.1 below; omega)
    exact List.mem_map.2 ⟨passed, member, reached.symm⟩
  have few := (List.subperm_of_subset distinct subset).length_le
  rw [List.length_map, List.length_map, List.length_range] at few
  omega

/-- Links that do not end can be followed for ever. -/
theorem exists_follow {item : α} (endless : ¬Ends next item) (steps : Nat) :
    ∃ passed, follow next steps item = some passed := by
  induction steps with
  | zero => exact ⟨item, rfl⟩
  | succ steps induction =>
    obtain ⟨passed, reached⟩ := induction
    cases linked : next passed with
    | none => exact absurd ⟨steps, passed, reached, linked⟩ endless
    | some following =>
      refine ⟨following, ?_⟩
      rw [follow_succ, reached, Option.bind_some, linked]

section

variable {items : List α} (closed : ∀ item ∈ items, ∀ second ∈ next item, second ∈ items) {item : α}
  (listed : item ∈ items)

include closed listed

/-- Links within a list do not leave it. -/
theorem mem_of_follow {steps : Nat} {passed : α} (reached : follow next steps item = some passed) :
    passed ∈ items := by
  induction steps generalizing passed with
  | zero =>
    cases reached
    exact listed
  | succ steps induction =>
    rw [follow_succ] at reached
    obtain ⟨before, reachedBefore, linked⟩ := Option.bind_eq_some_iff.1 reached
    exact closed before (induction reachedBefore) passed linked

/-- Links between finitely many items end unless they run into a cycle. -/
theorem ends_iff : Ends next item ↔ ¬RunsIntoCycle next item := by
  refine ⟨Ends.not_runsIntoCycle, fun acyclic => by_contra fun endless => acyclic ?_⟩
  refine runsIntoCycle_of_length_le (fun count _ => ?_) (Nat.le_refl items.length)
  obtain ⟨passed, reached⟩ := exists_follow endless count
  exact ⟨passed, mem_of_follow closed listed reached, reached⟩

/-- Links between finitely many items end after fewer links than there are items. -/
theorem lt_length_of_ends {steps : Nat} {last : α} (reached : follow next steps item = some last)
    (none : next last = none) : steps < items.length := by
  by_contra many
  have ends : Ends next item := ⟨steps, last, reached, none⟩
  refine ends.not_runsIntoCycle
    (runsIntoCycle_of_length_le (fun count earlier => ?_) (Nat.le_of_not_lt many))
  obtain ⟨rest, rfl⟩ := Nat.exists_eq_add_of_le earlier
  rw [follow_add] at reached
  obtain ⟨passed, reachedPassed, -⟩ := Option.bind_eq_some_iff.1 reached
  exact ⟨passed, mem_of_follow closed listed reachedPassed, reachedPassed⟩

end

end ClassLowering.Links
