import ClassLowering.Proofs.IntegerCode.Emission

/-! # Lowered integer code simulates its source

Two frames are related when their stacks agree and every slot that is kept at a place holds the same
integer as that place (`Related`). An action and the instructions that realize it lead from related
frames to related frames (`alike_of_realizes`), and so does a whole piece of code
(`alike_execute`). -/

namespace ClassLowering

open Bytecode (Instruction)

/-- Slots and places determine each other. -/
structure Faithful (keeps : Nat → Place → Prop) : Prop where
  unique : ∀ {slot : Nat} {first second : Place}, keeps slot first → keeps slot second →
    first = second
  injective : ∀ {first second : Nat} {place : Place}, keeps first place → keeps second place →
    first = second

/-- The frames have the same stack, and the slots that are kept hold the same integers. -/
structure Related (keeps : Nat → Place → Prop) (source : SourceFrame) (target : TargetFrame) :
    Prop where
  stack : source.stack = target.stack
  values : ∀ {slot : Nat} {place : Place}, keeps slot place →
    ∃ value, source.read slot = some value ∧ target.read place = some value

/-- Both machines go on in related frames, have returned the same value, or are stuck. -/
inductive Alike (keeps : Nat → Place → Prop) :
    Progress SourceFrame → Progress TargetFrame → Prop where
  | running {source : SourceFrame} {target : TargetFrame} (related : Related keeps source target) :
      Alike keeps (.running source) (.running target)
  | returned (value : Int32) : Alike keeps (.returned value) (.returned value)
  | stuck : Alike keeps .stuck .stuck

variable {keeps : Nat → Place → Prop} {source : SourceFrame} {target : TargetFrame}

/-- Machines that are alike have the same outcome. -/
theorem Alike.value?_eq {first : Progress SourceFrame} {second : Progress TargetFrame}
    (alike : Alike keeps first second) : first.value? = second.value? := by
  cases alike <;> rfl

/-- Machines that are alike stay so when they go on alike. -/
theorem Alike.andThen {first : Progress SourceFrame} {second : Progress TargetFrame}
    {sourceNext : SourceFrame → Progress SourceFrame}
    {targetNext : TargetFrame → Progress TargetFrame} (alike : Alike keeps first second)
    (next : ∀ source target, Related keeps source target →
      Alike keeps (sourceNext source) (targetNext target)) :
    Alike keeps (first.andThen sourceNext) (second.andThen targetNext) := by
  cases alike with
  | running related => exact next _ _ related
  | returned value => exact .returned value
  | stuck => exact .stuck

namespace TargetFrame

/-- The stack does not matter for what a place holds. -/
@[simp] theorem read_withStack (frame : TargetFrame) (stack : List Int32) (place : Place) :
    ({ frame with stack } : TargetFrame).read place = frame.read place := by
  cases place <;> rfl

/-- A place that holds an integer holds what is written to it. -/
theorem read_write_self {frame : TargetFrame} {place : Place} {old : Int32} (value : Int32)
    (held : frame.read place = some old) : (frame.write value place).read place = some value := by
  cases place with
  | parameter index =>
    obtain ⟨argument, listed, -⟩ := Option.bind_eq_some_iff.1 held
    obtain ⟨bound, -⟩ := List.getElem?_eq_some_iff.1 listed
    rw [write, read, List.getElem?_set_self bound]
    rfl
  | localVariable index =>
    obtain ⟨bound, -⟩ := List.getElem?_eq_some_iff.1 held
    exact List.getElem?_set_self bound

/-- Writing to a place leaves all others as they are. -/
theorem read_write_of_ne {place other : Place} (differ : place ≠ other) (frame : TargetFrame)
    (value : Int32) : (frame.write value place).read other = frame.read other := by
  cases place with
  | parameter index =>
    cases other with
    | parameter second =>
      have apart : index.toNat ≠ second.toNat :=
        fun same => differ (by rw [UInt16.toNat_inj.1 same])
      rw [write, read, List.getElem?_set_ne apart]
      rfl
    | localVariable second => rfl
  | localVariable index =>
    cases other with
    | parameter second => rfl
    | localVariable second =>
      have apart : index.toNat ≠ second.toNat :=
        fun same => differ (by rw [UInt16.toNat_inj.1 same])
      exact List.getElem?_set_ne apart

/-- An instruction that computes on the stack alone replaces the stack. -/
theorem step_of_effect? {instruction : Target.Instruction}
    {effect : List Int32 → Option (List Int32)} (same : instruction.effect? = some effect)
    (frame : TargetFrame) :
    step instruction frame =
      .ofOption (fun stack => { frame with stack }) (effect frame.stack) := by
  cases instruction with
  | ldarg | starg | ldloc | stloc | ret => cases same
  | _ =>
    exact congrArg (fun effect => Progress.ofOption (fun stack => { frame with stack })
      (effect.bind (· frame.stack))) same

end TargetFrame

/-- A slot holds the integer that was put into it last. -/
theorem SourceFrame.read_assign (frame : SourceFrame) (slot : Nat) (value : Int32) (other : Nat) :
    (frame.assign slot value).read other =
      if other = slot then some value else frame.read other := by
  rw [read, assign]
  dsimp only
  split <;> rfl

namespace Related

/-- Frames stay related when both get the same stack. -/
theorem withStack (related : Related keeps source target) (stack : List Int32) :
    Related keeps { source with stack } { target with stack } where
  stack := rfl
  values kept := by
    rw [TargetFrame.read_withStack]
    exact related.values kept

/-- Frames stay related when a slot and the place that keeps it get the same value. -/
theorem assign (faithful : Faithful keeps) (related : Related keeps source target) {slot : Nat}
    {place : Place} (kept : keeps slot place) (value : Int32) :
    Related keeps (source.assign slot value) (target.write value place) where
  stack := by
    rw [SourceFrame.assign, related.stack]
    cases place <;> rfl
  values {other otherPlace} otherKept := by
    by_cases same : other = slot
    · subst same
      obtain rfl := faithful.unique kept otherKept
      obtain ⟨old, -, held⟩ := related.values kept
      refine ⟨value, ?_, TargetFrame.read_write_self value held⟩
      rw [SourceFrame.read_assign, if_pos rfl]
    · have differ : place ≠ otherPlace := by
        rintro rfl
        exact same (faithful.injective otherKept kept)
      rw [TargetFrame.read_write_of_ne differ, SourceFrame.read_assign, if_neg same]
      exact related.values otherKept

end Related

/-! ## Steps and runs -/

namespace TargetFrame

/-- A load instruction loads its place. -/
theorem step_load (place : Place) (frame : TargetFrame) :
    step place.load frame = frame.load place := by
  cases place <;> rfl

/-- A store instruction stores into its place. -/
theorem step_store (place : Place) (frame : TargetFrame) :
    step place.store frame = frame.store place := by
  cases place <;> rfl

end TargetFrame

/-- Loading, adding a constant and storing leaves the sum at the place and the stack as it was. -/
theorem TargetFrame.execute_increment {place : Place} {value : Int32} (constant : Int32)
    (held : target.read place = some value) :
    Progress.execute step [place.load, .ldcI4 constant, .arith .add, place.store] target =
      .running (target.write (value + constant) place) := by
  rw [Progress.execute, step_load, load, held]
  change (step place.store { target with stack := (value + constant) :: target.stack }).andThen
    (Progress.execute step []) = _
  rw [step_store, store, read_withStack, held]
  cases place <;> rfl

/-- One instruction runs as code of its own. -/
theorem Progress.execute_singleton {Frame Code : Type} (step : Code → Frame → Progress Frame)
    (code : Code) (frame : Frame) : execute step [code] frame = step code frame := by
  rw [execute]
  cases step code frame <;> rfl

/-- Instructions that realize an action lead from related frames to related frames. -/
theorem alike_of_realizes (faithful : Faithful keeps) {action : IntegerAction}
    {list : List Target.Instruction} (realizes : Realizes keeps action list)
    (related : Related keeps source target) :
    Alike keeps (source.perform action) (Progress.execute TargetFrame.step list target) := by
  -- the stacks are the same, and so is the value of every slot at its place
  cases realizes with
  | @compute effect counterpart same =>
    rw [Progress.execute_singleton, TargetFrame.step_of_effect? same, ← related.stack,
      SourceFrame.perform]
    cases effect source.stack with
    | some stack => exact .running (related.withStack stack)
    | none => exact .stuck
  | @load slot place kept =>
    obtain ⟨value, inSlot, atPlace⟩ := related.values kept
    rw [Progress.execute_singleton, TargetFrame.step_load, TargetFrame.load, atPlace,
      ← related.stack, SourceFrame.perform, inSlot]
    exact .running (related.withStack _)
  | @store slot place kept =>
    obtain ⟨old, -, atPlace⟩ := related.values kept
    rw [Progress.execute_singleton, TargetFrame.step_store, TargetFrame.store, atPlace,
      ← related.stack, SourceFrame.perform]
    cases source.stack with
    | nil => exact .stuck
    | cons value stack => exact .running ((related.withStack stack).assign faithful kept value)
  | @increment slot constant loaded stored loads stores =>
    obtain ⟨value, inSlot, atPlace⟩ := related.values loads
    -- what is loaded is stored again, so both places are that of the slot
    obtain rfl := faithful.unique loads stores
    rw [TargetFrame.execute_increment constant atPlace, SourceFrame.perform, inSlot]
    exact .running (related.assign faithful loads _)
  | finish =>
    rw [Progress.execute_singleton, SourceFrame.perform, related.stack]
    change Alike keeps (returnTop target.stack) (returnTop target.stack)
    cases target.stack with
    | nil => exact .stuck
    | cons value stack => exact .returned value

/-- Lowered code leads from related frames to related frames. -/
theorem alike_execute (faithful : Faithful keeps) {pool : ConstantPool} {code : List Instruction}
    {lists : List (List Target.Instruction)}
    (realized : List.Forall₂ (Instruction.RealizedBy pool keeps) code lists)
    (related : Related keeps source target) :
    Alike keeps (Progress.execute (SourceFrame.step pool) code source)
      (Progress.execute TargetFrame.step lists.flatten target) := by
  induction realized generalizing source target with
  | nil => exact .running related
  | @cons instruction list code lists first rest induction =>
    obtain ⟨action, meaning, realizes⟩ := first
    rw [List.flatten_cons, Progress.execute_append, Progress.execute]
    refine Alike.andThen ?_ fun _ _ => induction
    rw [SourceFrame.step, meaning]
    exact alike_of_realizes faithful realizes related

end ClassLowering
