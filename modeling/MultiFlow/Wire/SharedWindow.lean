import MultiFlow.Lib.Transition
import Mathlib.Algebra.BigOperators.Intervals
import Mathlib.Algebra.Order.BigOperators.Group.Finset

/-!
# The budget of segments in flight

The flows of `wirehair_udp_send_file` with acknowledgements share one pacer.  Only its count is
shared, so a step of a flow ends before its next access to the pacer.  A flow may leave its loop at
any time: each failure and the end of the file lead to the same cleanup.
-/

namespace MultiFlow.SharedWindow

open Finset Function Lib

structure SendSlot where
  segmentId : UInt64
  acked : Bool

/-- Within the loop a flow can have acquired a unit for a segment that is not in its slot yet, or
have released the unit of a slot that is not cleared yet. -/
inductive SendPhase where
  | looping
  | admitting
  | retiring
  | cleaning (next : Nat)
  | ended
  deriving DecidableEq

structure SendFlow where
  window : Nat
  window_pos : 0 < window
  slots : Nat → Option SendSlot
  baseSegment : UInt64
  nextSegment : UInt64
  eof : Bool
  phase : SendPhase

inductive SendAction where
  | acknowledge (index : Nat)
  | release
  | clear
  | acquire
  | activate
  | endOfFile
  | leave
  | cleanup

def tryAcquire (maxInflight inflight : Nat) : Option Nat :=
  if inflight ≥ maxInflight then none else some (inflight + 1)

def release (inflight : Nat) : Nat := if inflight > 0 then inflight - 1 else inflight

def flowStep (maxInflight inflight : Nat) (flow : SendFlow) (action : SendAction) :
    Option (Nat × SendFlow) :=
  let base := flow.baseSegment.toNat % flow.window
  let next := flow.nextSegment.toNat % flow.window
  match action, flow.phase with
  | .acknowledge index, .looping =>
    if index < flow.window then
      (flow.slots index).map fun slot =>
        (inflight, { flow with slots := update flow.slots index (some { slot with acked := true }) })
    else none
  | .release, .looping =>
    (flow.slots base).bind fun slot =>
      if slot.segmentId = flow.baseSegment ∧ slot.acked then
        some (release inflight, { flow with phase := .retiring })
      else none
  | .clear, .retiring =>
    some (inflight, { flow with
      slots := update flow.slots base none
      baseSegment := flow.baseSegment + 1
      phase := .looping })
  | .acquire, .looping =>
    if flow.eof = false ∧ (flow.nextSegment - flow.baseSegment).toNat < flow.window ∧
        flow.slots next = none then
      (tryAcquire maxInflight inflight).map fun inflight =>
        (inflight, { flow with phase := .admitting })
    else none
  | .activate, .admitting =>
    some (inflight, { flow with
      slots := update flow.slots next (some ⟨flow.nextSegment, false⟩)
      nextSegment := flow.nextSegment + 1
      phase := .looping })
  | .endOfFile, .admitting =>
    some (release inflight, { flow with
      slots := update flow.slots next none
      eof := true
      phase := .looping })
  | .leave, .looping => some (inflight, { flow with phase := .cleaning 0 })
  | .leave, .admitting =>
    some (release inflight, { flow with
      slots := update flow.slots next none
      phase := .cleaning 0 })
  | .cleanup, .cleaning index =>
    if index < flow.window then
      some (if (flow.slots index).isSome then release inflight else inflight,
        { flow with phase := .cleaning (index + 1) })
    else some (inflight, { flow with phase := .ended })
  | _, _ => none

structure SharedSend where
  inflight : Nat
  flows : Nat → SendFlow

def sendStep (flowCount maxInflight : Nat) (state : SharedSend) (action : Nat × SendAction) :
    Option SharedSend :=
  if action.1 < flowCount then
    (flowStep maxInflight state.inflight (state.flows action.1) action.2).map fun (inflight, flow) =>
      ⟨inflight, update state.flows action.1 flow⟩
  else none

def occupied : Option SendSlot → Nat
  | none => 0
  | some _ => 1

def slotsIn (slots : Nat → Option SendSlot) (indices : Finset Nat) : Nat :=
  ∑ i ∈ indices, occupied (slots i)

/-- The slots of a flow that has ended are freed. -/
def SendFlow.activeSlots (flow : SendFlow) : Nat :=
  if flow.phase = .ended then 0 else slotsIn flow.slots (range flow.window)

def SendFlow.units (flow : SendFlow) : Nat :=
  match flow.phase with
  | .looping => slotsIn flow.slots (range flow.window)
  | .admitting =>
    slotsIn flow.slots ((range flow.window).erase (flow.nextSegment.toNat % flow.window)) + 1
  | .retiring =>
    slotsIn flow.slots ((range flow.window).erase (flow.baseSegment.toNat % flow.window))
  | .cleaning next => slotsIn flow.slots (Ico next flow.window)
  | .ended => 0

section Step

variable {slots : Nat → Option SendSlot} {index window inflight later maxInflight : Nat}

theorem slotsIn_erase (inside : index < window) :
    slotsIn slots (range window) =
      slotsIn slots ((range window).erase index) + occupied (slots index) :=
  (sum_erase_add _ _ (mem_range.mpr inside)).symm

theorem slotsIn_update (inside : index < window) (slot : Option SendSlot) :
    slotsIn (update slots index slot) (range window) =
      slotsIn slots ((range window).erase index) + occupied slot := by
  have moved := sum_update occupied slots (mem_range.mpr inside) slot
  have split : slotsIn slots (range window) = _ := slotsIn_erase inside
  unfold slotsIn at split ⊢
  omega

theorem release_add_one (held : 0 < inflight) : release inflight + 1 = inflight := by
  rw [release, if_pos held]
  omega

/-- A step changes the count by what it changes the units of its flow. -/
theorem flowStep_units {flow new : SendFlow} {action : SendAction}
    (taken : flowStep maxInflight inflight flow action = some (later, new))
    (held : flow.units ≤ inflight) (fits : inflight ≤ maxInflight) :
    later + flow.units = inflight + new.units ∧ later ≤ maxInflight := by
  have baseIn := Nat.mod_lt flow.baseSegment.toNat flow.window_pos
  have nextIn := Nat.mod_lt flow.nextSegment.toNat flow.window_pos
  unfold flowStep at taken
  dsimp only at taken
  split at taken
  next index phase =>
    split at taken
    next inside =>
      obtain ⟨slot, there, made⟩ := Option.map_eq_some_iff.mp taken
      cases made
      simp only [SendFlow.units, phase, slotsIn_update inside, slotsIn_erase inside, there]
      exact ⟨rfl, fits⟩
    next => cases taken
  next phase =>
    obtain ⟨slot, there, made⟩ := Option.bind_eq_some_iff.mp taken
    split at made
    next =>
      cases made
      simp only [SendFlow.units, phase, slotsIn_erase baseIn, there, occupied] at held ⊢
      have released := release_add_one (by omega : 0 < inflight)
      omega
    next => cases made
  next phase =>
    cases taken
    simp only [SendFlow.units, phase, slotsIn_update baseIn, occupied]
    exact ⟨rfl, fits⟩
  next phase =>
    split at taken
    next free =>
      obtain ⟨more, acquired, made⟩ := Option.map_eq_some_iff.mp taken
      cases made
      unfold tryAcquire at acquired
      split at acquired
      · cases acquired
      cases acquired
      simp only [SendFlow.units, phase, slotsIn_erase nextIn, free.2.2, occupied]
      omega
    next => cases taken
  next phase =>
    cases taken
    simp only [SendFlow.units, phase, slotsIn_update nextIn, occupied]
    exact ⟨trivial, fits⟩
  next phase =>
    cases taken
    simp only [SendFlow.units, phase, slotsIn_update nextIn, occupied] at held ⊢
    have released := release_add_one (by omega : 0 < inflight)
    omega
  next phase =>
    cases taken
    simp only [SendFlow.units, phase, ← range_eq_Ico]
    exact ⟨trivial, fits⟩
  next phase =>
    cases taken
    simp only [SendFlow.units, phase, ← range_eq_Ico, slotsIn_update nextIn, occupied] at held ⊢
    have released := release_add_one (by omega : 0 < inflight)
    omega
  next index phase =>
    split at taken
    next inside =>
      cases taken
      simp only [SendFlow.units, phase, slotsIn, sum_eq_sum_Ico_succ_bot inside] at held ⊢
      cases there : flow.slots index with
      | none => exact ⟨by simp [occupied], fits⟩
      | some slot =>
        rw [there, occupied] at held
        have released := release_add_one (by omega : 0 < inflight)
        simp only [occupied, Option.isSome_some, if_true]
        omega
    next outside =>
      cases taken
      simp only [SendFlow.units, phase, Ico_eq_empty outside, slotsIn, sum_empty]
      exact ⟨trivial, fits⟩
  next => cases taken

end Step

/-- The count of the pacer is within its limit and equals the units that the flows hold. -/
def Balanced (flowCount maxInflight : Nat) (state : SharedSend) : Prop :=
  state.inflight ≤ maxInflight ∧ state.inflight = ∑ f ∈ range flowCount, (state.flows f).units

theorem Balanced.step {flowCount maxInflight : Nat} {before after : SharedSend}
    {action : Nat × SendAction} (balanced : Balanced flowCount maxInflight before)
    (taken : sendStep flowCount maxInflight before action = some after) :
    Balanced flowCount maxInflight after := by
  obtain ⟨fits, sum⟩ := balanced
  unfold sendStep at taken
  split at taken
  next inside =>
    obtain ⟨⟨later, new⟩, moved, made⟩ := Option.map_eq_some_iff.mp taken
    cases made
    have member := mem_range.mpr inside
    have held := single_le_sum (f := fun f => (before.flows f).units) (fun _ _ => Nat.zero_le _)
      member
    obtain ⟨change, fits⟩ := flowStep_units moved (sum ▸ held) fits
    have total := sum_update SendFlow.units before.flows member new
    exact ⟨fits, by dsimp only; omega⟩
  next => cases taken

/-- The count of the pacer equals the units that the flows hold: the active slots of all flows when
each one is between two steps of its loop or has ended, and none when all have ended. -/
theorem shared_window_balanced {flowCount maxInflight : Nat} {start state : SharedSend}
    (fresh : start.inflight = 0 ∧ ∀ f < flowCount,
      (start.flows f).phase = .looping ∧ ∀ i, (start.flows f).slots i = none)
    (run : Reaches (sendStep flowCount maxInflight) anyStep start state) :
    Balanced flowCount maxInflight state ∧
      ((∀ f < flowCount, (state.flows f).phase = .looping ∨ (state.flows f).phase = .ended) →
        state.inflight = ∑ f ∈ range flowCount, (state.flows f).activeSlots) ∧
      ((∀ f < flowCount, (state.flows f).phase = .ended) → state.inflight = 0) := by
  have initially : Balanced flowCount maxInflight start := by
    obtain ⟨zero, empty⟩ := fresh
    refine ⟨zero ▸ Nat.zero_le _, zero.trans (sum_eq_zero fun f mem => ?_).symm⟩
    obtain ⟨phase, free⟩ := empty f (mem_range.mp mem)
    simp [SendFlow.units, phase, slotsIn, free, occupied]
  have balanced := run.invariant (Balanced flowCount maxInflight) initially
    fun _ _ _ balanced _ taken => balanced.step taken
  refine ⟨balanced, fun between => ?_, fun ended => ?_⟩
  · refine balanced.2.trans (sum_congr rfl fun f mem => ?_)
    unfold SendFlow.activeSlots SendFlow.units
    obtain phase | phase := between f (mem_range.mp mem) <;> simp [phase]
  · refine balanced.2.trans (sum_eq_zero fun f mem => ?_)
    simp [SendFlow.units, ended f (mem_range.mp mem)]

def oneFlow : SharedSend := ⟨0, fun _ => ⟨1, Nat.one_pos, fun _ => none, 0, 0, false, .looping⟩⟩

theorem shared_window_balanced_admitted :
    ∃ state : SharedSend, Reaches (sendStep 1 1) anyStep oneFlow state ∧ state.inflight = 1 ∧
      1 = ∑ f ∈ range 1, (state.flows f).activeSlots := by
  have run : Reaches (sendStep 1 1) anyStep oneFlow _ :=
    .next (0, .activate) (.next (0, .acquire) .start trivial rfl) trivial rfl
  exact ⟨_, run, rfl, (shared_window_balanced ⟨rfl, fun _ _ => ⟨rfl, fun _ => rfl⟩⟩ run).2.1
    fun f inside => Or.inl (by cases Nat.lt_one_iff.mp inside; rfl)⟩

end MultiFlow.SharedWindow
