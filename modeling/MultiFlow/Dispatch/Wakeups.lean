import MultiFlow.Dispatch.Fifo

/-!
# Where the dispatcher sleeps

`dispatcher_thread` sleeps on `dispatch_wake_cv` while packets are deferred and in
`mixed_queue_pop` otherwise.  A sleeping thread runs again only when its condition variable is
signalled, or spuriously: a push signals `not_empty`, `flow_manager_dispatch_wake` signals
`dispatch_wake_cv`.  A signalled thread that has not run yet counts as awake.
-/

namespace MultiFlow.Dispatch

open Lib

inductive WaitPoint where
  | notEmpty
  | dispatchWake
  deriving DecidableEq, Repr

structure WakeSystem where
  sys : DispatchSystem
  asleep : Option WaitPoint

inductive WakeAction where
  | run (action : DispatchAction)
  | spurious

/-- The condition variable of the `pthread_cond_wait` that a state of the loop can reach. -/
def DispatcherState.waitPoint : DispatcherState → Option WaitPoint
  | waiting _ => some .dispatchWake
  | popping => some .notEmpty
  | _ => none

def signal (asleep : Option WaitPoint) (point : WaitPoint) (sent : Bool) : Option WaitPoint :=
  if sent ∧ asleep = some point then none else asleep

def wakeStep (state : WakeSystem) : WakeAction → Option WakeSystem
  | .run (.push pkt) =>
    (dispatchStep state.sys (.push pkt)).map fun sys =>
      ⟨sys, signal state.asleep .notEmpty
        ((mixedQueuePush state.sys.mgr.mixed pkt).any fun release => release.notEmpty)⟩
  | .run (.work flowId) =>
    (dispatchStep state.sys (.work flowId)).map fun sys =>
      -- Only `flow_manager_dispatch_wake` writes the generation.
      ⟨sys, signal state.asleep .dispatchWake
        (decide (sys.mgr.dispatchWakeGen ≠ state.sys.mgr.dispatchWakeGen))⟩
  | .run .dispatch =>
    match state.asleep with
    | some _ => none
    | none =>
      match dispatchStep state.sys .dispatch with
      | some sys => some ⟨sys, none⟩
      | none => state.sys.dispatcher.waitPoint.map fun point => ⟨state.sys, some point⟩
  | .spurious => state.asleep.map fun _ => ⟨state.sys, none⟩

def WakeSystem.initial (config : FlowManagerConfig) : WakeSystem := ⟨.initial config, none⟩

/-- A dispatcher that sleeps leaves nothing in the mixed queue. -/
def WakeSystem.Isolates (state : WakeSystem) : Prop :=
  state.asleep ≠ none → state.sys.mgr.mixed.ring.toList = []

/-- The part of the loop between an empty batch and the end of the wait for room in a flow. -/
def DispatcherState.awaitsRoom : DispatcherState → Bool
  | deferring => true
  | redraining _ _ => true
  | waiting _ => true
  | _ => false

/-- No packet is pushed while the dispatcher waits for room in a flow, or is about to. -/
def pushesOutsideWait (state : WakeSystem) : WakeAction → Prop
  | .run (.push _) => state.sys.dispatcher.awaitsRoom = false
  | _ => True

instance (state : WakeSystem) (action : WakeAction) :
    Decidable (pushesOutsideWait state action) := by
  unfold pushesOutsideWait
  split <;> infer_instance

structure Wakeful (config : FlowManagerConfig) (state : WakeSystem) : Prop where
  conserves : Conserves config state.sys
  drained : state.sys.dispatcher.awaitsRoom = true → state.sys.mgr.mixed.ring.count = 0
  placed : ∀ point, state.asleep = some point → state.sys.dispatcher.waitPoint = some point
  popped : state.asleep = some .notEmpty → state.sys.mgr.mixed.ring.count = 0

theorem signal_eq_some {asleep : Option WaitPoint} {point place : WaitPoint} {sent : Bool}
    (still : signal asleep point sent = some place) :
    asleep = some place ∧ (sent = true → place ≠ point) := by
  unfold signal at still
  split_ifs at still with woken
  refine ⟨still, ?_⟩
  rintro sent_eq rfl
  exact woken ⟨sent_eq, still⟩

theorem dispatcherStep_awaitsRoom {mgr after : FlowManager} {before next : DispatcherState}
    (tracked : mgr.Tracked) (taken : dispatcherStep mgr before = some (after, next))
    (drained : before.awaitsRoom = true → mgr.mixed.ring.count = 0)
    (awaits : next.awaitsRoom = true) : after.mixed.ring.count = 0 := by
  cases before with
  | looping =>
    dsimp only [dispatcherStep] at taken
    cases start : drainDeferred mgr with
    | none | some drain =>
      rw [start] at taken
      cases taken
      cases awaits
  | draining =>
    dsimp only [dispatcherStep] at taken
    split at taken <;> cases taken <;> cases awaits
  | batching =>
    cases taken
    rw [mixedQueueTryPopBatch_queue]
    rw [mixedQueueTryPopBatch_packets] at awaits
    by_cases nothing : (mgr.mixed.ring.popMany fmDispatchBatch).1 = []
    · have empty := (RingBuffer.popMany_eq_nil_iff (by decide)).mp nothing
      rw [RingBuffer.popMany_empty _ empty]
      exact empty
    · rw [if_neg (by rwa [List.isEmpty_iff])] at awaits
      cases awaits
  | routing batch => cases batch <;> cases taken <;> cases awaits
  | deferring =>
    dsimp only [dispatcherStep] at taken
    cases start : drainDeferred mgr with
    | none | some drain =>
      rw [start] at taken
      cases taken
      exact drained rfl
  | redraining _ drain =>
    have mixed_eq := (drainStep_handsOver tracked drain).mixed_eq
    dsimp only [dispatcherStep] at taken
    split at taken
    all_goals
      next step_eq =>
        cases taken
        rw [step_eq] at mixed_eq
        rw [mixed_eq]
        exact drained rfl
  | waiting =>
    dsimp only [dispatcherStep] at taken
    split at taken
    next => cases taken
    next =>
      cases taken
      cases awaits
  | popping =>
    obtain ⟨_, _, released⟩ := Option.map_eq_some_iff.mp taken
    cases released
    split at awaits <;> cases awaits
  | stopped => cases taken

theorem count_eq_zero_of_popping {sys : DispatchSystem} (here : sys.dispatcher = .popping)
    (blocked : dispatchStep sys .dispatch = none) : sys.mgr.mixed.ring.count = 0 := by
  by_contra nonempty
  dsimp only [dispatchStep] at blocked
  rw [here] at blocked
  dsimp only [dispatcherStep, mixedQueuePop] at blocked
  rw [if_neg nonempty] at blocked
  cases blocked

namespace Wakeful

variable {cfg : FlowManagerConfig} {st after : WakeSystem}

theorem initial (cfg : FlowManagerConfig) : Wakeful cfg (.initial cfg) where
  conserves := Conserves.initial cfg
  drained := fun awaits => by cases awaits
  placed := fun _ asleep => by cases asleep
  popped := fun asleep => by cases asleep

variable (wakeful : Wakeful cfg st)
include wakeful

theorem push {pkt : DataPacket} (outside : st.sys.dispatcher.awaitsRoom = false)
    (taken : wakeStep st (.run (.push pkt)) = some after) : Wakeful cfg after := by
  obtain ⟨sys, pushed, rfl⟩ := Option.map_eq_some_iff.mp taken
  have conserves := wakeful.conserves.push pushed
  have dispatcher_eq : sys.dispatcher = st.sys.dispatcher := by
    obtain ⟨⟨_⟩, _, rfl⟩ := Option.map_eq_some_iff.mp pushed
    rfl
  have signals : ((mixedQueuePush st.sys.mgr.mixed pkt).any fun release => release.notEmpty) =
      true := by
    dsimp only [dispatchStep, flowManagerPush] at pushed
    rw [mixedQueuePush_open pkt wakeful.conserves.running] at pushed ⊢
    split at pushed
    next => cases pushed
    next notFull =>
      rw [if_neg notFull]
      rfl
  refine ⟨conserves, ?_, ?_, ?_⟩
  · intro awaits
    rw [dispatcher_eq, outside] at awaits
    cases awaits
  · intro point still
    rw [dispatcher_eq]
    exact wakeful.placed point (signal_eq_some still).1
  · intro still
    exact absurd rfl ((signal_eq_some still).2 signals)

theorem work {flowId : Nat} (taken : wakeStep st (.run (.work flowId)) = some after) :
    Wakeful cfg after := by
  obtain ⟨sys, worked, rfl⟩ := Option.map_eq_some_iff.mp taken
  have conserves := wakeful.conserves.work worked
  have kept : sys.dispatcher = st.sys.dispatcher ∧ sys.mgr.mixed = st.sys.mgr.mixed := by
    dsimp only [dispatchStep] at worked
    split at worked
    next =>
      obtain ⟨⟨_⟩, moved, rfl⟩ := Option.map_eq_some_iff.mp worked
      exact ⟨rfl, (workerStep_works wakeful.conserves.tracked moved).mixed_eq⟩
    next => cases worked
  obtain ⟨dispatcher_eq, mixed_eq⟩ := kept
  refine ⟨conserves, ?_, ?_, ?_⟩
  · intro awaits
    rw [dispatcher_eq] at awaits
    rw [mixed_eq]
    exact wakeful.drained awaits
  · intro point still
    rw [dispatcher_eq]
    exact wakeful.placed point (signal_eq_some still).1
  · intro still
    rw [mixed_eq]
    exact wakeful.popped (signal_eq_some still).1

theorem dispatch (taken : wakeStep st (.run .dispatch) = some after) : Wakeful cfg after := by
  dsimp only [wakeStep] at taken
  split at taken
  · cases taken
  split at taken
  next moved =>
    cases taken
    refine ⟨wakeful.conserves.dispatch moved, ?_, nofun, nofun⟩
    obtain ⟨⟨_⟩, stepped, rfl⟩ := Option.map_eq_some_iff.mp moved
    exact dispatcherStep_awaitsRoom wakeful.conserves.tracked stepped wakeful.drained
  rename_i blocked
  -- The thread goes to sleep where it stands; nothing else changes.
  obtain ⟨_, here, rfl⟩ := Option.map_eq_some_iff.mp taken
  refine ⟨wakeful.conserves, wakeful.drained, ?_, ?_⟩
  · intro place asleep
    rw [← Option.some.inj asleep]
    exact here
  intro asleep
  obtain rfl := Option.some.inj asleep
  refine count_eq_zero_of_popping ?_ blocked
  cases place : st.sys.dispatcher with
  | popping => rfl
  | _ =>
    rw [place] at here
    cases here

theorem step {action : WakeAction} (permitted : pushesOutsideWait st action)
    (taken : wakeStep st action = some after) : Wakeful cfg after := by
  cases action with
  | run action =>
    cases action with
    | push => exact wakeful.push permitted taken
    | dispatch => exact wakeful.dispatch taken
    | work => exact wakeful.work taken
  | spurious =>
    obtain ⟨_, _, rfl⟩ := Option.map_eq_some_iff.mp taken
    exact ⟨wakeful.conserves, wakeful.drained, nofun, nofun⟩

theorem isolates : st.Isolates := by
  intro sleeping
  obtain ⟨point, asleep⟩ := Option.ne_none_iff_exists'.mp sleeping
  have place := wakeful.placed point asleep
  have empty : st.sys.mgr.mixed.ring.count = 0 := by
    cases point with
    | notEmpty => exact wakeful.popped asleep
    | dispatchWake =>
      refine wakeful.drained ?_
      cases here : st.sys.dispatcher with
      | waiting => rfl
      | _ =>
        rw [here] at place
        cases place
  rw [← List.length_eq_zero_iff, RingBuffer.length_toList]
  exact empty

end Wakeful

theorem dispatcher_isolates_flows (config : FlowManagerConfig) (state : WakeSystem)
    (run : Reaches wakeStep pushesOutsideWait (.initial config) state) : state.Isolates := by
  have wakeful : Wakeful config state :=
    run.invariant (Wakeful config) (Wakeful.initial config)
      fun _ _ _ wakeful permitted taken => wakeful.step permitted taken
  exact wakeful.isolates

def narrowConfig : FlowManagerConfig := ⟨2, 1, 1, by decide, by decide, by decide, by decide⟩

/-- Flow 1 stalls: its queue takes one packet, the next is deferred, and the dispatcher goes to
sleep on `dispatch_wake_cv`. -/
def stallFlow : List WakeAction :=
  [.run (.push ⟨1, [10]⟩)] ++ List.replicate 4 (.run .dispatch) ++ [.run (.push ⟨1, [11]⟩)] ++
    List.replicate 14 (.run .dispatch)

theorem dispatcher_isolates_flows_stalled :
    ∃ state : WakeSystem, Reaches wakeStep pushesOutsideWait (.initial narrowConfig) state ∧
      state.asleep = some .dispatchWake ∧ state.sys.mgr.deferredTotalCount = 1 ∧
      state.Isolates := by
  obtain ⟨state, run, seen⟩ : ∃ state : WakeSystem,
      Reaches wakeStep pushesOutsideWait (.initial narrowConfig) state ∧
        decide (state.asleep = some .dispatchWake ∧ state.sys.mgr.deferredTotalCount = 1) = true :=
    Reaches.exists_of_actions stallFlow _ (by decide +kernel)
  obtain ⟨asleep, deferred⟩ := of_decide_eq_true seen
  exact ⟨state, run, asleep, deferred, dispatcher_isolates_flows narrowConfig state run⟩

/-- A packet for the idle flow 0 is pushed after flow 1 stalled: it stays in the mixed queue under
a sleeping dispatcher. -/
theorem stalled_flow_strands_packet :
    ∃ state : WakeSystem, Reaches wakeStep anyStep (.initial narrowConfig) state ∧
      state.asleep = some .dispatchWake ∧ state.sys.mgr.mixed.ring.toList = [⟨0, [20]⟩] ∧
      (state.sys.mgr.flows 0).queue.ring.toList = [] ∧ ¬ state.Isolates := by
  obtain ⟨state, run, seen⟩ : ∃ state : WakeSystem,
      Reaches wakeStep anyStep (.initial narrowConfig) state ∧
        decide (state.asleep = some .dispatchWake ∧
          state.sys.mgr.mixed.ring.toList = [⟨0, [20]⟩] ∧
          (state.sys.mgr.flows 0).queue.ring.toList = []) = true :=
    Reaches.exists_of_actions (stallFlow ++ [.run (.push ⟨0, [20]⟩)]) _ (by decide +kernel)
  obtain ⟨asleep, stranded, idle⟩ := of_decide_eq_true seen
  refine ⟨state, run, asleep, stranded, idle, ?_⟩
  intro isolates
  have empty := isolates (by rw [asleep]; nofun)
  rw [stranded] at empty
  cases empty

end MultiFlow.Dispatch
