import MultiFlow.Dispatch.FlowManager

/-!
# Packets in flight between the producers and the flow workers

The producers, the dispatcher thread and one worker for each flow, before `flow_manager_stop`, with
sinks that succeed.  A step is one critical section of a queue, one read of the wake generation, or
one pass of a loop over a thread's own data.
-/

namespace MultiFlow.Dispatch

open Function Lib List

/-- Where `dispatcher_thread` is in its loop, with its local variables. -/
inductive DispatcherState where
  | looping
  | draining (drain : Drain)
  | batching (progress : Bool)
  | routing (batch : List DataPacket)
  | deferring
  | redraining (wakeSeen : UInt64) (drain : Drain)
  | waiting (wakeSeen : UInt64)
  | popping
  | stopped

/-- Where `flow_worker_thread` is; `woken` says that the head of the batch has passed
`flow_manager_dispatch_wake_if_deferred`. -/
inductive WorkerState where
  | batching
  | dequeuing
  | handling (woken : Bool) (batch : List DataPacket)
  | stopped

structure DispatchSystem where
  mgr : FlowManager
  dispatcher : DispatcherState
  workers : Nat → WorkerState
  emitted : Nat → List DataPacket
  pushed : List DataPacket

inductive DispatchAction where
  | push (pkt : DataPacket)
  | dispatch
  | work (flowId : Nat)

def flowManagerPush (mgr : FlowManager) (pkt : DataPacket) :
    Option (MixedQueueStatus × FlowManager) :=
  (mixedQueuePush mgr.mixed pkt).map fun release =>
    (release.answer, { mgr with mixed := release.queue })

def flowManagerDispatchWakeIfDeferred (mgr : FlowManager) (flowId : Nat) : FlowManager :=
  if mgr.config.maxFlows ≤ flowId then mgr
  else if (mgr.deferred flowId).count = 0 then mgr
  else { mgr with dispatchWakeGen := mgr.dispatchWakeGen + 1 }

def dispatcherStep (mgr : FlowManager) : DispatcherState → Option (FlowManager × DispatcherState)
  | .looping =>
    match drainDeferred mgr with
    | some drain => some (mgr, .draining drain)
    | none => some (mgr, .batching false)
  | .draining drain =>
    match drainStep mgr drain with
    | (drained, .inl drain) => some (drained, .draining drain)
    | (drained, .inr progress) => some (drained, .batching progress)
  | .batching progress =>
    let release := mixedQueueTryPopBatch mgr.mixed fmDispatchBatch
    some ({ mgr with mixed := release.queue },
      if release.answer.1.isEmpty then
        if release.answer.2 then .stopped
        else if progress then .looping
        else if 0 < mgr.deferredTotalCount then .deferring
        else .popping
      else .routing release.answer.1)
  | .routing (pkt :: rest) => some ((routePacket mgr pkt).1, .routing rest)
  | .routing [] => some (mgr, .looping)
  | .deferring =>
    match drainDeferred mgr with
    | some drain => some (mgr, .redraining mgr.dispatchWakeGen drain)
    | none => some (mgr, .waiting mgr.dispatchWakeGen)
  | .redraining wakeSeen drain =>
    match drainStep mgr drain with
    | (drained, .inl drain) => some (drained, .redraining wakeSeen drain)
    | (drained, .inr true) => some (drained, .looping)
    | (drained, .inr false) => some (drained, .waiting wakeSeen)
  | .waiting wakeSeen =>
    if 0 < mgr.deferredTotalCount ∧ mgr.dispatchWakeGen = wakeSeen then none
    else some (mgr, .looping)
  | .popping =>
    (mixedQueuePop mgr.mixed).map fun release =>
      ({ mgr with mixed := release.queue },
        match release.answer with
        | (.ok, some pkt) => .routing [pkt]
        | (.ok, none) => .looping
        | (.errShutdown, _) => .stopped)
  | .stopped => none

/-- Answers the packets that the step emits last. -/
def workerStep (mgr : FlowManager) (flowId : Nat) :
    WorkerState → Option (FlowManager × WorkerState × List DataPacket)
  | .batching =>
    let (batch, queue) := flowBufferTryDequeueBatch (mgr.flows flowId).queue fmDispatchBatch
    some (setQueue mgr flowId queue,
      if batch.isEmpty then .dequeuing else .handling false batch, [])
  | .dequeuing =>
    (flowBufferDequeue (mgr.flows flowId).queue).map fun (status, pkt, queue) =>
      (setQueue mgr flowId queue,
        match status, pkt with
        | .errShutdown, _ => .stopped
        | .ok, some pkt => .handling false [pkt]
        | _, _ => .batching, [])
  | .handling false (pkt :: rest) =>
    some (flowManagerDispatchWakeIfDeferred mgr flowId, .handling true (pkt :: rest), [])
  | .handling true (pkt :: rest) => some (mgr, .handling false rest, [pkt])
  | .handling _ [] => some (mgr, .batching, [])
  | .stopped => none

def dispatchStep (sys : DispatchSystem) : DispatchAction → Option DispatchSystem
  | .push pkt =>
    (flowManagerPush sys.mgr pkt).map fun (status, mgr) =>
      { sys with mgr, pushed := if status = .ok then sys.pushed ++ [pkt] else sys.pushed }
  | .dispatch =>
    (dispatcherStep sys.mgr sys.dispatcher).map fun (mgr, dispatcher) =>
      { sys with mgr, dispatcher }
  | .work flowId =>
    if flowId < sys.mgr.config.maxFlows then
      (workerStep sys.mgr flowId (sys.workers flowId)).map fun (mgr, worker, emitted) =>
        { sys with
          mgr
          workers := update sys.workers flowId worker
          emitted := update sys.emitted flowId (sys.emitted flowId ++ emitted) }
    else none

def DispatchSystem.initial (config : FlowManagerConfig) : DispatchSystem where
  mgr := flowManagerInit config
  dispatcher := .looping
  workers := fun _ => .batching
  emitted := fun _ => []
  pushed := []

def DispatcherState.batch : DispatcherState → List DataPacket
  | routing batch => batch
  | _ => []

def WorkerState.batch : WorkerState → List DataPacket
  | handling _ batch => batch
  | _ => []

/-- The packets of a flow from the sink back to the mixed queue. -/
def DispatchSystem.line (sys : DispatchSystem) (flowId : Nat) : List DataPacket :=
  sys.emitted flowId ++ (sys.workers flowId).batch ++ (sys.mgr.flows flowId).queue.ring.toList ++
    (sys.mgr.deferred flowId).toList ++ ofFlow sys.dispatcher.batch flowId ++
    ofFlow sys.mgr.mixed.ring.toList flowId

def upstream (mgr : FlowManager) (batch : List DataPacket) (flowId : Nat) : List DataPacket :=
  mgr.held flowId ++ (ofFlow batch flowId ++ ofFlow mgr.mixed.ring.toList flowId)

/-- The dispatcher moves packets along without changing their order; what it loses it counts. -/
structure Dispatches (before : FlowManager) (batchBefore : List DataPacket)
    (after : FlowManager) (batchAfter : List DataPacket) : Prop where
  config_eq : after.config = before.config
  tracked : after.Tracked
  shutdown_eq : after.mixed.shutdown = before.mixed.shutdown
  sublist : ∀ flowId < before.config.maxFlows,
    (upstream after batchAfter flowId).Sublist (upstream before batchBefore flowId)
  counted : ∀ flowId < before.config.maxFlows,
    .ofNat (upstream after batchAfter flowId).length + after.drops flowId =
      .ofNat (upstream before batchBefore flowId).length + before.drops flowId

variable {mgr : FlowManager} {batch : List DataPacket} {flowId : Nat}

theorem Dispatches.refl (tracked : mgr.Tracked) (batch : List DataPacket) :
    Dispatches mgr batch mgr batch :=
  ⟨rfl, tracked, rfl, fun _ _ => List.Sublist.refl _, fun _ _ => rfl⟩

theorem HandsOver.dispatches {after : FlowManager} {packets : List DataPacket}
    (handed : HandsOver mgr after (ofFlow packets)) (rest : List DataPacket) :
    Dispatches mgr (packets ++ rest) after rest where
  config_eq := handed.config_eq
  tracked := handed.tracked
  shutdown_eq := by rw [handed.mixed_eq]
  sublist := by
    intro flowId bound
    unfold upstream
    rw [handed.mixed_eq, ofFlow_append]
    obtain ⟨held_eq, -⟩ | ⟨held_eq, -⟩ := handed.carried flowId bound
    · rw [held_eq, append_assoc, append_assoc]
    · rw [held_eq, append_assoc]
      exact (sublist_append_right _ _).append_left _
  counted := by
    intro flowId bound
    unfold upstream
    rw [handed.mixed_eq, ofFlow_append]
    simp only [length_append]
    obtain ⟨held_eq, drops_eq⟩ | ⟨held_eq, drops_eq⟩ := handed.carried flowId bound
    · rw [held_eq, drops_eq, length_append]
      simp only [Nat.add_assoc]
    · rw [held_eq, drops_eq]
      simp only [UInt64.ofNat_add]
      grind

theorem Dispatches.take (tracked : mgr.Tracked) {mixed : MixedQueue DataPacket}
    (shutdown_eq : mixed.shutdown = mgr.mixed.shutdown)
    (split : mgr.mixed.ring.toList = batch ++ mixed.ring.toList) :
    Dispatches mgr [] { mgr with mixed } batch := by
  have same : ∀ flowId, upstream { mgr with mixed } batch flowId = upstream mgr [] flowId := by
    intro flowId
    unfold upstream
    rw [split, ofFlow_append]
    rfl
  refine ⟨rfl, { tracked with }, shutdown_eq, ?_, ?_⟩
  · intro flowId _
    rw [same]
  intro flowId _
  rw [same]
  rfl

theorem dispatcherStep_dispatches {after : FlowManager} {before next : DispatcherState}
    (tracked : mgr.Tracked) (taken : dispatcherStep mgr before = some (after, next)) :
    Dispatches mgr before.batch after next.batch := by
  cases before with
  | looping | deferring =>
    dsimp only [dispatcherStep] at taken
    cases start : drainDeferred mgr with
    | none | some drain =>
      rw [start] at taken
      cases taken
      exact .refl tracked []
  | draining drain | redraining _ drain =>
    have drained := (drainStep_handsOver tracked drain).dispatches []
    dsimp only [dispatcherStep] at taken
    split at taken
    all_goals
      next step_eq =>
        cases taken
        rw [step_eq] at drained
        exact drained
  | batching =>
    have taken_batch : next.batch = (mgr.mixed.ring.popMany fmDispatchBatch).1 := by
      rw [← mixedQueueTryPopBatch_packets]
      cases taken
      split
      next nothing =>
        rw [isEmpty_iff.mp nothing]
        split_ifs <;> rfl
      next => rfl
    cases taken
    rw [taken_batch, mixedQueueTryPopBatch_queue]
    exact .take tracked rfl (RingBuffer.toList_popMany _ _)
  | routing batch =>
    cases batch with
    | nil =>
      cases taken
      exact .refl tracked []
    | cons _ rest =>
      cases taken
      exact (routePacket_handsOver tracked).dispatches rest
  | waiting =>
    dsimp only [dispatcherStep] at taken
    split at taken
    next => cases taken
    next =>
      cases taken
      exact .refl tracked []
  | popping =>
    obtain ⟨_, popped, released⟩ := Option.map_eq_some_iff.mp taken
    cases released
    obtain ⟨-, rfl⟩ | ⟨ne, rfl⟩ := mixedQueuePop_cases popped
    · exact .refl tracked []
    · exact .take tracked rfl (RingBuffer.toList_pop ne)
  | stopped => cases taken

/-- A worker passes the packets of its own flow on in order, and touches no other flow. -/
structure Works (before : FlowManager) (flowId : Nat) (batchBefore : List DataPacket)
    (after : FlowManager) (batchAfter emitted : List DataPacket) : Prop where
  config_eq : after.config = before.config
  mixed_eq : after.mixed = before.mixed
  tracked : after.Tracked
  drops_eq : ∀ i, after.drops i = before.drops i
  others : ∀ i ≠ flowId, after.held i = before.held i
  own : emitted ++ (batchAfter ++ after.held flowId) = batchBefore ++ before.held flowId

theorem Works.dequeue (tracked : mgr.Tracked) {queue : FlowBuffer}
    (running : queue.shutdown = false)
    (split : (mgr.flows flowId).queue.ring.toList = batch ++ queue.ring.toList) :
    Works mgr flowId [] (setQueue mgr flowId queue) batch [] where
  config_eq := rfl
  mixed_eq := rfl
  tracked := tracked.setQueue running
  drops_eq := by
    intro i
    unfold FlowManager.drops
    by_cases same : i = flowId
    · subst same
      rw [flows_setQueue_self]
    · rw [flows_setQueue_of_ne mgr _ same]
  others := by
    intro i other
    unfold FlowManager.held
    rw [flows_setQueue_of_ne mgr _ other]
    rfl
  own := by
    unfold FlowManager.held
    rw [flows_setQueue_self, split, append_assoc]
    rfl

theorem flowBufferTryDequeueBatch_eq (fb : FlowBuffer) (maxN : Nat) :
    flowBufferTryDequeueBatch fb maxN =
      ((fb.ring.popMany maxN).1, { fb with ring := (fb.ring.popMany maxN).2 }) := by
  unfold flowBufferTryDequeueBatch
  split
  next zero => rw [zero]; rfl
  split
  next empty => rw [RingBuffer.popMany_empty maxN empty]
  next => rfl

theorem workerStep_works {after : FlowManager} {before next : WorkerState}
    {emitted : List DataPacket} (tracked : mgr.Tracked)
    (taken : workerStep mgr flowId before = some (after, next, emitted)) :
    Works mgr flowId before.batch after next.batch emitted := by
  have running := tracked.running flowId
  cases before with
  | batching =>
    dsimp only [workerStep] at taken
    rw [flowBufferTryDequeueBatch_eq] at taken
    cases taken
    have taken_batch : WorkerState.batch
        (if ((mgr.flows flowId).queue.ring.popMany fmDispatchBatch).1.isEmpty then .dequeuing
          else .handling false ((mgr.flows flowId).queue.ring.popMany fmDispatchBatch).1) =
        ((mgr.flows flowId).queue.ring.popMany fmDispatchBatch).1 := by
      split
      next nothing => exact (isEmpty_iff.mp nothing).symm
      next => rfl
    rw [taken_batch]
    exact .dequeue tracked running (RingBuffer.toList_popMany _ _)
  | dequeuing =>
    dsimp only [workerStep] at taken
    unfold flowBufferDequeue at taken
    rw [running] at taken
    split at taken
    next => cases taken
    next ne =>
      cases taken
      exact .dequeue tracked rfl (RingBuffer.toList_pop (Nat.pos_of_ne_zero ne))
  | handling woken batch =>
    cases batch with
    | nil =>
      cases woken <;> cases taken <;>
        exact ⟨rfl, rfl, tracked, fun _ => rfl, fun _ _ => rfl, rfl⟩
    | cons =>
      cases woken with
      | true =>
        cases taken
        exact ⟨rfl, rfl, tracked, fun _ => rfl, fun _ _ => rfl, rfl⟩
      | false =>
        cases taken
        unfold flowManagerDispatchWakeIfDeferred
        split_ifs
        · exact ⟨rfl, rfl, tracked, fun _ => rfl, fun _ _ => rfl, rfl⟩
        · exact ⟨rfl, rfl, tracked, fun _ => rfl, fun _ _ => rfl, rfl⟩
        · exact ⟨rfl, rfl, { tracked with }, fun _ => rfl,
            fun _ _ => rfl, rfl⟩
  | stopped => cases taken

theorem DispatchSystem.line_eq (sys : DispatchSystem) (flowId : Nat) :
    sys.line flowId = sys.emitted flowId ++ ((sys.workers flowId).batch ++
      upstream sys.mgr sys.dispatcher.batch flowId) := by
  unfold line upstream FlowManager.held
  simp only [append_assoc]

structure Conserves (config : FlowManagerConfig) (sys : DispatchSystem) : Prop where
  config_eq : sys.mgr.config = config
  tracked : sys.mgr.Tracked
  running : sys.mgr.mixed.shutdown = false
  sublist : ∀ flowId < config.maxFlows, (sys.line flowId).Sublist (ofFlow sys.pushed flowId)
  counted : ∀ flowId < config.maxFlows,
    .ofNat (sys.line flowId).length + sys.mgr.drops flowId =
      .ofNat (ofFlow sys.pushed flowId).length

namespace Conserves

variable {cfg : FlowManagerConfig} {sys after : DispatchSystem}

theorem initial (cfg : FlowManagerConfig) : Conserves cfg (.initial cfg) where
  config_eq := rfl
  tracked := flowManagerInit_tracked cfg
  running := rfl
  sublist := fun _ _ => List.Sublist.refl _
  counted := fun _ _ => rfl

variable (conserves : Conserves cfg sys)
include conserves

theorem push {pkt : DataPacket} (taken : dispatchStep sys (.push pkt) = some after) :
    Conserves cfg after := by
  dsimp only [dispatchStep, flowManagerPush] at taken
  rw [mixedQueuePush_open pkt conserves.running] at taken
  split at taken
  · cases taken
  rename_i full
  have room := room_of_not_full (Bool.eq_false_of_not_eq_true full)
  have line_eq : ∀ flowId, after.line flowId = sys.line flowId ++ ofFlow [pkt] flowId := by
    intro flowId
    cases taken
    unfold DispatchSystem.line
    rw [RingBuffer.toList_push pkt room, ofFlow_append]
    exact (append_assoc _ _ _).symm
  have pushed_eq : after.pushed = sys.pushed ++ [pkt] := by
    cases taken
    rfl
  have drops_eq : after.mgr.drops = sys.mgr.drops := by
    cases taken
    rfl
  refine ⟨?_, ?_, ?_, ?_, ?_⟩
  · cases taken
    exact conserves.config_eq
  · cases taken
    exact ⟨conserves.tracked.total, conserves.tracked.active, conserves.tracked.running⟩
  · cases taken
    exact conserves.running
  · intro flowId bound
    rw [line_eq, pushed_eq, ofFlow_append]
    exact (conserves.sublist flowId bound).append_right _
  · intro flowId bound
    have counted := conserves.counted flowId bound
    rw [line_eq, pushed_eq, drops_eq, ofFlow_append, length_append, length_append,
      UInt64.ofNat_add, UInt64.ofNat_add, ← counted]
    grind

theorem dispatch (taken : dispatchStep sys .dispatch = some after) : Conserves cfg after := by
  obtain ⟨⟨_⟩, moved, rfl⟩ := Option.map_eq_some_iff.mp taken
  have dispatches := dispatcherStep_dispatches conserves.tracked moved
  have limit := congrArg FlowManagerConfig.maxFlows conserves.config_eq
  refine ⟨dispatches.config_eq.trans conserves.config_eq, dispatches.tracked,
    dispatches.shutdown_eq.trans conserves.running, ?_, ?_⟩
  · intro flowId bound
    refine List.Sublist.trans ?_ (conserves.sublist flowId bound)
    rw [DispatchSystem.line_eq, DispatchSystem.line_eq]
    exact ((dispatches.sublist flowId (limit ▸ bound)).append_left _).append_left _
  · intro flowId bound
    have counted := conserves.counted flowId bound
    have moved_count := dispatches.counted flowId (limit ▸ bound)
    rw [DispatchSystem.line_eq] at counted ⊢
    simp only [length_append, UInt64.ofNat_add] at counted ⊢
    grind

theorem work {flowId : Nat} (taken : dispatchStep sys (.work flowId) = some after) :
    Conserves cfg after := by
  dsimp only [dispatchStep] at taken
  split at taken
  next =>
    obtain ⟨⟨mgr, worker, emitted⟩, moved, rfl⟩ := Option.map_eq_some_iff.mp taken
    have works := workerStep_works conserves.tracked moved
    -- The worker of a flow only moves the borders inside that flow's line.
    have line_eq : ∀ i, DispatchSystem.line
        { sys with
          mgr
          workers := update sys.workers flowId worker
          emitted := update sys.emitted flowId (sys.emitted flowId ++ emitted) } i =
        sys.line i := by
      intro i
      rw [DispatchSystem.line_eq, DispatchSystem.line_eq]
      unfold upstream
      dsimp only
      rw [works.mixed_eq]
      by_cases same : i = flowId
      · subst same
        rw [update_self, update_self, append_assoc,
          ← append_assoc worker.batch, ← append_assoc emitted, works.own,
          append_assoc]
      · rw [update_of_ne same, update_of_ne same, works.others i same]
    refine ⟨works.config_eq.trans conserves.config_eq, works.tracked,
      (congrArg MixedQueue.shutdown works.mixed_eq).trans conserves.running, ?_, ?_⟩
    · intro i bound
      rw [line_eq]
      exact conserves.sublist i bound
    · intro i bound
      rw [line_eq]
      rw [works.drops_eq]
      exact conserves.counted i bound
  next => cases taken

theorem step {action : DispatchAction} (taken : dispatchStep sys action = some after) :
    Conserves cfg after := by
  cases action with
  | push => exact conserves.push taken
  | dispatch => exact conserves.dispatch taken
  | work => exact conserves.work taken

end Conserves

/-- In every interleaving each flow's packets stay in the order of their pushes from the mixed
queue to the sink, the missing ones are those counted as deferred overflow, and the dispatcher's
total and bitmap describe the deferred rings. -/
theorem dispatch_keeps_order (config : FlowManagerConfig) (sys : DispatchSystem)
    (run : Reaches dispatchStep anyStep (.initial config) sys) :
    (∀ flowId < config.maxFlows, (sys.line flowId).Sublist (ofFlow sys.pushed flowId) ∧
        .ofNat (sys.line flowId).length + (sys.mgr.flows flowId).dropDeferredOverflow =
          UInt64.ofNat (ofFlow sys.pushed flowId).length) ∧
      sys.mgr.deferredTotalCount =
        ∑ flowId ∈ Finset.range config.maxFlows, (sys.mgr.deferred flowId).count ∧
      ∀ i < 64, i < config.maxFlows →
        (sys.mgr.deferredActiveBits.getLsbD i = true ↔ (sys.mgr.deferred i).toList ≠ []) := by
  have conserves : Conserves config sys :=
    run.invariant (Conserves config) (Conserves.initial config)
      fun _ _ _ conserves _ taken => conserves.step taken
  refine ⟨?_, ?_, ?_⟩
  · intro flowId bound
    exact ⟨conserves.sublist flowId bound, conserves.counted flowId bound⟩
  · rw [conserves.tracked.total, conserves.config_eq]
  intro i small bound
  rw [conserves.tracked.active i small, conserves.config_eq, decide_eq_true_iff,
    ← List.length_pos_iff, RingBuffer.length_toList]
  exact ⟨And.right, fun waiting => ⟨bound, waiting⟩⟩

/-- Two flows and queues of one slot: of three packets for flow 1 the first is in its queue, the
second is deferred and the third is dropped. -/
theorem dispatch_keeps_order_overflow :
    let config : FlowManagerConfig := ⟨2, 1, 1, by decide, by decide, by decide, by decide⟩
    ∃ sys : DispatchSystem, Reaches dispatchStep anyStep (.initial config) sys ∧
      sys.line 1 = [⟨1, [10]⟩, ⟨1, [11]⟩] ∧ (sys.mgr.flows 1).dropDeferredOverflow = 1 ∧
      (sys.line 1).Sublist (ofFlow sys.pushed 1) ∧
      UInt64.ofNat (sys.line 1).length + 1 = UInt64.ofNat (ofFlow sys.pushed 1).length := by
  intro config
  obtain ⟨sys, run, seen⟩ : ∃ sys : DispatchSystem,
      Reaches dispatchStep anyStep (.initial config) sys ∧
        decide (sys.line 1 = [⟨1, [10]⟩, ⟨1, [11]⟩] ∧
          (sys.mgr.flows 1).dropDeferredOverflow = 1) = true :=
    Reaches.exists_of_actions
      [.push ⟨1, [10]⟩, .dispatch, .dispatch, .dispatch, .dispatch,
        .push ⟨1, [11]⟩, .dispatch, .dispatch, .dispatch, .dispatch,
        .push ⟨1, [12]⟩, .dispatch, .dispatch, .dispatch, .dispatch, .dispatch, .dispatch]
      _ (by decide +kernel)
  obtain ⟨line_eq, dropped⟩ := of_decide_eq_true seen
  obtain ⟨kept, counted⟩ := (dispatch_keeps_order config sys run).1 1 (by decide)
  exact ⟨sys, run, line_eq, dropped, kept, dropped ▸ counted⟩

end MultiFlow.Dispatch
