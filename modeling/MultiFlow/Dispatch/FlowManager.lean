import MultiFlow.Lib.Bits
import MultiFlow.Lib.Transition
import MultiFlow.Dispatch.MixedQueue

/-!
# The flow manager and its dispatcher

`flow_buffer.c`, `flow_manager.c` and `dispatcher.c`: packets of the mixed queue are routed to the
queue of their flow, or to its deferred ring while that queue is full.  Only the dispatcher writes
the deferred rings, the bitmap of the active ones and their total, so moving a packet from a
deferred ring to the flow's queue is one step.
-/

namespace MultiFlow.Dispatch

open Function Lib List

structure DataPacket where
  flowId : UInt32
  payload : List UInt8
  deriving DecidableEq, Repr

def DataPacket.flow (pkt : DataPacket) : Nat := pkt.flowId.toNat

inductive FlowBufferStatus where
  | ok
  | errFull
  | errShutdown
  deriving DecidableEq, Repr

structure FlowBuffer where
  ring : RingBuffer DataPacket
  shutdown : Bool

def flowBufferTryEnqueue (fb : FlowBuffer) (pkt : DataPacket) : FlowBufferStatus × FlowBuffer :=
  if fb.shutdown then (.errShutdown, fb)
  else if fb.ring.count = fb.ring.capacity then (.errFull, fb)
  else (.ok, { fb with ring := fb.ring.push pkt })

def flowBufferTryDequeueBatch (fb : FlowBuffer) (maxN : Nat) : List DataPacket × FlowBuffer :=
  if maxN = 0 then ([], fb)
  else if fb.ring.count = 0 then ([], fb)
  else ((fb.ring.popMany maxN).1, { fb with ring := (fb.ring.popMany maxN).2 })

def flowBufferDequeue (fb : FlowBuffer) :
    Option (FlowBufferStatus × Option DataPacket × FlowBuffer) :=
  if fb.ring.count = 0 then
    if fb.shutdown then some (.errShutdown, none, fb) else none
  else some (.ok, some fb.ring.front, { fb with ring := fb.ring.pop })

structure FlowContext where
  queue : FlowBuffer
  dropDeferredOverflow : UInt64

/-- A configuration that `valid_config` accepts. -/
structure FlowManagerConfig where
  maxFlows : Nat
  perFlowQueueCapacity : Nat
  mixedQueueCapacity : Nat
  maxFlows_pos : 0 < maxFlows
  maxFlows_lt : maxFlows < 2 ^ 32
  perFlow_pos : 0 < perFlowQueueCapacity
  mixed_pos : 0 < mixedQueueCapacity

structure FlowManager where
  config : FlowManagerConfig
  flows : Nat → FlowContext
  deferred : Nat → RingBuffer DataPacket
  mixed : MixedQueue DataPacket
  dispatchWakeGen : UInt64
  routeErrors : UInt64
  dropDeferredOverflow : UInt64
  deferredActiveBits : BitVec 64
  deferredTotalCount : Nat
  deferredRrCursor : Nat

def fmDeferredQuota : Nat := 8

def nullPacket : DataPacket := ⟨0, []⟩

def flowManagerInit (config : FlowManagerConfig) : FlowManager where
  config := config
  flows := fun _ =>
    { queue :=
        { ring := RingBuffer.empty nullPacket config.perFlowQueueCapacity config.perFlow_pos
          shutdown := false }
      dropDeferredOverflow := 0 }
  deferred := fun _ => RingBuffer.empty nullPacket config.mixedQueueCapacity config.mixed_pos
  mixed := mixedQueueInit nullPacket config.mixedQueueCapacity config.mixed_pos
  dispatchWakeGen := 0
  routeErrors := 0
  dropDeferredOverflow := 0
  deferredActiveBits := 0
  deferredTotalCount := 0
  deferredRrCursor := 0

def setQueue (mgr : FlowManager) (flowId : Nat) (queue : FlowBuffer) : FlowManager :=
  { mgr with flows := update mgr.flows flowId { mgr.flows flowId with queue } }

def deferredMarkActive (bits : BitVec 64) (flowId : Nat) : BitVec 64 :=
  if flowId < 64 then bits ||| 1#64 <<< flowId else bits

def deferredClearActive (bits : BitVec 64) (flowId : Nat) : BitVec 64 :=
  if flowId < 64 then bits &&& ~~~(1#64 <<< flowId) else bits

/-- Replaces a deferred ring together with its entries in the books. -/
def setDeferred (mgr : FlowManager) (flowId : Nat) (ring : RingBuffer DataPacket)
    (bits : BitVec 64) (total : Nat) : FlowManager :=
  { mgr with
    deferred := update mgr.deferred flowId ring
    deferredActiveBits := bits
    deferredTotalCount := total }

def deferredPush (mgr : FlowManager) (flowId : Nat) (pkt : DataPacket) : Option FlowManager :=
  if mgr.config.maxFlows ≤ flowId then none
  else
    let dq := mgr.deferred flowId
    let bits := mgr.deferredActiveBits
    if dq.capacity ≤ dq.count then none
    else
      some (setDeferred mgr flowId (dq.push pkt)
        (if dq.count = 0 then deferredMarkActive bits flowId else bits)
        (mgr.deferredTotalCount + 1))

def deferredPop (mgr : FlowManager) (flowId : Nat) : Option DataPacket × FlowManager :=
  if mgr.config.maxFlows ≤ flowId then (none, mgr)
  else
    let dq := mgr.deferred flowId
    let bits := mgr.deferredActiveBits
    if dq.count = 0 then (none, mgr)
    else
      (some dq.front, setDeferred mgr flowId dq.pop
        (if dq.count = 1 then deferredClearActive bits flowId else bits)
        (mgr.deferredTotalCount - 1))

def recordDeferredOverflow (mgr : FlowManager) (flowId : Nat) : FlowManager :=
  let counted :=
    { mgr with
      routeErrors := mgr.routeErrors + 1
      dropDeferredOverflow := mgr.dropDeferredOverflow + 1 }
  if flowId < mgr.config.maxFlows then
    { counted with
      flows := update mgr.flows flowId
        { mgr.flows flowId with
          dropDeferredOverflow := (mgr.flows flowId).dropDeferredOverflow + 1 } }
  else counted

def deferOrDrop (mgr : FlowManager) (flowId : Nat) (pkt : DataPacket) : FlowManager :=
  match deferredPush mgr flowId pkt with
  | some deferred => deferred
  | none => recordDeferredOverflow mgr flowId

def routePacket (mgr : FlowManager) (pkt : DataPacket) : FlowManager × Bool :=
  let flowId := pkt.flow
  if mgr.config.maxFlows ≤ flowId then ({ mgr with routeErrors := mgr.routeErrors + 1 }, true)
  else if 0 < (mgr.deferred flowId).count then (deferOrDrop mgr flowId pkt, true)
  else
    match flowBufferTryEnqueue (mgr.flows flowId).queue pkt with
    | (.ok, queue) => (setQueue mgr flowId queue, true)
    | (.errShutdown, _) => (mgr, false)
    | (.errFull, _) => (deferOrDrop mgr flowId pkt, true)

structure Drain where
  active : BitVec 64
  start : Nat
  examined : Nat
  quota : Nat
  progress : Bool
  deriving DecidableEq, Repr

/-- The start of `drain_deferred`; `none` when there is nothing to drain. -/
def drainDeferred (mgr : FlowManager) : Option Drain :=
  if mgr.deferredActiveBits = 0 ∧ mgr.deferredTotalCount = 0 then none
  else
    some
      { active := mgr.deferredActiveBits
        start := mgr.deferredRrCursor % mgr.config.maxFlows
        examined := 0
        quota := fmDeferredQuota
        progress := false }

namespace Drain

def flow (drain : Drain) (mgr : FlowManager) : Nat :=
  (drain.start + drain.examined) % 2 ^ 32 % mgr.config.maxFlows

def nextFlow (drain : Drain) : Drain :=
  { drain with examined := drain.examined + 1, quota := fmDeferredQuota }

/-- The test at the head of the outer loop, made before the quota of a flow is used. -/
def skips (drain : Drain) (mgr : FlowManager) : Bool :=
  let i := drain.flow mgr
  decide (drain.quota = fmDeferredQuota) && decide (i < 64) &&
    decide (drain.active &&& 1#64 <<< i = 0) && decide ((mgr.deferred i).count = 0)

end Drain

/-- One pass of the inner loop of `drain_deferred`, or its return with `progress`. -/
def drainStep (mgr : FlowManager) (drain : Drain) : FlowManager × (Drain ⊕ Bool) :=
  if drain.examined < mgr.config.maxFlows then
    let i := drain.flow mgr
    if drain.skips mgr then (mgr, .inl drain.nextFlow)
    else if 0 < drain.quota ∧ 0 < (mgr.deferred i).count then
      match flowBufferTryEnqueue (mgr.flows i).queue (mgr.deferred i).front with
      | (.ok, queue) =>
        ((deferredPop (setQueue mgr i queue) i).2,
          .inl { drain with quota := drain.quota - 1, progress := true })
      | (.errFull, _) | (.errShutdown, _) => (mgr, .inl drain.nextFlow)
    else (mgr, .inl drain.nextFlow)
  else
    ({ mgr with deferredRrCursor := (drain.start + 1) % 2 ^ 32 % mgr.config.maxFlows },
      .inr drain.progress)

theorem flowBufferTryEnqueue_running {fb : FlowBuffer} (running : fb.shutdown = false)
    (pkt : DataPacket) :
    flowBufferTryEnqueue fb pkt = if fb.ring.count = fb.ring.capacity then (.errFull, fb)
      else (.ok, { fb with ring := fb.ring.push pkt }) := by
  unfold flowBufferTryEnqueue
  rw [running]
  simp

/-- The total and the bitmap say what the rings hold, and no queue is shut down. -/
structure FlowManager.Tracked (mgr : FlowManager) : Prop where
  total : mgr.deferredTotalCount =
    ∑ flowId ∈ Finset.range mgr.config.maxFlows, (mgr.deferred flowId).count
  active : ∀ i < 64, mgr.deferredActiveBits.getLsbD i =
    decide (i < mgr.config.maxFlows ∧ 0 < (mgr.deferred i).count)
  running : ∀ flowId, (mgr.flows flowId).queue.shutdown = false

theorem flowManagerInit_tracked (config : FlowManagerConfig) : (flowManagerInit config).Tracked where
  total := Finset.sum_const_zero.symm
  active := by
    intro i _
    have empty : ¬(i < config.maxFlows ∧ 0 < 0) := fun present => Nat.lt_irrefl 0 present.2
    exact BitVec.getLsbD_zero.trans (decide_eq_false empty).symm
  running := fun _ => rfl

theorem getLsbD_deferredMarkActive (bits : BitVec 64) (flowId : Nat) {i : Nat} (bound : i < 64) :
    (deferredMarkActive bits flowId).getLsbD i = if i = flowId then true else bits.getLsbD i := by
  unfold deferredMarkActive
  split
  next => exact getLsbD_setBit bits flowId bound
  next => rw [if_neg (by omega)]

theorem getLsbD_deferredClearActive (bits : BitVec 64) (flowId : Nat) {i : Nat} (bound : i < 64) :
    (deferredClearActive bits flowId).getLsbD i = if i = flowId then false else bits.getLsbD i := by
  unfold deferredClearActive
  split
  next => exact getLsbD_clearBit bits flowId bound
  next => rw [if_neg (by omega)]

variable (mgr : FlowManager)

@[simp] theorem flows_setQueue_self (flowId : Nat) (queue : FlowBuffer) :
    (setQueue mgr flowId queue).flows flowId = { mgr.flows flowId with queue } :=
  update_self _ _ _

theorem flows_setQueue_of_ne {flowId i : Nat} (queue : FlowBuffer) (other : i ≠ flowId) :
    (setQueue mgr flowId queue).flows i = mgr.flows i :=
  update_of_ne other _ _

@[simp] theorem deferred_setDeferred_self (flowId : Nat) (ring : RingBuffer DataPacket)
    (bits : BitVec 64) (total : Nat) :
    (setDeferred mgr flowId ring bits total).deferred flowId = ring :=
  update_self _ _ _

theorem deferred_setDeferred_of_ne {flowId i : Nat} (ring : RingBuffer DataPacket)
    (bits : BitVec 64) (total : Nat) (other : i ≠ flowId) :
    (setDeferred mgr flowId ring bits total).deferred i = mgr.deferred i :=
  update_of_ne other _ _

namespace FlowManager.Tracked

variable {mgr : FlowManager} {flowId : Nat}

variable (tracked : mgr.Tracked)
include tracked

theorem setDeferred (bound : flowId < mgr.config.maxFlows) {ring : RingBuffer DataPacket}
    {total : Nat} {bits : BitVec 64}
    (total_eq : total + (mgr.deferred flowId).count = mgr.deferredTotalCount + ring.count)
    (bits_eq : ∀ i < 64, bits.getLsbD i =
      if i = flowId then decide (0 < ring.count) else mgr.deferredActiveBits.getLsbD i) :
    (Dispatch.setDeferred mgr flowId ring bits total).Tracked where
  total := by
    have moved := sum_update RingBuffer.count mgr.deferred (Finset.mem_range.mpr bound) ring
    rw [← tracked.total] at moved
    change total = ∑ i ∈ Finset.range mgr.config.maxFlows,
      (update mgr.deferred flowId ring i).count
    omega
  active := by
    intro i small
    change bits.getLsbD i = decide (i < mgr.config.maxFlows ∧
      0 < ((Dispatch.setDeferred mgr flowId ring bits total).deferred i).count)
    rw [bits_eq i small]
    by_cases same : i = flowId
    · subst same
      simp [bound]
    · rw [if_neg same, deferred_setDeferred_of_ne mgr _ _ _ same, tracked.active i small]
  running := tracked.running

theorem setQueue {queue : FlowBuffer} (running : queue.shutdown = false) :
    (Dispatch.setQueue mgr flowId queue).Tracked where
  total := tracked.total
  active := tracked.active
  running := by
    intro i
    by_cases same : i = flowId
    · subst same
      rw [flows_setQueue_self]
      exact running
    · rw [flows_setQueue_of_ne mgr queue same]
      exact tracked.running i

theorem deferredPush_room (bound : flowId < mgr.config.maxFlows) (pkt : DataPacket)
    (room : (mgr.deferred flowId).count < (mgr.deferred flowId).capacity) :
    ∃ bits total, deferredPush mgr flowId pkt =
        some (Dispatch.setDeferred mgr flowId ((mgr.deferred flowId).push pkt) bits total) ∧
      (Dispatch.setDeferred mgr flowId ((mgr.deferred flowId).push pkt) bits total).Tracked := by
  have grown := RingBuffer.count_push pkt room
  unfold deferredPush
  rw [if_neg (by omega), if_neg (by omega)]
  refine ⟨_, _, rfl, tracked.setDeferred bound (by omega) ?_⟩
  intro i small
  rw [grown, decide_eq_true (Nat.succ_pos _)]
  split
  · exact getLsbD_deferredMarkActive _ _ small
  rename_i nonempty
  by_cases same : i = flowId
  · subst same
    rw [if_pos rfl, tracked.active i small]
    exact decide_eq_true ⟨bound, Nat.pos_of_ne_zero nonempty⟩
  · rw [if_neg same]

theorem deferredPop_nonempty (bound : flowId < mgr.config.maxFlows)
    (nonempty : 0 < (mgr.deferred flowId).count) :
    ∃ bits total, (deferredPop mgr flowId).2 =
        Dispatch.setDeferred mgr flowId (mgr.deferred flowId).pop bits total ∧
      (Dispatch.setDeferred mgr flowId (mgr.deferred flowId).pop bits total).Tracked := by
  have shrunk := RingBuffer.count_pop (mgr.deferred flowId)
  have counted : (mgr.deferred flowId).count ≤ mgr.deferredTotalCount := by
    rw [tracked.total]
    exact Finset.single_le_sum (f := fun i => (mgr.deferred i).count)
      (fun _ _ => Nat.zero_le _) (Finset.mem_range.mpr bound)
  unfold deferredPop
  rw [if_neg (by omega), if_neg (by omega)]
  refine ⟨_, _, rfl, tracked.setDeferred bound (by omega) ?_⟩
  intro i small
  split
  · rw [getLsbD_deferredClearActive _ _ small, decide_eq_false (by omega)]
  by_cases same : i = flowId
  · subst same
    have left : 0 < (mgr.deferred i).pop.count := by omega
    rw [if_pos rfl, tracked.active i small, decide_eq_true left]
    exact decide_eq_true ⟨bound, nonempty⟩
  · rw [if_neg same]

end FlowManager.Tracked

/-- The packets of a flow behind the dispatcher, oldest first. -/
def FlowManager.held (mgr : FlowManager) (flowId : Nat) : List DataPacket :=
  (mgr.flows flowId).queue.ring.toList ++ (mgr.deferred flowId).toList

def FlowManager.drops (mgr : FlowManager) (flowId : Nat) : UInt64 :=
  (mgr.flows flowId).dropDeferredOverflow

/-- Each flow gets its incoming packets behind those it holds, or they are counted as drops. -/
structure HandsOver (before after : FlowManager) (incoming : Nat → List DataPacket) : Prop where
  config_eq : after.config = before.config
  mixed_eq : after.mixed = before.mixed
  tracked : after.Tracked
  carried : ∀ flowId < before.config.maxFlows,
    after.held flowId = before.held flowId ++ incoming flowId ∧
        after.drops flowId = before.drops flowId ∨
      after.held flowId = before.held flowId ∧
        after.drops flowId = before.drops flowId + .ofNat (incoming flowId).length

def ofFlow (packets : List DataPacket) (flowId : Nat) : List DataPacket :=
  packets.filter fun pkt => pkt.flow = flowId

theorem ofFlow_append (first second : List DataPacket) (flowId : Nat) :
    ofFlow (first ++ second) flowId = ofFlow first flowId ++ ofFlow second flowId :=
  filter_append _ _

theorem ofFlow_singleton_self (pkt : DataPacket) : ofFlow [pkt] pkt.flow = [pkt] :=
  filter_cons_of_pos (decide_eq_true rfl)

theorem ofFlow_singleton_of_ne {pkt : DataPacket} {flowId : Nat} (other : flowId ≠ pkt.flow) :
    ofFlow [pkt] flowId = [] :=
  filter_cons_of_neg (by simpa using other.symm)

section Routing

variable {mgr after : FlowManager} {pkt : DataPacket}

theorem HandsOver.ofPacket (config_eq : after.config = mgr.config)
    (mixed_eq : after.mixed = mgr.mixed) (tracked : after.Tracked)
    (others : ∀ i ≠ pkt.flow, after.flows i = mgr.flows i ∧ after.deferred i = mgr.deferred i)
    (own : after.held pkt.flow = mgr.held pkt.flow ++ [pkt] ∧
        after.drops pkt.flow = mgr.drops pkt.flow ∨
      after.held pkt.flow = mgr.held pkt.flow ∧ after.drops pkt.flow = mgr.drops pkt.flow + 1) :
    HandsOver mgr after (ofFlow [pkt]) where
  config_eq := config_eq
  mixed_eq := mixed_eq
  tracked := tracked
  carried := by
    intro i _
    by_cases same : i = pkt.flow
    · subst same
      rw [ofFlow_singleton_self]
      exact own
    · obtain ⟨flow_eq, deferred_eq⟩ := others i same
      unfold FlowManager.held FlowManager.drops
      rw [flow_eq, deferred_eq, ofFlow_singleton_of_ne same]
      exact Or.inl ⟨(append_nil _).symm, rfl⟩

theorem recordDeferredOverflow_handsOver (tracked : mgr.Tracked)
    (bound : pkt.flow < mgr.config.maxFlows) :
    HandsOver mgr (recordDeferredOverflow mgr pkt.flow) (ofFlow [pkt]) := by
  unfold recordDeferredOverflow
  rw [if_pos bound]
  refine .ofPacket rfl rfl ⟨tracked.total, tracked.active, ?_⟩ ?_ (Or.inr ?_)
  · intro i
    by_cases same : i = pkt.flow
    · subst same
      dsimp only
      rw [update_self]
      exact tracked.running pkt.flow
    · dsimp only
      rw [update_of_ne same]
      exact tracked.running i
  · intro i other
    exact ⟨update_of_ne other _ _, rfl⟩
  · unfold FlowManager.held FlowManager.drops
    dsimp only
    rw [update_self]
    exact ⟨rfl, rfl⟩

theorem deferOrDrop_handsOver (tracked : mgr.Tracked) (bound : pkt.flow < mgr.config.maxFlows) :
    HandsOver mgr (deferOrDrop mgr pkt.flow pkt) (ofFlow [pkt]) := by
  unfold deferOrDrop
  by_cases room : (mgr.deferred pkt.flow).count < (mgr.deferred pkt.flow).capacity
  · obtain ⟨bits, total, pushed, trackedAfter⟩ := tracked.deferredPush_room bound pkt room
    rw [pushed]
    refine .ofPacket rfl rfl trackedAfter ?_ (Or.inl ⟨?_, rfl⟩)
    · intro i other
      exact ⟨rfl, deferred_setDeferred_of_ne mgr _ _ _ other⟩
    · unfold FlowManager.held
      rw [deferred_setDeferred_self, RingBuffer.toList_push pkt room, ← append_assoc]
      rfl
  · have refused : deferredPush mgr pkt.flow pkt = none := by
      unfold deferredPush
      rw [if_neg (by omega), if_pos (by omega)]
    rw [refused]
    exact recordDeferredOverflow_handsOver tracked bound

theorem routePacket_handsOver (tracked : mgr.Tracked) :
    HandsOver mgr (routePacket mgr pkt).1 (ofFlow [pkt]) := by
  unfold routePacket
  dsimp only
  split
  next =>
    refine ⟨rfl, rfl, { tracked with }, ?_⟩
    intro i bound
    rw [ofFlow_singleton_of_ne (by omega)]
    exact Or.inl ⟨(append_nil _).symm, rfl⟩
  rename_i known
  have bound : pkt.flow < mgr.config.maxFlows := Nat.lt_of_not_le known
  split
  · exact deferOrDrop_handsOver tracked bound
  rw [flowBufferTryEnqueue_running (tracked.running pkt.flow)]
  split_ifs with full
  · exact deferOrDrop_handsOver tracked bound
  have room : (mgr.flows pkt.flow).queue.ring.count <
      (mgr.flows pkt.flow).queue.ring.capacity :=
    lt_of_le_of_ne (mgr.flows pkt.flow).queue.ring.count_le full
  -- Nothing is deferred for the flow, so the end of its queue is the end of the line.
  have empty : (mgr.deferred pkt.flow).toList = [] :=
    length_eq_zero_iff.mp ((RingBuffer.length_toList _).trans (by omega))
  refine .ofPacket rfl rfl (tracked.setQueue (tracked.running pkt.flow)) ?_ (Or.inl ?_)
  · intro i other
    exact ⟨flows_setQueue_of_ne mgr _ other, rfl⟩
  unfold FlowManager.held FlowManager.drops
  rw [flows_setQueue_self]
  rw [RingBuffer.toList_push pkt room]
  change _ ++ (mgr.deferred pkt.flow).toList = _ ∧ _
  rw [empty, append_nil, append_nil]
  exact ⟨rfl, rfl⟩

end Routing

section Draining

variable {mgr : FlowManager}

theorem Drain.flow_lt (drain : Drain) (mgr : FlowManager) : drain.flow mgr < mgr.config.maxFlows :=
  Nat.mod_lt _ mgr.config.maxFlows_pos

theorem HandsOver.nothing {after : FlowManager} (config_eq : after.config = mgr.config)
    (mixed_eq : after.mixed = mgr.mixed) (tracked : after.Tracked)
    (held_eq : ∀ i, after.held i = mgr.held i) (drops_eq : ∀ i, after.drops i = mgr.drops i) :
    HandsOver mgr after (ofFlow []) where
  config_eq := config_eq
  mixed_eq := mixed_eq
  tracked := tracked
  carried := fun i _ => Or.inl ⟨(held_eq i).trans (append_nil _).symm, drops_eq i⟩

theorem move_handsOver (tracked : mgr.Tracked) {i : Nat} (bound : i < mgr.config.maxFlows)
    (waiting : 0 < (mgr.deferred i).count) {queue : FlowBuffer} (running : queue.shutdown = false)
    (filled : queue.ring.toList = (mgr.flows i).queue.ring.toList ++ [(mgr.deferred i).front]) :
    HandsOver mgr (deferredPop (setQueue mgr i queue) i).2 (ofFlow []) := by
  have trackedQueue : (setQueue mgr i queue).Tracked := tracked.setQueue running
  obtain ⟨bits, total, popped, trackedAfter⟩ := trackedQueue.deferredPop_nonempty bound waiting
  rw [popped]
  refine .nothing rfl rfl trackedAfter ?_ ?_
  · intro j
    unfold FlowManager.held
    by_cases same : j = i
    · subst same
      rw [deferred_setDeferred_self]
      change ((setQueue mgr j queue).flows j).queue.ring.toList ++ (mgr.deferred j).pop.toList = _
      rw [flows_setQueue_self]
      rw [filled, append_assoc, singleton_append, ← RingBuffer.toList_pop waiting]
    · rw [deferred_setDeferred_of_ne _ _ _ _ same]
      change ((setQueue mgr i queue).flows j).queue.ring.toList ++ (mgr.deferred j).toList = _
      rw [flows_setQueue_of_ne mgr _ same]
  · intro j
    change ((setQueue mgr i queue).flows j).dropDeferredOverflow = _
    by_cases same : j = i
    · subst same
      rw [flows_setQueue_self]
      rfl
    · rw [flows_setQueue_of_ne mgr _ same]
      rfl

theorem drainStep_handsOver (tracked : mgr.Tracked) (drain : Drain) :
    HandsOver mgr (drainStep mgr drain).1 (ofFlow []) := by
  have same : HandsOver mgr mgr (ofFlow []) :=
    .nothing rfl rfl tracked (fun _ => rfl) (fun _ => rfl)
  unfold drainStep
  dsimp only
  split
  next =>
    split
    · exact same
    split
    next waiting =>
      rw [flowBufferTryEnqueue_running (tracked.running _)]
      split_ifs with full
      · exact same
      · refine move_handsOver tracked (drain.flow_lt mgr) waiting.2 (tracked.running _) ?_
        exact RingBuffer.toList_push _ (lt_of_le_of_ne (mgr.flows _).queue.ring.count_le full)
    next => exact same
  next =>
    exact .nothing rfl rfl { tracked with } (fun _ => rfl)
      (fun _ => rfl)

end Draining

end MultiFlow.Dispatch
