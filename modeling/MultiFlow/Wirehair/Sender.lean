import MultiFlow.Wirehair.Segment

/-!
# The sliding-window segment sender

`wirehair_segment_sender.c`.  A slot holds an admitted segment until it is acknowledged and all
earlier ones have been released; a slot that is not active is `none`.  An entry of the
acknowledgement table is `none` while its valid bit is clear.
-/

namespace MultiFlow.Wirehair

open Function Wire

def WIREHAIR_SENDER_SOURCE_BATCH : Nat := 32

def WH_ACK_INITIAL_WAIT_MS : UInt64 := 200

def WH_ACK_REPAIR_WAIT_MS : UInt64 := 40

def WH_ACK_WAIT_MIN_MS : UInt64 := 8

def WH_ACK_WAIT_MAX_MS : UInt64 := 800

def WH_ACK_SRTT_MULT : UInt64 := 2

inductive SenderPacketKind where
  | data
  | repair
  | finish
deriving DecidableEq

abbrev SenderEmitFn (ω : Type) := WireHeader → List UInt8 → SenderPacketKind → ω → Int × ω

structure WirehairSegmentSenderSlot where
  acked : Bool
  segmentId : UInt64
  tx : WirehairSegmentTx
  repairDueNs : UInt64
  sourceCompleteNs : UInt64
  repairDueValid : Bool

structure WirehairSegmentSender where
  config : WirehairSegmentConfig
  flowId : UInt32
  finalDst : UInt8
  ttl : UInt8
  window : Nat
  baseSegment : UInt64
  nextSegmentId : UInt64
  inputFinished : Bool
  endEmitted : Bool
  failed : Bool
  ackTimedOut : Bool
  activeCount : Nat
  acks : Nat → Option UInt64
  srttNs : UInt64
  slots : Nat → Option WirehairSegmentSenderSlot

def newSender (config : WirehairSegmentConfig) (flowId : UInt32) (finalDst ttl : UInt8) :
    WirehairSegmentSender :=
  { config, flowId, finalDst, ttl
    window := wirehairSegmentWindow config
    baseSegment := 0
    nextSegmentId := 0
    inputFinished := false
    endEmitted := false
    failed := false
    ackTimedOut := false
    activeCount := 0
    acks := fun _ => none
    srttNs := 0
    slots := fun _ => none }

def wirehairSegmentSenderCreate (config : WirehairSegmentConfig) (flowId : UInt32)
    (finalDst ttl : UInt8) : Option WirehairSegmentSender :=
  if wirehairSegmentConfigValid config = false ∨ config.ackEnabled = false ∨ finalDst = 0 ∨
      ttl = 0 then none
  else some (newSender config flowId finalDst ttl)

def ackIndex (segmentId : UInt64) : Nat := segmentId.toNat % WH_SEGMENT_WINDOW_MAX

variable (sender : WirehairSegmentSender)

def ackContains (segmentId : UInt64) : Bool :=
  sender.acks (ackIndex segmentId) == some segmentId

def ackClear (segmentId : UInt64) : WirehairSegmentSender :=
  if sender.acks (ackIndex segmentId) = some segmentId then
    { sender with acks := update sender.acks (ackIndex segmentId) none }
  else sender

def ackMark (header : WireHeader) : WirehairSegmentSender :=
  if header.flowId ≠ sender.flowId ∨ header.blockId < sender.baseSegment ∨
      sender.window ≤ (header.blockId - sender.baseSegment).toNat then sender
  else
    { sender with
      acks := update sender.acks (ackIndex header.blockId) (some header.blockId) }

def noteAckRtt (srttNs : UInt64) (slot : WirehairSegmentSenderSlot) (nowNs : UInt64) : UInt64 :=
  if slot.sourceCompleteNs = 0 ∨ nowNs < slot.sourceCompleteNs then srttNs
  else
    let rttNs := nowNs - slot.sourceCompleteNs
    if srttNs = 0 then rttNs else (srttNs * 7 + rttNs) / 8

def slotIndex (segmentId : UInt64) : Nat :=
  segmentId.toNat % sender.window

def senderReleaseSlot (index : Nat) : WirehairSegmentSender :=
  { sender with
    slots := update sender.slots index none
    activeCount := sender.activeCount - 1 }

/-- The body of the loop of `release_acked_base`, for a slot of the base segment. -/
def releaseHead (slot : WirehairSegmentSenderSlot) : WirehairSegmentSender :=
  let cleared := ackClear sender slot.segmentId
  let released := senderReleaseSlot cleared (slotIndex sender sender.baseSegment)
  { released with baseSegment := released.baseSegment + 1 }

/-- The loop of `release_acked_base`; each pass takes one off the active count. -/
def releaseBase : Nat → WirehairSegmentSender → WirehairSegmentSender
  | 0, sender => sender
  | count + 1, sender =>
    match sender.slots (slotIndex sender sender.baseSegment) with
    | none => sender
    | some slot =>
      if slot.segmentId ≠ sender.baseSegment ∨ slot.acked = false then sender
      else releaseBase count (releaseHead sender slot)

def releaseAckedBase : WirehairSegmentSender :=
  releaseBase sender.activeCount sender

def applyAck (nowNs : UInt64) (sender : WirehairSegmentSender) (index : Nat) :
    WirehairSegmentSender :=
  match sender.slots index with
  | none => sender
  | some slot =>
    if slot.acked = false ∧ ackContains sender slot.segmentId = true then
      { sender with
        srttNs := noteAckRtt sender.srttNs slot nowNs
        slots := update sender.slots index (some { slot with acked := true }) }
    else sender

def applyPendingAcks (nowNs : UInt64) : WirehairSegmentSender :=
  releaseAckedBase ((List.range sender.window).foldl (applyAck nowNs) sender)

def wirehairSegmentSenderInputAck (datagram : List UInt8) (nowNs : UInt64) :
    Int × WirehairSegmentSender :=
  if datagram.length = 0 then (-1, sender)
  else
    match wireHeaderDecode datagram with
    | none => (-1, sender)
    | some header =>
      if header.version ≠ WIRE_VERSION_V4 ∨ header.type ≠ WIRE_TYPE_ACK ∨
          header.flowId ≠ sender.flowId then (-1, sender)
      else (0, applyPendingAcks (ackMark sender header) nowNs)

def wirehairSegmentSenderCanAdmit : Bool :=
  if sender.failed || sender.inputFinished then false
  else if sender.window ≤ (sender.nextSegmentId - sender.baseSegment).toNat then false
  else (sender.slots (slotIndex sender sender.nextSegmentId)).isNone

def wirehairSegmentSenderAdmit (segmentId : UInt64) (data : List UInt8) :
    Int × WirehairSegmentSender :=
  if data.length = 0 ∨ sender.config.segmentBytes.toNat < data.length ∨ sender.failed = true then
    (-2, sender)
  else if wirehairSegmentSenderCanAdmit sender = false then (-1, sender)
  else if segmentId ≠ sender.nextSegmentId then (-2, sender)
  else if (sender.slots (slotIndex sender segmentId)).isSome then (-2, sender)
  else
    match wirehairSegmentTxCreate sender.config sender.flowId segmentId sender.finalDst sender.ttl
        data with
    | none => (-2, sender)
    | some tx =>
      let slot : WirehairSegmentSenderSlot :=
        { acked := false
          segmentId
          tx
          repairDueNs := 0
          sourceCompleteNs := 0
          repairDueValid := false }
      (0,
        { sender with
          slots := update sender.slots (slotIndex sender segmentId) (some slot)
          nextSegmentId := sender.nextSegmentId + 1
          activeCount := sender.activeCount + 1 })

def wirehairSegmentSenderMarkInputFinished : WirehairSegmentSender :=
  { sender with inputFinished := true }

section Emission

variable (codec : WirehairCodec) {ω : Type} (emitFn : SenderEmitFn ω)

/-- A positive answer is passed on as -2. -/
def senderEmitBridge (tx : WirehairSegmentTx) : SegmentEmitFn ω := fun header payload env =>
  let kind := if header.shardIndex.toNat < tx.sourcePackets then .data else .repair
  let (answer, env) := emitFn header payload kind env
  if 0 < answer then (-2, env) else (answer, env)

def wirehairSegmentAckRepairDelayMs (srttMs : UInt64) : UInt64 :=
  if srttMs = 0 then WH_ACK_INITIAL_WAIT_MS
  else
    let delay := srttMs * WH_ACK_SRTT_MULT % 2 ^ 32
    let delay := if delay < WH_ACK_WAIT_MIN_MS then WH_ACK_WAIT_MIN_MS else delay
    if WH_ACK_WAIT_MAX_MS < delay then WH_ACK_WAIT_MAX_MS else delay

variable (sender : WirehairSegmentSender)

/-- The wait before the first repair round; milliseconds are 32-bit numbers. -/
def repairWaitNs : UInt64 :=
  wirehairSegmentAckRepairDelayMs ((sender.srttNs + 500000) / 1000000 % 2 ^ 32) * 1000000

def sourcePending : Bool :=
  (List.range sender.window).any fun index =>
    match sender.slots index with
    | none => false
    | some slot => !slot.acked && !wirehairSegmentTxSourceComplete slot.tx

/-- How the loop of `wirehair_segment_sender_tick` goes on after a slot. -/
inductive TickStep where
  | next
  | stop
  | fail
deriving DecidableEq

def setSlot (index : Nat) (slot : WirehairSegmentSenderSlot) : WirehairSegmentSender :=
  { sender with slots := update sender.slots index (some slot) }

def afterEmission (answer : Int) : TickStep :=
  if answer < 0 then if answer = -2 then .stop else .fail else .next

def tickSource (index : Nat) (slot : WirehairSegmentSenderSlot) (nowNs : UInt64) (env : ω) :
    TickStep × WirehairSegmentSender × ω :=
  let (emitted, tx, env) := wirehairSegmentTxEmitSource codec slot.tx
    WIREHAIR_SENDER_SOURCE_BATCH (senderEmitBridge emitFn slot.tx) env
  let slot := { slot with tx }
  let slot :=
    if 0 ≤ emitted ∧ wirehairSegmentTxSourceComplete tx = true then
      { slot with sourceCompleteNs := nowNs, repairDueValid := false }
    else slot
  (afterEmission emitted, setSlot sender index slot, env)

def scheduleRepair (slot : WirehairSegmentSenderSlot) (nowNs : UInt64) :
    WirehairSegmentSenderSlot :=
  if slot.repairDueValid then slot
  else { slot with repairDueNs := nowNs + repairWaitNs sender, repairDueValid := true }

def tickRepair (index : Nat) (slot : WirehairSegmentSenderSlot) (nowNs : UInt64) (env : ω) :
    TickStep × WirehairSegmentSender × ω :=
  let slot := scheduleRepair sender slot nowNs
  let sender := setSlot sender index slot
  if nowNs < slot.repairDueNs then (.next, sender, env)
  else if wirehairSegmentTxRepairExhausted slot.tx then
    (.fail, { sender with ackTimedOut := true }, env)
  else
    let (emitted, tx, env) := wirehairSegmentTxEmitRepair codec slot.tx
      (wirehairSegmentAckRepairRoundPackets slot.tx.sourcePackets)
      (senderEmitBridge emitFn slot.tx) env
    let slot := { slot with tx }
    let slot :=
      if 0 ≤ emitted then
        { slot with
          repairDueNs := nowNs + WH_ACK_REPAIR_WAIT_MS * 1000000
          repairDueValid := true }
      else slot
    (afterEmission emitted, setSlot sender index slot, env)

/-- One pass of the loop of `wirehair_segment_sender_tick`; `pending` says that some segment has
source packets left. -/
def tickSlot (pending : Bool) (nowNs : UInt64) (sender : WirehairSegmentSender) (index : Nat)
    (env : ω) : TickStep × WirehairSegmentSender × ω :=
  match sender.slots index with
  | none => (.next, sender, env)
  | some slot =>
    if slot.acked then (.next, sender, env)
    else if wirehairSegmentTxSourceComplete slot.tx = false then
      tickSource codec emitFn sender index slot nowNs env
    else if pending then
      (.next, setSlot sender index { slot with repairDueValid := false }, env)
    else if slot.segmentId ≠ sender.baseSegment then (.next, sender, env)
    else tickRepair codec emitFn sender index slot nowNs env

def tickSlots (pending : Bool) (nowNs : UInt64) :
    List Nat → WirehairSegmentSender → ω → Int × WirehairSegmentSender × ω
  | [], sender, env => (0, sender, env)
  | index :: rest, sender, env =>
    match tickSlot codec emitFn pending nowNs sender index env with
    | (.next, sender, env) => tickSlots pending nowNs rest sender env
    | (.stop, sender, env) => (0, sender, env)
    | (.fail, sender, env) => (-1, { sender with failed := true }, env)

def tickOrder : List Nat :=
  (List.range sender.window).map fun i =>
    (sender.baseSegment + UInt64.ofNat i).toNat % sender.window

def wirehairSegmentSenderTick (nowNs : UInt64) (env : ω) : Int × WirehairSegmentSender × ω :=
  if sender.failed then (-1, sender, env)
  else
    let sender := applyPendingAcks sender nowNs
    tickSlots codec emitFn (sourcePending sender) nowNs (tickOrder sender) sender env

def endHeader : WireHeader where
  version := WIRE_VERSION_V4
  type := WIRE_TYPE_END
  finalDst := sender.finalDst
  ttl := sender.ttl
  flowId := sender.flowId
  blockId := sender.nextSegmentId
  shardCount := 0
  originNode := sender.config.originNode
  flags := WIRE_FLAG_ACK_REQUEST
  segmentBytes := 0

def wirehairSegmentSenderTryEmitEnd (env : ω) : Int × WirehairSegmentSender × ω :=
  if sender.failed || sender.endEmitted || !sender.inputFinished ||
      decide (sender.activeCount ≠ 0) then (0, sender, env)
  else
    let (answer, env) := emitFn (endHeader sender) [] .finish env
    if answer ≠ 0 then (-1, { sender with failed := true }, env)
    else (1, { sender with endEmitted := true }, env)

end Emission

variable (snd : WirehairSegmentSender)

theorem wirehairSegmentSenderAdmit_cases (seg : UInt64) (data : List UInt8) :
    (∃ status, status ≠ 0 ∧ wirehairSegmentSenderAdmit snd seg data = (status, snd)) ∨
      ∃ tx, wirehairSegmentTxCreate snd.config snd.flowId seg snd.finalDst
          snd.ttl data = some tx ∧
        wirehairSegmentSenderCanAdmit snd = true ∧ seg = snd.nextSegmentId ∧
        snd.slots (slotIndex snd seg) = none ∧
        wirehairSegmentSenderAdmit snd seg data =
          (0, { snd with
            slots := update snd.slots (slotIndex snd seg)
              (some ⟨false, seg, tx, 0, 0, false⟩)
            nextSegmentId := snd.nextSegmentId + 1
            activeCount := snd.activeCount + 1 }) := by
  unfold wirehairSegmentSenderAdmit
  split_ifs with bad full wrong taken
  · exact Or.inl ⟨-2, by decide, rfl⟩
  · exact Or.inl ⟨-1, by decide, rfl⟩
  · exact Or.inl ⟨-2, by decide, rfl⟩
  · exact Or.inl ⟨-2, by decide, rfl⟩
  cases created : wirehairSegmentTxCreate snd.config snd.flowId seg snd.finalDst
      snd.ttl data with
  | none => exact Or.inl ⟨-2, by decide, rfl⟩
  | some tx =>
    refine Or.inr ⟨tx, rfl, Bool.eq_true_of_not_eq_false full, not_not.mp wrong, ?_, rfl⟩
    exact Option.not_isSome_iff_eq_none.mp taken

/-- A slot is marked as acknowledged, or the slot of the base segment is released. -/
inductive AckMove (sender : WirehairSegmentSender) : WirehairSegmentSender → Prop where
  | applied (index : Nat) (slot : WirehairSegmentSenderSlot) (srttNs : UInt64)
      (found : sender.slots index = some slot)
      (contained : ackContains sender slot.segmentId = true) :
      AckMove sender
        { sender with
          srttNs
          slots := update sender.slots index (some { slot with acked := true }) }
  | released (slot : WirehairSegmentSenderSlot)
      (found : sender.slots (slotIndex sender sender.baseSegment) = some slot)
      (base : slot.segmentId = sender.baseSegment) (acked : slot.acked = true)
      (active : 0 < sender.activeCount) : AckMove sender (releaseHead sender slot)

abbrev AckMoves := Relation.ReflTransGen AckMove

theorem ackClear_eq (seg : UInt64) : ∃ acks, ackClear snd seg = { snd with acks } := by
  unfold ackClear
  split
  next => exact ⟨_, rfl⟩
  next => exact ⟨snd.acks, rfl⟩

theorem releaseHead_eq (slot : WirehairSegmentSenderSlot) :
    ∃ acks, releaseHead snd slot =
      { snd with
        acks
        slots := update snd.slots (slotIndex snd snd.baseSegment) none
        activeCount := snd.activeCount - 1
        baseSegment := snd.baseSegment + 1 } := by
  obtain ⟨acks, cleared⟩ := ackClear_eq snd slot.segmentId
  refine ⟨acks, ?_⟩
  unfold releaseHead senderReleaseSlot
  rw [cleared]

theorem applyAck_moves (nowNs : UInt64) (snd : WirehairSegmentSender) (idx : Nat) :
    AckMoves snd (applyAck nowNs snd idx) := by
  unfold applyAck
  cases found : snd.slots idx with
  | none => exact .refl
  | some slot =>
    dsimp only
    split
    next pending => exact .single (.applied idx slot _ found pending.2)
    next => exact .refl

theorem releaseBase_moves (count : Nat) (snd : WirehairSegmentSender)
    (counted : count ≤ snd.activeCount) : AckMoves snd (releaseBase count snd) := by
  induction count generalizing snd with
  | zero => exact .refl
  | succ count ih =>
    unfold releaseBase
    cases found : snd.slots (slotIndex snd snd.baseSegment) with
    | none => exact .refl
    | some slot =>
      dsimp only
      split
      · exact .refl
      rename_i ready
      simp only [not_or, not_not, Bool.not_eq_false] at ready
      obtain ⟨acks, head_eq⟩ := releaseHead_eq snd slot
      have left : count ≤ (releaseHead snd slot).activeCount := by
        rw [head_eq]
        dsimp only
        omega
      exact .head (.released slot found ready.1 ready.2 (by omega)) (ih _ left)

theorem applyPendingAcks_moves (nowNs : UInt64) : AckMoves snd (applyPendingAcks snd nowNs) := by
  have applied : ∀ (indices : List Nat) (before : WirehairSegmentSender),
      AckMoves before (indices.foldl (applyAck nowNs) before) := by
    intro indices
    induction indices with
    | nil => exact fun _ => .refl
    | cons idx rest ih =>
      intro before
      exact (applyAck_moves nowNs before idx).trans (ih _)
  exact (applied _ snd).trans (releaseBase_moves _ _ le_rfl)

structure SameFrame (before after : WirehairSegmentSender) : Prop where
  config_eq : after.config = before.config
  flowId_eq : after.flowId = before.flowId
  finalDst_eq : after.finalDst = before.finalDst
  ttl_eq : after.ttl = before.ttl
  window_eq : after.window = before.window
  next_eq : after.nextSegmentId = before.nextSegmentId
  finished_eq : after.inputFinished = before.inputFinished
  endEmitted_eq : after.endEmitted = before.endEmitted
  failed_eq : after.failed = before.failed
  timedOut_eq : after.ackTimedOut = before.ackTimedOut

theorem AckMoves.sameFrame {snd after : WirehairSegmentSender} (moves : AckMoves snd after) :
    SameFrame snd after := by
  induction moves with
  | refl => exact ⟨rfl, rfl, rfl, rfl, rfl, rfl, rfl, rfl, rfl, rfl⟩
  | tail _ move ih =>
    cases move with
    | applied =>
      exact { ih with }
    | released slot =>
      obtain ⟨acks, head_eq⟩ := releaseHead_eq _ slot
      rw [head_eq]
      exact { ih with }

theorem AckMoves.invariant (Inv : WirehairSegmentSender → Prop)
    {snd after : WirehairSegmentSender} (moves : AckMoves snd after)
    (kept : ∀ before next, Inv before → AckMove before next → Inv next) (initially : Inv snd) :
    Inv after := by
  induction moves with
  | refl => exact initially
  | tail _ move ih => exact kept _ _ ih move

end MultiFlow.Wirehair
