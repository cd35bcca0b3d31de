import MultiFlow.Wirehair.Segment

/-!
# The segment receiver

The receiving half of `wirehair_segment.c`.  Segments are collected in a window of slots and
passed on in order.  `emitted` is not read by the receiver: it records the ids of the segments
that the output callback took.
-/

namespace MultiFlow.Wirehair

open Wire

inductive SegmentSlotState where
  | collecting
  | recovered
deriving DecidableEq

structure WirehairSegmentSlot (codec : WirehairCodec) where
  state : SegmentSlotState
  segmentId : UInt64
  segmentBytes : UInt32
  codecBytes : Nat
  packetLimit : UInt16
  sourceOrigin : UInt8
  ackRequested : Bool
  decoder : codec.Decoder
  recovered : List UInt8

/-- An empty slot is `none`. -/
structure WirehairSegmentReceiver (codec : WirehairCodec) where
  config : WirehairSegmentConfig
  flowId : UInt32
  window : Nat
  nextEmitSegment : UInt64
  endSegmentCount : UInt64
  endSeen : Bool
  complete : Bool
  aheadWindowDrops : UInt64
  slots : Nat → Option (WirehairSegmentSlot codec)
  emitted : List UInt64

/-- The callbacks of a receiver; the one for acknowledgements may be missing. -/
structure ReceiverCallbacks (ω : Type) where
  output : UInt32 → List UInt8 → ω → Int × ω
  ack : Option (WireHeader → ω → Int × ω)

section Receiver

variable {codec : WirehairCodec} {ω : Type} (callbacks : ReceiverCallbacks ω)
  (receiver : WirehairSegmentReceiver codec)

def newReceiver (codec : WirehairCodec) (config : WirehairSegmentConfig) (flowId : UInt32) :
    WirehairSegmentReceiver codec :=
  { config, flowId
    window := wirehairSegmentWindow config
    nextEmitSegment := 0
    endSegmentCount := 0
    endSeen := false
    complete := false
    aheadWindowDrops := 0
    slots := fun _ => none
    emitted := [] }

def wirehairSegmentReceiverCreate (codec : WirehairCodec) (config : WirehairSegmentConfig)
    (flowId : UInt32) : Option (WirehairSegmentReceiver codec) :=
  if wirehairSegmentConfigValid config = false then none else some (newReceiver codec config flowId)

def holdsSegment (segmentId : UInt64) (index : Nat) : Option (Nat × WirehairSegmentSlot codec) :=
  match receiver.slots index with
  | none => none
  | some slot => if slot.segmentId = segmentId then some (index, slot) else none

def findSlot (segmentId : UInt64) : Option (Nat × WirehairSegmentSlot codec) :=
  (List.range receiver.window).findSome? (holdsSegment receiver segmentId)

def setReceiverSlot (index : Nat) (slot : Option (WirehairSegmentSlot codec)) :
    WirehairSegmentReceiver codec :=
  { receiver with slots := Function.update receiver.slots index slot }

def headerGeometryOk (header : WireHeader) : Bool :=
  if header.segmentBytes = 0 ∨ receiver.config.segmentBytes < header.segmentBytes then false
  else
    let sourcePackets := wirehairSegmentSourcePackets header.segmentBytes.toNat
    let maxRepair := wirehairSegmentRepairCeiling sourcePackets receiver.config.repairPercent.toNat
      (receiver.config.ackEnabled || header.flags &&& WIRE_FLAG_ACK_REQUEST != 0)
    decide (sourcePackets ≤ header.shardCount.toNat ∧
      header.shardCount.toNat ≤ sourcePackets + maxRepair)

def newSlot (header : WireHeader) : WirehairSegmentSlot codec :=
  let codecBytes := max header.segmentBytes.toNat (2 * WH_PACKET_SIZE)
  { state := .collecting
    segmentId := header.blockId
    segmentBytes := header.segmentBytes
    codecBytes
    packetLimit := header.shardCount
    sourceOrigin := header.originNode
    ackRequested :=
      receiver.config.ackEnabled && header.flags &&& WIRE_FLAG_ACK_REQUEST != 0
    decoder := codec.decoderCreate codecBytes
    recovered := [] }

def allocateSlot (header : WireHeader) : Option (Nat × WirehairSegmentSlot codec) :=
  if headerGeometryOk receiver header = false then none
  else
    ((List.range receiver.window).find? fun index => (receiver.slots index).isNone).map
      fun index => (index, newSlot receiver header)

def ackHeader (originNode : UInt8) (segmentId : UInt64) (segmentBytes : UInt32) : WireHeader where
  version := WIRE_VERSION_V4
  type := WIRE_TYPE_ACK
  finalDst := originNode
  ttl := receiver.config.ackTtl
  flowId := receiver.flowId
  blockId := segmentId
  shardCount := 0
  originNode := receiver.config.originNode
  flags := WIRE_FLAG_RETURN_PATH
  segmentBytes := segmentBytes

def emitReturnAck (originNode : UInt8) (segmentId : UInt64) (segmentBytes : UInt32) (env : ω) :
    Int × ω :=
  match callbacks.ack with
  | none => (0, env)
  | some ack =>
    if originNode = 0 then (0, env)
    else ack (ackHeader receiver originNode segmentId segmentBytes) env

def emitAck (slot : WirehairSegmentSlot codec) (env : ω) : Int × ω :=
  if slot.ackRequested = false then (0, env)
  else
    let (answer, env) :=
      emitReturnAck callbacks receiver slot.sourceOrigin slot.segmentId slot.segmentBytes env
    (if answer ≠ 0 then -1 else 0, env)

/-- The loop of `emit_ready_segments`; each pass empties a slot, so `window` passes are
enough. -/
def emitSegments : Nat → WirehairSegmentReceiver codec → ω →
    Int × WirehairSegmentReceiver codec × ω
  | 0, receiver, env => (0, receiver, env)
  | passes + 1, receiver, env =>
    match findSlot receiver receiver.nextEmitSegment with
    | none => (0, receiver, env)
    | some (index, slot) =>
      if slot.state ≠ .recovered then (0, receiver, env)
      else
        let (answer, env) := callbacks.output receiver.flowId
          (slot.recovered.take slot.segmentBytes.toNat) env
        if answer ≠ 0 then (-1, receiver, env)
        else
          let released := setReceiverSlot receiver index none
          emitSegments passes
            { released with
              nextEmitSegment := receiver.nextEmitSegment + 1
              emitted := receiver.emitted ++ [slot.segmentId] } env

def emitReadySegments (env : ω) : Int × WirehairSegmentReceiver codec × ω :=
  let (answer, receiver, env) := emitSegments callbacks receiver.window receiver env
  if answer ≠ 0 then (answer, receiver, env)
  else if receiver.endSeen ∧ receiver.nextEmitSegment = receiver.endSegmentCount then
    (0, { receiver with complete := true }, env)
  else (0, receiver, env)

/-- What the checks of `wirehair_segment_receiver_ingest` decide about a datagram. -/
inductive Verdict (codec : WirehairCodec) where
  | reject
  | finish
  | late
  | ahead
  | full
  | collect (index : Nat) (slot : WirehairSegmentSlot codec)

def dataFieldsOk (header : WireHeader) (payload : List UInt8) : Bool :=
  header.type == WIRE_TYPE_DATA && decide (payload.length ≠ 0) &&
    decide (payload.length = header.payloadLen.toNat) &&
    decide (payload.length ≤ WH_PACKET_SIZE) && header.originNode != 0 &&
    header.shardCount != 0 && decide (header.shardIndex < header.shardCount)

def checkSlot (header : WireHeader) (index : Nat) (slot : WirehairSegmentSlot codec) :
    Verdict codec :=
  if slot.packetLimit ≠ header.shardCount ∨ slot.segmentBytes ≠ header.segmentBytes ∨
      slot.sourceOrigin ≠ header.originNode then .reject
  else .collect index slot

/-- The slot of a segment inside the window, a new one if there is none yet. -/
def seekSlot (header : WireHeader) : Verdict codec :=
  match findSlot receiver header.blockId with
  | some (index, slot) => checkSlot header index slot
  | none =>
    if headerGeometryOk receiver header = false then .reject
    else
      match allocateSlot receiver header with
      | none => .full
      | some (index, slot) => checkSlot header index slot

def examine (header : WireHeader) (payload : List UInt8) : Verdict codec :=
  if header.version ≠ WIRE_VERSION_V4 ∨ header.flowId ≠ receiver.flowId then .reject
  else if header.type = WIRE_TYPE_END then .finish
  else if header.type = WIRE_TYPE_DATA ∧ header.blockId < receiver.nextEmitSegment then .late
  else if dataFieldsOk header payload = false then .reject
  else if receiver.window ≤ (header.blockId - receiver.nextEmitSegment).toNat then .ahead
  else seekSlot receiver header

/-- The end of `wirehair_segment_receiver_ingest` for a slot that takes the datagram. -/
def collectPacket (header : WireHeader) (payload : List UInt8) (index : Nat)
    (slot : WirehairSegmentSlot codec) (env : ω) : Int × WirehairSegmentReceiver codec × ω :=
  if slot.state = .recovered then
    let (answer, env) := emitAck callbacks receiver slot env
    (answer, receiver, env)
  else
    let (result, decoder) := codec.decode slot.decoder header.shardIndex.toNat payload
    let slot := { slot with decoder }
    if result = .needMore then (0, setReceiverSlot receiver index (some slot), env)
    else if result ≠ .success then (-1, setReceiverSlot receiver index (some slot), env)
    else
      match codec.recover decoder with
      | none => (-1, setReceiverSlot receiver index (some slot), env)
      | some recovered =>
        let slot := { slot with state := .recovered, recovered }
        let receiver := setReceiverSlot receiver index (some slot)
        let (answer, env) := emitAck callbacks receiver slot env
        if answer ≠ 0 then (-1, receiver, env)
        else emitReadySegments callbacks receiver env

def wirehairSegmentReceiverIngest (header : WireHeader) (payload : List UInt8) (env : ω) :
    Int × WirehairSegmentReceiver codec × ω :=
  match examine receiver header payload with
  | .reject => (-1, receiver, env)
  | .finish =>
    emitReadySegments callbacks
      { receiver with endSeen := true, endSegmentCount := header.blockId } env
  | .late =>
    if receiver.config.ackEnabled && header.flags &&& WIRE_FLAG_ACK_REQUEST != 0 then
      let (answer, env) := emitReturnAck callbacks receiver header.originNode header.blockId
        header.segmentBytes env
      (answer, receiver, env)
    else (0, receiver, env)
  | .ahead => (0, { receiver with aheadWindowDrops := receiver.aheadWindowDrops + 1 }, env)
  | .full => (0, receiver, env)
  | .collect index slot => collectPacket callbacks receiver header payload index slot env

end Receiver

section Checks

variable {codec : WirehairCodec} {rcv : WirehairSegmentReceiver codec}

variable {segmentId : UInt64} {index place : Nat} {slot : WirehairSegmentSlot codec}
  {header : WireHeader} {body : List UInt8}

theorem holdsSegment_eq_some :
    holdsSegment rcv segmentId index = some (place, slot) ↔
      place = index ∧ rcv.slots index = some slot ∧ slot.segmentId = segmentId := by
  unfold holdsSegment
  cases held : rcv.slots index with
  | none => simp
  | some other =>
    by_cases same : other.segmentId = segmentId
    · simp only [if_pos same, Option.some.injEq, Prod.mk.injEq]
      constructor
      · rintro ⟨rfl, rfl⟩
        exact ⟨rfl, rfl, same⟩
      · rintro ⟨rfl, rfl, _⟩
        exact ⟨rfl, rfl⟩
    · simp only [if_neg same, reduceCtorEq, Option.some.injEq, false_iff]
      rintro ⟨_, rfl, equal⟩
      exact same equal

theorem findSlot_some (found : findSlot rcv segmentId = some (index, slot)) :
    index < rcv.window ∧ rcv.slots index = some slot ∧ slot.segmentId = segmentId := by
  obtain ⟨_, mem, held⟩ := List.exists_of_findSome?_eq_some found
  obtain ⟨rfl, stored, same⟩ := holdsSegment_eq_some.mp held
  exact ⟨List.mem_range.mp mem, stored, same⟩

theorem findSlot_none (missing : findSlot rcv segmentId = none)
    (inside : index < rcv.window) (stored : rcv.slots index = some slot) :
    slot.segmentId ≠ segmentId := by
  intro same
  have held : holdsSegment rcv segmentId index = some (index, slot) :=
    holdsSegment_eq_some.mpr ⟨rfl, stored, same⟩
  have nothing := List.findSome?_eq_none_iff.mp missing index (List.mem_range.mpr inside)
  rw [held] at nothing
  cases nothing

theorem setReceiverSlot_cases {value : Option (WirehairSegmentSlot codec)}
    {held : WirehairSegmentSlot codec}
    (stored : (setReceiverSlot rcv index value).slots place = some held) :
    place = index ∧ value = some held ∨ place ≠ index ∧ rcv.slots place = some held := by
  change Function.update rcv.slots index value place = some held at stored
  by_cases here : place = index
  · subst here
    rw [Function.update_self] at stored
    exact .inl ⟨rfl, stored⟩
  · rw [Function.update_of_ne here] at stored
    exact .inr ⟨here, stored⟩

theorem allocateSlot_some (allocated : allocateSlot rcv header = some (index, slot)) :
    headerGeometryOk rcv header = true ∧ index < rcv.window ∧
      rcv.slots index = none ∧ slot = newSlot rcv header := by
  unfold allocateSlot at allocated
  split at allocated
  · cases allocated
  rename_i geometry
  obtain ⟨_, free, equal⟩ := Option.map_eq_some_iff.mp allocated
  cases equal
  have empty := List.find?_some free
  exact ⟨Bool.eq_true_of_not_eq_false geometry,
    List.mem_range.mp (List.mem_of_find?_eq_some free), Option.isNone_iff_eq_none.mp empty, rfl⟩

/-- What is known of a datagram that is given to the decoder of a slot. -/
structure Collects (receiver : WirehairSegmentReceiver codec) (header : WireHeader)
    (payload : List UInt8) (index : Nat) (slot : WirehairSegmentSlot codec) : Prop where
  flow : header.flowId = receiver.flowId
  fields : dataFieldsOk header payload = true
  reached : receiver.nextEmitSegment ≤ header.blockId
  ahead : (header.blockId - receiver.nextEmitSegment).toNat < receiver.window
  index_lt : index < receiver.window
  segment : slot.segmentId = header.blockId
  limit : slot.packetLimit = header.shardCount
  bytes : slot.segmentBytes = header.segmentBytes
  origin : slot.sourceOrigin = header.originNode
  known : receiver.slots index = some slot ∨
    receiver.slots index = none ∧ findSlot receiver header.blockId = none ∧
      headerGeometryOk receiver header = true ∧ slot = newSlot receiver header

theorem checkSlot_collect {other : WirehairSegmentSlot codec}
    (checked : checkSlot header index slot = .collect place other) :
    place = index ∧ other = slot ∧ slot.packetLimit = header.shardCount ∧
      slot.segmentBytes = header.segmentBytes ∧ slot.sourceOrigin = header.originNode := by
  unfold checkSlot at checked
  split at checked
  · cases checked
  rename_i matching
  cases checked
  push Not at matching
  exact ⟨rfl, rfl, matching⟩

theorem dataFieldsOk_type (fields : dataFieldsOk header body = true) :
    header.type = WIRE_TYPE_DATA := by
  simp only [dataFieldsOk, Bool.and_eq_true, beq_iff_eq] at fields
  exact fields.1.1.1.1.1.1

theorem examine_collect (verdict : examine rcv header body = .collect index slot) :
    Collects rcv header body index slot := by
  unfold examine at verdict
  split_ifs at verdict with foreign finish late fields ahead
  have valid : dataFieldsOk header body = true := Bool.eq_true_of_not_eq_false fields
  have reached : rcv.nextEmitSegment ≤ header.blockId :=
    UInt64.not_lt.mp fun below => late ⟨dataFieldsOk_type valid, below⟩
  have flow : header.flowId = rcv.flowId := by
    by_contra other
    exact foreign (.inr other)
  unfold seekSlot at verdict
  cases found : findSlot rcv header.blockId with
  | some entry =>
    obtain ⟨_⟩ := entry
    rw [found] at verdict
    obtain ⟨rfl, rfl, limit, bytes, origin⟩ := checkSlot_collect verdict
    obtain ⟨inside, held, segment⟩ := findSlot_some found
    exact ⟨flow, valid, reached, Nat.lt_of_not_le ahead, inside, segment, limit, bytes, origin,
      .inl held⟩
  | none =>
    rw [found] at verdict
    split_ifs at verdict with geometry
    cases allocated : allocateSlot rcv header with
    | none =>
      rw [allocated] at verdict
      cases verdict
    | some entry =>
      obtain ⟨_⟩ := entry
      rw [allocated] at verdict
      obtain ⟨rfl, rfl, limit, bytes, origin⟩ := checkSlot_collect verdict
      obtain ⟨sound, inside, empty, rfl⟩ := allocateSlot_some allocated
      exact ⟨flow, valid, reached, Nat.lt_of_not_le ahead, inside, rfl, limit, bytes, origin,
        .inr ⟨empty, found, sound, rfl⟩⟩

theorem examine_inside (version : header.version = WIRE_VERSION_V4)
    (flow : header.flowId = rcv.flowId) (fields : dataFieldsOk header body = true)
    (reached : rcv.nextEmitSegment ≤ header.blockId)
    (ahead : (header.blockId - rcv.nextEmitSegment).toNat < rcv.window) :
    examine rcv header body = seekSlot rcv header := by
  have data := dataFieldsOk_type fields
  have ours : ¬(header.version ≠ WIRE_VERSION_V4 ∨ header.flowId ≠ rcv.flowId) := by
    rintro (other | other)
    · exact other version
    · exact other flow
  have notEnd : ¬header.type = WIRE_TYPE_END := by
    rw [data]
    decide
  have early : ¬(header.type = WIRE_TYPE_DATA ∧ header.blockId < rcv.nextEmitSegment) :=
    fun late => UInt64.not_lt.mpr reached late.2
  have valid : ¬dataFieldsOk header body = false := by
    rw [fields]
    decide
  unfold examine
  rw [if_neg ours, if_neg notEnd, if_neg early, if_neg valid, if_neg (Nat.not_le.mpr ahead)]

theorem examine_late (verdict : examine rcv header body = .late) :
    header.blockId < rcv.nextEmitSegment := by
  unfold examine at verdict
  split_ifs at verdict with foreign finish late fields ahead
  · exact late.2
  unfold seekSlot checkSlot at verdict
  repeat' split at verdict
  all_goals cases verdict

theorem examine_finish (verdict : examine rcv header body = .finish) :
    header.type = WIRE_TYPE_END := by
  unfold examine at verdict
  split_ifs at verdict with foreign finish late fields ahead
  · exact finish
  unfold seekSlot checkSlot at verdict
  repeat' split at verdict
  all_goals cases verdict

theorem examine_ahead (verdict : examine rcv header body = .ahead) :
    header.type = WIRE_TYPE_DATA ∧ rcv.nextEmitSegment ≤ header.blockId ∧
      rcv.window ≤ (header.blockId - rcv.nextEmitSegment).toNat := by
  unfold examine at verdict
  split_ifs at verdict with foreign finish late fields ahead
  · have data := dataFieldsOk_type (Bool.eq_true_of_not_eq_false fields)
    exact ⟨data, UInt64.not_lt.mp fun below => late ⟨data, below⟩, ahead⟩
  unfold seekSlot checkSlot at verdict
  repeat' split at verdict
  all_goals cases verdict

end Checks

end MultiFlow.Wirehair
