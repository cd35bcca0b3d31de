import MultiFlow.Relay.GenerationCache
import MultiFlow.Wirehair.Segment

/-!
# What the relay decides for a datagram

`relay.c`: `ingress_submit_owned` takes a datagram from the deferred hub, `rx_try_fast_ack` takes a
reverse-path ACK on the receiving thread, and `relay_tx_emit` finds the destination of a packet.
The hooks of the configuration are functions, and peers are values of any type; `deliveryFn` says
whether a delivery hook is set.  The counters are left out, since no decision reads them, and so is
the room in the egress queues.
-/

namespace MultiFlow.Relay

open Lib Wire Wirehair

def RELAY_MAX_FLOWS : Nat := 8

def WIRE_MAX_HEADER_SIZE : Nat := WIRE_V4_HEADER_SIZE

def RELAY_MAX_DATAGRAM : Nat := WIRE_MAX_HEADER_SIZE + 2048

def RELAY_RETURN_ROUTE_CAPACITY : Nat := RELAY_MAX_FLOWS

def RELAY_SOURCE_ACK_CAPACITY : Nat := WH_SEGMENT_WINDOW_MAX

inductive CodecKind where
  | none
  | block
  | copy
  | xorFec
  | rsFec
  | rs
  | wirehair
  deriving DecidableEq, Repr

structure LocalSourceConfig where
  codecKind : CodecKind
  flowId : UInt32
  ackEnabled : Bool
  deriving DecidableEq, Repr

inductive RelayProcessAction where
  | continueForward
  | drop
  deriving DecidableEq, Repr

inductive RelayDecodeReencodeAction where
  | opaqueForward
  | hold
  | emit
  deriving DecidableEq, Repr

inductive RelayPacketSource where
  | previousNode
  | localEncoder
  deriving DecidableEq, Repr

/-- The hooks answer `none` where the source's answer an error.  `decodeReencodeFn` also answers
the datagrams it hands to its emit callback. -/
structure RelayConfig where
  localNodeId : UInt8
  localSource : Option LocalSourceConfig
  rejectLocalEncoderLoopback : Bool
  recodeFn : Option (List UInt8 → WireHeader → Option (List UInt8))
  egressFn : Option (List UInt8 → WireHeader → Option (List UInt8))
  deliveryFn : Bool
  processFn : Option (WireHeader → List UInt8 → Option GenerationEntry →
    GenerationInsertStatus → RelayProcessAction)
  decodeReencodeFn : Option (WireHeader → List UInt8 → Option GenerationEntry →
    GenerationInsertStatus → RelayDecodeReencodeAction × List (List UInt8))

structure RelayReturnRoute (Peer : Type) where
  flowId : UInt32
  peer : Peer
  valid : Bool

structure RelaySourceAck where
  flowId : UInt32
  segment : UInt64
  valid : Bool
  deriving DecidableEq, Repr

structure RelayCtx (Peer : Type) where
  config : RelayConfig
  genCache : GenerationCache
  cacheEnabled : Bool
  nextHop : Peer
  returnHop : Peer
  haveReturnHop : Bool
  returnRoutes : Nat → RelayReturnRoute Peer
  sourceAcks : Nat → RelaySourceAck

structure EgressPacket (Peer : Type) where
  datagram : List UInt8
  flowId : UInt32
  generationId : UInt64
  dest : Option Peer
  preferHead : Bool

structure ForwardPending (Peer : Type) where
  pkt : EgressPacket Peer
  source : RelayPacketSource
  ackLane : Bool

section Relay

variable {Peer : Type}

def lookupReturnRoute (ctx : RelayCtx Peer) (flowId : UInt32) : Option Peer :=
  (firstIndex
    (fun i => (ctx.returnRoutes i).valid && decide ((ctx.returnRoutes i).flowId = flowId))
    RELAY_RETURN_ROUTE_CAPACITY).map fun i => (ctx.returnRoutes i).peer

def isReturnAck (header : WireHeader) : Bool :=
  decide (header.version = WIRE_VERSION_V4 ∧ header.type = WIRE_TYPE_ACK ∧
    header.flags &&& WIRE_FLAG_RETURN_PATH ≠ 0)

def fillEgressDest (ctx : RelayCtx Peer) (pending : ForwardPending Peer) : ForwardPending Peer :=
  let dest :=
    if pending.ackLane then
      (lookupReturnRoute ctx pending.pkt.flowId).or
        (if ctx.haveReturnHop then some ctx.returnHop else none)
    else some ctx.nextHop
  { pending with pkt := { pending.pkt with dest } }

def prepareForwardPending (datagram : List UInt8) (header : WireHeader)
    (source : RelayPacketSource) : ForwardPending Peer where
  pkt :=
    { datagram
      flowId := header.flowId
      generationId := header.blockId
      dest := none
      preferHead := false }
  source := source
  ackLane := isReturnAck header

/-- The header written over the first bytes of the datagram. -/
def writeHeader (header : WireHeader) (datagram : List UInt8) : List UInt8 :=
  let bytes :=
    if header.version = WIRE_VERSION_V4 then wireHeaderEncodeV4 header else wireHeaderEncode header
  bytes ++ datagram.drop bytes.length

/-- What `ingress_submit_owned` leaves to its caller. -/
inductive IngressOutcome (Peer : Type) where
  | invalid
  | malformed
  | loopback
  | ttlExpired
  | sourceAck
  | localDelivery (handed : Option (WireHeader × List UInt8))
  | recodeFailed
  | absorbed (emitted : List (ForwardPending Peer))
  | forwarded (pending : ForwardPending Peer) (emitted : List (ForwardPending Peer))

def emitBatch (source : RelayPacketSource) (datagrams : List (List UInt8)) :
    List (ForwardPending Peer) :=
  datagrams.filterMap fun datagram =>
    if datagram.length < WIRE_HEADER_SIZE ∨ RELAY_MAX_DATAGRAM < datagram.length then none
    else (wireHeaderDecode datagram).map fun header => prepareForwardPending datagram header source

def acksLocalSource (ctx : RelayCtx Peer) (header : WireHeader) : Bool :=
  isReturnAck header && wireHeaderIsLocal header ctx.config.localNodeId &&
    ctx.config.localSource.any fun source =>
      decide (source.codecKind = .wirehair) && source.ackEnabled &&
        decide (header.flowId = source.flowId)

def recordSourceAck (ctx : RelayCtx Peer) (header : WireHeader) : RelayCtx Peer :=
  { ctx with
    sourceAcks := Function.update ctx.sourceAcks
      (header.blockId.toNat % RELAY_SOURCE_ACK_CAPACITY) ⟨header.flowId, header.blockId, true⟩ }

/-- The test for local delivery; a reverse-path datagram goes on when there is a return hop. -/
def deliversLocally (ctx : RelayCtx Peer) (header : WireHeader) : Bool :=
  wireHeaderIsLocal header ctx.config.localNodeId &&
    !(decide (header.version = WIRE_VERSION_V4 ∧ header.flags &&& WIRE_FLAG_RETURN_PATH ≠ 0) &&
      ctx.haveReturnHop)

/-- The recoding hook, and the header of the datagram it leaves. -/
def recodeDatagram (ctx : RelayCtx Peer) (datagram : List UInt8) (header : WireHeader) :
    Option (List UInt8 × WireHeader) :=
  match ctx.config.recodeFn with
  | none => some (datagram, header)
  | some recode =>
    (recode datagram header).bind fun recoded =>
      if recoded.length = 0 ∨ RELAY_MAX_DATAGRAM < recoded.length then none
      else (wireHeaderDecode recoded).map fun header => (recoded, header)

def submitData (ctx : RelayCtx Peer) (datagram : List UInt8) (header : WireHeader)
    (source : RelayPacketSource) (nowNs : UInt64) (memory : InsertMemory) :
    IngressOutcome Peer × RelayCtx Peer :=
  let finish (ctx : RelayCtx Peer) (action : RelayProcessAction)
      (hook : RelayDecodeReencodeAction × List (List UInt8)) :
      IngressOutcome Peer × RelayCtx Peer :=
    if action = .drop ∨ hook.1 = .hold ∨ hook.1 = .emit then
      (.absorbed (emitBatch source hook.2), ctx)
    else
      (.forwarded (prepareForwardPending datagram header source) (emitBatch source hook.2), ctx)
  if ctx.cacheEnabled && decide (header.version = WIRE_VERSION_V3) then
    let (cache, status, out) := generationCacheInsert ctx.genCache header datagram nowNs memory
    let gen := out.map cache.entries
    finish { ctx with genCache := cache }
      (match ctx.config.processFn with
        | some process => process header datagram gen status
        | none => .continueForward)
      (match ctx.config.decodeReencodeFn with
        | some hook => hook header datagram gen status
        | none => (.opaqueForward, []))
  else
    -- Without a cached generation the hook gets no emit callback.
    finish ctx .continueForward
      (match ctx.config.decodeReencodeFn with
        | some hook => ((hook header datagram none .invalid).1, [])
        | none => (.opaqueForward, []))

/-- The forwarding half of `ingress_submit_owned`, after the hop budget was spent. -/
def submitForward (ctx : RelayCtx Peer) (datagram : List UInt8) (header : WireHeader)
    (source : RelayPacketSource) (nowNs : UInt64) (memory : InsertMemory) :
    IngressOutcome Peer × RelayCtx Peer :=
  match recodeDatagram ctx datagram header with
  | none => (.recodeFailed, ctx)
  | some (recoded, header) =>
    if header.type ≠ WIRE_TYPE_DATA then
      let expired :=
        if ctx.cacheEnabled && decide (header.type = WIRE_TYPE_END) then
          { ctx with
            genCache := (generationCacheExpire ctx.genCache nowNs header.flowId.toInt32).1 }
        else ctx
      (.forwarded (prepareForwardPending recoded header source) [], expired)
    else submitData ctx recoded header source nowNs memory

def ingressSubmitOwned (ctx : RelayCtx Peer) (datagram : List UInt8) (source : RelayPacketSource)
    (nowNs : UInt64) (memory : InsertMemory) : IngressOutcome Peer × RelayCtx Peer :=
  if datagram.length < WIRE_HEADER_SIZE then (.invalid, ctx)
  else
    match wireHeaderDecode datagram with
    | none => (.malformed, ctx)
    | some header =>
      if source = .localEncoder ∧ wireHeaderIsLocal header ctx.config.localNodeId ∧
          ctx.config.rejectLocalEncoderLoopback then (.loopback, ctx)
      else if header.ttl = 0 then (.ttlExpired, ctx)
      else if acksLocalSource ctx header then (.sourceAck, recordSourceAck ctx header)
      else if deliversLocally ctx header then
        (.localDelivery (if ctx.config.deliveryFn then some (header, datagram) else none), ctx)
      else if header.ttl ≤ 1 then (.ttlExpired, ctx)
      else
        let header := { header with ttl := header.ttl - 1 }
        submitForward ctx (writeHeader header datagram) header source nowNs memory

inductive FastAck (Peer : Type) where
  | declined
  | ttlExpired
  | enqueued (pkt : EgressPacket Peer)

def rxTryFastAck (ctx : RelayCtx Peer) (datagram : List UInt8) : FastAck Peer :=
  if ctx.config.recodeFn.isSome ∨ ctx.config.egressFn.isSome then .declined
  else if datagram.length < WIRE_HEADER_SIZE ∨ RELAY_MAX_DATAGRAM < datagram.length then .declined
  else
    match wireHeaderDecode datagram with
    | none => .declined
    | some header =>
      if !isReturnAck header then .declined
      else if wireHeaderIsLocal header ctx.config.localNodeId ∧
          ctx.config.localSource.isSome then .declined
      else if header.ttl ≤ 1 then .ttlExpired
      else
        let header := { header with ttl := header.ttl - 1 }
        .enqueued
          { datagram := writeHeader header datagram
            flowId := header.flowId
            generationId := header.blockId
            dest := none
            preferHead := true }

inductive Fate (Peer : Type) where
  | invalid
  | malformed
  | loopback
  | ttlExpired
  | sourceAck
  | delivered (handed : Option (WireHeader × List UInt8))
  | recodeFailed
  | absorbed
  | noReturnHop
  | egressFailed
  | sent (target : Peer) (datagram : List UInt8)
  deriving DecidableEq

def egressDatagram (ctx : RelayCtx Peer) (datagram : List UInt8) (header : WireHeader) :
    Option (List UInt8) :=
  match ctx.config.egressFn with
  | none => some datagram
  | some egress => egress datagram header

/-- The destination is found anew; the one that `fill_egress_dest` wrote is not read. -/
def relayTxEmit (ctx : RelayCtx Peer) (pkt : EgressPacket Peer) : Fate Peer :=
  match wireHeaderDecode pkt.datagram with
  | none => .malformed
  | some header =>
    let target :=
      if header.version = WIRE_VERSION_V4 ∧ header.flags &&& WIRE_FLAG_RETURN_PATH ≠ 0 then
        (lookupReturnRoute ctx header.flowId).or
          (if ctx.haveReturnHop then some ctx.returnHop else none)
      else some ctx.nextHop
    match target with
    | none => .noReturnHop
    | some target =>
      match egressDatagram ctx pkt.datagram header with
      | none => .egressFailed
      | some datagram => .sent target datagram

/-- `process_one_deferred_packet` followed by the transmitter, for the datagram itself. -/
def deferredFate (ctx : RelayCtx Peer) (datagram : List UInt8) (nowNs : UInt64)
    (memory : InsertMemory) : Fate Peer :=
  match ingressSubmitOwned ctx datagram .previousNode nowNs memory with
  | (.invalid, _) => .invalid
  | (.malformed, _) => .malformed
  | (.loopback, _) => .loopback
  | (.ttlExpired, _) => .ttlExpired
  | (.sourceAck, _) => .sourceAck
  | (.localDelivery handed, _) => .delivered handed
  | (.recodeFailed, _) => .recodeFailed
  | (.absorbed _, _) => .absorbed
  | (.forwarded pending _, after) => relayTxEmit after (fillEgressDest after pending).pkt

/-- The fate on the fast path; `none` when the datagram goes to the deferred hub instead. -/
def fastFate (ctx : RelayCtx Peer) (datagram : List UInt8) : Option (Fate Peer) :=
  match rxTryFastAck ctx datagram with
  | .declined => none
  | .ttlExpired => some .ttlExpired
  | .enqueued pkt => some (relayTxEmit ctx pkt)

variable (ctx : RelayCtx Peer)

theorem relayTxEmit_congr {left right : EgressPacket Peer} (same : left.datagram = right.datagram) :
    relayTxEmit ctx left = relayTxEmit ctx right := by
  unfold relayTxEmit
  rw [same]

variable {datagram : List UInt8} {hdr : WireHeader}

theorem headerSize_le_of_decode (decoded : wireHeaderDecode datagram = some hdr) :
    WIRE_HEADER_SIZE ≤ datagram.length := by
  by_contra short
  unfold wireHeaderDecode at decoded
  rw [if_pos (not_le.mp short)] at decoded
  exact absurd decoded (by simp)

/-- The packet that carries a datagram with the header's hop budget spent. -/
def spentPacket (header : WireHeader) (datagram : List UInt8) : EgressPacket Peer where
  datagram := writeHeader { header with ttl := header.ttl - 1 } datagram
  flowId := header.flowId
  generationId := header.blockId
  dest := none
  preferHead := true

/-- The common end of both paths: the hop budget, then the transmitter. -/
def ackForward (ctx : RelayCtx Peer) (header : WireHeader) (datagram : List UInt8) : Fate Peer :=
  if header.ttl ≤ 1 then .ttlExpired else relayTxEmit ctx (spentPacket header datagram)

/-- A configuration without recode and egress transforms. -/
def RelayConfig.Plain (config : RelayConfig) : Prop :=
  config.recodeFn = none ∧ config.egressFn = none

theorem fastFate_returnAck (plain : ctx.config.Plain)
    (decoded : wireHeaderDecode datagram = some hdr) (ack : isReturnAck hdr = true) :
    fastFate ctx datagram = if RELAY_MAX_DATAGRAM < datagram.length ∨
          (wireHeaderIsLocal hdr ctx.config.localNodeId ∧ ctx.config.localSource.isSome) then none
      else some (ackForward ctx hdr datagram) := by
  have long := headerSize_le_of_decode decoded
  unfold fastFate rxTryFastAck ackForward
  rw [plain.1, plain.2, decoded]
  by_cases oversized : RELAY_MAX_DATAGRAM < datagram.length
  · simp [oversized]
  by_cases sourceHere : wireHeaderIsLocal hdr ctx.config.localNodeId ∧
      ctx.config.localSource.isSome
  · simp [oversized, not_lt.mpr long, ack, sourceHere]
  · by_cases spent : hdr.ttl ≤ 1
    · simp [oversized, not_lt.mpr long, ack, sourceHere, spent]
    · simp [oversized, not_lt.mpr long, ack, sourceHere, spent, spentPacket]

theorem submitForward_returnAck (dgram : List UInt8) (hdr : WireHeader)
    (src : RelayPacketSource) (nowNs : UInt64) (memory : InsertMemory) (plain : ctx.config.Plain)
    (ack : hdr.type = WIRE_TYPE_ACK) :
    submitForward ctx dgram hdr src nowNs memory =
      (.forwarded (prepareForwardPending dgram hdr src) [], ctx) := by
  have notData : hdr.type ≠ WIRE_TYPE_DATA := by rw [ack]; decide
  have notEnd : hdr.type ≠ WIRE_TYPE_END := by rw [ack]; decide
  unfold submitForward recodeDatagram
  rw [plain.1]
  simp [notData, notEnd]

theorem deferredFate_returnAck (nowNs : UInt64) (memory : InsertMemory) (plain : ctx.config.Plain)
    (decoded : wireHeaderDecode datagram = some hdr) (ack : isReturnAck hdr = true) :
    deferredFate ctx datagram nowNs memory =
      if hdr.ttl = 0 then .ttlExpired
      else if acksLocalSource ctx hdr then .sourceAck
      else if deliversLocally ctx hdr then
        .delivered (if ctx.config.deliveryFn then some (hdr, datagram) else none)
      else ackForward ctx hdr datagram := by
  have long := headerSize_le_of_decode decoded
  have type : hdr.type = WIRE_TYPE_ACK := by
    exact (of_decide_eq_true ack).2.1
  unfold deferredFate ingressSubmitOwned
  rw [decoded, if_neg (not_lt.mpr long)]
  by_cases dead : hdr.ttl = 0
  · simp [dead]
  by_cases own : acksLocalSource ctx hdr = true
  · simp [dead, own]
  by_cases here : deliversLocally ctx hdr = true
  · simp [dead, own, here]
  · by_cases spent : hdr.ttl ≤ 1
    · simp [dead, own, here, spent, ackForward]
    · have forwarded := submitForward_returnAck ctx
        (writeHeader { hdr with ttl := hdr.ttl - 1 } datagram)
        { hdr with ttl := hdr.ttl - 1 } .previousNode nowNs memory plain type
      simp only [reduceCtorEq, false_and, if_false, dead, own, here, spent, forwarded,
        ackForward, Bool.false_eq_true]
      exact relayTxEmit_congr ctx rfl

/-- A reverse-path ACK for this node that `ingress_submit_owned` keeps and the fast path takes:
there is no local source to ask for it, and no return hop to pass it on to. -/
def KeptButTaken (ctx : RelayCtx Peer) (header : WireHeader) (datagram : List UInt8) : Prop :=
  datagram.length ≤ RELAY_MAX_DATAGRAM ∧
    wireHeaderIsLocal header ctx.config.localNodeId = true ∧
    ctx.config.localSource = none ∧ ctx.haveReturnHop = false ∧ header.ttl ≠ 0

theorem relayTxEmit_ne_delivered (pkt : EgressPacket Peer)
    (handed : Option (WireHeader × List UInt8)) : relayTxEmit ctx pkt ≠ .delivered handed := by
  unfold relayTxEmit
  cases wireHeaderDecode pkt.datagram with
  | none => simp
  | some hdr =>
    dsimp only
    generalize (if hdr.version = WIRE_VERSION_V4 ∧ hdr.flags &&& WIRE_FLAG_RETURN_PATH ≠ 0
      then (lookupReturnRoute ctx hdr.flowId).or
        (if ctx.haveReturnHop then some ctx.returnHop else none)
      else some ctx.nextHop) = target
    cases target with
    | none => simp
    | some => cases egressDatagram ctx pkt.datagram hdr <;> simp

theorem ackForward_ne_delivered (hdr : WireHeader) (dgram : List UInt8)
    (handed : Option (WireHeader × List UInt8)) : ackForward ctx hdr dgram ≠ .delivered handed := by
  unfold ackForward
  split_ifs with spent
  · simp
  · exact relayTxEmit_ne_delivered ctx _ handed

theorem deliversLocally_returnAck (ack : isReturnAck hdr = true) :
    deliversLocally ctx hdr =
      (wireHeaderIsLocal hdr ctx.config.localNodeId && !ctx.haveReturnHop) := by
  obtain ⟨version, _, flagged⟩ := of_decide_eq_true ack
  unfold deliversLocally
  simp [version, flagged]

/-- Without a local source at this node the hub's path ends as the fast path does, unless it
delivers. -/
theorem deferredFate_eq_ackForward (nowNs : UInt64) (memory : InsertMemory)
    (plain : ctx.config.Plain) (decoded : wireHeaderDecode datagram = some hdr)
    (ack : isReturnAck hdr = true)
    (noSource : ¬ (wireHeaderIsLocal hdr ctx.config.localNodeId ∧ ctx.config.localSource.isSome))
    (notKept : hdr.ttl = 0 ∨ deliversLocally ctx hdr = false) :
    deferredFate ctx datagram nowNs memory = ackForward ctx hdr datagram := by
  have notOwn : acksLocalSource ctx hdr = false := by
    unfold acksLocalSource
    cases here : wireHeaderIsLocal hdr ctx.config.localNodeId with
    | false => simp
    | true =>
      cases src : ctx.config.localSource with
      | none => simp
      | some => exact absurd ⟨here, by rw [src]; rfl⟩ noSource
  rw [deferredFate_returnAck ctx nowNs memory plain decoded ack]
  by_cases dead : hdr.ttl = 0
  · simp [dead, ackForward]
  · have passes := notKept.resolve_left dead
    simp [dead, notOwn, passes]

theorem fastAck_agrees_iff (ctx : RelayCtx Peer) (datagram : List UInt8) (header : WireHeader)
    (nowNs : UInt64) (memory : InsertMemory) (plain : ctx.config.Plain)
    (decoded : wireHeaderDecode datagram = some header) (ack : isReturnAck header = true) :
    (∀ fate, fastFate ctx datagram = some fate →
        fate = deferredFate ctx datagram nowNs memory) ↔
      ¬ KeptButTaken ctx header datagram := by
  rw [fastFate_returnAck ctx plain decoded ack]
  constructor
  · rintro agrees ⟨fits, here, noSource, noHop, alive⟩
    have taken : ¬ (RELAY_MAX_DATAGRAM < datagram.length ∨
        (wireHeaderIsLocal header ctx.config.localNodeId ∧ ctx.config.localSource.isSome)) := by
      simp [not_lt.mpr fits, noSource]
    have kept : deliversLocally ctx header = true := by
      rw [deliversLocally_returnAck ctx ack, here, noHop]
      rfl
    have notOwn : acksLocalSource ctx header = false := by simp [acksLocalSource, noSource]
    have same := agrees _ (if_neg taken)
    rw [deferredFate_returnAck ctx nowNs memory plain decoded ack, if_neg alive,
      notOwn, kept] at same
    exact ackForward_ne_delivered ctx header datagram _ same
  · intro agreed fate decision
    split_ifs at decision with declined
    obtain rfl := Option.some.inj decision
    obtain ⟨fits, noSource⟩ := not_or.mp declined
    refine (deferredFate_eq_ackForward ctx nowNs memory plain decoded ack noSource ?_).symm
    by_contra kept
    obtain ⟨alive, delivers⟩ := not_or.mp kept
    rw [deliversLocally_returnAck ctx ack, Bool.not_eq_false, Bool.and_eq_true,
      Bool.not_eq_true'] at delivers
    refine agreed ⟨not_lt.mp fits, delivers.1, ?_, delivers.2, alive⟩
    cases source : ctx.config.localSource with
    | none => rfl
    | some => exact absurd ⟨delivers.1, by rw [source]; rfl⟩ noSource

end Relay

/-- An ACK of flow 1 for node 7, and a decoding node that has no source of its own. -/
def strayAck : WireHeader :=
  { version := WIRE_VERSION_V4
    type := WIRE_TYPE_ACK
    finalDst := 7
    ttl := 5
    flowId := 1
    blockId := 0
    shardCount := 0
    flags := WIRE_FLAG_RETURN_PATH }

def decodingNode (haveReturnHop : Bool) : RelayCtx Nat where
  config :=
    { localNodeId := 7
      localSource := none
      rejectLocalEncoderLoopback := false
      recodeFn := none
      egressFn := none
      deliveryFn := true
      processFn := none
      decodeReencodeFn := none }
  genCache := generationCacheInit none
  cacheEnabled := false
  nextHop := 0
  returnHop := 1
  haveReturnHop := haveReturnHop
  returnRoutes := fun _ => ⟨0, 0, false⟩
  sourceAcks := fun _ => ⟨0, 0, false⟩

/-- The fast path drops an ACK that the hub's path hands to the delivery hook. -/
theorem fastAck_drops_local_delivery :
    (decodingNode false).config.Plain ∧
      wireHeaderDecode (wireHeaderEncodeV4 strayAck) = some strayAck ∧
      isReturnAck strayAck = true ∧
      fastFate (decodingNode false) (wireHeaderEncodeV4 strayAck) = some .noReturnHop ∧
      deferredFate (decodingNode false) (wireHeaderEncodeV4 strayAck) 0 ⟨true, true⟩ =
        .delivered (some (strayAck, wireHeaderEncodeV4 strayAck)) :=
  ⟨⟨rfl, rfl⟩, by decide +kernel, by decide, by decide +kernel, by decide +kernel⟩

theorem fastAck_agrees_with_returnHop :
    wireHeaderDecode (wireHeaderEncodeV4 strayAck) = some strayAck ∧
      ∀ fate, fastFate (decodingNode true) (wireHeaderEncodeV4 strayAck) = some fate →
        fate = deferredFate (decodingNode true) (wireHeaderEncodeV4 strayAck) 0 ⟨true, true⟩ :=
  ⟨by decide +kernel,
    (fastAck_agrees_iff (decodingNode true) (wireHeaderEncodeV4 strayAck) strayAck 0 ⟨true, true⟩
      ⟨rfl, rfl⟩ (by decide +kernel) (by decide)).mpr
      fun kept => absurd kept.2.2.2.1 (by decide)⟩

end MultiFlow.Relay
