import MultiFlow.Fec.Transport
import MultiFlow.Lib.RingBuffer

/-!
# The FEC encoder

The RS half of the encoder in `fec_transport.c`.  Records fill the message shards of a group; the
length table and the parity shards follow when the group is full or flushed.  Datagrams wait in a
ring until the output callback takes them, which may answer by the number of earlier calls.

The encoder does not read `sent`, `enqueued`, `finished` and `pending`: they record the datagrams
taken and enqueued, the records of the finished groups and those of the open one.
-/

namespace MultiFlow.Fec

open CodecApi Lib Wire

abbrev FecOutputFn := Nat → List UInt8 → FecOutputStatus

inductive FecKind where
  | data
  | metadata
  | parity
deriving DecidableEq

structure FecQueueItem where
  datagram : List UInt8
  kind : FecKind

structure FecEncoderStats where
  dataDatagramsTx : UInt64 := 0
  parityDatagramsTx : UInt64 := 0
  metadataDatagramsTx : UInt64 := 0
  outputQueuePackets : Nat := 0
  outputQueueBytes : Nat := 0
  blockedCount : UInt64 := 0
  queueOverflowCount : UInt64 := 0
  wirePacingDeferred : UInt64 := 0
  downstreamCallbackErrors : UInt64 := 0

structure FecEncoder where
  epoch : UInt32
  nextGroup : UInt32
  groupExhausted : Bool
  dataCount : Nat
  pendingSinceNs : Option UInt64
  tokens : UInt64
  lastRefillNs : Option UInt64
  lengths : Nat → UInt16
  block : Block
  queue : RingBuffer FecQueueItem
  qBytes : Nat
  stats : FecEncoderStats
  calls : Nat
  sent : List (List UInt8)
  enqueued : List (List UInt8)
  finished : List (List (List UInt8))
  pending : List (List UInt8)

section Calls

variable (transport : FecTransport)

def fecEncoderReset (epoch : UInt32) : FecEncoder where
  epoch := epoch
  nextGroup := 0
  groupExhausted := false
  dataCount := 0
  pendingSinceNs := none
  tokens := 0
  lastRefillNs := none
  lengths := fun _ => 0
  block := zeroBlock
  queue := .empty ⟨[], .data⟩ transport.outputQueuePackets
    ((Nat.succ_pos _).trans_le transport.queue_ge)
  qBytes := 0
  stats := {}
  calls := 0
  sent := []
  enqueued := []
  finished := []
  pending := []

variable (encoder : FecEncoder)

def queueCanAdd (packets bytes : Nat) : Bool :=
  if encoder.queue.count + packets > transport.outputQueuePackets then false
  else if encoder.qBytes + bytes > transport.outputQueueBytes then false
  else true

def queueStats : FecEncoder :=
  { encoder with stats := { encoder.stats with
      outputQueuePackets := encoder.queue.count
      outputQueueBytes := encoder.qBytes } }

def queueOverflow : FecEncoder :=
  queueStats { encoder with stats := { encoder.stats with
    queueOverflowCount := encoder.stats.queueOverflowCount + 1 } }

def groupIdOf (epoch group : UInt32) : UInt64 := epoch.toUInt64 <<< 32 ||| group.toUInt64

def shardHeader (shard : Nat) (payloadLen : UInt16) : WireHeader where
  type := WIRE_TYPE_DATA
  finalDst := 0
  ttl := 0
  flowId := 0
  blockId := groupIdOf encoder.epoch encoder.nextGroup
  shardIndex := UInt16.ofNat shard
  shardCount := UInt16.ofNat transport.n
  validLen :=
    if shard < transport.messageShards then UInt16.ofNat (transport.k * transport.shardSize)
    else UInt16.ofNat ((encoder.dataCount + 1) * transport.shardSize)
  payloadLen := payloadLen

def packShard (shard : Nat) (payloadLen : UInt16) : List UInt8 :=
  wireHeaderEncode (shardHeader transport encoder shard payloadLen) ++
    (List.range transport.shardSize).map (encoder.block shard)

def shardKind (shard : Nat) : FecKind :=
  if shard < transport.messageShards then .data
  else if shard = transport.messageShards then .metadata
  else .parity

def enqueueShard (shard : Nat) (payloadLen : UInt16) : FecStatus × FecEncoder :=
  let len := WIRE_HEADER_SIZE + transport.shardSize
  if payloadLen = 0 ∨ payloadLen.toNat > transport.shardSize then (.inval, encoder)
  else if queueCanAdd transport encoder 1 len = false then (.queueFull, queueOverflow encoder)
  else
    let item : FecQueueItem :=
      ⟨packShard transport encoder shard payloadLen, shardKind transport shard⟩
    (.ok, queueStats { encoder with
      queue := encoder.queue.push item
      qBytes := encoder.qBytes + len
      enqueued := encoder.enqueued ++ [item.datagram] })

/-- Bytes written at an offset of a block whose shards have `size` bytes. -/
def writeBytes (size : Nat) (block : Block) (offset : Nat) (bytes : List UInt8) : Block :=
  fun s b =>
    if b < size ∧ offset ≤ s * size + b ∧ s * size + b < offset + bytes.length then
      bytes.getD (s * size + b - offset) 0
    else block s b

def lengthTable (dataCount : Nat) (lengths : Nat → UInt16) : List UInt8 :=
  UInt8.ofNat dataCount ::
    (List.range dataCount).flatMap fun shard => putBigEndian 2 (lengths shard).toNat

def enqueueTails (encoder : FecEncoder) : List Nat → FecStatus × FecEncoder
  | [] => (.ok, encoder)
  | shard :: rest =>
    let (status, encoder) := enqueueShard transport encoder shard
      (UInt16.ofNat transport.shardSize)
    if status ≠ .ok then (status, encoder) else enqueueTails encoder rest

def encodeAndEnqueueTails : FecStatus × FecEncoder :=
  if encoder.dataCount = 0 ∨ encoder.groupExhausted = true then
    (if encoder.groupExhausted then .exhausted else .ok, encoder)
  else
    let tails := transport.n - transport.messageShards
    if queueCanAdd transport encoder tails
        (tails * (WIRE_HEADER_SIZE + transport.shardSize)) = false then
      (.queueFull, queueOverflow encoder)
    else
      let offset := transport.messageShards * transport.shardSize
      let block := writeBytes transport.shardSize encoder.block offset
        (List.replicate transport.shardSize 0)
      let block := writeBytes transport.shardSize block offset
        (lengthTable encoder.dataCount encoder.lengths)
      let block := transport.codec.encode block (transport.n * transport.shardSize)
      let (status, encoder) := enqueueTails transport { encoder with block := block }
        (List.range' transport.messageShards tails)
      if status ≠ .ok then (status, encoder)
      else
        let lastGroup : Bool := decide (encoder.nextGroup = 0xffffffff)
        (.ok, { encoder with
          groupExhausted := if lastGroup then true else encoder.groupExhausted
          nextGroup := if lastGroup then encoder.nextGroup else encoder.nextGroup + 1
          dataCount := 0
          pendingSinceNs := none
          lengths := fun _ => 0
          block := zeroBlock
          finished := encoder.finished ++ [encoder.pending]
          pending := [] })

def fecEncoderFlush : FecStatus × FecEncoder :=
  encodeAndEnqueueTails transport encoder

/-- What a record needs in the queue: its own datagram, and the tails if it is the last. -/
def needPackets : Nat :=
  1 + if encoder.dataCount + 1 = transport.messageShards then transport.r + 1 else 0

def startGroup (now : UInt64) : FecEncoder :=
  if encoder.dataCount = 0 then
    { encoder with block := zeroBlock, lengths := fun _ => 0, pendingSinceNs := some now }
  else encoder

def writeRecord (data : List UInt8) : FecEncoder :=
  { encoder with
    block := writeBytes transport.shardSize encoder.block
      (encoder.dataCount * transport.shardSize) data
    lengths := Function.update encoder.lengths encoder.dataCount (UInt16.ofNat data.length) }

/-- `fec_encoder_push` once the group has room for another record. -/
def pushRecord (data : List UInt8) (now : UInt64) : FecStatus × FecEncoder :=
  let need := needPackets transport encoder
  if queueCanAdd transport encoder need
      (need * (WIRE_HEADER_SIZE + transport.shardSize)) = false then
    (.queueFull, queueOverflow encoder)
  else
    let encoder := writeRecord transport (startGroup encoder now) data
    let (status, encoder) := enqueueShard transport encoder encoder.dataCount
      (UInt16.ofNat data.length)
    if status ≠ .ok then (status, encoder)
    else
      let encoder := { encoder with
        dataCount := encoder.dataCount + 1, pending := encoder.pending ++ [data] }
      if encoder.dataCount = transport.messageShards then encodeAndEnqueueTails transport encoder
      else (.ok, encoder)

def fecEncoderPush (data : List UInt8) (now : UInt64) : FecStatus × FecEncoder :=
  if data.length = 0 then (.inval, encoder)
  else if data.length > transport.shardSize then (.inval, encoder)
  else if encoder.groupExhausted then (.exhausted, encoder)
  else if transport.messageShards ≤ encoder.dataCount then
    let (status, encoder) := encodeAndEnqueueTails transport encoder
    if status ≠ .ok then (status, encoder) else pushRecord transport encoder data now
  else pushRecord transport encoder data now

def sentStats (stats : FecEncoderStats) : FecKind → FecEncoderStats
  | .data => { stats with dataDatagramsTx := stats.dataDatagramsTx + 1 }
  | .metadata => { stats with metadataDatagramsTx := stats.metadataDatagramsTx + 1 }
  | .parity => { stats with parityDatagramsTx := stats.parityDatagramsTx + 1 }

def queuePop : FecEncoder :=
  let item := encoder.queue.front
  let len := item.datagram.length
  queueStats { encoder with
    tokens :=
      if transport.wireRateBps ≠ 0 then encoder.tokens - UInt64.ofNat len else encoder.tokens
    stats := sentStats encoder.stats item.kind
    queue := encoder.queue.pop
    qBytes := encoder.qBytes - len
    calls := encoder.calls + 1
    sent := encoder.sent ++ [item.datagram] }

/-- The loop of `fec_encoder_drain`, which ends when all `queued` datagrams are taken. -/
def drainQueue (output : FecOutputFn) : Nat → Nat → FecEncoder → FecStatus × FecEncoder
  | 0, _, encoder => (.ok, encoder)
  | queued + 1, budget, encoder =>
    let item := encoder.queue.front
    if budget = 0 then (.ok, encoder)
    else if transport.wireRateBps ≠ 0 ∧ encoder.tokens.toNat < item.datagram.length then
      (.ok, { encoder with stats := { encoder.stats with
        wirePacingDeferred := encoder.stats.wirePacingDeferred + 1 } })
    else
      match output encoder.calls item.datagram with
      | .blocked => (.ok, { encoder with
          calls := encoder.calls + 1
          stats := { encoder.stats with blockedCount := encoder.stats.blockedCount + 1 } })
      | .error => (.downstream, { encoder with
          calls := encoder.calls + 1
          stats := { encoder.stats with
            downstreamCallbackErrors := encoder.stats.downstreamCallbackErrors + 1 } })
      | .ok => drainQueue output queued (budget - 1) (queuePop transport encoder)

def fecEncoderDrain (output : FecOutputFn) (encoder : FecEncoder) (budget : Nat) :
    FecStatus × FecEncoder :=
  drainQueue transport output encoder.queue.count budget encoder

def refillTokens (now : UInt64) : FecEncoder :=
  if transport.wireRateBps = 0 then encoder
  else
    let burst := orDefault transport.wireBurstBytes
      (UInt64.ofNat (WIRE_HEADER_SIZE + transport.shardSize))
    match encoder.lastRefillNs with
    | none => { encoder with tokens := burst, lastRefillNs := some now }
    | some last =>
      if now ≤ last then encoder
      else
        let dt := now - last
        let rate := transport.wireRateBps
        let add := (rate / 8) * (dt / 1000000000) +
          (rate / 8) * (dt % 1000000000) / 1000000000
        let encoder := { encoder with lastRefillNs := some now }
        if add > 0xffffffffffffffff - encoder.tokens then { encoder with tokens := burst }
        else if encoder.tokens + add > burst then { encoder with tokens := burst }
        else { encoder with tokens := encoder.tokens + add }

def flushDue (now : UInt64) : Bool :=
  match encoder.pendingSinceNs with
  | none => false
  | some since => decide (encoder.dataCount ≠ 0 ∧ transport.flushTimeoutNs ≠ 0 ∧ since ≤ now ∧
      transport.flushTimeoutNs ≤ now - since)

/-- The drain of `fec_encoder_update` has the budget `SIZE_MAX`. -/
def SIZE_MAX : Nat := 2 ^ 64 - 1

def fecEncoderUpdate (output : FecOutputFn) (encoder : FecEncoder) (now : UInt64) :
    FecStatus × FecEncoder :=
  let encoder := refillTokens transport encoder now
  if flushDue transport encoder now then
    let (status, encoder) := encodeAndEnqueueTails transport encoder
    if status ≠ .ok ∧ status ≠ .queueFull then (status, encoder)
    else fecEncoderDrain transport output encoder SIZE_MAX
  else fecEncoderDrain transport output encoder SIZE_MAX

inductive FecEncoderCall where
  | push (data : List UInt8) (now : UInt64)
  | flush
  | update (now : UInt64)
  | drain (budget : Nat)

def FecEncoder.call (output : FecOutputFn) (encoder : FecEncoder) :
    FecEncoderCall → FecStatus × FecEncoder
  | .push data now => fecEncoderPush transport encoder data now
  | .flush => fecEncoderFlush transport encoder
  | .update now => fecEncoderUpdate transport output encoder now
  | .drain budget => fecEncoderDrain transport output encoder budget

def encodeAll (output : FecOutputFn) (epoch : UInt32) (calls : List FecEncoderCall) :
    FecEncoder :=
  calls.foldl (fun encoder call => (encoder.call transport output call).2)
    (fecEncoderReset transport epoch)

/-- Everything the encoder has produced: what was taken and what is still queued. -/
def FecEncoder.produced : List (List UInt8) :=
  encoder.sent ++ encoder.queue.toList.map FecQueueItem.datagram

def FecEncoder.records (group : Nat) : List (List UInt8) :=
  (encoder.finished ++ [encoder.pending]).getD group []

end Calls

end MultiFlow.Fec
