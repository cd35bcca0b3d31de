import MultiFlow.Codec.Interface
import MultiFlow.Wire.Header
import Mathlib.Data.Fintype.Card

/-!
# The per-flow decoder

`wire_flow_decoder.c`: shards are gathered in a window of groups, each group is recovered on its
own, and blocks leave in order from the head.  The output callback is part of the configuration: it
sees what it has accepted so far and the next chunk, and answers whether the write succeeded.
`output` records the accepted chunks and `heads` the order in which the head of the window moved;
the decoder reads neither.  Timestamps are compared but not measured, and allocation is taken to
succeed.
-/

namespace MultiFlow.FlowDecoder

open CodecApi Lib Wire

def WIRE_FLOW_GROUP_WINDOW : Nat := 128

def WIRE_FLOW_MAX_SHARDS : Nat := CODEC_MAX_ENCODE_BLOCK / PKG_SIZE

inductive WireGroupState where
  | empty
  | active
  | recovered
  | emitted
  | failed
deriving DecidableEq

structure WireGroup where
  state : WireGroupState
  blockId : UInt64
  shardCount : UInt16
  validLen : UInt16
  receivedBits : Present
  encodeBeginNs : UInt64
  encodeEndNs : UInt64
  data : Block
  lastRecoveryCount : Nat

/-- A slot after `memset(group, 0, sizeof(*group))`. -/
def releasedGroup : WireGroup where
  state := .empty
  blockId := 0
  shardCount := 0
  validLen := 0
  receivedBits := presentNone
  encodeBeginNs := 0
  encodeEndNs := 0
  data := zeroBlock
  lastRecoveryCount := 0

inductive WireRecoverResult where
  | pending
  | ok
  | failed
deriving DecidableEq

structure WireFlowDecoderStats where
  outputBytes : UInt64 := 0
  seenDatagrams : UInt64 := 0
  receivedDatagrams : UInt64 := 0
  duplicateDatagrams : UInt64 := 0
  lateDatagrams : UInt64 := 0
  malformedDatagrams : UInt64 := 0
  recoveredGroups : UInt64 := 0
  missingDataShards : UInt64 := 0
  decodedBlocks : UInt64 := 0
  groupsReceived : UInt64 := 0
  groupsRecovered : UInt64 := 0
  groupsEmitted : UInt64 := 0
  groupsFailed : UInt64 := 0
  windowOverflow : UInt64 := 0
  skippedGroups : UInt64 := 0
  pendingRecoveredGroups : UInt64 := 0

structure WireFlowDecoderConfig where
  codec : Codec
  expectedShards : UInt16
  bestEffort : Bool
  inputSize : Nat
  outputFn : List (List UInt8) → List UInt8 → Bool

abbrev Slot := Fin WIRE_FLOW_GROUP_WINDOW

abbrev Groups := Slot → WireGroup

inductive Head where
  | emitted (blockId : UInt64)
  | skipped (blockId : UInt64)
deriving DecidableEq

structure WireFlowDecoder where
  complete : Bool
  groups : Groups
  nextEmitBlock : UInt64
  endBlockCount : UInt64
  endSeen : Bool
  stats : WireFlowDecoderStats
  output : List (List UInt8)
  heads : List Head

def freshDecoder : WireFlowDecoder where
  complete := false
  groups := fun _ => releasedGroup
  nextEmitBlock := 0
  endBlockCount := 0
  endSeen := false
  stats := {}
  output := []
  heads := []

variable (dec : WireFlowDecoder)

def WireFlowDecoder.setGroup (slot : Slot) (group : WireGroup) : WireFlowDecoder :=
  { dec with groups := Function.update dec.groups slot group }

def releaseGroup (slot : Slot) : WireFlowDecoder :=
  dec.setGroup slot releasedGroup

def blockBytes (data : Block) (len : Nat) : List UInt8 :=
  (List.range len).map fun i => data (i / PKG_SIZE) (i % PKG_SIZE)

def findGroup (groups : Groups) (blockId : UInt64) : Option Slot :=
  (List.finRange WIRE_FLOW_GROUP_WINDOW).find? fun slot =>
    decide ((groups slot).state ≠ .empty ∧ (groups slot).blockId = blockId)

def findEmptySlot (groups : Groups) : Option Slot :=
  (List.finRange WIRE_FLOW_GROUP_WINDOW).find? fun slot =>
    decide ((groups slot).state = .empty)

def windowHasEmptySlot (groups : Groups) : Bool := (findEmptySlot groups).isSome

def newGroup (blockId : UInt64) (shardCount validLen : UInt16)
    (encodeBeginNs encodeEndNs : UInt64) : WireGroup where
  state := .active
  blockId := blockId
  shardCount := shardCount
  validLen := validLen
  receivedBits := presentNone
  encodeBeginNs := encodeBeginNs
  encodeEndNs := encodeEndNs
  data := zeroBlock
  lastRecoveryCount := 0

def allocateGroup (groups : Groups) (blockId : UInt64) (shardCount validLen : UInt16)
    (encodeBeginNs encodeEndNs : UInt64) : Option (Slot × WireGroup) :=
  if shardCount = 0 ∨ shardCount.toNat > WIRE_FLOW_MAX_SHARDS then none
  else
    match findEmptySlot groups with
    | none => none
    | some slot => some (slot, newGroup blockId shardCount validLen encodeBeginNs encodeEndNs)

def blockInReorderWindow (blockId nextEmit : UInt64) : Bool :=
  decide (nextEmit ≤ blockId ∧ (blockId - nextEmit).toNat < WIRE_FLOW_GROUP_WINDOW)

def groupAllShardsPresent (group : WireGroup) : Bool :=
  if group.shardCount = 0 ∨ group.shardCount.toNat > WIRE_FLOW_MAX_SHARDS then false
  else presentAll group.receivedBits group.shardCount.toNat

def groupReceivedCount (group : WireGroup) : Nat :=
  presentCount group.receivedBits group.shardCount.toNat

def groupSystematicDataReady (group : WireGroup) (codec : Codec) : Bool :=
  if codec.isSystematic = false then false
  else if codec.dataShards = 0 ∨
      group.shardCount.toNat ≠ codec.dataShards + codec.parityShards then false
  else presentAll group.receivedBits codec.dataShards

def markGroupRecovered (slot : Slot) (viaFecRecover : Bool) : WireFlowDecoder :=
  let group := dec.groups slot
  { dec.setGroup slot { group with
      state := .recovered
      receivedBits :=
        if viaFecRecover then presentSetAll group.shardCount.toNat else group.receivedBits } with
    stats := { dec.stats with
      recoveredGroups := dec.stats.recoveredGroups + 1
      groupsRecovered := dec.stats.groupsRecovered + 1 } }

/-- What every unsuccessful attempt does: give the group up at the end, wait otherwise. -/
def recoveryMissed (slot : Slot) (finalizeAtEnd : Bool) : WireRecoverResult × WireFlowDecoder :=
  if finalizeAtEnd then
    (.failed, { dec.setGroup slot { dec.groups slot with state := .failed } with
      stats := { dec.stats with groupsFailed := dec.stats.groupsFailed + 1 } })
  else (.pending, dec)

variable (config : WireFlowDecoderConfig)

def recoverActiveGroup (dec : WireFlowDecoder) (slot : Slot) (finalizeAtEnd : Bool) :
    WireRecoverResult × WireFlowDecoder :=
  let group := dec.groups slot
  if groupAllShardsPresent group then (.ok, markGroupRecovered dec slot false)
  else if groupSystematicDataReady group config.codec then
    (.ok, markGroupRecovered dec slot false)
  else
    let dataShards := config.codec.dataShards
    let count := groupReceivedCount group
    if dataShards = 0 ∨ count < dataShards then recoveryMissed dec slot finalizeAtEnd
    else if finalizeAtEnd = false ∧ count = group.lastRecoveryCount then (.pending, dec)
    else
      let (status, data) :=
        codecRecover config.codec group.data group.receivedBits group.shardCount.toNat
      let dec := dec.setGroup slot { group with lastRecoveryCount := count, data := data }
      match status with
      | .ok => (.ok, markGroupRecovered dec slot true)
      | .unavailable => recoveryMissed dec slot finalizeAtEnd
      | .err => recoveryMissed dec slot finalizeAtEnd

def tryRecoverGroup (dec : WireFlowDecoder) (slot : Slot) (finalizeAtEnd : Bool) :
    WireRecoverResult × WireFlowDecoder :=
  match (dec.groups slot).state with
  | .recovered => (.ok, dec)
  | .emitted => (.ok, dec)
  | .failed => (.failed, dec)
  | .empty => (.pending, dec)
  | .active => recoverActiveGroup config dec slot finalizeAtEnd

def writeDecodedGroup (dec : WireFlowDecoder) (slot : Slot) : Int × WireFlowDecoder :=
  let group := dec.groups slot
  if group.state ≠ .recovered then (-1, dec)
  else
    let inputSize := config.codec.inputBlockSize
    let outputSize := group.shardCount.toNat * PKG_SIZE
    if group.validLen = 0 ∨ group.validLen.toNat > inputSize ∨ outputSize = 0 ∨
        outputSize > CODEC_MAX_ENCODE_BLOCK then (-1, dec)
    else
      let data := config.codec.decode group.data outputSize
      let dec := { dec.setGroup slot { group with state := .emitted, data := data } with
        stats := { dec.stats with
          decodedBlocks := dec.stats.decodedBlocks + 1
          groupsEmitted := dec.stats.groupsEmitted + 1 } }
      let chunk := blockBytes data group.validLen.toNat
      if config.outputFn dec.output chunk = false then (-1, dec)
      else
        (0, { releaseGroup dec slot with
          stats := { dec.stats with
            outputBytes := dec.stats.outputBytes + UInt64.ofNat group.validLen.toNat }
          output := dec.output ++ [chunk]
          heads := dec.heads ++ [.emitted group.blockId] })

/-- One data shard of an abandoned group: written if it arrived, counted if not.  The
loop state is the status, the bytes remaining and the decoder. -/
def writeBestEffortShard (group : WireGroup) (current : Int × Nat × WireFlowDecoder) (shard : Nat) :
    Int × Nat × WireFlowDecoder :=
  let (status, remaining, dec) := current
  if status ≠ 0 ∨ remaining = 0 then current
  else
    let shardLen := if remaining > PKG_SIZE then PKG_SIZE else remaining
    if group.receivedBits shard then
      let chunk := (List.range shardLen).map (group.data shard)
      if config.outputFn dec.output chunk = false then (-1, remaining, dec)
      else
        (0, remaining - shardLen,
          { dec with
            stats := { dec.stats with
              outputBytes := dec.stats.outputBytes + UInt64.ofNat shardLen }
            output := dec.output ++ [chunk] })
    else
      (0, remaining - shardLen,
        { dec with
          stats := { dec.stats with missingDataShards := dec.stats.missingDataShards + 1 } })

def writeBestEffortGroup (dec : WireFlowDecoder) (slot : Slot) : Int × WireFlowDecoder :=
  let group := dec.groups slot
  let codec := config.codec
  if codecAllowsBestEffort codec = false ∨ group.validLen = 0 ∨
      group.validLen.toNat > codec.inputBlockSize then (-1, dec)
  else if codec.dataShards = 0 ∨
      group.shardCount.toNat ≠ codec.dataShards + codec.parityShards then (-1, dec)
  else
    let outputSize := group.shardCount.toNat * PKG_SIZE
    if codec.isSystematic = false ∧
        (outputSize = 0 ∨ outputSize > CODEC_MAX_ENCODE_BLOCK) then (-1, dec)
    else
      -- wire bytes are plaintext only for systematic codecs
      let data :=
        if codec.isSystematic then group.data else codec.decode group.data outputSize
      let group := { group with data := data }
      let (status, _, dec) := forRange codec.dataShards
        ((0 : Int), group.validLen.toNat, dec.setGroup slot group)
        (writeBestEffortShard config group)
      if status ≠ 0 then (-1, dec) else (0, releaseGroup dec slot)

def skipUnrecoverableHead (dec : WireFlowDecoder) (slot : Option Slot) : Int × WireFlowDecoder :=
  let (status, dec) :=
    match slot with
    | none => ((0 : Int), dec)
    | some slot =>
      if codecAllowsBestEffort config.codec ∧ (dec.groups slot).validLen ≠ 0 then
        writeBestEffortGroup config dec slot
      else (0, releaseGroup dec slot)
  if status ≠ 0 then (-1, dec)
  else
    (0, { dec with
      stats := { dec.stats with skippedGroups := dec.stats.skippedGroups + 1 }
      heads := dec.heads ++ [.skipped dec.nextEmitBlock]
      nextEmitBlock := dec.nextEmitBlock + 1 })

/-- `write_decoded_group` at the head, then `next_emit_block++`. -/
def emitHead (dec : WireFlowDecoder) (slot : Slot) : Int × WireFlowDecoder :=
  let (status, dec) := writeDecodedGroup config dec slot
  if status ≠ 0 then (-1, dec)
  else (0, { dec with nextEmitBlock := dec.nextEmitBlock + 1 })

/-- Moves the head of the window: a recovered group is emitted, an active one gets a last
chance to be recovered first, anything else is skipped.  The flag tells whether the head
was skipped. -/
def moveHead (dec : WireFlowDecoder) (head : Option Slot) : Int × Bool × WireFlowDecoder :=
  match head with
  | none =>
    let (status, dec) := skipUnrecoverableHead config dec none
    (status, true, dec)
  | some slot =>
    if (dec.groups slot).state = .recovered then
      let (status, dec) := emitHead config dec slot
      (status, false, dec)
    else if (dec.groups slot).state = .active then
      let (result, dec) := tryRecoverGroup config dec slot true
      if result = .ok then
        let (status, dec) := emitHead config dec slot
        (status, false, dec)
      else
        let (status, dec) := skipUnrecoverableHead config dec (some slot)
        (status, true, dec)
    else
      let (status, dec) := skipUnrecoverableHead config dec (some slot)
      (status, true, dec)

def blockNeedsRoom (blockId : UInt64) : Bool :=
  if blockInReorderWindow blockId dec.nextEmitBlock = false then true
  else if (findGroup dec.groups blockId).isSome then false
  else !windowHasEmptySlot dec.groups

/-- One turn of the loop of `make_room_for_block`, over the decoder and the guard. -/
def makeRoomStep (blockId : UInt64) (current : WireFlowDecoder × Nat) :
    Step (WireFlowDecoder × Nat) (Int × WireFlowDecoder) :=
  let (dec, guard) := current
  if blockNeedsRoom dec blockId = false ∨ WIRE_FLOW_GROUP_WINDOW ≤ guard then .done (0, dec)
  else if blockId ≤ dec.nextEmitBlock then .done (0, dec)
  else
    let (status, skipped, later) :=
      moveHead config dec (findGroup dec.groups dec.nextEmitBlock)
    if status ≠ 0 then .done (-1, later)
    else .next (later, if skipped then guard + 1 else guard)

def laterRecoveredWaiting : Bool :=
  (List.finRange WIRE_FLOW_GROUP_WINDOW).any fun slot =>
    decide ((dec.groups slot).state = .recovered ∧ dec.nextEmitBlock < (dec.groups slot).blockId)

def headBelowRecoverThreshold (dec : WireFlowDecoder) : Option Slot → Bool
  | none => true
  | some slot =>
    let head := dec.groups slot
    if head.state = .failed then true
    else if head.state ≠ .active then false
    else decide (config.codec.dataShards = 0 ∨
      groupReceivedCount head < config.codec.dataShards)

def headRecovered : Option Slot → Bool
  | none => false
  | some slot => decide ((dec.groups slot).state = .recovered)

def headMissingOrFailed : Option Slot → Bool
  | none => true
  | some slot => decide ((dec.groups slot).state = .failed)

/-- Why `try_emit_from_head` moves on: the head is ready; the stream has ended and the head
is missing or failed; or a later group is ready and the head cannot be recovered yet. -/
def headMovable (dec : WireFlowDecoder) (head : Option Slot) : Bool :=
  headRecovered dec head ||
    (config.bestEffort && dec.endSeen && headMissingOrFailed dec head) ||
    (config.bestEffort && headBelowRecoverThreshold config dec head &&
      laterRecoveredWaiting dec)

def tryEmitStep (dec : WireFlowDecoder) : Step WireFlowDecoder (Int × WireFlowDecoder) :=
  if dec.endSeen = true ∧ dec.endBlockCount ≤ dec.nextEmitBlock then .done (0, dec)
  else
    let head := findGroup dec.groups dec.nextEmitBlock
    if headMovable config dec head then
      let (status, _, later) := moveHead config dec head
      if status ≠ 0 then .done (-1, later) else .next later
    else .done (0, dec)

end MultiFlow.FlowDecoder
