import MultiFlow.Fec.Encoder
import MultiFlow.Lib.Search

/-!
# The FEC decoder

The RS half of the decoder in `fec_transport.c`, which has `group_window` slots.  What happens
inside one slot (storing a shard, reading the length table, recovery, emission) sees only the slot,
the statistics and the output callback: it is a function on a `GroupView`.  The decoder adds the
search for a slot, the watermark and the passes over all slots.

`log` lists the calls of the output callback with their group and record; the decoder does not read
it, but the callback may answer by the number of earlier calls.
-/

namespace MultiFlow.Fec

open Function CodecApi Lib Wire

inductive FecGroupState where
  | free
  | collecting
  | completed
deriving DecidableEq

/-- A slot; a slot that was cleared has the defaults. -/
structure FecDecodeGroup where
  active : FecGroupState := .free
  releasedUnrecoverable : Bool := false
  dataCountHintValid : Bool := false
  metadataValid : Bool := false
  emitBlocked : Bool := false
  dataCount : Nat := 0
  groupId : UInt64 := 0
  lastSeenNs : UInt64 := 0
  present : Present := presentNone
  delivered : Present := presentNone
  lengths : Nat → UInt16 := fun _ => 0
  block : Block := zeroBlock

def groupClear : FecDecodeGroup := {}

structure FecDecoderStats where
  receivedDatagrams : UInt64 := 0
  duplicateDatagrams : UInt64 := 0
  staleDatagrams : UInt64 := 0
  invalidDatagrams : UInt64 := 0
  recoveredGroups : UInt64 := 0
  recoveredShards : UInt64 := 0
  completedGroups : UInt64 := 0
  evictedGroups : UInt64 := 0
  expiredGroups : UInt64 := 0
  unrecoverableGroups : UInt64 := 0
  overRGroups : UInt64 := 0
  missingShards : UInt64 := 0
  maxMissingRun : UInt64 := 0
  blockedCount : UInt64 := 0
  downstreamCallbackErrors : UInt64 := 0

structure FecDelivery where
  groupId : UInt64
  index : Nat
  data : List UInt8
  answer : FecOutputStatus
deriving DecidableEq

structure FecDecoder where
  epoch : UInt32
  highestGroupId : Option UInt64
  groups : Nat → FecDecodeGroup
  stats : FecDecoderStats
  log : List FecDelivery

def fecDecoderReset (epoch : UInt32) : FecDecoder where
  epoch := epoch
  highestGroupId := none
  groups := fun _ => groupClear
  stats := {}
  log := []

structure GroupView where
  group : FecDecodeGroup
  stats : FecDecoderStats
  log : List FecDelivery

def FecDecoder.view (decoder : FecDecoder) (slot : Nat) : GroupView :=
  ⟨decoder.groups slot, decoder.stats, decoder.log⟩

def FecDecoder.put (decoder : FecDecoder) (slot : Nat) (view : GroupView) : FecDecoder :=
  { decoder with
    groups := update decoder.groups slot view.group
    stats := view.stats
    log := view.log }

def FecDecoder.onGroup (decoder : FecDecoder) (slot : Nat)
    (run : GroupView → FecStatus × GroupView) : FecStatus × FecDecoder :=
  let (status, view) := run (decoder.view slot)
  (status, decoder.put slot view)

section Slot

variable (transport : FecTransport) (output : FecOutputFn)

variable (group : FecDecodeGroup)

def FecDecodeGroup.countKnown : Bool :=
  group.metadataValid || group.dataCountHintValid

def expectedShard (shard : Nat) : Bool :=
  if transport.n ≤ shard then false
  else if transport.messageShards ≤ shard then true
  else if group.countKnown = false then true
  else decide (shard < group.dataCount)

def allMessagesDelivered (dataCount : Nat) : Bool :=
  (List.range dataCount).all group.delivered

def messagesComplete : Bool :=
  group.metadataValid && allMessagesDelivered group group.dataCount

structure MissingRuns where
  missingCount : Nat := 0
  run : Nat := 0
  maxRun : Nat := 0

def missingRuns : MissingRuns :=
  forRange transport.n {} fun runs shard =>
    if expectedShard transport group shard ∧ group.present shard = false then
      { missingCount := runs.missingCount + 1
        run := runs.run + 1
        maxRun := max runs.maxRun (runs.run + 1) }
    else { runs with run := 0 }

def recordGroupLoss (markUnrecoverable : Bool) (stats : FecDecoderStats) : FecDecoderStats :=
  if group.active = .free then stats
  else
    let runs := missingRuns transport group
    if runs.missingCount = 0 then stats
    else { stats with
      missingShards := stats.missingShards + UInt64.ofNat runs.missingCount
      overRGroups :=
        if runs.missingCount > transport.r then stats.overRGroups + 1 else stats.overRGroups
      maxMissingRun :=
        if UInt64.ofNat runs.maxRun > stats.maxMissingRun then UInt64.ofNat runs.maxRun
        else stats.maxMissingRun
      unrecoverableGroups :=
        if markUnrecoverable ∧ messagesComplete group = false then stats.unrecoverableGroups + 1
        else stats.unrecoverableGroups }

variable (view : GroupView)

def completeGroup : GroupView :=
  if view.group.active = .completed then view
  else
    let stats := recordGroupLoss transport view.group false view.stats
    { view with
      group := { view.group with active := .completed, emitBlocked := false }
      stats := { stats with completedGroups := stats.completedGroups + 1 } }

/-- A group after the output callback answered for one of its records. -/
def FecDecodeGroup.answered (index : Nat) : FecOutputStatus → FecDecodeGroup
  | .ok => { group with delivered := presentSet group.delivered index, emitBlocked := false }
  | .blocked => { group with emitBlocked := true }
  | .error => group

def answeredStats (stats : FecDecoderStats) : FecOutputStatus → FecDecoderStats
  | .ok => stats
  | .blocked => { stats with blockedCount := stats.blockedCount + 1 }
  | .error => { stats with downstreamCallbackErrors := stats.downstreamCallbackErrors + 1 }

def answeredStatus : FecOutputStatus → FecStatus
  | .error => .downstream
  | _ => .ok

def FecDecodeGroup.bytes (shard length : Nat) : List UInt8 :=
  (List.range length).map (group.block shard)

def emitRecord (shard length : Nat) : FecStatus × GroupView :=
  if length = 0 then (.metadata, view)
  else if view.group.delivered shard then (.ok, view)
  else
    let data := view.group.bytes shard length
    let answer := output view.log.length data
    (answeredStatus answer,
      { group := view.group.answered shard answer
        stats := answeredStats view.stats answer
        log := view.log ++ [⟨view.group.groupId, shard, data, answer⟩] })

/-- What an emission loop does with a record before it calls `emit_record`. -/
inductive EmitChoice where
  | skip
  | leave (status : FecStatus)
  | emit (length : Nat)

/-- The loop that `emit_contiguous`, `emit_available` and `emit_from_metadata` share. -/
def emitRecords (choice : FecDecodeGroup → Nat → EmitChoice) :
    List Nat → GroupView → FecStatus × GroupView
  | [], view => (.ok, view)
  | index :: rest, view =>
    match choice view.group index with
    | .skip => emitRecords choice rest view
    | .leave status => (status, view)
    | .emit length =>
      let (status, view) := emitRecord output view index length
      if status ≠ .ok then (status, view)
      else if view.group.delivered index = false then (.ok, view)
      else emitRecords choice rest view

def emitLimit : Nat :=
  if group.countKnown then group.dataCount else transport.messageShards

def badLength (index : Nat) : Bool :=
  decide ((group.lengths index).toNat = 0 ∨ (group.lengths index).toNat > transport.shardSize)

def chooseContiguous (index : Nat) : EmitChoice :=
  if group.delivered index then .skip
  else if group.present index = false then .leave .ok
  else if badLength transport group index then .leave .metadata
  else .emit (group.lengths index).toNat

def emitContiguous : FecStatus × GroupView :=
  emitRecords output (chooseContiguous transport)
    (List.range (emitLimit transport view.group)) view

def chooseAvailable (index : Nat) : EmitChoice :=
  if group.present index = false ∨ group.delivered index = true then .skip
  else if badLength transport group index then .skip
  else .emit (group.lengths index).toNat

def emitAvailable : FecStatus × GroupView :=
  emitRecords output (chooseAvailable transport)
    (List.range (emitLimit transport view.group)) view

/-- A byte of the length table; past the end of its shard the next one is read. -/
def tableByte (offset : Nat) : UInt8 :=
  group.block (transport.messageShards + offset / transport.shardSize)
    (offset % transport.shardSize)

def tableLength (index : Nat) : Nat :=
  getBigEndian [tableByte transport group (1 + index * 2),
    tableByte transport group (1 + index * 2 + 1)]

/-- The loop of `parse_metadata`; lengths read before an error stay. -/
def readLengths : List Nat → FecDecodeGroup → FecStatus × FecDecodeGroup
  | [], group => (.ok, group)
  | index :: rest, group =>
    let length := tableLength transport group index
    if length = 0 ∨ length > transport.shardSize then (.metadata, group)
    else if group.lengths index ≠ 0 ∧ (group.lengths index).toNat ≠ length then
      (.metadata, group)
    else if group.lengths index = 0 then
      readLengths rest { group with
        lengths := update group.lengths index (UInt16.ofNat length) }
    else readLengths rest group

def tableCount : Nat := (tableByte transport group 0).toNat

def parseMetadata : FecStatus × FecDecodeGroup :=
  let dataCount := tableCount transport group
  if group.present transport.messageShards = false then (.metadata, group)
  else if dataCount = 0 ∨ dataCount > transport.messageShards then (.metadata, group)
  else if group.dataCountHintValid = true ∧ group.dataCount ≠ dataCount then (.metadata, group)
  else readLengths transport (List.range dataCount) group

/-- Shards that carry no record are zero and count as present. -/
def markUnusedZeros (dataCount : Nat) : FecDecodeGroup :=
  { group with
    present := fun shard =>
      decide (dataCount ≤ shard ∧ shard < transport.messageShards) || group.present shard }

/-- `parse_metadata` and what both of its callers do next. -/
def acceptMetadata : FecStatus × FecDecodeGroup :=
  let (status, group) := parseMetadata transport group
  if status ≠ .ok then (status, group)
  else
    let dataCount := tableCount transport group
    let group := { group with dataCount := dataCount, metadataValid := true }
    (.ok, markUnusedZeros transport group dataCount)

def chooseUndelivered (index : Nat) : EmitChoice :=
  if group.delivered index then .skip else .emit (group.lengths index).toNat

def emitFromMetadata : FecStatus × GroupView :=
  let (status, group) := acceptMetadata transport view.group
  if status ≠ .ok then (status, { view with group := group })
  else emitRecords output chooseUndelivered (List.range group.dataCount) { view with group := group }

def missingData : Nat :=
  (List.range transport.k).countP fun shard => group.present shard = false

def markRecovered (block : Block) : GroupView :=
  { view with
    group := { view.group with
      block := block
      present := fun shard => decide (shard < transport.k) || view.group.present shard }
    stats := { view.stats with
      recoveredGroups := view.stats.recoveredGroups + 1
      recoveredShards :=
        view.stats.recoveredShards + UInt64.ofNat (missingData transport view.group) } }

def emitRecovered : FecStatus × GroupView :=
  let (status, view) := emitFromMetadata transport output view
  if status ≠ .ok then (status, view)
  else if messagesComplete view.group then (.ok, completeGroup transport view)
  else (.ok, view)

def recoverGroup : FecStatus × GroupView :=
  let group := view.group
  if presentCount group.present transport.n < transport.k then (.ok, view)
  else if missingData transport group = 0 then emitRecovered transport output view
  else
    match codecRecover transport.codec group.block group.present transport.n with
    | (.unavailable, block) => (.ok, { view with group := { group with block := block } })
    | (.err, block) => (.codec, { view with group := { group with block := block } })
    | (.ok, block) => emitRecovered transport output (markRecovered transport view block)

def countInvalid : GroupView :=
  { view with stats := { view.stats with invalidDatagrams := view.stats.invalidDatagrams + 1 } }

def applyTailHint (header : WireHeader) : FecStatus × GroupView :=
  let validLen := header.validLen.toNat
  let hinted := (validLen / transport.shardSize - 1) % 256
  let group := view.group
  if validLen < 2 * transport.shardSize ∨ validLen > transport.k * transport.shardSize ∨
      validLen % transport.shardSize ≠ 0 then (.wireHeader, countInvalid view)
  else if (group.dataCountHintValid = true ∧ group.dataCount ≠ hinted) ∨ hinted = 0 ∨
      hinted > transport.messageShards then (.wireHeader, countInvalid view)
  else
    let group := { group with dataCount := hinted, dataCountHintValid := true }
    (.ok, { view with group := markUnusedZeros transport group hinted })

/-- The checks of a datagram against the record count of its group. -/
def checkCount (header : WireHeader) : FecStatus × GroupView :=
  let shard := header.shardIndex.toNat
  if transport.messageShards ≤ shard then applyTailHint transport view header
  else if view.group.dataCountHintValid = true ∧ view.group.dataCount ≤ shard then
    (.wireHeader, countInvalid view)
  else (.ok, view)

def storeShard (header : WireHeader) (payload : List UInt8) (now : UInt64) : GroupView :=
  let shard := header.shardIndex.toNat
  { view with
    group := { view.group with
      lastSeenNs := now
      block := update view.group.block shard fun b => payload.getD b 0
      present := presentSet view.group.present shard
      lengths :=
        if shard < transport.messageShards then
          update view.group.lengths shard header.payloadLen
        else view.group.lengths }
    stats := { view.stats with receivedDatagrams := view.stats.receivedDatagrams + 1 } }

def emitStored (shard : Nat) : FecStatus × GroupView :=
  if shard < transport.messageShards then emitContiguous transport output view else (.ok, view)

/-- The end of `fec_decoder_input`: the length table, if it is there, and recovery. -/
def finishInput : FecStatus × GroupView :=
  if view.group.present transport.messageShards then
    let (status, group) := acceptMetadata transport view.group
    let view := { view with group := group }
    if status ≠ .ok then (status, view)
    else if allMessagesDelivered group group.dataCount then (.ok, completeGroup transport view)
    else recoverGroup transport output view
  else recoverGroup transport output view

/-- `fec_decoder_input` once the slot is found. -/
def inputShard (header : WireHeader) (payload : List UInt8) (now : UInt64) (view : GroupView) :
    FecStatus × GroupView :=
  let shard := header.shardIndex.toNat
  let (status, view) := checkCount transport view header
  if status ≠ .ok then (status, view)
  else if view.group.active = .completed ∨ view.group.present shard = true then
    (.ok, { view with stats := { view.stats with
      duplicateDatagrams := view.stats.duplicateDatagrams + 1 } })
  else
    let (status, view) := emitStored transport output (storeShard transport view header payload now)
      shard
    if status ≠ .ok then (status, view) else finishInput transport output view

/-- The body of `retry_blocked`. -/
def retryGroup : FecStatus × GroupView :=
  if view.group.active ≠ .collecting ∨ view.group.emitBlocked = false then (.ok, view)
  else
    let (status, view) := emitContiguous transport output view
    if status ≠ .ok then (status, view)
    else if view.group.emitBlocked then (.ok, view)
    else if view.group.metadataValid then
      let (status, view) := emitFromMetadata transport output view
      if status ≠ .ok then (status, view)
      else if view.group.emitBlocked = false ∧
          allMessagesDelivered view.group view.group.dataCount = true then
        (.ok, completeGroup transport view)
      else (.ok, view)
    else recoverGroup transport output view

def timedOut (now : UInt64) : Bool :=
  decide (group.active = .collecting ∧ group.lastSeenNs ≠ 0 ∧ group.lastSeenNs ≤ now ∧
    transport.flushTimeoutNs ≤ now - group.lastSeenNs)

/-- The body of the expiry loop of `fec_decoder_update`. -/
def expireGroup (now : UInt64) (view : GroupView) : FecStatus × GroupView :=
  if timedOut transport view.group now = false then (.ok, view)
  else
    let (status, view) := emitAvailable transport output view
    if status ≠ .ok then (status, view)
    else if view.group.emitBlocked then (.ok, view)
    else
      let stats := recordGroupLoss transport view.group true view.stats
      (.ok, { view with
        group := groupClear
        stats := { stats with expiredGroups := stats.expiredGroups + 1 } })

def eachGroup (visit : GroupView → FecStatus × GroupView) :
    List Nat → FecDecoder → FecStatus × FecDecoder
  | [], decoder => (.ok, decoder)
  | slot :: rest, decoder =>
    let (status, decoder) := decoder.onGroup slot visit
    if status ≠ .ok then (status, decoder) else eachGroup visit rest decoder

variable (decoder : FecDecoder)

def retryBlocked : FecStatus × FecDecoder :=
  eachGroup (retryGroup transport output) (List.range transport.groupWindow) decoder

def fecDecoderUpdate (now : UInt64) : FecStatus × FecDecoder :=
  let (status, decoder) := retryBlocked transport output decoder
  if status ≠ .ok then (status, decoder)
  else if transport.flushTimeoutNs = 0 then (.ok, decoder)
  else eachGroup (expireGroup transport output now) (List.range transport.groupWindow) decoder

def unreleased (newGroupId : UInt64) (group : FecDecodeGroup) : Bool :=
  decide (group.active = .collecting ∧ group.releasedUnrecoverable = false ∧
    group.groupId < newGroupId)

/-- The slot with the smallest group id among those that pass a test. -/
def oldestGroup (test : FecDecodeGroup → Bool) : Option Nat :=
  leastIndex (fun slot => test (decoder.groups slot))
    (fun slot => (decoder.groups slot).groupId.toNat) transport.groupWindow

/-- The body of the loop of `release_older_groups`. -/
def releaseOldest (newGroupId : UInt64) (decoder : FecDecoder) :
    Step FecDecoder (FecStatus × FecDecoder) :=
  match oldestGroup transport decoder (unreleased newGroupId) with
  | none => .done (.ok, decoder)
  | some slot =>
    let (status, decoder) := decoder.onGroup slot (emitAvailable transport output)
    if status ≠ .ok then .done (status, decoder)
    else if (decoder.groups slot).emitBlocked then .done (.ok, decoder)
    else
      let released := { decoder.groups slot with releasedUnrecoverable := true }
      .next { decoder with groups := update decoder.groups slot released }

def unreleasedCount (newGroupId : UInt64) (decoder : FecDecoder) : Nat :=
  ((Finset.range transport.groupWindow).filter fun slot =>
    unreleased newGroupId (decoder.groups slot)).card

theorem releaseOldest_decreases (newGroupId : UInt64) (decoder later : FecDecoder)
    (continued : releaseOldest transport output newGroupId decoder = .next later) :
    unreleasedCount transport newGroupId later < unreleasedCount transport newGroupId decoder := by
  unfold releaseOldest at continued
  split at continued
  · cases continued
  rename_i slot found
  obtain ⟨inWindow, passes, _⟩ := leastIndex_some _ _ found
  dsimp only at continued
  split at continued
  · cases continued
  split at continued
  · cases continued
  cases continued
  unfold unreleasedCount
  refine Finset.card_lt_card ((Finset.ssubset_iff_of_subset ?_).mpr ⟨slot, ?_, ?_⟩)
  · intro other member
    rw [Finset.mem_filter] at member ⊢
    refine ⟨member.1, ?_⟩
    by_cases same : other = slot
    · rw [same]
      exact passes
    · simpa [FecDecoder.onGroup, FecDecoder.put, update_of_ne same] using member.2
  · exact Finset.mem_filter.mpr ⟨Finset.mem_range.mpr inWindow, passes⟩
  · simp [unreleased]

def releaseOlderGroups (newGroupId : UInt64) (decoder : FecDecoder) : FecStatus × FecDecoder :=
  loop (releaseOldest transport output newGroupId) (unreleasedCount transport newGroupId)
    (releaseOldest_decreases transport output newGroupId) decoder

inductive FindResult where
  | found (slot : Nat)
  | stale
  | failed (err : FecStatus)

def FecDecodeGroup.holds (groupId : UInt64) (group : FecDecodeGroup) : Bool :=
  decide (group.active ≠ .free ∧ group.groupId = groupId)

def openGroup (slot : Nat) (groupId : UInt64) : FecDecoder :=
  { decoder with
    groups := update decoder.groups slot
      { groupClear with active := .collecting, groupId := groupId } }

/-- The oldest slot is emitted as far as possible and then taken for another group. -/
def evictOldest (slot : Nat) (groupId : UInt64) : FindResult × FecDecoder :=
  let (status, decoder) := decoder.onGroup slot (emitAvailable transport output)
  if status ≠ .ok then (.failed status, decoder)
  else if (decoder.groups slot).emitBlocked then (.failed .queueFull, decoder)
  else
    let stats := { decoder.stats with evictedGroups := decoder.stats.evictedGroups + 1 }
    let stats := recordGroupLoss transport (decoder.groups slot) true stats
    (.found slot, openGroup { decoder with stats := stats } slot groupId)

/-- The source finds the four kinds of slots in one pass. -/
def findGroup (groupId : UInt64) : FindResult × FecDecoder :=
  let slots := List.range transport.groupWindow
  match slots.find? fun slot => (decoder.groups slot).holds groupId with
  | some slot => (.found slot, decoder)
  | none =>
    match slots.find? fun slot => (decoder.groups slot).active = .free with
    | some slot => (.found slot, openGroup decoder slot groupId)
    | none =>
      match oldestGroup transport decoder (fun group => group.active = .completed) with
      | some slot => (.found slot, openGroup decoder slot groupId)
      | none =>
        match oldestGroup transport decoder (fun group => group.active = .collecting) with
        | some slot =>
          if groupId < (decoder.groups slot).groupId then (.stale, decoder)
          else evictOldest transport output decoder slot groupId
        | none => (.failed .ok, decoder)

def wireShapeOk (header : WireHeader) (length : Nat) : Bool :=
  if header.type ≠ WIRE_TYPE_DATA ∨ header.shardCount.toNat ≠ transport.n ∨
      transport.n ≤ header.shardIndex.toNat ∨ header.payloadLen = 0 ∨
      header.payloadLen.toNat > transport.shardSize ∨
      length ≠ WIRE_HEADER_SIZE + transport.shardSize then false
  else if header.shardIndex.toNat < transport.messageShards then
    decide (header.validLen.toNat = transport.k * transport.shardSize % 65536)
  else decide (header.payloadLen.toNat = transport.shardSize)

/-- A group so far behind the watermark that the decoder no longer accepts it. -/
def behindWindow (highest : Option UInt64) (groupId : UInt64) : Bool :=
  match highest with
  | none => false
  | some highest =>
    decide (groupId < highest ∧ transport.groupWindow ≤ (highest - groupId).toNat)

def aboveHighest (highest : Option UInt64) (groupId : UInt64) : Bool :=
  match highest with
  | none => true
  | some highest => decide (highest < groupId)

def countStale : FecDecoder :=
  { decoder with stats := { decoder.stats with
      staleDatagrams := decoder.stats.staleDatagrams + 1 } }

/-- A new highest group releases the older ones first. -/
def raiseHighest (groupId : UInt64) : FecStatus × FecDecoder :=
  if aboveHighest decoder.highestGroupId groupId then
    let (status, decoder) := releaseOlderGroups transport output groupId decoder
    if status ≠ .ok then (status, decoder)
    else (.ok, { decoder with highestGroupId := some groupId })
  else (.ok, decoder)

def inputGroup (header : WireHeader) (payload : List UInt8) (now : UInt64) :
    FecStatus × FecDecoder :=
  let (status, decoder) := raiseHighest transport output decoder header.blockId
  if status ≠ .ok then (status, decoder)
  else
    match findGroup transport output decoder header.blockId with
    | (.found slot, decoder) =>
      decoder.onGroup slot (inputShard transport output header payload now)
    | (.stale, decoder) => (.stale, countStale decoder)
    | (.failed err, decoder) => (if err ≠ .ok then err else .codec, decoder)

def fecDecoderInput (datagram : List UInt8) (now : UInt64) : FecStatus × FecDecoder :=
  if datagram.length = 0 then (.inval, decoder)
  else if datagram.length < WIRE_HEADER_SIZE then (.notFec, decoder)
  else
    match wireHeaderDecode datagram with
    | none => (.notFec, decoder)
    | some header =>
      if header.type ≠ WIRE_TYPE_DATA then (.notFec, decoder)
      else if wireShapeOk transport header datagram.length = false then
        (.wireHeader, { decoder with stats := { decoder.stats with
          invalidDatagrams := decoder.stats.invalidDatagrams + 1 } })
      else if (header.blockId >>> 32).toUInt32 ≠ decoder.epoch then (.stale, countStale decoder)
      else if behindWindow transport decoder.highestGroupId header.blockId then
        (.stale, countStale decoder)
      else
        inputGroup transport output decoder header (datagram.drop WIRE_HEADER_SIZE) now

inductive FecDecoderCall where
  | input (datagram : List UInt8) (now : UInt64)
  | update (now : UInt64)

def FecDecoder.call : FecDecoderCall → FecStatus × FecDecoder
  | .input datagram now => fecDecoderInput transport output decoder datagram now
  | .update now => fecDecoderUpdate transport output decoder now

def decodeAll (epoch : UInt32) (calls : List FecDecoderCall) : FecDecoder :=
  calls.foldl (fun decoder call => (decoder.call transport output call).2) (fecDecoderReset epoch)

end Slot

end MultiFlow.Fec
