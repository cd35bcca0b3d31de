import MultiFlow.Fec.Encoder

/-!
# What an encoder sends

Every group is sent as the datagrams of its records followed by its tails: the length table and the
parity shards.  `EncoderInv` says that the enqueued datagrams are those of the groups so far, in
order, and that the queue holds the ones that were not taken yet.
-/

namespace MultiFlow.Fec

open CodecApi Lib Wire List

section Datagrams

variable (fec : FecTransport) (epoch : UInt32)

def shardDatagram (group shard validLen payloadLen : Nat) (row : Nat → UInt8) : List UInt8 :=
  wireHeaderEncode
      { type := WIRE_TYPE_DATA
        finalDst := 0
        ttl := 0
        flowId := 0
        blockId := groupIdOf epoch (UInt32.ofNat group)
        shardIndex := UInt16.ofNat shard
        shardCount := UInt16.ofNat fec.n
        validLen := UInt16.ofNat validLen
        payloadLen := UInt16.ofNat payloadLen } ++
    (List.range fec.shardSize).map row

/-- The datagram of a record: the record, padded with zeros. -/
def dataDatagram (group index : Nat) (record : List UInt8) : List UInt8 :=
  shardDatagram fec epoch group index (fec.k * fec.shardSize) record.length
    fun b => record.getD b 0

def recordLengths (records : List (List UInt8)) : Nat → UInt16 := fun index =>
  UInt16.ofNat (records.getD index []).length

/-- The data shards of a group: its records, then zeros, then the length table. -/
def messageBlock (records : List (List UInt8)) : Block := fun s b =>
  if s = fec.messageShards then
    (lengthTable records.length (recordLengths records)).getD b 0
  else (records.getD s []).getD b 0

def codeword (records : List (List UInt8)) : Block :=
  fec.codec.encode (messageBlock fec records) (fec.n * fec.shardSize)

def tailDatagram (group : Nat) (records : List (List UInt8)) (shard : Nat) : List UInt8 :=
  shardDatagram fec epoch group shard ((records.length + 1) * fec.shardSize)
    fec.shardSize (codeword fec records shard)

def tailShards : List Nat :=
  List.range' fec.messageShards (fec.n - fec.messageShards)

def dataDatagrams (group : Nat) (records : List (List UInt8)) : List (List UInt8) :=
  records.mapIdx fun index record => dataDatagram fec epoch group index record

def groupDatagrams (group : Nat) (records : List (List UInt8)) : List (List UInt8) :=
  dataDatagrams fec epoch group records ++
    (tailShards fec).map (tailDatagram fec epoch group records)

def finishedDatagrams (finished : List (List (List UInt8))) : List (List UInt8) :=
  (finished.mapIdx fun group records => groupDatagrams fec epoch group records).flatten

theorem tailShards_length : (tailShards fec).length = fec.r + 1 := by
  have two := fec.two_le
  simp only [tailShards, length_range', ResolvedConfig.n, ResolvedConfig.messageShards]
  omega

theorem mem_tailShards {shard : Nat} :
    shard ∈ tailShards fec ↔ fec.messageShards ≤ shard ∧ shard < fec.n := by
  have two := fec.two_le
  simp only [tailShards, mem_range'_1, ResolvedConfig.n, ResolvedConfig.messageShards]
  omega

theorem length_lengthTable (count : Nat) (lengths : Nat → UInt16) :
    (lengthTable count lengths).length = 1 + count * 2 := by
  simp [lengthTable, length_flatMap, Nat.add_comm]

end Datagrams

section Invariant

variable (fec : FecTransport) (epoch : UInt32)

structure EncoderInv (encoder : FecEncoder) : Prop where
  epoch_eq : encoder.epoch = epoch
  capacity_eq : encoder.queue.capacity = fec.outputQueuePackets
  order : encoder.sent ++ encoder.queue.toList.map FecQueueItem.datagram = encoder.enqueued
  qBytes_eq : encoder.qBytes = (encoder.queue.toList.map fun item => item.datagram.length).sum
  qBytes_le : encoder.qBytes ≤ fec.outputQueueBytes
  numbered : encoder.groupExhausted = false →
    encoder.nextGroup.toNat = encoder.finished.length
  exhausted : encoder.groupExhausted = true →
    encoder.finished.length = 2 ^ 32 ∧ encoder.pending = []
  dataCount_eq : encoder.dataCount = encoder.pending.length
  pending_le : encoder.pending.length ≤ fec.messageShards
  finished_le : ∀ records ∈ encoder.finished,
    0 < records.length ∧ records.length ≤ fec.messageShards
  record_le : ∀ records ∈ encoder.finished ++ [encoder.pending], ∀ record ∈ records,
    0 < record.length ∧ record.length ≤ fec.shardSize
  lengths_eq : ∀ index < encoder.pending.length,
    encoder.lengths index = recordLengths encoder.pending index
  block_eq : ∀ s < fec.messageShards, ∀ b < fec.shardSize,
    encoder.block s b = (encoder.pending.getD s []).getD b 0
  enqueued_eq : encoder.enqueued = finishedDatagrams fec epoch encoder.finished ++
    dataDatagrams fec epoch encoder.finished.length encoder.pending

theorem fecEncoderReset_inv : EncoderInv fec epoch (fecEncoderReset fec epoch) where
  epoch_eq := rfl
  capacity_eq := rfl
  order := rfl
  qBytes_eq := rfl
  qBytes_le := Nat.zero_le _
  numbered := fun _ => rfl
  exhausted := fun contrary => by cases contrary
  dataCount_eq := rfl
  pending_le := Nat.zero_le _
  finished_le := fun _ mem => by cases mem
  record_le := by
    intro _ mem _ inRecords
    rw [mem_singleton.mp mem] at inRecords
    cases inRecords
  lengths_eq := fun _ below => absurd below (Nat.not_lt_zero _)
  block_eq := fun _ _ _ _ => rfl
  enqueued_eq := rfl

variable {fec epoch} {encoder : FecEncoder}

variable (inv : EncoderInv fec epoch encoder)
include inv

theorem EncoderInv.restat (stats : FecEncoderStats) :
    EncoderInv fec epoch { encoder with stats := stats } :=
  { inv with }

theorem EncoderInv.retime (tokens : UInt64) (lastRefillNs : Option UInt64) :
    EncoderInv fec epoch { encoder with tokens := tokens, lastRefillNs := lastRefillNs } :=
  { inv with }

omit inv

theorem queueCanAdd_iff (fec : FecTransport) (enc : FecEncoder) (packets bytes : Nat) :
    queueCanAdd fec enc packets bytes = true ↔
      enc.queue.count + packets ≤ fec.outputQueuePackets ∧
        enc.qBytes + bytes ≤ fec.outputQueueBytes := by
  unfold queueCanAdd
  split
  · simp only [Bool.false_eq_true, false_iff]
    omega
  split
  · simp only [Bool.false_eq_true, false_iff]
    omega
  · simp only [true_iff]
    omega

def shardItem (fec : FecTransport) (encoder : FecEncoder) (payloadLen : UInt16)
    (shard : Nat) : FecQueueItem :=
  ⟨packShard fec encoder shard payloadLen, shardKind fec shard⟩

def FecEncoder.append (fec : FecTransport) (encoder : FecEncoder)
    (items : List FecQueueItem) (stats : FecEncoderStats) : FecEncoder :=
  { encoder with
    queue := items.foldl RingBuffer.push encoder.queue
    qBytes := encoder.qBytes + items.length * (WIRE_HEADER_SIZE + fec.shardSize)
    enqueued := encoder.enqueued ++ items.map FecQueueItem.datagram
    stats := stats }

theorem FecEncoder.append_append (fec : FecTransport) (enc : FecEncoder)
    (first second : List FecQueueItem) (stats later : FecEncoderStats) :
    (enc.append fec first stats).append fec second later =
      enc.append fec (first ++ second) later := by
  simp [FecEncoder.append, Nat.add_mul, Nat.add_assoc]

variable (enc : FecEncoder)

theorem enqueueShard_ok (shard : Nat) {payloadLen : UInt16} (ne : payloadLen ≠ 0)
    (short : payloadLen.toNat ≤ fec.shardSize)
    (fits : queueCanAdd fec enc 1 (WIRE_HEADER_SIZE + fec.shardSize) = true) :
    ∃ stats, enqueueShard fec enc shard payloadLen =
      (.ok, enc.append fec [shardItem fec enc payloadLen shard] stats) := by
  refine ⟨{ enc.stats with
    outputQueuePackets := (enc.queue.push (shardItem fec enc payloadLen shard)).count
    outputQueueBytes := enc.qBytes + (WIRE_HEADER_SIZE + fec.shardSize) }, ?_⟩
  unfold enqueueShard
  rw [if_neg (by simp [ne, short]), if_neg (by simp [fits])]
  simp [FecEncoder.append, queueStats, shardItem]

theorem shardSize_lt (fec : FecTransport) : fec.shardSize < 65536 := by
  have span := fec.span_le
  have two := fec.two_le
  have : fec.shardSize ≤ fec.k * fec.shardSize := Nat.le_mul_of_pos_left _ (by omega)
  omega

theorem toNat_shardSize (fec : FecTransport) :
    (UInt16.ofNat fec.shardSize).toNat = fec.shardSize := by
  rw [UInt16.toNat_ofNat', Nat.mod_eq_of_lt (shardSize_lt fec)]

theorem enqueueTails_ok (shards : List Nat) (enc : FecEncoder)
    (fits : queueCanAdd fec enc shards.length
      (shards.length * (WIRE_HEADER_SIZE + fec.shardSize)) = true) :
    ∃ stats, enqueueTails fec enc shards = (.ok, enc.append fec
      (shards.map (shardItem fec enc (UInt16.ofNat fec.shardSize))) stats) := by
  have size := toNat_shardSize fec
  have ne : UInt16.ofNat fec.shardSize ≠ 0 := by
    intro zero
    rw [zero] at size
    have pos := fec.size_ge
    have contrary : 0 = fec.shardSize := size
    omega
  induction shards generalizing enc with
  | nil => exact ⟨enc.stats, by simp [enqueueTails, FecEncoder.append]⟩
  | cons shard _ ih =>
    rw [queueCanAdd_iff, length_cons, Nat.succ_mul] at fits
    obtain ⟨first, enqueued⟩ := enqueueShard_ok enc shard ne size.le
      ((queueCanAdd_iff _ _ _ _).mpr ⟨by omega, by omega⟩)
    obtain ⟨stats, later⟩ := ih (enc.append fec
      [shardItem fec enc (UInt16.ofNat fec.shardSize) shard] first)
      ((queueCanAdd_iff _ _ _ _).mpr (by
        have grown := enc.queue.count_push_le
          (shardItem fec enc (UInt16.ofNat fec.shardSize) shard)
        simp only [FecEncoder.append, foldl_cons, foldl_nil, length_singleton, Nat.one_mul]
        omega))
    refine ⟨stats, ?_⟩
    rw [enqueueTails, enqueued]
    dsimp only
    rw [if_neg (by simp), later, FecEncoder.append_append]
    rfl

theorem writeBytes_shard (size : Nat) (block : Block) (shard : Nat) (bytes : List UInt8)
    (short : bytes.length ≤ size) (s : Nat) {b : Nat} (inShard : b < size) :
    writeBytes size block (shard * size) bytes s b =
      if s = shard ∧ b < bytes.length then bytes.getD b 0 else block s b := by
  unfold writeBytes
  rcases lt_trichotomy s shard with before | rfl | after
  · have end_le : s * size + size ≤ shard * size := by
      rw [← Nat.succ_mul]
      exact Nat.mul_le_mul_right size before
    rw [if_neg (by omega), if_neg (by omega)]
  · by_cases written : b < bytes.length
    · rw [if_pos (by omega), if_pos ⟨rfl, written⟩, Nat.add_sub_cancel_left]
    · rw [if_neg (by omega), if_neg (by omega)]
  · have start_ge : shard * size + size ≤ s * size := by
      rw [← Nat.succ_mul]
      exact Nat.mul_le_mul_right size after
    rw [if_neg (by omega), if_neg (by omega)]

theorem lengthTable_congr {count : Nat} {lengths other : Nat → UInt16}
    (same : ∀ idx < count, lengths idx = other idx) :
    lengthTable count lengths = lengthTable count other := by
  unfold lengthTable
  refine congrArg _ (flatMap_congr ?_)
  intro idx mem
  rw [same idx (mem_range.mp mem)]

def closedBlock (fec : FecTransport) (encoder : FecEncoder) : Block :=
  writeBytes fec.shardSize
    (writeBytes fec.shardSize encoder.block
      (fec.messageShards * fec.shardSize) (List.replicate fec.shardSize 0))
    (fec.messageShards * fec.shardSize)
    (lengthTable encoder.dataCount encoder.lengths)

include inv

theorem EncoderInv.closedBlock_eq (tableFits : 1 + 2 * (fec.k - 1) ≤ fec.shardSize) :
    ∀ s < fec.k, ∀ b < fec.shardSize,
      closedBlock fec encoder s b = messageBlock fec encoder.pending s b := by
  intro s _ b inShard
  have table_eq : lengthTable encoder.dataCount encoder.lengths =
      lengthTable encoder.pending.length (recordLengths encoder.pending) := by
    rw [inv.dataCount_eq]
    exact lengthTable_congr inv.lengths_eq
  have short : (lengthTable encoder.pending.length (recordLengths encoder.pending)).length ≤
      fec.shardSize := by
    have few := inv.pending_le
    rw [length_lengthTable]
    unfold ResolvedConfig.messageShards at few
    omega
  unfold closedBlock messageBlock
  rw [table_eq, writeBytes_shard _ _ _ _ short s inShard,
    writeBytes_shard _ _ _ _ (by simp) s inShard]
  by_cases isTable : s = fec.messageShards
  · rw [if_pos isTable]
    by_cases written : b < (lengthTable encoder.pending.length
        (recordLengths encoder.pending)).length
    · rw [if_pos ⟨isTable, written⟩]
    · rw [if_neg (fun both => written both.2), if_pos ⟨isTable, by simpa using inShard⟩,
        getD_eq_default _ _ (Nat.le_of_not_lt written),
        getD_eq_getElem _ _ (by simpa using inShard), getElem_replicate]
  · rw [if_neg (fun both => isTable both.1), if_neg (fun both => isTable both.1), if_neg isTable]
    refine inv.block_eq s ?_ b inShard
    unfold ResolvedConfig.messageShards at isTable ⊢
    omega

theorem EncoderInv.nextGroup_eq (open_ : encoder.groupExhausted = false) :
    encoder.nextGroup = UInt32.ofNat encoder.finished.length := by
  rw [← inv.numbered open_, UInt32.ofNat_toNat]

omit inv

def tailItems (fec : FecTransport) (encoder : FecEncoder) : List FecQueueItem :=
  (tailShards fec).map (shardItem fec
    { encoder with
      block := fec.codec.encode (closedBlock fec encoder)
        (fec.n * fec.shardSize) }
    (UInt16.ofNat fec.shardSize))

include inv

theorem EncoderInv.tailItems_eq (codec : ShardCodec fec.codec fec.k fec.r fec.shardSize)
    (tableFits : 1 + 2 * (fec.k - 1) ≤ fec.shardSize) (open_ : encoder.groupExhausted = false) :
    (tailItems fec encoder).map FecQueueItem.datagram = (tailShards fec).map
        (tailDatagram fec epoch encoder.finished.length encoder.pending) := by
  unfold tailItems
  rw [map_map]
  refine map_congr_left ?_
  intro shard mem
  obtain ⟨isTail, isShard⟩ := (mem_tailShards fec).mp mem
  have rows : (List.range fec.shardSize).map (fec.codec.encode
      (closedBlock fec encoder) (fec.n * fec.shardSize) shard) =
      (List.range fec.shardSize).map (codeword fec encoder.pending shard) := by
    refine map_congr_left ?_
    intro b inShard
    exact codec.agrees _ _ (inv.closedBlock_eq tableFits) shard isShard b
      (mem_range.mp inShard)
  simp only [Function.comp_apply, shardItem, packShard, tailDatagram, shardDatagram, shardHeader,
    inv.epoch_eq, inv.nextGroup_eq open_, inv.dataCount_eq, if_neg (Nat.not_lt.mpr isTail), rows]

omit inv in
theorem length_packShard (fec : FecTransport) (enc : FecEncoder) (shard : Nat)
    (payloadLen : UInt16) :
    (packShard fec enc shard payloadLen).length = WIRE_HEADER_SIZE + fec.shardSize := by
  simp [packShard]

theorem EncoderInv.appended (items : List FecQueueItem)
    (room : encoder.queue.count + items.length ≤ fec.outputQueuePackets)
    (size : ∀ item ∈ items, item.datagram.length = WIRE_HEADER_SIZE + fec.shardSize) :
    let queue := items.foldl RingBuffer.push encoder.queue
    queue.capacity = fec.outputQueuePackets ∧
      encoder.sent ++ queue.toList.map FecQueueItem.datagram =
        encoder.enqueued ++ items.map FecQueueItem.datagram ∧
      encoder.qBytes + items.length * (WIRE_HEADER_SIZE + fec.shardSize) =
        (queue.toList.map fun item => item.datagram.length).sum := by
  intro queue
  obtain ⟨list_eq, _, capacity_eq⟩ := RingBuffer.toList_foldl_push items encoder.queue
    (by rw [inv.capacity_eq]; exact room)
  rw [show queue.toList = _ from list_eq]
  refine ⟨capacity_eq.trans inv.capacity_eq, ?_, ?_⟩
  · rw [map_append, ← append_assoc, inv.order]
  have bytes : (items.map fun item => item.datagram.length).sum =
      items.length * (WIRE_HEADER_SIZE + fec.shardSize) := by
    rw [map_congr_left size, map_const', sum_replicate, smul_eq_mul]
  rw [map_append, sum_append, inv.qBytes_eq, bytes]

omit inv

/-- The encoder once the tails of its open group are in the queue. -/
def FecEncoder.closed (fec : FecTransport) (encoder : FecEncoder)
    (stats : FecEncoderStats) : FecEncoder :=
  { encoder.append fec (tailItems fec encoder) stats with
    groupExhausted := if encoder.nextGroup = 0xffffffff then true else encoder.groupExhausted
    nextGroup :=
      if encoder.nextGroup = 0xffffffff then encoder.nextGroup else encoder.nextGroup + 1
    dataCount := 0
    pendingSinceNs := none
    lengths := fun _ => 0
    block := zeroBlock
    finished := encoder.finished ++ [encoder.pending]
    pending := [] }

theorem encodeAndEnqueueTails_ok (ne : enc.dataCount ≠ 0) (open_ : enc.groupExhausted = false)
    (fits : queueCanAdd fec enc (fec.r + 1)
      ((fec.r + 1) * (WIRE_HEADER_SIZE + fec.shardSize)) = true) :
    ∃ stats, encodeAndEnqueueTails fec enc = (.ok, enc.closed fec stats) := by
  have tails : fec.n - fec.messageShards = fec.r + 1 := by
    rw [← tailShards_length fec, tailShards, length_range']
  have room := fits
  rw [queueCanAdd_iff, ← tailShards_length fec] at room
  obtain ⟨stats, enqueued⟩ := enqueueTails_ok (tailShards fec)
    { enc with
      block := fec.codec.encode (closedBlock fec enc)
        (fec.n * fec.shardSize) } ((queueCanAdd_iff _ _ _ _).mpr room)
  refine ⟨stats, ?_⟩
  rw [← tails] at fits
  unfold tailShards closedBlock at enqueued
  unfold encodeAndEnqueueTails
  rw [if_neg (by simp [ne, open_])]
  dsimp only
  rw [if_neg (by simp [fits]), enqueued]
  rw [if_neg (by simp)]
  by_cases last : enc.nextGroup = 0xffffffff
  all_goals simp [FecEncoder.closed, FecEncoder.append, tailItems, last, tailShards, closedBlock]

theorem encodeAndEnqueueTails_cases (fec : FecTransport) (enc : FecEncoder) :
    (∃ stats, enc.dataCount ≠ 0 ∧ enc.groupExhausted = false ∧
      queueCanAdd fec enc (fec.r + 1) ((fec.r + 1) * (WIRE_HEADER_SIZE + fec.shardSize)) = true ∧
      encodeAndEnqueueTails fec enc = (.ok, enc.closed fec stats)) ∨
    ∃ status stats, encodeAndEnqueueTails fec enc = (status, { enc with stats := stats }) := by
  have tails : fec.n - fec.messageShards = fec.r + 1 := by
    rw [← tailShards_length fec, tailShards, length_range']
  by_cases nothing : enc.dataCount = 0 ∨ enc.groupExhausted = true
  · unfold encodeAndEnqueueTails
    rw [if_pos nothing]
    exact Or.inr ⟨_, enc.stats, rfl⟩
  rw [not_or, Bool.not_eq_true] at nothing
  cases fits : queueCanAdd fec enc (fec.r + 1)
      ((fec.r + 1) * (WIRE_HEADER_SIZE + fec.shardSize)) with
  | true =>
    obtain ⟨stats, closed⟩ := encodeAndEnqueueTails_ok enc nothing.1 nothing.2 fits
    exact Or.inl ⟨stats, nothing.1, nothing.2, rfl, closed⟩
  | false =>
    unfold encodeAndEnqueueTails
    rw [if_neg (by simp [nothing])]
    rw [tails, if_pos fits]
    exact Or.inr ⟨_, _, rfl⟩

include inv

theorem EncoderInv.closed (codec : ShardCodec fec.codec fec.k fec.r fec.shardSize)
    (tableFits : 1 + 2 * (fec.k - 1) ≤ fec.shardSize) (ne : encoder.dataCount ≠ 0)
    (open_ : encoder.groupExhausted = false) (fits : queueCanAdd fec encoder (fec.r + 1)
      ((fec.r + 1) * (WIRE_HEADER_SIZE + fec.shardSize)) = true) (stats : FecEncoderStats) :
    EncoderInv fec epoch (encoder.closed fec stats) := by
  have count : (tailItems fec encoder).length = fec.r + 1 := by
    rw [tailItems, length_map, tailShards_length]
  have size : ∀ item ∈ tailItems fec encoder,
      item.datagram.length = WIRE_HEADER_SIZE + fec.shardSize := by
    intro _ mem
    obtain ⟨shard, _, rfl⟩ := mem_map.mp mem
    exact length_packShard fec _ shard _
  have room := (queueCanAdd_iff _ _ _ _).mp fits
  obtain ⟨capacity_eq, order, bytes⟩ := inv.appended _ (by rw [count]; exact room.1) size
  have few : 0 < encoder.pending.length := by
    rw [← inv.dataCount_eq]
    exact Nat.pos_of_ne_zero ne
  have number := inv.numbered open_
  have below := encoder.nextGroup.toNat_lt
  refine
    { epoch_eq := inv.epoch_eq
      capacity_eq
      order
      qBytes_eq := bytes
      qBytes_le := ?_
      numbered := ?_
      exhausted := ?_
      dataCount_eq := rfl
      pending_le := Nat.zero_le _
      finished_le := ?_
      record_le := ?_
      lengths_eq := fun _ below => absurd below (Nat.not_lt_zero _)
      block_eq := fun _ _ _ _ => rfl
      enqueued_eq := ?_ }
  · change encoder.qBytes + (tailItems fec encoder).length * _ ≤ _
    rw [count]
    exact room.2
  · intro stillOpen
    change (if encoder.nextGroup = 0xffffffff then true else encoder.groupExhausted) = false
      at stillOpen
    change (if encoder.nextGroup = 0xffffffff then encoder.nextGroup
      else encoder.nextGroup + 1).toNat = (encoder.finished ++ [encoder.pending]).length
    split at stillOpen
    · cases stillOpen
    rename_i notLast
    have notTop : encoder.nextGroup.toNat ≠ 2 ^ 32 - 1 := by
      intro top
      exact notLast (UInt32.toNat_inj.mp top)
    rw [if_neg notLast, UInt32.toNat_add, length_append, length_singleton, ← number]
    change (encoder.nextGroup.toNat + 1) % 2 ^ 32 = _
    omega
  · intro used
    change (if encoder.nextGroup = 0xffffffff then true else encoder.groupExhausted) = true at used
    split at used
    · rename_i last
      refine ⟨?_, rfl⟩
      change (encoder.finished ++ [encoder.pending]).length = _
      rw [length_append, length_singleton, ← number, last]
      rfl
    · rw [open_] at used
      cases used
  · intro recs mem
    rcases mem_append.mp mem with earlier | last
    · exact inv.finished_le recs earlier
    · rw [mem_singleton.mp last]
      exact ⟨few, inv.pending_le⟩
  · intro recs mem record inRecords
    rcases mem_append.mp mem with known | empty
    · exact inv.record_le recs known record inRecords
    · rw [mem_singleton.mp empty] at inRecords
      cases inRecords
  · change encoder.enqueued ++ (tailItems fec encoder).map FecQueueItem.datagram =
      finishedDatagrams fec epoch (encoder.finished ++ [encoder.pending]) ++ []
    rw [inv.tailItems_eq codec tableFits open_, inv.enqueued_eq, append_nil,
      finishedDatagrams, finishedDatagrams, mapIdx_concat, flatten_append,
      flatten_singleton, groupDatagrams, append_assoc]

omit inv

def FecEncoder.pushed (fec : FecTransport) (encoder : FecEncoder) (data : List UInt8)
    (stats : FecEncoderStats) : FecEncoder :=
  { (writeRecord fec encoder data).append fec
      [shardItem fec (writeRecord fec encoder data) (UInt16.ofNat data.length)
        encoder.dataCount] stats with
    dataCount := encoder.dataCount + 1
    pending := encoder.pending ++ [data] }

theorem startGroup_same (now : UInt64) :
    ∃ block lengths pendingSinceNs, startGroup enc now =
      { enc with block := block, lengths := lengths, pendingSinceNs := pendingSinceNs } := by
  unfold startGroup
  split
  all_goals exact ⟨_, _, _, rfl⟩

variable {data : List UInt8}

theorem toNat_length (short : data.length ≤ fec.shardSize) :
    (UInt16.ofNat data.length).toNat = data.length := by
  have := shardSize_lt fec
  rw [UInt16.toNat_ofNat', Nat.mod_eq_of_lt (by omega)]

theorem pushRecord_ok (encoder : FecEncoder) (now : UInt64) (ne : 0 < data.length)
    (short : data.length ≤ fec.shardSize) (fits : queueCanAdd fec encoder (needPackets fec encoder)
      (needPackets fec encoder * (WIRE_HEADER_SIZE + fec.shardSize)) = true) :
    ∃ stats, pushRecord fec encoder data now = if encoder.dataCount + 1 = fec.messageShards then
        encodeAndEnqueueTails fec ((startGroup encoder now).pushed fec data stats)
      else (.ok, (startGroup encoder now).pushed fec data stats) := by
  have len_eq := toNat_length short
  have pos : UInt16.ofNat data.length ≠ 0 := by
    intro zero
    rw [zero] at len_eq
    have contrary : 0 = data.length := len_eq
    omega
  obtain ⟨_, _, _, started_eq⟩ := startGroup_same encoder now
  have room := (queueCanAdd_iff _ _ _ _).mp fits
  have one : 1 ≤ needPackets fec encoder := by
    unfold needPackets
    omega
  obtain ⟨stats, enqueued⟩ := enqueueShard_ok (writeRecord fec (startGroup encoder now) data)
    encoder.dataCount pos (by rw [len_eq]; exact short) ((queueCanAdd_iff _ _ _ _).mpr (by
      have bytes := Nat.mul_le_mul_right (WIRE_HEADER_SIZE + fec.shardSize) one
      simp only [writeRecord, started_eq]
      omega))
  have count_eq : (writeRecord fec (startGroup encoder now) data).dataCount =
      encoder.dataCount := by
    simp only [writeRecord, started_eq]
  refine ⟨stats, ?_⟩
  unfold pushRecord
  dsimp only
  rw [if_neg (by simp [fits]), count_eq, enqueued]
  rw [if_neg (by simp)]
  simp only [FecEncoder.pushed, FecEncoder.append, writeRecord, started_eq]

theorem pushed_tailsFit (encoder : FecEncoder) (data : List UInt8) (now : UInt64)
    (stats : FecEncoderStats) (fills : encoder.dataCount + 1 = fec.messageShards)
    (fits : queueCanAdd fec encoder (needPackets fec encoder)
      (needPackets fec encoder * (WIRE_HEADER_SIZE + fec.shardSize)) = true) :
    queueCanAdd fec ((startGroup encoder now).pushed fec data stats) (fec.r + 1)
      ((fec.r + 1) * (WIRE_HEADER_SIZE + fec.shardSize)) = true := by
  obtain ⟨_, _, _, started_eq⟩ := startGroup_same encoder now
  have needed : needPackets fec encoder = 1 + (fec.r + 1) := by
    unfold needPackets
    rw [if_pos fills]
  rw [queueCanAdd_iff, needed, Nat.add_mul, Nat.one_mul] at fits
  have grown := encoder.queue.count_push_le (shardItem fec
    (writeRecord fec (startGroup encoder now) data) (UInt16.ofNat data.length)
    (startGroup encoder now).dataCount)
  rw [queueCanAdd_iff]
  simp only [FecEncoder.pushed, FecEncoder.append, writeRecord, started_eq, foldl_cons,
    foldl_nil, length_singleton, Nat.one_mul] at grown ⊢
  omega

theorem pushRecord_refused (data : List UInt8) (now : UInt64)
    (full : queueCanAdd fec enc (needPackets fec enc)
      (needPackets fec enc * (WIRE_HEADER_SIZE + fec.shardSize)) = false) :
    pushRecord fec enc data now = (.queueFull, queueOverflow enc) := by
  unfold pushRecord
  rw [if_pos full]

include inv

theorem EncoderInv.started (now : UInt64) : EncoderInv fec epoch (startGroup encoder now) := by
  unfold startGroup
  split
  · rename_i empty
    have none_pending : encoder.pending = [] := by
      rw [← length_eq_zero_iff, ← inv.dataCount_eq, empty]
    refine { inv with lengths_eq := ?_, block_eq := ?_ }
    · intro _ below
      rw [none_pending] at below
      exact absurd below (Nat.not_lt_zero _)
    · intro _ _ _ _
      rw [none_pending]
      rfl
  · exact inv

omit inv in
theorem getD_append_self (recs : List (List UInt8)) (data : List UInt8) (idx : Nat) :
    (recs ++ [data]).getD idx [] = if idx = recs.length then data else recs.getD idx [] := by
  rcases lt_trichotomy idx recs.length with before | rfl | after
  · rw [if_neg (by omega), getD_append _ _ _ _ before]
  · simp
  · rw [if_neg (by omega), getD_eq_default _ _ (by simp; omega),
      getD_eq_default _ _ (by omega)]

theorem EncoderInv.writeRecord_row (short : data.length ≤ fec.shardSize) :
    ∀ s < fec.messageShards, ∀ b < fec.shardSize, (writeRecord fec encoder data).block s b =
        ((encoder.pending ++ [data]).getD s []).getD b 0 := by
  intro s isRecord b inShard
  change writeBytes fec.shardSize encoder.block
    (encoder.dataCount * fec.shardSize) data s b = _
  rw [writeBytes_shard _ _ _ _ short s inShard, inv.dataCount_eq, getD_append_self]
  by_cases same : s = encoder.pending.length
  · rw [if_pos same]
    by_cases written : b < data.length
    · rw [if_pos ⟨same, written⟩]
    · rw [if_neg (fun both => written both.2), inv.block_eq s isRecord b inShard, same,
        getD_eq_default _ _ (le_refl _), getD_eq_default _ _ (Nat.le_of_not_lt written)]
      rfl
  · rw [if_neg (fun both => same both.1), if_neg same]
    exact inv.block_eq s isRecord b inShard

theorem EncoderInv.packShard_writeRecord (open_ : encoder.groupExhausted = false)
    (few : encoder.pending.length < fec.messageShards) (short : data.length ≤ fec.shardSize) :
    packShard fec (writeRecord fec encoder data) encoder.dataCount (UInt16.ofNat data.length) =
      dataDatagram fec epoch encoder.finished.length encoder.pending.length data := by
  have rows : (List.range fec.shardSize).map
      ((writeRecord fec encoder data).block encoder.pending.length) =
      (List.range fec.shardSize).map fun b => data.getD b 0 := by
    refine map_congr_left ?_
    intro b inShard
    rw [inv.writeRecord_row short _ few b (mem_range.mp inShard), getD_append_self, if_pos rfl]
  simp only [packShard, dataDatagram, shardDatagram, shardHeader, inv.dataCount_eq, rows,
    if_pos few]
  simp only [writeRecord, inv.epoch_eq, inv.nextGroup_eq open_]

theorem EncoderInv.pushed (open_ : encoder.groupExhausted = false)
    (few : encoder.pending.length < fec.messageShards) (ne : 0 < data.length)
    (short : data.length ≤ fec.shardSize)
    (fits : queueCanAdd fec encoder 1 (WIRE_HEADER_SIZE + fec.shardSize) = true)
    (stats : FecEncoderStats) : EncoderInv fec epoch (encoder.pushed fec data stats) := by
  have room := (queueCanAdd_iff _ _ _ _).mp fits
  have size : ∀ item ∈ [shardItem fec (writeRecord fec encoder data)
      (UInt16.ofNat data.length) encoder.dataCount],
      item.datagram.length = WIRE_HEADER_SIZE + fec.shardSize := by
    intro _ mem
    rw [mem_singleton.mp mem]
    exact length_packShard fec _ _ _
  obtain ⟨capacity_eq, order, bytes⟩ := inv.appended [_] room.1 size
  refine
    { epoch_eq := inv.epoch_eq
      capacity_eq
      order
      qBytes_eq := bytes
      qBytes_le := ?_
      numbered := inv.numbered
      exhausted := ?_
      dataCount_eq := ?_
      pending_le := ?_
      finished_le := inv.finished_le
      record_le := ?_
      lengths_eq := ?_
      block_eq := inv.writeRecord_row short
      enqueued_eq := ?_ }
  · change encoder.qBytes + 1 * _ ≤ _
    rw [Nat.one_mul]
    exact room.2
  · intro used
    change encoder.groupExhausted = true at used
    rw [open_] at used
    cases used
  · change encoder.dataCount + 1 = (encoder.pending ++ [data]).length
    rw [inv.dataCount_eq, length_append, length_singleton]
  · change (encoder.pending ++ [data]).length ≤ _
    rw [length_append, length_singleton]
    exact few
  · intro recs mem record inRecords
    rcases mem_append.mp mem with earlier | last
    · exact inv.record_le recs (mem_append_left _ earlier) record inRecords
    rw [mem_singleton.mp last] at inRecords
    rcases mem_append.mp inRecords with known | new
    · exact inv.record_le _ (mem_append_right _ mem_cons_self) record known
    · rw [mem_singleton.mp new]
      exact ⟨ne, short⟩
  · intro idx below
    change idx < (encoder.pending ++ [data]).length at below
    rw [length_append, length_singleton] at below
    change Function.update encoder.lengths encoder.dataCount (UInt16.ofNat data.length) idx =
      UInt16.ofNat ((encoder.pending ++ [data]).getD idx []).length
    rw [getD_append_self, inv.dataCount_eq]
    by_cases same : idx = encoder.pending.length
    · rw [same, Function.update_self, if_pos rfl]
    · rw [Function.update_of_ne same, if_neg same]
      exact inv.lengths_eq idx (by omega)
  · change encoder.enqueued ++ [packShard fec (writeRecord fec encoder data)
      encoder.dataCount (UInt16.ofNat data.length)] =
        finishedDatagrams fec epoch encoder.finished ++
          dataDatagrams fec epoch encoder.finished.length (encoder.pending ++ [data])
    rw [inv.packShard_writeRecord open_ few short, inv.enqueued_eq, dataDatagrams, dataDatagrams,
      mapIdx_concat, append_assoc]

end Invariant

end MultiFlow.Fec
