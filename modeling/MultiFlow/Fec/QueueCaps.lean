import MultiFlow.Fec.EncoderRuns

/-!
# Records that an empty queue refuses

A push that closes a group needs room for its own datagram and for all tails, a flush for the
tails.  `config_complete` only makes sure that the tails fit the packet limit, and does not look at
the byte limit.  What an empty queue refuses with `FEC_ERR_QUEUE_FULL` it refuses for ever, since
nothing is left to drain.
-/

namespace MultiFlow.Fec

open CodecApi Lib Wire List

section Queue

variable (fec : FecTransport)

def datagramBytes : Nat := WIRE_HEADER_SIZE + fec.shardSize

/-- The queue has its configured capacity, all datagrams in it have one length and `q_bytes`
counts them. -/
structure QueueCounted (encoder : FecEncoder) : Prop where
  capacity_eq : encoder.queue.capacity = fec.outputQueuePackets
  sized : ∀ item ∈ encoder.queue.toList, item.datagram.length = datagramBytes fec
  qBytes_eq : encoder.qBytes = (encoder.queue.toList.map fun item => item.datagram.length).sum

structure QueueOk (encoder : FecEncoder) : Prop extends QueueCounted fec encoder where
  open_lt : encoder.dataCount < fec.messageShards
  exhausted : encoder.groupExhausted = true → encoder.dataCount = 0

variable {fec} {encoder : FecEncoder}

theorem fecEncoderReset_queueOk (epoch : UInt32) : QueueOk fec (fecEncoderReset fec epoch) :=
  ⟨⟨rfl, fun _ mem => absurd mem not_mem_nil, rfl⟩, messageShards_pos fec,
    fun _ => rfl⟩

variable (ok : QueueOk fec encoder)
include ok

theorem QueueOk.restat (stats : FecEncoderStats) : QueueOk fec { encoder with stats := stats } :=
  ⟨{ ok with }, ok.open_lt, ok.exhausted⟩

omit ok

theorem QueueCounted.appended (counted : QueueCounted fec encoder) (items : List FecQueueItem)
    (room : encoder.queue.count + items.length ≤ fec.outputQueuePackets)
    (size : ∀ item ∈ items, item.datagram.length = datagramBytes fec) (stats : FecEncoderStats) :
    QueueCounted fec (encoder.append fec items stats) := by
  obtain ⟨list_eq, _, capacity_eq⟩ := RingBuffer.toList_foldl_push items encoder.queue
    (by rw [counted.capacity_eq]; exact room)
  refine ⟨capacity_eq.trans counted.capacity_eq, ?_, ?_⟩
  · intro item mem
    change item ∈ (items.foldl RingBuffer.push encoder.queue).toList at mem
    rw [list_eq, mem_append] at mem
    exact mem.elim (counted.sized item) (size item)
  have bytes : (items.map fun item => item.datagram.length).sum =
      items.length * datagramBytes fec := by
    rw [map_congr_left size, map_const', sum_replicate, smul_eq_mul]
  change encoder.qBytes + items.length * datagramBytes fec =
    ((items.foldl RingBuffer.push encoder.queue).toList.map fun item => item.datagram.length).sum
  rw [list_eq, map_append, sum_append, ← counted.qBytes_eq, bytes]

theorem QueueCounted.closed (counted : QueueCounted fec encoder)
    (room : encoder.queue.count + (fec.r + 1) ≤ fec.outputQueuePackets)
    (stats : FecEncoderStats) : QueueOk fec (encoder.closed fec stats) := by
  have count : (tailItems fec encoder).length = fec.r + 1 := by
    rw [tailItems, length_map, tailShards_length]
  have grown := counted.appended (tailItems fec encoder) (by rw [count]; exact room) (by
    intro item mem
    obtain ⟨shard, _, rfl⟩ := mem_map.mp mem
    exact length_packShard fec _ shard _) stats
  exact ⟨{ grown with }, messageShards_pos fec, fun _ => rfl⟩

theorem encodeAndEnqueueTails_full_iff (fec : FecTransport) (enc : FecEncoder) :
    (encodeAndEnqueueTails fec enc).1 = .queueFull ↔
      enc.dataCount ≠ 0 ∧ enc.groupExhausted = false ∧
        queueCanAdd fec enc (fec.r + 1) ((fec.r + 1) * datagramBytes fec) = false := by
  have tails : fec.n - fec.messageShards = fec.r + 1 := by
    rw [← tailShards_length fec, tailShards, length_range']
  by_cases pending : enc.dataCount = 0 ∨ enc.groupExhausted = true
  · have returned : (encodeAndEnqueueTails fec enc).1 ≠ .queueFull := by
      unfold encodeAndEnqueueTails
      rw [if_pos pending]
      dsimp only
      split
      · decide
      · decide
    refine iff_of_false returned ?_
    rintro ⟨ne, open_, _⟩
    exact pending.elim ne (by rw [open_]; decide)
  · rw [not_or, Bool.not_eq_true] at pending
    cases fits : queueCanAdd fec enc (fec.r + 1)
        ((fec.r + 1) * datagramBytes fec) with
    | true =>
      obtain ⟨_, closes⟩ := encodeAndEnqueueTails_ok enc pending.1 pending.2 fits
      rw [closes]
      simp
    | false =>
      refine iff_of_true ?_ ⟨pending.1, pending.2, rfl⟩
      unfold datagramBytes at fits
      unfold encodeAndEnqueueTails
      rw [if_neg (by simp [pending.1, pending.2])]
      rw [tails, if_pos fits]

include ok

theorem QueueOk.flush : QueueOk fec (encodeAndEnqueueTails fec encoder).2 := by
  rcases encodeAndEnqueueTails_cases fec encoder with
    ⟨stats, _, _, fits, closed⟩ | ⟨status, stats, same⟩
  · rw [closed]
    exact ok.toQueueCounted.closed ((queueCanAdd_iff _ _ _ _).mp fits).1 stats
  · rw [same]
    exact ok.restat stats

theorem QueueOk.pushRecord {data : List UInt8} (now : UInt64)
    (open_ : encoder.groupExhausted = false) (ne : 0 < data.length)
    (short : data.length ≤ fec.shardSize) (fits : queueCanAdd fec encoder (needPackets fec encoder)
      (needPackets fec encoder * datagramBytes fec) = true) :
    (Fec.pushRecord fec encoder data now).1 = .ok ∧
      QueueOk fec (Fec.pushRecord fec encoder data now).2 := by
  obtain ⟨stats, pushes⟩ := pushRecord_ok encoder now ne short fits
  obtain ⟨_, _, _, started_eq⟩ := startGroup_same encoder now
  have room := (queueCanAdd_iff _ _ _ _).mp fits
  have one : 1 ≤ needPackets fec encoder := by
    unfold needPackets
    omega
  have started : QueueCounted fec
      (writeRecord fec (startGroup encoder now) data) := by
    rw [started_eq]
    exact { ok with }
  have startedCount : (writeRecord fec (startGroup encoder now) data).queue.count =
      encoder.queue.count := by
    rw [started_eq]
    rfl
  have grown := started.appended
    [shardItem fec (writeRecord fec (startGroup encoder now) data)
      (UInt16.ofNat data.length) (startGroup encoder now).dataCount]
    (by rw [startedCount, length_singleton]; omega) (by
      intro item mem
      rw [mem_singleton.mp mem]
      exact length_packShard fec _ _ _) stats
  have pushed : QueueCounted fec ((startGroup encoder now).pushed fec data stats) :=
    { grown with }
  have pushedCount : ((startGroup encoder now).pushed fec data stats).dataCount =
      encoder.dataCount + 1 := by
    rw [started_eq]
    rfl
  have pushedOpen : ((startGroup encoder now).pushed fec data stats).groupExhausted =
      false := by
    rw [started_eq]
    exact open_
  rw [pushes]
  split
  · rename_i fills
    have tailsFit := pushed_tailsFit encoder data now stats fills fits
    obtain ⟨later, closed⟩ := encodeAndEnqueueTails_ok _ (by omega) pushedOpen tailsFit
    rw [closed]
    exact ⟨rfl, pushed.closed ((queueCanAdd_iff _ _ _ _).mp tailsFit).1 later⟩
  · refine ⟨rfl, pushed, ?_, ?_⟩
    · have room := ok.open_lt
      change ((startGroup encoder now).pushed fec data stats).dataCount < _
      omega
    · intro contrary
      rw [pushedOpen] at contrary
      cases contrary

theorem QueueOk.push_full_iff {data : List UInt8} (now : UInt64) (ne : 0 < data.length)
    (short : data.length ≤ fec.shardSize) :
    (fecEncoderPush fec encoder data now).1 = .queueFull ↔
      encoder.groupExhausted = false ∧
        queueCanAdd fec encoder (needPackets fec encoder)
          (needPackets fec encoder * datagramBytes fec) = false := by
  have room := ok.open_lt
  unfold fecEncoderPush
  rw [if_neg (by omega), if_neg (by omega), if_neg (Nat.not_le.mpr room)]
  cases exhausted : encoder.groupExhausted with
  | true => simp
  | false =>
    rw [if_neg (by decide)]
    cases fits : queueCanAdd fec encoder (needPackets fec encoder)
        (needPackets fec encoder * datagramBytes fec) with
    | true =>
      rw [(ok.pushRecord now exhausted ne short fits).1]
      simp
    | false =>
      rw [pushRecord_refused encoder data now fits]
      simp

theorem QueueOk.push (data : List UInt8) (now : UInt64) :
    QueueOk fec (fecEncoderPush fec encoder data now).2 := by
  have room := ok.open_lt
  unfold fecEncoderPush
  split
  · exact ok
  split
  · exact ok
  split
  · exact ok
  rename_i open_
  rw [if_neg (Nat.not_le.mpr room)]
  cases fits : queueCanAdd fec encoder (needPackets fec encoder)
      (needPackets fec encoder * datagramBytes fec) with
  | true => exact (ok.pushRecord now (by simpa using open_) (by omega) (by omega) fits).2
  | false =>
    rw [pushRecord_refused encoder data now fits]
    exact ok.restat _

theorem QueueOk.popped (ne : 0 < encoder.queue.count) : QueueOk fec (queuePop fec encoder) := by
  have bytes := ok.qBytes_eq
  rw [RingBuffer.toList_pop ne, map_cons, sum_cons] at bytes
  refine ⟨⟨encoder.queue.capacity_pop.trans ok.capacity_eq, ?_, ?_⟩, ok.open_lt, ok.exhausted⟩
  · intro item mem
    refine ok.sized item ?_
    rw [RingBuffer.toList_pop ne]
    exact mem_cons_of_mem _ mem
  change encoder.qBytes - encoder.queue.front.datagram.length = _
  rw [bytes, Nat.add_sub_cancel_left]
  rfl

variable (out : FecOutputFn)

omit ok in
theorem QueueOk.drainQueue (queued budget : Nat) (enc : FecEncoder) (ok : QueueOk fec enc)
    (count_eq : enc.queue.count = queued) :
    QueueOk fec (Fec.drainQueue fec out queued budget enc).2 := by
  induction queued generalizing budget enc with
  | zero => exact ok
  | succ queued ih =>
    rw [Fec.drainQueue]
    split
    · exact ok
    split
    · exact ok.restat _
    split
    · exact ⟨{ ok with }, ok.open_lt, ok.exhausted⟩
    · exact ⟨{ ok with }, ok.open_lt, ok.exhausted⟩
    · refine ih (budget - 1) _ (ok.popped (by omega)) ?_
      change enc.queue.pop.count = queued
      rw [RingBuffer.count_pop, count_eq, Nat.add_sub_cancel]

theorem QueueOk.update (now : UInt64) : QueueOk fec (fecEncoderUpdate fec out encoder now).2 := by
  have refilled : QueueOk fec (refillTokens fec encoder now) := by
    obtain ⟨_, _, same⟩ := refillTokens_same fec encoder now
    rw [same]
    exact ⟨{ ok with }, ok.open_lt, ok.exhausted⟩
  unfold fecEncoderUpdate
  dsimp only
  split
  · split
    · exact refilled.flush
    · exact QueueOk.drainQueue out _ SIZE_MAX _ refilled.flush rfl
  · exact QueueOk.drainQueue out _ SIZE_MAX _ refilled rfl

theorem QueueOk.call (call : FecEncoderCall) : QueueOk fec (encoder.call fec out call).2 := by
  cases call with
  | push data now => exact ok.push data now
  | flush => exact ok.flush
  | update now => exact ok.update out now
  | drain budget => exact QueueOk.drainQueue out _ budget encoder ok rfl

omit ok

theorem encodeAll_queueOk (epoch : UInt32) (calls : List FecEncoderCall) :
    QueueOk fec (encodeAll fec out epoch calls) := by
  unfold encodeAll
  generalize start_eq : fecEncoderReset fec epoch = start
  have initially : QueueOk fec start := start_eq ▸ fecEncoderReset_queueOk epoch
  clear start_eq
  induction calls generalizing start with
  | nil => exact initially
  | cons call _ ih => exact ih _ (initially.call out call)

end Queue

/-- A number of datagrams fits both limits of an empty queue. -/
def ResolvedConfig.fitsEmpty (config : ResolvedConfig) (packets : Nat) : Prop :=
  packets ≤ config.outputQueuePackets ∧
    packets * (WIRE_HEADER_SIZE + config.shardSize) ≤ config.outputQueueBytes

theorem QueueOk.canAdd_iff {fec : FecTransport} {enc : FecEncoder}
    (ok : QueueOk fec enc) (empty : enc.queue.count = 0) (packets : Nat) :
    queueCanAdd fec enc packets (packets * datagramBytes fec) = true ↔
      fec.fitsEmpty packets := by
  have nothing : enc.queue.toList = [] := by
    rw [← length_eq_zero_iff, RingBuffer.length_toList, empty]
  have bytes := ok.qBytes_eq
  rw [nothing] at bytes
  rw [queueCanAdd_iff, empty, bytes]
  simp [ResolvedConfig.fitsEmpty, datagramBytes]

/-- With an empty queue, neither a push of a record nor a flush of a pending group is refused for
lack of room exactly when the group ids are used up, or both limits have room: for the record, with
the `r + 1` tails if it is the last one of its group; for the tails, if a group is pending. -/
theorem empty_queue_accepts_iff (transport : FecTransport) (output : FecOutputFn) (epoch : UInt32)
    (calls : List FecEncoderCall)
    (empty : (encodeAll transport output epoch calls).queue.count = 0) :
    let encoder := encodeAll transport output epoch calls
    ((∀ data now, 0 < data.length → data.length ≤ transport.shardSize →
        (fecEncoderPush transport encoder data now).1 ≠ .queueFull) ∧
      (encoder.dataCount ≠ 0 → (fecEncoderFlush transport encoder).1 ≠ .queueFull)) ↔
    encoder.groupExhausted = true ∨
      (transport.fitsEmpty
          (if encoder.dataCount + 1 = transport.messageShards then transport.r + 2 else 1) ∧
        (encoder.dataCount ≠ 0 → transport.fitsEmpty (transport.r + 1))) := by
  intro encoder
  have ok : QueueOk transport encoder := encodeAll_queueOk output epoch calls
  have need : needPackets transport encoder =
      if encoder.dataCount + 1 = transport.messageShards then transport.r + 2 else 1 := by
    unfold needPackets
    split
    · omega
    · rfl
  rw [← need]
  constructor
  · rintro ⟨pushes, flushes⟩
    cases exhausted : encoder.groupExhausted with
    | true => exact Or.inl rfl
    | false =>
      refine Or.inr ⟨?_, ?_⟩
      · have size := transport.size_ge
        have accepted := pushes [0] 0 (by decide) (by rw [List.length_singleton]; omega)
        rw [Ne, ok.push_full_iff 0 (by decide) (by rw [List.length_singleton]; omega), not_and,
          Bool.not_eq_false] at accepted
        exact (ok.canAdd_iff empty _).mp (accepted exhausted)
      · intro pending
        have closes := flushes pending
        rw [fecEncoderFlush, Ne, encodeAndEnqueueTails_full_iff, not_and, not_and,
          Bool.not_eq_false] at closes
        exact (ok.canAdd_iff empty _).mp (closes pending exhausted)
  · intro room
    constructor
    · intro data now nonempty short full
      rw [ok.push_full_iff now nonempty short] at full
      rcases room with exhausted | ⟨fits, _⟩
      · rw [full.1] at exhausted
        cases exhausted
      · rw [(ok.canAdd_iff empty _).mpr fits] at full
        cases full.2
    · intro pending full
      rw [fecEncoderFlush, encodeAndEnqueueTails_full_iff] at full
      rcases room with exhausted | ⟨_, fits⟩
      · rw [full.2.1] at exhausted
        cases exhausted
      · rw [(ok.canAdd_iff empty _).mpr (fits pending)] at full
        cases full.2.2

theorem empty_queue_accepts_small :
    let encoder := encodeAll (smallTransport 0) (fun _ _ => .ok) 0 [.push [7] 0, .update 1]
    encoder.queue.count = 0 ∧ encoder.dataCount = 1 ∧
      (fecEncoderPush (smallTransport 0) encoder [8] 2).1 ≠ .queueFull ∧
      (fecEncoderFlush (smallTransport 0) encoder).1 ≠ .queueFull := by
  intro encoder
  have empty : encoder.queue.count = 0 := by decide +kernel
  have pending : encoder.dataCount = 1 := by decide +kernel
  obtain ⟨pushes, flushes⟩ := (empty_queue_accepts_iff (smallTransport 0) (fun _ _ => .ok) 0
    [.push [7] 0, .update 1] empty).mpr
      (Or.inr ⟨⟨by decide +kernel, by decide +kernel⟩, fun _ => ⟨by decide, by decide⟩⟩)
  exact ⟨empty, pending, pushes [8] 2 (by decide) (by decide), flushes (by rw [pending]; decide)⟩

/-- Room for the two tails of a group, but not for its last record as well. -/
def tightConfig : FecTransportConfig where
  dataShards := 3
  parityShards := 1
  shardSize := 32
  outputQueuePackets := 2

theorem empty_queue_refuses :
    ∃ transport bound, fecTransportCreate freshBackend ⟨true, true⟩ tightConfig =
        some (transport, bound) ∧
      let encoder := encodeAll transport (fun _ _ => .ok) 0 [.push [1] 0, .drain 1]
      encoder.queue.count = 0 ∧ (fecEncoderPush transport encoder [2] 0).1 = .queueFull := by
  have accepted : configComplete tightConfig = some _ := rfl
  obtain ⟨bound, created⟩ := fecTransportCreate_three accepted rfl rfl rfl
  exact ⟨_, bound, created, by decide +kernel, by decide +kernel⟩

end MultiFlow.Fec
