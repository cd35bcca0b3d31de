import MultiFlow.Fec.Sent

/-!
# Runs of the encoder

Every call keeps `EncoderInv`, whatever the output callback answers.  A push that is not
accepted changes the statistics only, and a push that fills a group always closes it: the
space for the tails was reserved before the record was taken.
-/

namespace MultiFlow.Fec

open CodecApi Lib RsGenerator Wire List

section Calls

variable {fec : FecTransport} {epoch : UInt32} {encoder : FecEncoder}

def FecEncoder.history (encoder : FecEncoder) : List (List UInt8) :=
  encoder.finished.flatten ++ encoder.pending

/-- The invariant between calls: the open group has room for a record. -/
structure Settled (fec : FecTransport) (epoch : UInt32) (encoder : FecEncoder) : Prop
    extends EncoderInv fec epoch encoder where
  open_lt : encoder.pending.length < fec.messageShards

variable (settled : Settled fec epoch encoder)
include settled

theorem Settled.restat (stats : FecEncoderStats) :
    Settled fec epoch { encoder with stats := stats } :=
  ⟨settled.toEncoderInv.restat stats, settled.open_lt⟩

omit settled in
theorem messageShards_pos (fec : FecTransport) : 0 < fec.messageShards := by
  have two := fec.two_le
  unfold ResolvedConfig.messageShards
  omega

variable (codec : ShardCodec fec.codec fec.k fec.r fec.shardSize)
include codec

variable (tableFits : 1 + 2 * (fec.k - 1) ≤ fec.shardSize)
include tableFits

theorem Settled.flush :
    Settled fec epoch (encodeAndEnqueueTails fec encoder).2 ∧
      (encodeAndEnqueueTails fec encoder).2.history = encoder.history := by
  rcases encodeAndEnqueueTails_cases fec encoder with
    ⟨stats, ne, open_, fits, closed⟩ | ⟨status, stats, same⟩
  · rw [closed]
    refine ⟨⟨settled.toEncoderInv.closed codec tableFits ne open_ fits stats,
      messageShards_pos fec⟩, ?_⟩
    simp [FecEncoder.history, FecEncoder.closed]
  · rw [same]
    exact ⟨settled.restat stats, rfl⟩

theorem Settled.pushRecord {data : List UInt8} (now : UInt64)
    (open_ : encoder.groupExhausted = false) (ne : 0 < data.length)
    (short : data.length ≤ fec.shardSize) (fits : queueCanAdd fec encoder (needPackets fec encoder)
      (needPackets fec encoder * (WIRE_HEADER_SIZE + fec.shardSize)) = true) :
    ∃ later, Fec.pushRecord fec encoder data now = (.ok, later) ∧
      Settled fec epoch later ∧ later.history = encoder.history ++ [data] := by
  obtain ⟨stats, pushes⟩ := pushRecord_ok encoder now ne short fits
  obtain ⟨_, _, _, started_eq⟩ := startGroup_same encoder now
  have room := (queueCanAdd_iff _ _ _ _).mp fits
  have pending_eq : (startGroup encoder now).pending = encoder.pending := by rw [started_eq]
  have stillOpen : (startGroup encoder now).groupExhausted = false := by
    rw [started_eq]
    exact open_
  have one : 1 ≤ needPackets fec encoder := by
    unfold needPackets
    omega
  have bytes := Nat.mul_le_mul_right (WIRE_HEADER_SIZE + fec.shardSize) one
  have pushedInv := (settled.toEncoderInv.started now).pushed stillOpen
    (by rw [pending_eq]; exact settled.open_lt) ne short
    ((queueCanAdd_iff _ _ _ _).mpr (by rw [started_eq]; dsimp only; omega)) stats
  have pushedPending : ((startGroup encoder now).pushed fec data stats).pending =
      encoder.pending ++ [data] := by
    rw [started_eq]
    rfl
  have pushedHistory : ((startGroup encoder now).pushed fec data stats).history =
      encoder.history ++ [data] := by
    rw [FecEncoder.history, pushedPending, started_eq, FecEncoder.history, append_assoc]
    rfl
  rw [pushes]
  split
  · rename_i fills
    have full : ((startGroup encoder now).pushed fec data stats).dataCount ≠ 0 := by
      exact Nat.succ_ne_zero _
    have tailsFit := pushed_tailsFit encoder data now stats fills fits
    obtain ⟨later, closed⟩ := encodeAndEnqueueTails_ok
      ((startGroup encoder now).pushed fec data stats) full stillOpen tailsFit
    rw [closed]
    refine ⟨_, rfl, ⟨pushedInv.closed codec tableFits full stillOpen tailsFit later,
      messageShards_pos fec⟩, ?_⟩
    rw [← pushedHistory]
    simp [FecEncoder.history, FecEncoder.closed]
  · refine ⟨_, rfl, ⟨pushedInv, ?_⟩, pushedHistory⟩
    have few := pushedInv.pending_le
    have count := settled.dataCount_eq
    rw [pushedPending, length_append, length_singleton] at few ⊢
    omega

theorem Settled.push (data : List UInt8) (now : UInt64) :
    (∃ status stats, status ≠ .ok ∧
      fecEncoderPush fec encoder data now = (status, { encoder with stats := stats })) ∨
    ∃ later, fecEncoderPush fec encoder data now = (.ok, later) ∧
      Settled fec epoch later ∧ later.history = encoder.history ++ [data] := by
  have room := settled.open_lt
  rw [← settled.dataCount_eq] at room
  unfold fecEncoderPush
  split
  · exact Or.inl ⟨.inval, encoder.stats, by decide, rfl⟩
  split
  · exact Or.inl ⟨.inval, encoder.stats, by decide, rfl⟩
  split
  · exact Or.inl ⟨.exhausted, encoder.stats, by decide, rfl⟩
  rename_i open_
  rw [if_neg (by omega)]
  cases fits : queueCanAdd fec encoder (needPackets fec encoder)
      (needPackets fec encoder * (WIRE_HEADER_SIZE + fec.shardSize)) with
  | false =>
    left
    rw [pushRecord_refused encoder data now fits]
    exact ⟨.queueFull, _, by decide, rfl⟩
  | true =>
    right
    exact settled.pushRecord codec tableFits now (by simpa using open_) (by omega) (by omega) fits

omit tableFits

omit codec

theorem Settled.popped (ne : 0 < encoder.queue.count) :
    Settled fec epoch (queuePop fec encoder) := by
  have order := settled.order
  have bytes := settled.qBytes_eq
  have byteRoom := settled.qBytes_le
  rw [RingBuffer.toList_pop ne, map_cons] at order
  rw [RingBuffer.toList_pop ne, map_cons, sum_cons] at bytes
  refine ⟨{ settled with capacity_eq := ?_, order := ?_, qBytes_eq := ?_, qBytes_le := ?_ },
    settled.open_lt⟩
  · exact encoder.queue.capacity_pop.trans settled.capacity_eq
  · change (encoder.sent ++ [encoder.queue.front.datagram]) ++
      encoder.queue.pop.toList.map FecQueueItem.datagram = encoder.enqueued
    rw [← order, append_assoc]
    rfl
  · change encoder.qBytes - encoder.queue.front.datagram.length = _
    rw [bytes, Nat.add_sub_cancel_left]
    rfl
  · change encoder.qBytes - encoder.queue.front.datagram.length ≤ _
    omega

omit settled

variable (out : FecOutputFn)

theorem Settled.drainQueue (queued budget : Nat) (enc : FecEncoder)
    (settled : Settled fec epoch enc) (count_eq : enc.queue.count = queued) :
    Settled fec epoch (Fec.drainQueue fec out queued budget enc).2 ∧
      (Fec.drainQueue fec out queued budget enc).2.history = enc.history := by
  induction queued generalizing budget enc with
  | zero => exact ⟨settled, rfl⟩
  | succ queued ih =>
    rw [Fec.drainQueue]
    dsimp only
    split
    · exact ⟨settled, rfl⟩
    split
    · exact ⟨settled.restat _, rfl⟩
    split
    · exact ⟨⟨{ settled with }, settled.open_lt⟩, rfl⟩
    · exact ⟨⟨{ settled with }, settled.open_lt⟩, rfl⟩
    · refine ih (budget - 1) _ (settled.popped (by omega)) ?_
      change enc.queue.pop.count = queued
      rw [RingBuffer.count_pop, count_eq, Nat.add_sub_cancel]

theorem refillTokens_same (fec : FecTransport) (enc : FecEncoder) (now : UInt64) :
    ∃ tokens lastRefillNs, refillTokens fec enc now =
      { enc with tokens := tokens, lastRefillNs := lastRefillNs } := by
  unfold refillTokens
  split
  · exact ⟨_, _, rfl⟩
  dsimp only
  split
  · exact ⟨_, _, rfl⟩
  split
  · exact ⟨_, _, rfl⟩
  split
  · exact ⟨_, _, rfl⟩
  split
  all_goals exact ⟨_, _, rfl⟩

include settled

theorem Settled.refill (now : UInt64) :
    Settled fec epoch (refillTokens fec encoder now) ∧
      (refillTokens fec encoder now).history = encoder.history := by
  obtain ⟨tokens, lastRefillNs, same⟩ := refillTokens_same fec encoder now
  rw [same]
  exact ⟨⟨settled.toEncoderInv.retime tokens lastRefillNs, settled.open_lt⟩, rfl⟩

include codec

include tableFits

theorem Settled.update (now : UInt64) :
    Settled fec epoch (fecEncoderUpdate fec out encoder now).2 ∧
      (fecEncoderUpdate fec out encoder now).2.history = encoder.history := by
  obtain ⟨refilled, same⟩ := settled.refill now
  unfold fecEncoderUpdate
  dsimp only
  split
  · obtain ⟨flushed, kept⟩ := refilled.flush codec tableFits
    split
    · exact ⟨flushed, kept.trans same⟩
    · obtain ⟨drained, still⟩ := Settled.drainQueue out _ SIZE_MAX _ flushed rfl
      exact ⟨drained, still.trans (kept.trans same)⟩
  · obtain ⟨drained, still⟩ := Settled.drainQueue out _ SIZE_MAX _ refilled rfl
    exact ⟨drained, still.trans same⟩

omit tableFits

omit codec

omit settled

/-- The record that a call adds to the groups, if it is a push that returns `FEC_OK`. -/
def takenRecord : FecEncoderCall → FecStatus → List (List UInt8)
  | .push data _, .ok => [data]
  | _, _ => []

include settled

include codec

include tableFits

theorem Settled.call (call : FecEncoderCall) :
    Settled fec epoch (encoder.call fec out call).2 ∧
      (encoder.call fec out call).2.history =
        encoder.history ++ takenRecord call (encoder.call fec out call).1 := by
  cases call with
  | push data now =>
    rw [FecEncoder.call]
    rcases settled.push codec tableFits data now with
      ⟨status, stats, refused, same⟩ | ⟨later, taken, kept, grown⟩
    · rw [same]
      refine ⟨settled.restat stats, ?_⟩
      have nothing : takenRecord (.push data now) status = [] := by
        unfold takenRecord
        split
        · exact absurd rfl refused
        · rfl
      rw [nothing, append_nil]
      rfl
    · rw [taken]
      exact ⟨kept, grown⟩
  | flush =>
    obtain ⟨kept, same⟩ := settled.flush codec tableFits
    exact ⟨kept, same.trans (append_nil _).symm⟩
  | update now =>
    obtain ⟨kept, same⟩ := settled.update codec tableFits out now
    exact ⟨kept, same.trans (append_nil _).symm⟩
  | drain budget =>
    obtain ⟨kept, same⟩ := Settled.drainQueue out _ budget encoder settled rfl
    exact ⟨kept, same.trans (append_nil _).symm⟩

omit tableFits

omit codec

omit settled

def takenRecords (fec : FecTransport) (output : FecOutputFn) :
    FecEncoder → List FecEncoderCall → List (List UInt8)
  | _, [] => []
  | encoder, call :: rest =>
    takenRecord call (encoder.call fec output call).1 ++
      takenRecords fec output (encoder.call fec output call).2 rest

include codec

include tableFits

theorem Settled.calls (calls : List FecEncoderCall) (enc : FecEncoder)
    (settled : Settled fec epoch enc) :
    Settled fec epoch (calls.foldl (fun enc call => (enc.call fec out call).2) enc) ∧
      (calls.foldl (fun enc call => (enc.call fec out call).2) enc).history =
        enc.history ++ takenRecords fec out enc calls := by
  induction calls generalizing enc with
  | nil => exact ⟨settled, (append_nil _).symm⟩
  | cons call _ ih =>
    obtain ⟨kept, grown⟩ := settled.call codec tableFits out call
    obtain ⟨final, grownFinal⟩ := ih _ kept
    refine ⟨final, ?_⟩
    rw [foldl_cons, grownFinal, grown, takenRecords, append_assoc]

theorem encodeAll_settled (epoch : UInt32) (calls : List FecEncoderCall) :
    Settled fec epoch (encodeAll fec out epoch calls) ∧
      (encodeAll fec out epoch calls).history =
        takenRecords fec out (fecEncoderReset fec epoch) calls :=
  Settled.calls codec tableFits out calls (fecEncoderReset fec epoch)
    ⟨fecEncoderReset_inv fec epoch, messageShards_pos fec⟩

end Calls

/-- The queue of the encoder is a FIFO, its groups are sent in order and whole, and a push
that fails changes nothing but the statistics. -/
theorem encoder_fifo_atomic {backend bound : FecBackend} (reached : RsReachable backend.rs)
    {cpu : RsEncode.CpuFeatures} {config : FecTransportConfig} {transport : FecTransport}
    (created : fecTransportCreate backend cpu config = some (transport, bound))
    (tableFits : 1 + 2 * (transport.k - 1) ≤ transport.shardSize) (output : FecOutputFn)
    (epoch : UInt32) (calls : List FecEncoderCall) :
    let encoder := encodeAll transport output epoch calls
    encoder.sent ++ encoder.queue.toList.map FecQueueItem.datagram = encoder.enqueued ∧
      encoder.qBytes = (encoder.queue.toList.map fun item => item.datagram.length).sum ∧
      encoder.queue.count ≤ transport.outputQueuePackets ∧
      (∀ data now, (fecEncoderPush transport encoder data now).1 ≠ .ok →
        ∃ stats, (fecEncoderPush transport encoder data now).2 =
          { encoder with stats := stats }) ∧
      encoder.finished.flatten ++ encoder.pending =
        takenRecords transport output (fecEncoderReset transport epoch) calls ∧
      encoder.enqueued =
        (encoder.finished.mapIdx fun group records =>
          dataDatagrams transport epoch group records ++
            (tailShards transport).map (tailDatagram transport epoch group records)).flatten ++
        dataDatagrams transport epoch encoder.finished.length encoder.pending ∧
      (tailShards transport).length = transport.r + 1 ∧
      encoder.dataCount = encoder.pending.length ∧
      encoder.pending.length < transport.k - 1 := by
  intro encoder
  obtain ⟨codec, _⟩ := fecTransportCreate_shardCodec reached created
  obtain ⟨settled, history⟩ := encodeAll_settled codec tableFits output epoch calls
  refine ⟨settled.order, settled.qBytes_eq, settled.capacity_eq ▸ encoder.queue.count_le, ?_, history, settled.enqueued_eq,
    tailShards_length transport, settled.dataCount_eq, settled.open_lt⟩
  intro data now failed
  rcases settled.push codec tableFits data now with
    ⟨status, stats, _, same⟩ | ⟨later, taken, _, _⟩
  · exact ⟨stats, by rw [same]⟩
  · rw [taken] at failed
    exact absurd rfl failed

theorem encoder_fifo_atomic_small :
    (encodeAll (smallTransport 0) (fun _ _ => .blocked) 0
      [.push [7] 1, .flush, .update 2, .push [8] 3]).enqueued.length = 4 ∧
    (encodeAll (smallTransport 0) (fun _ _ => .blocked) 0
      [.push [7] 1, .flush, .update 2, .push [8] 3]).pending.length < 2 := by
  obtain ⟨_, created⟩ := fecTransportCreate_small 0
  have fifo := encoder_fifo_atomic .init created (by decide) (fun _ _ => .blocked) 0
    [.push [7] 1, .flush, .update 2, .push [8] 3]
  exact ⟨by decide +kernel, fifo.2.2.2.2.2.2.2.2⟩

end MultiFlow.Fec
