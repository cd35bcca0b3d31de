import MultiFlow.Fec.Genuine

/-!
# Records are delivered as they were pushed

A decoder that is fed by an encoder passes the encoder's records to its callback, as long
as no retry offers a record whose shard is not there: `retry_blocked` takes the records of
a group with a known length table from the block without looking at the present shards.
-/

namespace MultiFlow.Fec

open CodecApi Lib RsGenerator Wire

section Runs

variable {fec : FecTransport} {output : FecOutputFn}
  {recs : UInt64 → List (List UInt8)} {dec later : FecDecoder}

/-- All slots are faithful, and every call of the callback was for a true record. -/
structure Trusted (fec : FecTransport) (records : UInt64 → List (List UInt8))
    (decoder : FecDecoder) : Prop where
  slots : ∀ slot, Faithful fec (records (decoder.groups slot).groupId)
    (decoder.groups slot)
  offered : ∀ entry ∈ decoder.log, (records entry.groupId)[entry.index]? = some entry.data

theorem fecDecoderReset_trusted (fec : FecTransport)
    (recs : UInt64 → List (List UInt8)) (epoch : UInt32) :
    Trusted fec recs (fecDecoderReset epoch) :=
  ⟨fun _ => Faithful.fresh fec _ _ _, fun _ mem => absurd mem List.not_mem_nil⟩

variable (codec : ShardCodec fec.codec fec.k fec.r fec.shardSize)
include codec

theorem GroupMove.offers {view later : GroupView} (fit : RecordsFit fec recs)
    (move : GroupMove fec output False (Genuine fec recs) view later)
    (faithful : Faithful fec (recs view.group.groupId) view.group)
    (offered : ∀ entry ∈ view.log, (recs entry.groupId)[entry.index]? = some entry.data) :
    ∀ entry ∈ later.log, (recs entry.groupId)[entry.index]? = some entry.data := by
  cases move with
  | called idx _ _ ne _ stored =>
    intro entry mem
    rcases List.mem_append.mp mem with earlier | new
    · exact offered entry earlier
    rw [List.mem_singleton.mp new]
    have known : view.group.lengths idx ≠ 0 := by
      intro zero
      rw [zero] at ne
      exact ne rfl
    obtain ⟨few, short⟩ := fit view.group.groupId
    exact faithful.record_eq codec few short (stored.resolve_right id) known
  | _ => exact offered

omit codec in
theorem Trusted.put (trusted : Trusted fec recs dec) (slot : Nat)
    (grp : FecDecodeGroup) (faithful : Faithful fec (recs grp.groupId) grp) :
    ∀ other, Faithful fec (recs (Function.update dec.groups slot grp other).groupId)
      (Function.update dec.groups slot grp other) := by
  intro other
  by_cases same : other = slot
  · rw [same, Function.update_self]
    exact faithful
  · rw [Function.update_of_ne same]
    exact trusted.slots other

variable {clears : Option UInt64 → FecDecodeGroup → Prop}

theorem DecoderMove.trusted (tableFits : 1 + 2 * (fec.k - 1) ≤ fec.shardSize)
    (fit : RecordsFit fec recs)
    (move : DecoderMove fec output False (Genuine fec recs) clears dec later)
    (trusted : Trusted fec recs dec) : Trusted fec recs later := by
  cases move with
  | inGroup slot view _ _ move =>
    exact ⟨trusted.put slot view.group (move.faithful codec tableFits fit (trusted.slots slot)),
      move.offers codec fit (trusted.slots slot) trusted.offered⟩
  | counted | raised => exact ⟨trusted.slots, trusted.offered⟩
  | opened slot | cleared slot =>
    exact ⟨trusted.put slot _ (Faithful.fresh fec _ _ _), trusted.offered⟩

theorem DecoderMoves.trusted (tableFits : 1 + 2 * (fec.k - 1) ≤ fec.shardSize)
    (fit : RecordsFit fec recs)
    (moves : DecoderMoves fec output False (Genuine fec recs) clears dec later)
    (trusted : Trusted fec recs dec) : Trusted fec recs later := by
  induction moves with
  | refl => exact trusted
  | tail _ move ih => exact move.trusted codec tableFits fit ih

omit codec

/-- The call retries a group that waits for the callback, has its length table, and lacks
a record. -/
def RetriesAbsent (fec : FecTransport) (decoder : FecDecoder) : FecDecoderCall → Prop
  | .input _ _ => False
  | .update _ => ∃ slot < fec.groupWindow, (decoder.groups slot).active = .collecting ∧
      (decoder.groups slot).emitBlocked = true ∧ (decoder.groups slot).metadataValid = true ∧
      ∃ index < (decoder.groups slot).dataCount,
        (decoder.groups slot).delivered index = false ∧ (decoder.groups slot).present index = false

theorem Trusted.update (trusted : Trusted fec recs dec)
    (codec : ShardCodec fec.codec fec.k fec.r fec.shardSize)
    (tableFits : 1 + 2 * (fec.k - 1) ≤ fec.shardSize) (fit : RecordsFit fec recs) (now : UInt64)
    (complete : ¬ RetriesAbsent fec dec (.update now)) :
    Trusted fec recs (fecDecoderUpdate fec output dec now).2 := by
  have moves : DecoderMoves fec output False (Genuine fec recs)
      (fun _ _ => True) dec (fecDecoderUpdate fec output dec now).2 := by
    refine fecDecoderUpdate_moves fec output dec now ?_
      (fun _ _ _ _ _ _ => trivial)
    intro slot inWin collecting blocked valid idx inTable
    have faithful := trusted.slots slot
    have known : (dec.groups slot).countKnown = true := by
      simp [FecDecodeGroup.countKnown, valid]
    rw [faithful.tableCount_eq codec (fit _).1 (faithful.hasTable valid),
      ← faithful.counted known] at inTable
    by_contra absent
    rw [not_or, not_or, Bool.not_eq_true, Bool.not_eq_true] at absent
    exact complete ⟨slot, inWin, collecting, blocked, valid, idx, inTable, absent.1, absent.2.1⟩
  exact DecoderMoves.trusted codec tableFits fit moves trusted

theorem Trusted.input (trusted : Trusted fec recs dec)
    (codec : ShardCodec fec.codec fec.k fec.r fec.shardSize)
    (tableFits : 1 + 2 * (fec.k - 1) ≤ fec.shardSize)
    (fit : RecordsFit fec recs) {dgram : List UInt8} (now : UInt64)
    (genuine : ∀ hdr, wireHeaderDecode dgram = some hdr →
      Genuine fec recs hdr (dgram.drop WIRE_HEADER_SIZE)) :
    Trusted fec recs (fecDecoderInput fec output dec dgram now).2 := by
  rcases fecDecoderInput_cases fec output dec dgram now with
    ⟨stats, refused, -⟩ | ⟨hdr, admitted, accepts⟩
  · rw [refused]
    exact ⟨trusted.slots, trusted.offered⟩
  rw [accepts]
  have moves : DecoderMoves fec output False (Genuine fec recs)
      (fun _ _ => True) dec
      (inputGroup fec output dec hdr (dgram.drop WIRE_HEADER_SIZE) now).2 :=
    inputGroup_moves fec output now (genuine hdr admitted.decoded) admitted.recent
      fun _ => ⟨fun _ _ _ _ => trivial, fun _ _ _ _ _ _ _ _ => trivial⟩
  exact DecoderMoves.trusted codec tableFits fit moves trusted

def FedBy (datagrams : List (List UInt8)) : FecDecoderCall → Prop
  | .input datagram _ => datagram ∈ datagrams
  | .update _ => True

theorem StepsMeet.and_all {condition : FecDecoder → FecDecoderCall → Prop}
    {other : FecDecoderCall → Prop} {calls : List FecDecoderCall} {dec : FecDecoder}
    (meets : StepsMeet fec output condition dec calls)
    (all : ∀ call ∈ calls, other call) :
    StepsMeet fec output (fun dec call => condition dec call ∧ other call)
      dec calls := by
  induction calls generalizing dec with
  | nil => trivial
  | cons call _ ih =>
    exact ⟨⟨meets.1, all call List.mem_cons_self⟩,
      ih meets.2 fun later mem => all later (List.mem_cons_of_mem _ mem)⟩

theorem Settled.trusted_run {epoch : UInt32} {enc : FecEncoder} (settled : Settled fec epoch enc)
    (codec : ShardCodec fec.codec fec.k fec.r fec.shardSize)
    (tableFits : 1 + 2 * (fec.k - 1) ≤ fec.shardSize)
    (calls : List FecDecoderCall) (fed : ∀ call ∈ calls, FedBy enc.produced call)
    (complete : StepsMeet fec output
      (fun dec call => ¬ RetriesAbsent fec dec call) (fecDecoderReset epoch) calls) :
    Trusted fec enc.recordsOf (decodeAll fec output epoch calls) := by
  refine foldl_call_induction fec output (Trusted fec enc.recordsOf) ?_ calls _
    (fecDecoderReset_trusted fec _ epoch) (complete.and_all fed)
  intro dec call trusted condition
  have fit : RecordsFit fec enc.recordsOf := settled.records_fit
  cases call with
  | input _ now =>
    refine trusted.input codec tableFits fit now ?_
    intro hdr decoded
    refine settled.genuine ?_ decoded
    rw [← settled.order]
    exact condition.2
  | update now => exact trusted.update codec tableFits fit now condition.1

end Runs

theorem FecEncoder.recordsOf_found {enc : FecEncoder} {groupId : UInt64} {idx : Nat}
    {data : List UInt8} (found : (enc.recordsOf groupId)[idx]? = some data) :
    ∃ grp < 2 ^ 32, groupId = groupIdOf enc.epoch (UInt32.ofNat grp) ∧
      (enc.records grp)[idx]? = some data := by
  unfold FecEncoder.recordsOf at found
  split at found
  · rename_i sameEpoch
    refine ⟨groupId.toNat % 2 ^ 32, Nat.mod_lt _ (by decide), ?_, found⟩
    refine UInt64.toNat_inj.mp ?_
    rw [toNat_groupIdOf, toNat_group (Nat.mod_lt _ (by decide)), ← sameEpoch]
    exact (Nat.div_add_mod' _ _).symm
  · cases found

/-- Whatever is passed to the output callback is a record that was pushed for that group and
index, if no update retries a group that has its length table and lacks a record. -/
theorem delivered_as_pushed {backend bound : FecBackend} (reached : RsReachable backend.rs)
    {cpu : RsEncode.CpuFeatures} {config : FecTransportConfig} {transport : FecTransport}
    (created : fecTransportCreate backend cpu config = some (transport, bound))
    (tableFits : 1 + 2 * (transport.k - 1) ≤ transport.shardSize)
    (senderOutput output : FecOutputFn) (epoch : UInt32) (pushes : List FecEncoderCall)
    (calls : List FecDecoderCall)
    (fed : ∀ call ∈ calls, FedBy (encodeAll transport senderOutput epoch pushes).produced call)
    (complete : StepsMeet transport output
      (fun decoder call => ¬ RetriesAbsent transport decoder call) (fecDecoderReset epoch) calls) :
    ∀ entry ∈ (decodeAll transport output epoch calls).log, ∃ group < 2 ^ 32,
      entry.groupId = groupIdOf epoch (UInt32.ofNat group) ∧
        ((encodeAll transport senderOutput epoch pushes).records group)[entry.index]? =
          some entry.data := by
  obtain ⟨codec, _⟩ := fecTransportCreate_shardCodec reached created
  obtain ⟨settled, _⟩ := encodeAll_settled codec tableFits senderOutput epoch pushes
  have trusted := settled.trusted_run codec tableFits calls fed complete
  intro entry member
  obtain ⟨group, fits, id_eq, found⟩ := FecEncoder.recordsOf_found (trusted.offered entry member)
  rw [settled.epoch_eq] at id_eq
  exact ⟨group, fits, id_eq, found⟩

/-- The datagrams of a group of the two records `[7]` and `[8]`. -/
def twoRecords : FecEncoder :=
  encodeAll (smallTransport 0) (fun _ _ => .ok) 0 [.push [7] 1, .push [8] 2, .drain 4]

def firstOfTwo : List UInt8 := twoRecords.sent.getD 0 []

def tableOfTwo : List UInt8 := twoRecords.sent.getD 2 []

theorem firstOfTwo_admitted :
    Admitted (smallTransport 0) (fecDecoderReset 0) firstOfTwo
      { version := WIRE_VERSION_V3, type := WIRE_TYPE_DATA, finalDst := 0, ttl := 0, flowId := 0,
        blockId := 0, shardCount := 4, validLen := 96, payloadLen := 1 } where
  decoded := by decide +kernel
  shape := by decide +kernel
  sameEpoch := by decide +kernel
  recent := by decide +kernel

/-- The second record is lost, the callback was busy when the first one came, and the length
table is there: the retry offers the zeros in the place of the second record. -/
theorem retry_forges_record :
    (∃ bound, fecTransportCreate freshBackend ⟨true, true⟩ (smallConfig 0) =
      some (smallTransport 0, bound)) ∧
    firstOfTwo ∈ twoRecords.produced ∧ tableOfTwo ∈ twoRecords.produced ∧
    twoRecords.records 0 = [[7], [8]] ∧
    (decodeAll (smallTransport 0) (fun call _ => if call = 0 then .blocked else .ok) 0
      [.input firstOfTwo 1, .input tableOfTwo 2, .update 3]).log =
        [⟨0, 0, [7], .blocked⟩, ⟨0, 0, [7], .ok⟩, ⟨0, 1, [0], .ok⟩] := by
  refine ⟨fecTransportCreate_small 0, by decide +kernel, by decide +kernel, by decide +kernel, ?_⟩
  have first := fecDecoderInput_admitted (smallTransport 0)
    (fun call _ => if call = 0 then .blocked else .ok) firstOfTwo_admitted 1
  rw [inputGroup_first] at first
  unfold decodeAll
  rw [List.foldl_cons, FecDecoder.call, first]
  decide +kernel

theorem delivered_as_pushed_lost :
    firstOfTwo ∈ twoRecords.produced ∧
      ∀ entry ∈ (decodeAll (smallTransport 0) (fun _ _ => .ok) 0
          [.input firstOfTwo 1, .update 2]).log,
        ∃ group < 2 ^ 32, entry.groupId = groupIdOf 0 (UInt32.ofNat group) ∧
          (twoRecords.records group)[entry.index]? = some entry.data := by
  obtain ⟨_, created⟩ := fecTransportCreate_small 0
  have sent : firstOfTwo ∈ twoRecords.produced := by decide +kernel
  refine ⟨sent, ?_⟩
  refine delivered_as_pushed .init created (by decide) _ _ 0 _ _ ?_ ⟨id, ?_, trivial⟩
  · intro call member
    rcases List.mem_cons.mp member with rfl | last
    · exact sent
    · rw [List.mem_singleton.mp last]
      trivial
  have first := fecDecoderInput_admitted (smallTransport 0) (fun _ _ => .ok)
    firstOfTwo_admitted 1
  rw [inputGroup_first] at first
  rintro ⟨slot, inWindow, _, blocked, _⟩
  have onlySlot : slot = 0 := Nat.lt_one_iff.mp inWindow
  rw [onlySlot, FecDecoder.call, first] at blocked
  revert blocked
  decide +kernel

end MultiFlow.Fec
