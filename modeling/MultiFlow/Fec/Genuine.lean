import MultiFlow.Fec.EncoderRuns
import MultiFlow.Fec.DecoderMoves
import MultiFlow.Wire.HostOrder

/-!
# Slots that are fed by an encoder

`Genuine` says what the datagrams of an encoder carry, in terms of the records of their
groups.  A slot that receives such datagrams only is `Faithful`: the shards that count as
present are those of the group's codeword, and the record lengths are the true ones.
-/

namespace MultiFlow.Fec

open Function CodecApi Lib Wire List

inductive Genuine (fec : FecTransport) (records : UInt64 → List (List UInt8))
    (header : WireHeader) (payload : List UInt8) : Prop where
  | data (record : List UInt8)
      (found : (records header.blockId)[header.shardIndex.toNat]? = some record)
      (length_eq : header.payloadLen.toNat = record.length)
      (row : ∀ b < fec.shardSize, payload.getD b 0 = record.getD b 0)
  | tail (isTail : fec.messageShards ≤ header.shardIndex.toNat)
      (length_eq : header.validLen.toNat =
        ((records header.blockId).length + 1) * fec.shardSize)
      (row : ∀ b < fec.shardSize, payload.getD b 0 =
        codeword fec (records header.blockId) header.shardIndex.toNat b)

/-- The records of a group by its id on the wire; other epochs have none. -/
def FecEncoder.recordsOf (encoder : FecEncoder) (groupId : UInt64) : List (List UInt8) :=
  if groupId.toNat / 2 ^ 32 = encoder.epoch.toNat then encoder.records (groupId.toNat % 2 ^ 32)
  else []

theorem toNat_groupIdOf (epoch grp : UInt32) :
    (groupIdOf epoch grp).toNat = epoch.toNat * 2 ^ 32 + grp.toNat :=
  toNat_halves epoch grp

theorem toNat_group {group : Nat} (fits : group < 2 ^ 32) : (UInt32.ofNat group).toNat = group := by
  rw [UInt32.toNat_ofNat', Nat.mod_eq_of_lt fits]

section Sent

variable {fec : FecTransport} {epoch : UInt32} {enc : FecEncoder}

variable {hdr : WireHeader} {dgram : List UInt8}

theorem shardDatagram_decode (fec : FecTransport) (epoch : UInt32)
    (grp shard validLen payloadLen : Nat) (row : Nat → UInt8) (decoded : wireHeaderDecode
      (shardDatagram fec epoch grp shard validLen payloadLen row) = some hdr) :
    hdr.blockId = groupIdOf epoch (UInt32.ofNat grp) ∧
      hdr.shardIndex = UInt16.ofNat shard ∧ hdr.validLen = UInt16.ofNat validLen ∧
      hdr.payloadLen = UInt16.ofNat payloadLen := by
  unfold shardDatagram at decoded
  rw [wireHeaderDecode_encode] at decoded
  cases Option.some.inj decoded
  exact ⟨rfl, rfl, rfl, rfl⟩

theorem shardDatagram_payload (fec : FecTransport) (epoch : UInt32)
    (grp shard validLen payloadLen : Nat) (row : Nat → UInt8) :
    ∀ b < fec.shardSize, ((shardDatagram fec epoch grp shard validLen payloadLen
      row).drop WIRE_HEADER_SIZE).getD b 0 = row b := by
  intro b inShard
  unfold shardDatagram
  rw [drop_left' (length_wireHeaderEncode _), getD_eq_getElem _ _ (by simpa using inShard),
    getElem_map, getElem_range]

variable (inv : EncoderInv fec epoch enc)
include inv

theorem EncoderInv.recordsOf_eq {group : Nat} (fits : group < 2 ^ 32) :
    enc.recordsOf (groupIdOf epoch (UInt32.ofNat group)) = enc.records group := by
  have id_eq := toNat_groupIdOf epoch (UInt32.ofNat group)
  rw [toNat_group fits] at id_eq
  unfold FecEncoder.recordsOf
  rw [id_eq, if_pos (by rw [inv.epoch_eq]; omega)]
  congr 1
  omega

theorem EncoderInv.finished_lt :
    enc.finished.length ≤ 2 ^ 32 ∧ (enc.pending ≠ [] → enc.finished.length < 2 ^ 32) := by
  cases used : enc.groupExhausted with
  | false =>
    have below := enc.nextGroup.toNat_lt
    rw [inv.numbered used] at below
    exact ⟨below.le, fun _ => below⟩
  | true =>
    obtain ⟨count, empty⟩ := inv.exhausted used
    exact ⟨count.le, fun ne => absurd empty ne⟩

theorem EncoderInv.records_fit (groupId : UInt64) :
    (enc.recordsOf groupId).length ≤ fec.messageShards ∧
      ∀ record ∈ enc.recordsOf groupId, 0 < record.length ∧ record.length ≤ fec.shardSize := by
  unfold FecEncoder.recordsOf FecEncoder.records
  split
  · generalize groupId.toNat % 2 ^ 32 = grp
    by_cases known : grp < (enc.finished ++ [enc.pending]).length
    · rw [getD_eq_getElem _ _ known]
      have mem := getElem_mem known
      refine ⟨?_, fun record inRecords => inv.record_le _ mem record inRecords⟩
      rcases mem_append.mp mem with finished | pending
      · exact (inv.finished_le _ finished).2
      · rw [mem_singleton.mp pending]
        exact inv.pending_le
    · rw [getD_eq_default _ _ (Nat.le_of_not_lt known)]
      exact ⟨Nat.zero_le _, fun record inRecords => absurd inRecords not_mem_nil⟩
  · exact ⟨Nat.zero_le _, fun record inRecords => absurd inRecords not_mem_nil⟩

omit inv

theorem toNat_shard {shard : Nat} (isShard : shard < fec.n) :
    (UInt16.ofNat shard).toNat = shard := by
  have total := fec.total_le
  have limit : FEC_TRANSPORT_MAX_SHARDS = 255 := rfl
  unfold ResolvedConfig.n at isShard
  rw [UInt16.toNat_ofNat', Nat.mod_eq_of_lt (by omega)]

theorem messageShards_lt (fec : FecTransport) : fec.messageShards < fec.k ∧ fec.k < fec.n := by
  have two := fec.two_le
  have one := fec.one_le
  unfold ResolvedConfig.messageShards ResolvedConfig.n
  omega

include inv

theorem EncoderInv.genuine_data {grp idx : Nat} {record : List UInt8} (fits : grp < 2 ^ 32)
    (found : (enc.records grp)[idx]? = some record)
    (decoded : wireHeaderDecode (dataDatagram fec epoch grp idx record) = some hdr) :
    Genuine fec enc.recordsOf hdr
      ((dataDatagram fec epoch grp idx record).drop WIRE_HEADER_SIZE) := by
  obtain ⟨id_eq, index_eq, _, len_eq⟩ := shardDatagram_decode fec epoch _ _ _ _ _ decoded
  have sized := inv.records_fit (groupIdOf epoch (UInt32.ofNat grp))
  rw [inv.recordsOf_eq fits] at sized
  have below : idx < fec.n := by
    have := messageShards_lt fec
    have := (List.getElem?_eq_some_iff.mp found).1
    omega
  refine .data record ?_ ?_ (shardDatagram_payload fec epoch _ _ _ _ _)
  · rw [id_eq, inv.recordsOf_eq fits, index_eq, toNat_shard below]
    exact found
  · rw [len_eq]
    exact toNat_length (sized.2 record (mem_of_getElem? found)).2

theorem EncoderInv.genuine_tail {grp shard : Nat} (fits : grp < 2 ^ 32)
    (isTail : fec.messageShards ≤ shard) (isShard : shard < fec.n) (decoded : wireHeaderDecode
      (tailDatagram fec epoch grp (enc.records grp) shard) = some hdr) :
    Genuine fec enc.recordsOf hdr
      ((tailDatagram fec epoch grp (enc.records grp) shard).drop WIRE_HEADER_SIZE) := by
  obtain ⟨id_eq, index_eq, len_eq, _⟩ := shardDatagram_decode fec epoch _ _ _ _ _ decoded
  have sized := (inv.records_fit (groupIdOf epoch (UInt32.ofNat grp))).1
  rw [inv.recordsOf_eq fits] at sized
  have short : ((enc.records grp).length + 1) * fec.shardSize < 65536 := by
    have span := fec.span_le
    have more := messageShards_lt fec
    have : ((enc.records grp).length + 1) * fec.shardSize ≤
        fec.k * fec.shardSize := Nat.mul_le_mul_right _ (by omega)
    omega
  refine .tail ?_ ?_ ?_
  · rw [index_eq, toNat_shard isShard]
    exact isTail
  · rw [len_eq, id_eq, inv.recordsOf_eq fits, UInt16.toNat_ofNat', Nat.mod_eq_of_lt short]
  · rw [index_eq, toNat_shard isShard, id_eq, inv.recordsOf_eq fits]
    exact shardDatagram_payload fec epoch _ _ _ _ _

theorem EncoderInv.enqueued_cases (mem : dgram ∈ enc.enqueued) :
    (∃ grp < 2 ^ 32, ∃ idx record, (enc.records grp)[idx]? = some record ∧
      dgram = dataDatagram fec epoch grp idx record) ∨
    ∃ grp < 2 ^ 32, ∃ shard, 0 < (enc.records grp).length ∧
      fec.messageShards ≤ shard ∧ shard < fec.n ∧
      dgram = tailDatagram fec epoch grp (enc.records grp) shard := by
  obtain ⟨_, fewer⟩ := inv.finished_lt
  rw [inv.enqueued_eq, mem_append] at mem
  rcases mem with finished | pending
  · obtain ⟨_, inGroups, inGroup⟩ := mem_flatten.mp finished
    obtain ⟨grp, known, rfl⟩ := mem_mapIdx.mp inGroups
    have records_eq : enc.records grp = enc.finished[grp] := by
      unfold FecEncoder.records
      rw [getD_append _ _ _ _ known, getD_eq_getElem _ _ known]
    have ne := (inv.finished_le _ (getElem_mem known)).1
    rw [← records_eq] at inGroup ne
    rcases mem_append.mp inGroup with isData | isTail
    · obtain ⟨idx, inRecords, rfl⟩ := mem_mapIdx.mp isData
      exact Or.inl ⟨grp, by omega, idx, _, List.getElem?_eq_getElem inRecords, rfl⟩
    obtain ⟨shard, tail, rfl⟩ := mem_map.mp isTail
    obtain ⟨isTail, isShard⟩ := (mem_tailShards fec).mp tail
    exact Or.inr ⟨grp, by omega, shard, ne, isTail, isShard, rfl⟩
  · obtain ⟨idx, inRecords, rfl⟩ := mem_mapIdx.mp pending
    have ne : enc.pending ≠ [] := by
      rintro empty
      rw [empty] at inRecords
      exact absurd inRecords (Nat.not_lt_zero _)
    have pending_eq : enc.records enc.finished.length = enc.pending := by simp [FecEncoder.records]
    refine Or.inl ⟨enc.finished.length, fewer ne, idx, _, ?_, rfl⟩
    rw [pending_eq]
    exact List.getElem?_eq_getElem inRecords

theorem EncoderInv.genuine (mem : dgram ∈ enc.enqueued)
    (decoded : wireHeaderDecode dgram = some hdr) :
    Genuine fec enc.recordsOf hdr (dgram.drop WIRE_HEADER_SIZE) := by
  rcases inv.enqueued_cases mem with
    ⟨grp, fits, idx, record, found, rfl⟩ | ⟨grp, fits, shard, _, isTail, isShard, rfl⟩
  · exact inv.genuine_data fits found decoded
  · exact inv.genuine_tail fits isTail isShard decoded

end Sent

section Codeword

variable {fec : FecTransport}
  (codec : ShardCodec fec.codec fec.k fec.r fec.shardSize)
  {recs : List (List UInt8)}

include codec

theorem codeword_data {s : Nat} (isData : s < fec.k) (b : Nat) :
    codeword fec recs s b = messageBlock fec recs s b :=
  codec.keeps _ s b isData

theorem codeword_record {s : Nat} (isMessage : s < fec.messageShards) (b : Nat) :
    codeword fec recs s b = (recs.getD s []).getD b 0 := by
  rw [codeword_data codec (isMessage.trans (messageShards_lt fec).1), messageBlock,
    if_neg isMessage.ne]

theorem codeword_table (b : Nat) :
    codeword fec recs fec.messageShards b =
      (lengthTable recs.length (recordLengths recs)).getD b 0 := by
  rw [codeword_data codec (messageShards_lt fec).1, messageBlock, if_pos rfl]

omit codec

theorem lengthTable_entry {count : Nat} (lengths : Nat → UInt16) {idx half : Nat}
    (inTable : idx < count) (isHalf : half < 2) :
    (lengthTable count lengths).getD (1 + idx * 2 + half) 0 =
      (putBigEndian 2 (lengths idx).toNat).getD half 0 := by
  unfold lengthTable
  rw [Nat.add_assoc, Nat.add_comm, getD_cons_succ]
  induction count with
  | zero => exact absurd inTable (Nat.not_lt_zero _)
  | succ count ih =>
    have width : ((List.range count).flatMap fun shard =>
        putBigEndian 2 (lengths shard).toNat).length = count * 2 := by
      simp [length_flatMap]
    rw [range_succ, flatMap_append, flatMap_singleton]
    by_cases last : idx = count
    · rw [last, getD_append_right _ _ _ _ (by omega), width, Nat.add_sub_cancel_left]
    · rw [getD_append _ _ _ _ (by omega)]
      exact ih (by omega)

end Codeword

structure Faithful (fec : FecTransport) (records : List (List UInt8))
    (group : FecDecodeGroup) : Prop where
  carries : ∀ s < fec.n, group.present s = true → ∀ b < fec.shardSize,
    group.block s b = codeword fec records s b
  blank : ∀ s < fec.messageShards, records.length ≤ s → ∀ b < fec.shardSize,
    group.block s b = 0
  sized : ∀ index, group.lengths index ≠ 0 →
    ∃ record, records[index]? = some record ∧ (group.lengths index).toNat = record.length
  counted : group.countKnown = true → group.dataCount = records.length
  hasTable : group.metadataValid = true → group.present fec.messageShards = true

section Slot

variable {fec : FecTransport} {recs : List (List UInt8)} {grp : FecDecodeGroup}

variable {idx : Nat}

theorem getD_of_found {record : List UInt8} (found : recs[idx]? = some record) :
    recs.getD idx [] = record := by
  rw [getD_eq_getElem?_getD, found, Option.getD_some]

theorem Faithful.fresh (fec : FecTransport) (recs : List (List UInt8))
    (active : FecGroupState) (groupId : UInt64) :
    Faithful fec recs { groupClear with active := active, groupId := groupId } where
  carries := fun _ _ contrary => by cases contrary
  blank := fun _ _ _ _ _ => rfl
  sized := fun _ ne => absurd rfl ne
  counted := fun contrary => by cases contrary
  hasTable := fun contrary => by cases contrary

variable (faithful : Faithful fec recs grp) (codec : ShardCodec fec.codec fec.k fec.r fec.shardSize)

include faithful codec

theorem Faithful.tableByte_eq (hasTable : grp.present fec.messageShards = true) {off : Nat}
    (inShard : off < fec.shardSize) :
    tableByte fec grp off = (lengthTable recs.length (recordLengths recs)).getD off 0 := by
  have below := messageShards_lt fec
  unfold tableByte
  rw [Nat.div_eq_of_lt inShard, Nat.mod_eq_of_lt inShard, Nat.add_zero,
    faithful.carries _ (below.1.trans below.2) hasTable _ inShard, codeword_table codec]

theorem Faithful.tableCount_eq (few : recs.length ≤ fec.messageShards)
    (hasTable : grp.present fec.messageShards = true) : tableCount fec grp = recs.length := by
  have size := fec.size_ge
  have total := fec.total_le
  have limit : FEC_TRANSPORT_MAX_SHARDS = 255 := rfl
  have below := messageShards_lt fec
  unfold tableCount
  rw [faithful.tableByte_eq codec hasTable (by omega), lengthTable, getD_cons_zero,
    UInt8.toNat_ofNat', Nat.mod_eq_of_lt]
  omega

theorem Faithful.tableLength_eq (tableFits : 1 + 2 * (fec.k - 1) ≤ fec.shardSize)
    (few : recs.length ≤ fec.messageShards) (hasTable : grp.present fec.messageShards = true)
    (inTable : idx < recs.length) : tableLength fec grp idx = (recordLengths recs idx).toNat := by
  have bound : 1 + idx * 2 + 1 < fec.shardSize := by
    unfold ResolvedConfig.messageShards at few
    omega
  have high := lengthTable_entry (recordLengths recs) inTable (Nat.zero_lt_two)
  have low := lengthTable_entry (recordLengths recs) inTable (Nat.one_lt_two)
  unfold tableLength
  rw [faithful.tableByte_eq codec hasTable (by omega), faithful.tableByte_eq codec hasTable bound]
  rw [Nat.add_zero] at high
  rw [high, low]
  have pair : [(putBigEndian 2 (recordLengths recs idx).toNat).getD 0 0,
      (putBigEndian 2 (recordLengths recs idx).toNat).getD 1 0] =
      putBigEndian 2 (recordLengths recs idx).toNat := rfl
  rw [pair, getBigEndian_putBigEndian_of_lt _ _ (recordLengths recs idx).toNat_lt]

theorem Faithful.record_eq (few : recs.length ≤ fec.messageShards)
    (short : ∀ record ∈ recs, 0 < record.length ∧ record.length ≤ fec.shardSize)
    (present : grp.present idx = true) (ne : grp.lengths idx ≠ 0) :
    recs[idx]? = some (grp.record idx) := by
  obtain ⟨record, found, len_eq⟩ := faithful.sized idx ne
  have known := (List.getElem?_eq_some_iff.mp found).1
  have below := messageShards_lt fec
  have fits := (short record (mem_of_getElem? found)).2
  rw [found]
  refine congrArg some (ext_getElem ?_ ?_)
  · simp [FecDecodeGroup.record, FecDecodeGroup.bytes, len_eq]
  intro b inRecord _
  simp only [FecDecodeGroup.record, FecDecodeGroup.bytes, getElem_map, getElem_range]
  rw [faithful.carries idx (by omega) present b (by omega), codeword_record codec (by omega),
    getD_of_found found, getD_eq_getElem _ _ inRecord]

theorem Faithful.marked {later : FecDecodeGroup} (count_eq : later.dataCount = recs.length)
    (block_eq : later.block = grp.block) (lengths_eq : later.lengths = grp.lengths)
    (present_eq : later.present = grp.present)
    (hasTable : later.metadataValid = true → later.present fec.messageShards = true) :
    Faithful fec recs (markUnusedZeros fec later recs.length) := by
  constructor
  · intro s isShard present b inShard
    have cases : recs.length ≤ s ∧ s < fec.messageShards ∨ grp.present s = true := by
      simpa [markUnusedZeros, present_eq] using present
    change later.block s b = _
    rw [block_eq]
    rcases cases with ⟨unused, isMessage⟩ | present
    · rw [faithful.blank s isMessage unused b inShard, codeword_record codec isMessage,
        getD_eq_default _ _ unused]
      rfl
    · exact faithful.carries s isShard present b inShard
  · intro s isMessage unused b inShard
    change later.block s b = 0
    rw [block_eq]
    exact faithful.blank s isMessage unused b inShard
  · intro idx ne
    change later.lengths idx ≠ 0 at ne
    change ∃ record, _ ∧ (later.lengths idx).toNat = _
    rw [lengths_eq] at ne ⊢
    exact faithful.sized idx ne
  · exact fun _ => count_eq
  · intro valid
    simp [markUnusedZeros, hasTable valid]

theorem Faithful.stored
    (few : recs.length ≤ fec.messageShards)
    {hdr : WireHeader} {body : List UInt8}
    (genuine : Genuine fec (fun _ => recs) hdr body) (now : UInt64) :
    Faithful fec recs
      { grp with
        lastSeenNs := now
        block := update grp.block hdr.shardIndex.toNat fun b => body.getD b 0
        present := presentSet grp.present hdr.shardIndex.toNat
        lengths := if hdr.shardIndex.toNat < fec.messageShards then
            update grp.lengths hdr.shardIndex.toNat hdr.payloadLen
          else grp.lengths } := by
  have row : ∀ b < fec.shardSize,
      body.getD b 0 = codeword fec recs hdr.shardIndex.toNat b := by
    intro b inShard
    cases genuine with
    | data _ found _ row =>
      have known := (List.getElem?_eq_some_iff.mp found).1
      rw [row b inShard, codeword_record codec (by omega), getD_of_found found]
    | tail _ _ row => exact row b inShard
  refine ⟨?_, ?_, ?_, faithful.counted, ?_⟩
  · intro s isShard present b inShard
    dsimp only at present ⊢
    by_cases same : s = hdr.shardIndex.toNat
    · rw [same, update_self]
      exact row b inShard
    rw [presentSet, if_neg same] at present
    rw [update_of_ne same]
    exact faithful.carries s isShard present b inShard
  · intro s isMessage unused b inShard
    have apart : s ≠ hdr.shardIndex.toNat := by
      cases genuine with
      | data _ found =>
        have known := (List.getElem?_eq_some_iff.mp found).1
        omega
      | tail => omega
    dsimp only
    rw [update_of_ne apart]
    exact faithful.blank s isMessage unused b inShard
  · intro idx ne
    dsimp only at ne ⊢
    split at ne
    · rename_i isMessage
      rw [if_pos isMessage]
      by_cases same : idx = hdr.shardIndex.toNat
      · rw [same, update_self]
        cases genuine with
        | data record found len_eq => exact ⟨record, found, len_eq⟩
        | tail => omega
      · rw [update_of_ne same] at ne ⊢
        exact faithful.sized idx ne
    · rename_i isTail
      rw [if_neg isTail]
      exact faithful.sized idx ne
  · intro valid
    have kept := faithful.hasTable valid
    simp [presentSet, kept]

theorem Faithful.recovered
    (enough : fec.k ≤ presentCount grp.present fec.n) :
    ∃ block, codecRecover fec.codec grp.block grp.present fec.n = (.ok, block) ∧
      Faithful fec recs
        { grp with
          block := block
          present := fun shard => decide (shard < fec.k) || grp.present shard } := by
  obtain ⟨block, recovers, data_eq, kept⟩ := codec.recovers (messageBlock fec recs)
    grp.block grp.present faithful.carries enough
  have below := messageShards_lt fec
  refine ⟨block, recovers, ?_, ?_, faithful.sized, faithful.counted, ?_⟩
  · intro s isShard present b inShard
    dsimp only at present ⊢
    by_cases isData : s < fec.k
    · rw [data_eq s isData b inShard, codeword_data codec isData]
    have stored : grp.present s = true := by simpa [isData] using present
    rw [kept s b stored]
    exact faithful.carries s isShard stored b inShard
  · intro s isMessage unused b inShard
    dsimp only
    rw [data_eq s (isMessage.trans below.1) b inShard, messageBlock, if_neg isMessage.ne,
      getD_eq_default _ _ unused]
    rfl
  · intro valid
    simp [faithful.hasTable valid]

theorem Faithful.lengthRead (tableFits : 1 + 2 * (fec.k - 1) ≤ fec.shardSize)
    (few : recs.length ≤ fec.messageShards)
    (short : ∀ record ∈ recs, 0 < record.length ∧ record.length ≤ fec.shardSize)
    (hasTable : grp.present fec.messageShards = true) (inTable : idx < tableCount fec grp) :
    Faithful fec recs { grp with
      lengths := update grp.lengths idx
        (UInt16.ofNat (tableLength fec grp idx)) } := by
  rw [faithful.tableCount_eq codec few hasTable] at inTable
  have len_eq := faithful.tableLength_eq codec tableFits few hasTable inTable
  refine { faithful with sized := ?_ }
  intro other ne
  dsimp only at ne ⊢
  by_cases same : other = idx
  · have found : recs[idx]? = some recs[idx] := List.getElem?_eq_getElem inTable
    refine ⟨recs[idx], by rw [same, found], ?_⟩
    rw [same, update_self, len_eq, UInt16.ofNat_toNat, recordLengths, getD_of_found found]
    exact toNat_length (short _ (getElem_mem inTable)).2
  · rw [update_of_ne same] at ne ⊢
    exact faithful.sized other ne

end Slot

section Moves

variable {fec : FecTransport} {out : FecOutputFn}
  {records : UInt64 → List (List UInt8)} {view later : GroupView}

def RecordsFit (fec : FecTransport) (records : UInt64 → List (List UInt8)) : Prop :=
  ∀ groupId, (records groupId).length ≤ fec.messageShards ∧
    ∀ record ∈ records groupId, 0 < record.length ∧ record.length ≤ fec.shardSize

theorem Genuine.ofGroup {hdr : WireHeader} {payload : List UInt8} {groupId : UInt64}
    (genuine : Genuine fec records hdr payload) (forGroup : hdr.blockId = groupId) :
    Genuine fec (fun _ => records groupId) hdr payload := by
  subst forGroup
  cases genuine with
  | data record found len_eq row => exact .data record found len_eq row
  | tail isTail len_eq row => exact .tail isTail len_eq row

theorem GroupMove.faithful (codec : ShardCodec fec.codec fec.k fec.r fec.shardSize)
    (tableFits : 1 + 2 * (fec.k - 1) ≤ fec.shardSize)
    (fit : RecordsFit fec records) {unchecked : Prop}
    (move : GroupMove fec out unchecked (Genuine fec records) view later)
    (faithful : Faithful fec (records view.group.groupId) view.group) :
    Faithful fec (records later.group.groupId) later.group := by
  obtain ⟨few, short⟩ := fit view.group.groupId
  have size := fec.size_ge
  cases move with
  | counted => exact faithful
  | called idx answer =>
    have emitted := Emitted.answered view.group idx answer
    rw [emitted.rest_eq]
    exact { faithful with }
  | hinted _ _ count arrived forGroup _ count_eq =>
    have genuine := arrived.ofGroup forGroup
    cases genuine with
    | data _ found =>
      have known := (List.getElem?_eq_some_iff.mp found).1
      omega
    | tail _ len_eq =>
      have same : count = (records view.group.groupId).length := by
        have product := count_eq.symm.trans len_eq
        have := Nat.eq_of_mul_eq_mul_right (by omega) product
        omega
      rw [same]
      exact faithful.marked codec rfl rfl rfl rfl faithful.hasTable
  | stored _ _ now _ arrived forGroup =>
    exact faithful.stored codec few (arrived.ofGroup forGroup) now
  | lengthRead _ hasTable inTable =>
    exact faithful.lengthRead codec tableFits few short hasTable inTable
  | accepted hasTable =>
    have count_eq := faithful.tableCount_eq codec few hasTable
    rw [count_eq]
    exact faithful.marked codec rfl rfl rfl rfl fun _ => hasTable
  | recovered _ _ enough recovers =>
    obtain ⟨_, equation, kept⟩ := faithful.recovered codec enough
    rw [recovers] at equation
    cases equation
    exact kept
  | unrecovered _ _ enough fails notOk =>
    obtain ⟨_, equation, _⟩ := faithful.recovered codec enough
    rw [fails] at equation
    cases equation
    exact absurd rfl notOk
  | completed | released =>
    exact { faithful with }

theorem GroupMoves.faithful (codec : ShardCodec fec.codec fec.k fec.r fec.shardSize)
    (tableFits : 1 + 2 * (fec.k - 1) ≤ fec.shardSize)
    (fit : RecordsFit fec records) {unchecked : Prop}
    (moves : GroupMoves fec out unchecked (Genuine fec records) view later)
    (faithful : Faithful fec (records view.group.groupId) view.group) :
    Faithful fec (records later.group.groupId) later.group := by
  induction moves with
  | refl => exact faithful
  | tail _ move ih => exact move.faithful codec tableFits fit ih

end Moves

end MultiFlow.Fec
