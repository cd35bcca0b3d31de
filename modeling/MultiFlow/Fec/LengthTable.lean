import MultiFlow.Fec.Recovery

/-!
# Where the length table lies

`encode_and_enqueue_tails` writes the length table of a group into its metadata shard and
`parse_metadata` reads it there.  The offsets that they access are lists of their own here;
`closedBlock_changed` and `parseMetadata_reads` tie them to the functions.  `config_complete`
does not compare the table with the shard, so the table fits under one more condition only.
-/

namespace MultiFlow.Fec

open Function CodecApi Lib Wire List

section Offsets

variable (fec : FecTransport)

def entryOffsets (index : Nat) : List Nat := [1 + index * 2, 1 + index * 2 + 1]

def tableOffsets (dataCount : Nat) : List Nat :=
  0 :: (List.range dataCount).flatMap entryOffsets

/-- Offsets into the metadata shard that `encode_and_enqueue_tails` writes: the shard is cleared,
then the table is written. -/
def tableWrites (encoder : FecEncoder) : List Nat :=
  let tails := fec.n - fec.messageShards
  if encoder.dataCount = 0 ∨ encoder.groupExhausted = true then []
  else if queueCanAdd fec encoder tails
      (tails * (WIRE_HEADER_SIZE + fec.shardSize)) = false then []
  else List.range fec.shardSize ++ tableOffsets encoder.dataCount

/-- The offsets that the loop of `parse_metadata` reads until it ends or leaves. -/
def lengthReads : List Nat → FecDecodeGroup → List Nat
  | [], _ => []
  | index :: rest, group =>
    let length := tableLength fec group index
    entryOffsets index ++
      if length = 0 ∨ length > fec.shardSize then []
      else if group.lengths index ≠ 0 ∧ (group.lengths index).toNat ≠ length then []
      else if group.lengths index = 0 then
        lengthReads rest { group with
          lengths := update group.lengths index (UInt16.ofNat length) }
      else lengthReads rest group

def tableReads (group : FecDecodeGroup) : List Nat :=
  let dataCount := tableCount fec group
  if group.present fec.messageShards = false then []
  else
    0 :: if dataCount = 0 ∨ dataCount > fec.messageShards then []
      else if group.dataCountHintValid = true ∧ group.dataCount ≠ dataCount then []
      else lengthReads fec (List.range dataCount) group

variable {off : Nat} {indices : List Nat} {grp : FecDecodeGroup}

theorem mem_tableOffsets {dataCount : Nat} :
    off ∈ tableOffsets dataCount ↔ off < 1 + dataCount * 2 := by
  unfold tableOffsets entryOffsets
  rw [mem_cons, mem_flatMap]
  constructor
  · rintro (rfl | ⟨idx, mem, entry⟩)
    · omega
    · rw [mem_range] at mem
      simp only [mem_cons, not_mem_nil, or_false] at entry
      omega
  · intro _
    by_cases first : off = 0
    · exact Or.inl first
    · refine Or.inr ⟨(off - 1) / 2, mem_range.mpr (by omega), ?_⟩
      simp only [mem_cons, not_mem_nil, or_false]
      omega

theorem writeBytes_changed {size : Nat} {block : Block} {bytes : List UInt8} {s b : Nat}
    (changed : writeBytes size block off bytes s b ≠ block s b) :
    ∃ position < bytes.length, s * size + b = off + position := by
  unfold writeBytes at changed
  split at changed
  · exact ⟨s * size + b - off, by omega, by omega⟩
  · exact absurd rfl changed

theorem closedBlock_changed {enc : FecEncoder} (ne : enc.dataCount ≠ 0)
    (open_ : enc.groupExhausted = false) (fits : queueCanAdd fec enc (fec.n - fec.messageShards)
      ((fec.n - fec.messageShards) * (WIRE_HEADER_SIZE + fec.shardSize)) = true)
    {s b : Nat} (changed : closedBlock fec enc s b ≠ enc.block s b) :
    ∃ offset ∈ tableWrites fec enc,
      s * fec.shardSize + b = fec.messageShards * fec.shardSize + offset := by
  have writes : tableWrites fec enc =
      List.range fec.shardSize ++ tableOffsets enc.dataCount := by
    unfold tableWrites
    rw [if_neg (by simp [ne, open_]), if_neg (by simp [fits])]
  rw [writes]
  unfold closedBlock at changed
  generalize cleared_eq : writeBytes fec.shardSize enc.block
    (fec.messageShards * fec.shardSize)
    (List.replicate fec.shardSize 0) = cleared at changed
  by_cases same : cleared s b = enc.block s b
  · rw [← same] at changed
    obtain ⟨offset, below, pos⟩ := writeBytes_changed changed
    rw [length_lengthTable] at below
    exact ⟨offset, mem_append_right _ (mem_tableOffsets.mpr below), pos⟩
  · rw [← cleared_eq] at same
    obtain ⟨offset, below, pos⟩ := writeBytes_changed same
    rw [length_replicate] at below
    exact ⟨offset, mem_append_left _ (mem_range.mpr below), pos⟩

theorem mem_lengthReads_le {group : FecDecodeGroup} (mem : off ∈ lengthReads fec indices group) :
    ∃ index ∈ indices, off ∈ entryOffsets index := by
  induction indices generalizing group with
  | nil => cases mem
  | cons index rest ih =>
    rw [lengthReads, mem_append] at mem
    rcases mem with first | later
    · exact ⟨index, mem_cons_self, first⟩
    have deeper : ∃ group, off ∈ lengthReads fec rest group := by
      split at later
      · cases later
      split at later
      · cases later
      split at later
      all_goals exact ⟨_, later⟩
    obtain ⟨_, read⟩ := deeper
    obtain ⟨other, among, entry⟩ := ih read
    exact ⟨other, mem_cons_of_mem _ among, entry⟩

theorem mem_tableReads_le (mem : off ∈ tableReads fec grp) : off < 1 + fec.messageShards * 2 := by
  unfold tableReads at mem
  split at mem
  · cases mem
  rw [mem_cons] at mem
  rcases mem with rfl | mem
  · omega
  split at mem
  · cases mem
  rename_i counted
  rw [not_or, not_lt] at counted
  split at mem
  · cases mem
  obtain ⟨_, among, entry⟩ := mem_lengthReads_le fec mem
  rw [mem_range] at among
  simp only [entryOffsets, mem_cons, not_mem_nil, or_false] at entry
  omega

theorem readLengths_reads (indices : List Nat) (grp : FecDecodeGroup) (block : Block)
    (same : ∀ offset ∈ lengthReads fec indices grp,
      tableByte fec { grp with block := block } offset = tableByte fec grp offset) :
    readLengths fec indices { grp with block := block } = ((readLengths fec indices grp).1,
        { (readLengths fec indices grp).2 with block := block }) := by
  induction indices generalizing grp with
  | nil => rfl
  | cons index _ ih =>
    rw [lengthReads] at same
    have entry : ∀ offset ∈ entryOffsets index,
        tableByte fec { grp with block } offset =
          tableByte fec grp offset :=
      fun offset mem => same offset (mem_append_left _ mem)
    have len_eq : tableLength fec { grp with block } index =
        tableLength fec grp index := by
      unfold tableLength
      rw [entry _ (by simp [entryOffsets]), entry _ (by simp [entryOffsets])]
    rw [readLengths, readLengths, len_eq]
    split
    · rfl
    rename_i valid
    rw [if_neg valid] at same
    split
    · rfl
    rename_i agrees
    rw [if_neg agrees] at same
    split
    · rename_i unknown
      rw [if_pos unknown] at same
      refine ih { grp with
        lengths := update grp.lengths index
          (UInt16.ofNat (tableLength fec grp index)) } ?_
      exact fun offset mem => same offset (mem_append_right _ mem)
    · rename_i known
      rw [if_neg known] at same
      exact ih _ fun offset mem => same offset (mem_append_right _ mem)

theorem parseMetadata_reads (group : FecDecodeGroup) (block : Block)
    (same : ∀ off ∈ tableReads fec group, tableByte fec { group with block := block } off =
        tableByte fec group off) :
    parseMetadata fec { group with block := block } =
      ((parseMetadata fec group).1, { (parseMetadata fec group).2 with block := block }) := by
  unfold tableReads at same
  unfold parseMetadata
  by_cases missing : group.present fec.messageShards = false
  · rw [if_pos missing, if_pos missing]
  rw [if_neg missing] at same
  have count_eq : tableCount fec { group with block } =
      tableCount fec group := congrArg UInt8.toNat (same 0 mem_cons_self)
  rw [if_neg missing, if_neg missing, count_eq]
  split
  · rfl
  rename_i counted
  rw [if_neg counted] at same
  split
  · rfl
  rename_i hinted
  rw [if_neg hinted] at same
  exact readLengths_reads fec _ group block
    fun off mem => same off (mem_cons_of_mem _ mem)

def LengthsAgree (group : FecDecodeGroup) : Prop :=
  ∀ index, group.lengths index ≠ 0 →
    (group.lengths index).toNat = tableLength fec group index

theorem mem_lengthReads (start count : Nat) (group : FecDecodeGroup)
    (agree : LengthsAgree fec group) {idx : Nat} (from_ : start ≤ idx) (below : idx < start + count)
    (valid : ∀ earlier, earlier < idx → 0 < tableLength fec group earlier ∧
      tableLength fec group earlier ≤ fec.shardSize) :
    ∀ off ∈ entryOffsets idx, off ∈ lengthReads fec (List.range' start count) group := by
  intro _ mem
  induction count generalizing start group with
  | zero => omega
  | succ _ ih =>
    rw [List.range'_succ, lengthReads, mem_append]
    by_cases here : start = idx
    · rw [here]
      exact Or.inl mem
    obtain ⟨_⟩ := valid start (by omega)
    have size := shardSize_lt fec
    right
    rw [if_neg (by omega), if_neg (fun conflict => conflict.2 (agree start conflict.1))]
    split
    · refine ih (start + 1) _ ?_ (by omega) (by omega) valid
      intro other known
      dsimp only at known ⊢
      by_cases same : other = start
      · subst same
        rw [update_self, UInt16.toNat_ofNat', Nat.mod_eq_of_lt (by omega)]
        rfl
      · rw [update_of_ne same] at known ⊢
        exact agree other known
    · exact ih (start + 1) group agree (by omega) (by omega) valid

theorem readLengths_agree (indices : List Nat) (grp : FecDecodeGroup)
    (agree : LengthsAgree fec grp) : LengthsAgree fec (readLengths fec indices grp).2 := by
  have size := shardSize_lt fec
  induction indices generalizing grp with
  | nil => exact agree
  | cons idx _ ih =>
    rw [readLengths]
    split
    · exact agree
    rename_i valid
    rw [not_or, not_lt] at valid
    split
    · exact agree
    split
    · refine ih _ ?_
      intro other known
      dsimp only at known ⊢
      by_cases same : other = idx
      · subst same
        rw [update_self, UInt16.toNat_ofNat', Nat.mod_eq_of_lt (by omega)]
        rfl
      · rw [update_of_ne same] at known ⊢
        exact agree other known
    · exact ih grp agree

theorem readLengths_ok (ok : (readLengths fec indices grp).1 = .ok) :
    ∀ index ∈ indices, 0 < tableLength fec grp index := by
  induction indices generalizing grp with
  | nil => exact fun _ mem => absurd mem not_mem_nil
  | cons _ rest ih =>
    rw [readLengths] at ok
    split at ok
    · cases ok
    rename_i valid
    rw [not_or] at valid
    split at ok
    · cases ok
    have later : ∀ index ∈ rest, 0 < tableLength fec grp index := by
      split at ok
      · have entries := ih ok
        exact entries
      · exact ih ok
    intro index mem
    rcases mem_cons.mp mem with rfl | mem
    · exact Nat.pos_of_ne_zero valid.1
    · exact later index mem

/-- A metadata shard that announces `k - 1` records of one byte. -/
def fullTableRow : Nat → UInt8 := fun b =>
  if b = 0 then UInt8.ofNat fec.messageShards else if b % 2 = 1 then 0 else 1

def fullTableDatagram : List UInt8 :=
  shardDatagram fec 0 0 fec.messageShards (fec.k * fec.shardSize)
    fec.shardSize (fullTableRow fec)

structure HoldsFullTable (group : FecDecodeGroup) : Prop where
  present : group.present fec.messageShards = true
  table : ∀ b < fec.shardSize,
    group.block fec.messageShards b = fullTableRow fec b
  rest : ∀ s, fec.messageShards < s → ∀ b, group.block s b = 0
  dataCount : group.dataCount = fec.messageShards
  agree : LengthsAgree fec group

section Held

variable {fec} {group : FecDecodeGroup}

theorem messageShards_toNat : (UInt8.ofNat fec.messageShards).toNat = fec.messageShards := by
  have total := fec.total_le
  have limit : FEC_TRANSPORT_MAX_SHARDS = 255 := rfl
  unfold ResolvedConfig.messageShards
  rw [UInt8.toNat_ofNat', Nat.mod_eq_of_lt (by omega)]

variable (held : HoldsFullTable fec group)
include held

theorem HoldsFullTable.byte_inside {offset : Nat} (inside : offset < fec.shardSize) :
    tableByte fec group offset = fullTableRow fec offset := by
  unfold tableByte
  rw [Nat.div_eq_of_lt inside, Nat.mod_eq_of_lt inside, Nat.add_zero]
  exact held.table offset inside

theorem HoldsFullTable.byte_outside {off : Nat} (outside : fec.shardSize ≤ off) :
    tableByte fec group off = 0 := by
  have size := fec.size_ge
  have later : 0 < off / fec.shardSize := Nat.div_pos outside (by omega)
  exact held.rest _ (by omega) _

theorem HoldsFullTable.tableCount_eq : tableCount fec group = fec.messageShards := by
  have size := fec.size_ge
  unfold tableCount
  rw [held.byte_inside (by omega), fullTableRow, if_pos rfl, messageShards_toNat]

variable {idx : Nat} {view : GroupView}

theorem HoldsFullTable.length_inside (inside : 1 + idx * 2 + 1 < fec.shardSize) :
    tableLength fec group idx = 1 := by
  unfold tableLength
  rw [held.byte_inside (by omega), held.byte_inside inside, fullTableRow, fullTableRow,
    if_neg (by omega), if_pos (by omega), if_neg (by omega), if_neg (by omega)]
  rfl

theorem HoldsFullTable.length_outside (outside : fec.shardSize ≤ 1 + idx * 2 + 1) :
    tableLength fec group idx = 0 := by
  have high : tableByte fec group (1 + idx * 2) = 0 := by
    by_cases inside : 1 + idx * 2 < fec.shardSize
    · rw [held.byte_inside inside, fullTableRow, if_neg (by omega), if_pos (by omega)]
    · exact held.byte_outside (Nat.le_of_not_lt inside)
  unfold tableLength
  rw [high, held.byte_outside outside]
  rfl

omit held in
theorem exists_outside (large : fec.shardSize + 1 < 2 * fec.k) :
    ∃ idx < fec.messageShards, fec.shardSize ≤ 1 + idx * 2 + 1 ∧
      ∀ earlier < idx, 1 + earlier * 2 + 1 < fec.shardSize := by
  have size := fec.size_ge
  unfold ResolvedConfig.messageShards
  exact ⟨(fec.shardSize - 1) / 2, by omega, by omega, by omega⟩

theorem HoldsFullTable.reads_outside (large : fec.shardSize + 1 < 2 * fec.k) :
    ∃ offset ∈ tableReads fec group, fec.shardSize ≤ offset := by
  obtain ⟨idx, _, outside, inside⟩ := exists_outside large
  have two := fec.two_le
  have pos : fec.messageShards ≠ 0 := by
    omega
  have reads := mem_lengthReads fec 0 fec.messageShards group held.agree
    (Nat.zero_le idx) (by omega) (fun earlier before => by
      rw [held.length_inside (inside earlier before)]
      have size := fec.size_ge
      omega) (1 + idx * 2 + 1) (by simp [entryOffsets])
  refine ⟨1 + idx * 2 + 1, ?_, outside⟩
  unfold tableReads
  rw [if_neg (by simp [held.present]), held.tableCount_eq, if_neg (by omega),
    if_neg (fun conflict => conflict.2 held.dataCount), range_eq_range']
  exact mem_cons_of_mem _ reads

theorem HoldsFullTable.parseMetadata_fails (large : fec.shardSize + 1 < 2 * fec.k) :
    (parseMetadata fec group).1 ≠ .ok ∧
      HoldsFullTable fec (parseMetadata fec group).2 := by
  obtain ⟨idx, below, outside, _⟩ := exists_outside large
  have parsed : parseMetadata fec group =
      readLengths fec (List.range fec.messageShards) group := by
    unfold parseMetadata
    rw [if_neg (by simp [held.present]), held.tableCount_eq, if_neg (by omega),
      if_neg (fun conflict => conflict.2 held.dataCount)]
  rw [parsed]
  constructor
  · intro ok
    have pos := readLengths_ok fec ok idx (mem_range.mpr below)
    rw [held.length_outside outside] at pos
    exact Nat.lt_irrefl 0 pos
  · have agree := readLengths_agree fec (List.range fec.messageShards) group held.agree
    obtain ⟨_, read⟩ := readLengths_group fec (List.range fec.messageShards) group
    rw [read] at agree ⊢
    exact { held with agree }

omit held

theorem finishInput_fullTable (out : FecOutputFn) (held : HoldsFullTable fec view.group)
    (large : fec.shardSize + 1 < 2 * fec.k) :
    HoldsFullTable fec (finishInput fec out view).2.group := by
  obtain ⟨fails, still⟩ := held.parseMetadata_fails large
  have refused : acceptMetadata fec view.group = parseMetadata fec view.group := by
    unfold acceptMetadata
    dsimp only
    rw [if_pos fails]
  unfold finishInput
  rw [if_pos held.present, refused]
  dsimp only
  rw [if_pos fails]
  exact still

theorem inputShard_fullTable (out : FecOutputFn) (now groupId : UInt64) {hdr : WireHeader}
    {body : List UInt8}
    (fresh : view.group = { groupClear with active := .collecting, groupId := groupId })
    (index_eq : hdr.shardIndex.toNat = fec.messageShards)
    (validLen_eq : hdr.validLen.toNat = fec.k * fec.shardSize)
    (payload_eq : ∀ b < fec.shardSize, body.getD b 0 = fullTableRow fec b)
    (large : fec.shardSize + 1 < 2 * fec.k) :
    HoldsFullTable fec (inputShard fec out hdr body now view).2.group := by
  have two := fec.two_le
  have size := fec.size_ge
  have limit : FEC_TRANSPORT_MAX_SHARDS = 255 := rfl
  have total := fec.total_le
  have quotient : fec.k * fec.shardSize / fec.shardSize = fec.k := Nat.mul_div_cancel _ (by omega)
  have hinted : (fec.k - 1) % 256 = fec.messageShards := Nat.mod_eq_of_lt (by omega)
  have shortest : 2 * fec.shardSize ≤ fec.k * fec.shardSize := Nat.mul_le_mul_right _ two
  have pos : fec.messageShards ≠ 0 := by
    omega
  have checked : checkCount fec view hdr = (.ok, { view with
      group := markUnusedZeros fec { view.group with
        dataCount := fec.messageShards, dataCountHintValid := true }
        fec.messageShards }) := by
    unfold checkCount
    rw [if_pos index_eq.ge]
    unfold applyTailHint
    dsimp only
    rw [validLen_eq, quotient, hinted, Nat.mul_mod_left, if_neg (by omega), if_neg (by
      rw [fresh]
      simp [groupClear, pos])]
  unfold inputShard
  rw [checked]
  dsimp only
  rw [if_neg (by simp), if_neg (by
    rw [fresh, index_eq]
    simp [markUnusedZeros, groupClear, presentNone])]
  have isTail : ¬ hdr.shardIndex.toNat < fec.messageShards := by omega
  unfold emitStored
  simp only [if_neg isTail]
  rw [if_neg (by simp)]
  refine finishInput_fullTable out ?_ large
  unfold storeShard
  dsimp only
  rw [index_eq, if_neg (Nat.lt_irrefl _), fresh]
  refine ⟨by simp [presentSet], ?_, ?_, rfl, ?_⟩
  · intro b inShard
    simpa using payload_eq b inShard
  · intro s _ _
    have apart : s ≠ fec.messageShards := by omega
    simp [update_of_ne apart, markUnusedZeros, groupClear, zeroBlock]
  · intro _ known
    exact absurd rfl known

theorem decodeAll_fullTable (out : FecOutputFn) (large : fec.shardSize + 1 < 2 * fec.k) :
    HoldsFullTable fec ((decodeAll fec out 0 [.input (fullTableDatagram fec) 0]).groups 0) := by
  have below := messageShards_lt fec
  have size := fec.size_ge
  have isShard : fec.messageShards < fec.n := by omega
  obtain ⟨header, decoded, blockId_eq, index_eq, validLen_eq⟩ : ∃ header,
      wireHeaderDecode (fullTableDatagram fec) = some header ∧
        header.blockId = groupIdOf 0 0 ∧ header.shardIndex.toNat = fec.messageShards ∧
        header.validLen.toNat = fec.k * fec.shardSize := by
    have span := fec.span_le
    refine ⟨_, wireHeaderDecode_encode _ _, rfl, toNat_shard isShard, ?_⟩
    rw [UInt16.toNat_ofNat', Nat.mod_eq_of_lt (by omega)]
  have len_eq : (fullTableDatagram fec).length =
      WIRE_HEADER_SIZE + fec.shardSize := length_shardDatagram _ _ _ _ _
  have admitted : Admitted fec (fecDecoderReset 0) (fullTableDatagram fec) header := by
    refine ⟨decoded, ?_, ?_, rfl⟩
    · rw [len_eq]
      exact shardDatagram_shape decoded isShard (by omega) le_rfl (fun _ => rfl) (fun _ => rfl)
    · rw [blockId_eq, groupIdOf_epoch]
      rfl
  unfold decodeAll
  rw [foldl_cons, foldl_nil, FecDecoder.call,
    fecDecoderInput_admitted fec out admitted, inputGroup_first, FecDecoder.onGroup_snd,
    FecDecoder.groups_put_same]
  refine inputShard_fullTable out 0 header.blockId ?_ index_eq validLen_eq ?_ large
  · simp [FecDecoder.view, openGroup]
  · exact shardDatagram_payload fec 0 _ _ _ _ _

end Held

end Offsets

/-- The size of a shard that `config_complete` works with. -/
def FecTransportConfig.shardBytes (config : FecTransportConfig) : Nat :=
  if config.shardSize = 0 then PKG_SIZE else config.shardSize.toNat

theorem configComplete_geometry {cfg : FecTransportConfig} {resolved : ResolvedConfig}
    (accepted : configComplete cfg = some resolved) :
    resolved.k = cfg.dataShards.toNat ∧ resolved.shardSize = cfg.shardBytes := by
  unfold configComplete at accepted
  dsimp only at accepted
  split_ifs at accepted with _ _ standard
  · cases Option.some.inj accepted
    exact ⟨rfl, (if_pos standard).symm⟩
  · cases Option.some.inj accepted
    exact ⟨rfl, (if_neg standard).symm⟩

/-- For an accepted configuration, all accesses to the length table stay inside the metadata shard
exactly when the table of `k - 1` records does.  Otherwise a single datagram makes a decoder read
past the shard. -/
theorem length_table_inside_iff {config : FecTransportConfig} {resolved : ResolvedConfig}
    (accepted : configComplete config = some resolved) (codec : Codec) :
    ((∀ encoder : FecEncoder, encoder.dataCount ≤ resolved.messageShards →
        ∀ offset ∈ tableWrites ⟨resolved, codec⟩ encoder, offset < resolved.shardSize) ∧
      (∀ group : FecDecodeGroup, ∀ offset ∈ tableReads ⟨resolved, codec⟩ group,
        offset < resolved.shardSize) ↔
      2 * config.dataShards.toNat ≤ config.shardBytes + 1) ∧
    (config.shardBytes + 1 < 2 * config.dataShards.toNat → ∀ output : FecOutputFn,
      ∃ calls slot, ∃ offset ∈ tableReads ⟨resolved, codec⟩
        ((decodeAll ⟨resolved, codec⟩ output 0 calls).groups slot),
        resolved.shardSize ≤ offset) := by
  obtain ⟨k_eq, size_eq⟩ := configComplete_geometry accepted
  rw [← k_eq, ← size_eq]
  have overread : resolved.shardSize + 1 < 2 * resolved.k → ∀ output : FecOutputFn,
      ∃ calls slot, ∃ offset ∈ tableReads ⟨resolved, codec⟩
        ((decodeAll ⟨resolved, codec⟩ output 0 calls).groups slot),
        resolved.shardSize ≤ offset := by
    intro large output
    have held : HoldsFullTable ⟨resolved, codec⟩ _ := decodeAll_fullTable output large
    exact ⟨_, 0, held.reads_outside large⟩
  refine ⟨⟨?_, ?_⟩, overread⟩
  · rintro ⟨_, readsInside⟩
    by_contra large
    obtain ⟨_, _, offset, member, outside⟩ := overread (not_le.mp large) fun _ _ => .ok
    exact Nat.not_lt.mpr outside (readsInside _ offset member)
  intro _
  have two := resolved.two_le
  have table : 1 + resolved.messageShards * 2 ≤ resolved.shardSize := by
    unfold ResolvedConfig.messageShards
    omega
  constructor
  · intro _ _ offset member
    unfold tableWrites at member
    dsimp only at member
    split at member
    · cases member
    split at member
    · cases member
    rcases List.mem_append.mp member with cleared | written
    · exact List.mem_range.mp cleared
    · have below := mem_tableOffsets.mp written
      omega
  · intro _ _ member
    have below := mem_tableReads_le _ member
    exact Nat.lt_of_lt_of_le below table

theorem length_table_inside_small :
    configComplete (smallConfig 0) = some (smallResolved 0) ∧
      ∀ group : FecDecodeGroup, ∀ offset ∈ tableReads (smallTransport 0) group, offset < 32 :=
  ⟨configComplete_small 0,
    ((length_table_inside_iff (configComplete_small 0) (smallTransport 0).codec).1.mpr
      (by decide)).2⟩

/-- Sixteen records need a table of 33 bytes. -/
def wideConfig : FecTransportConfig where
  dataShards := 17
  parityShards := 1
  shardSize := 32

theorem length_table_past_shard :
    ∃ resolved, configComplete wideConfig = some resolved ∧ resolved.shardSize = 32 ∧
      32 ∈ tableOffsets resolved.messageShards ∧
      ∀ codec : Codec, ∃ offset ∈ tableReads ⟨resolved, codec⟩
        ((decodeAll ⟨resolved, codec⟩ (fun _ _ => .ok) 0
          [.input (fullTableDatagram ⟨resolved, codec⟩) 0]).groups 0), 32 ≤ offset := by
  refine ⟨_, rfl, rfl, mem_tableOffsets.mpr (by decide), ?_⟩
  intro _
  have large : 32 + 1 < 2 * 17 := by decide
  exact (decodeAll_fullTable _ large).reads_outside large

end MultiFlow.Fec
