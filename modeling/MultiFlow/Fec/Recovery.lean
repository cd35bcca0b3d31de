import MultiFlow.Fec.AtMostOnce
import MultiFlow.Fec.NoForgery
import MultiFlow.Fec.SlotRecovery

/-!
# Recovery of the groups of an encoder

A decoder whose callback takes every record, that never expires a group and whose slots
suffice for the groups of the sender, delivers every group of which one more datagram than
it has records arrives.
-/

namespace MultiFlow.Fec

open CodecApi Lib RsGenerator Wire List

/-- A slot of which at most more records were delivered. -/
structure Touched (before after : FecDecodeGroup) : Prop where
  delivered_mono : ∀ index, before.delivered index = true → after.delivered index = true
  rest_eq : after =
    { before with
      delivered := after.delivered
      releasedUnrecoverable := after.releasedUnrecoverable }

theorem Touched.refl (group : FecDecodeGroup) : Touched group group := ⟨fun _ => id, rfl⟩

theorem Touched.trans {first second third : FecDecodeGroup} (before : Touched first second)
    (after : Touched second third) : Touched first third := by
  refine ⟨fun idx => after.delivered_mono idx ∘ before.delivered_mono idx, ?_⟩
  rw [after.rest_eq, before.rest_eq]

theorem Touched.active_eq {before after : FecDecodeGroup} (touched : Touched before after) :
    after.active = before.active := by
  rw [touched.rest_eq]

theorem Touched.groupId_eq {before after : FecDecodeGroup} (touched : Touched before after) :
    after.groupId = before.groupId := by
  rw [touched.rest_eq]

section Willing

variable {fec : FecTransport} {out : FecOutputFn} {recs : List (List UInt8)}

theorem Progress.touched {before after : FecDecodeGroup}
    (progress : Progress fec recs before) (touched : Touched before after) :
    Progress fec recs after := by
  rcases progress with ⟨collecting, waiting⟩ | ⟨completed, delivered⟩
  · left
    rw [touched.rest_eq]
    exact ⟨{ collecting with }, waiting⟩
  · refine Or.inr ⟨?_, fun idx known => touched.delivered_mono idx (delivered idx known)⟩
    rw [touched.rest_eq]
    exact completed

theorem Progress.fresh (fec : FecTransport) (recs : List (List UInt8)) (groupId : UInt64) :
    Progress fec recs { groupClear with active := .collecting, groupId := groupId } := by
  left
  refine ⟨⟨rfl, rfl, ?_, fun _ _ _ => Iff.rfl, ?_⟩, ?_⟩
  · intro _ _ _ contrary
    cases contrary
  · intro _ _ contrary
    cases contrary
  have none : presentCount presentNone fec.n = 0 := by
    rw [presentCount_eq_card, Finset.card_eq_zero]
    exact Finset.filter_false_of_mem fun _ _ => by simp [presentNone]
  have pos := fec.two_le
  change presentCount presentNone fec.n < fec.k
  omega

theorem emitAvailable_touched (fec : FecTransport) (willing : Willing out) (view : GroupView)
    (unblocked : view.group.emitBlocked = false) :
    (emitAvailable fec out view).1 = .ok ∧
      (emitAvailable fec out view).2.group.emitBlocked = false ∧
      Touched view.group (emitAvailable fec out view).2.group := by
  have taken : (emitAvailable fec out view).1 = .ok ∧
      (emitAvailable fec out view).2.group.emitBlocked = false :=
    emitAvailable_willing willing view unblocked
  obtain ⟨status, open_⟩ := taken
  have emitted := emitAvailable_emitted fec out view
  refine ⟨status, open_, emitted.delivered_mono, ?_⟩
  rw [emitted.rest_eq, open_, ← unblocked]

/-- The groups that the release loop visits do not block. -/
def Unblocked (fec : FecTransport) (decoder : FecDecoder) : Prop :=
  ∀ slot < fec.groupWindow, (decoder.groups slot).active = .collecting →
    (decoder.groups slot).emitBlocked = false

variable {dec : FecDecoder}

theorem releaseOldest_willing (willing : Willing out) (newGroupId : UInt64)
    (unblocked : Unblocked fec dec) :
    releaseOldest fec out newGroupId dec = .done (.ok, dec) ∨
      ∃ later, releaseOldest fec out newGroupId dec = .next later ∧
        ∀ slot, Touched (dec.groups slot) (later.groups slot) := by
  unfold releaseOldest
  split
  · exact Or.inl rfl
  rename_i slot found
  obtain ⟨inWin, passes, _⟩ := leastIndex_some _ _ found
  have collecting := (of_decide_eq_true passes).1
  obtain ⟨status, open_, touched⟩ := emitAvailable_touched fec willing
    (dec.view slot) (unblocked slot inWin collecting)
  have ok : (dec.onGroup slot (emitAvailable fec out)).1 = .ok := status
  right
  dsimp only
  rw [if_neg (not_not.mpr ok), FecDecoder.onGroup_snd, FecDecoder.groups_put_same,
    if_neg (by simp [open_])]
  refine ⟨_, rfl, ?_⟩
  intro other
  by_cases same : other = slot
  · rw [same]
    dsimp only
    rw [Function.update_self]
    refine ⟨touched.delivered_mono, ?_⟩
    rw [touched.rest_eq]
    rfl
  · dsimp only
    rw [Function.update_of_ne same, FecDecoder.groups_put_other _ _ same]
    exact Touched.refl _

theorem Unblocked.touched {later : FecDecoder} (unblocked : Unblocked fec dec)
    (touched : ∀ slot, Touched (dec.groups slot) (later.groups slot)) :
    Unblocked fec later := by
  intro slot inWin collecting
  rw [(touched slot).rest_eq] at collecting ⊢
  exact unblocked slot inWin collecting

theorem releaseOlderGroups_willing (willing : Willing out) (newGroupId : UInt64)
    (unblocked : Unblocked fec dec) :
    (releaseOlderGroups fec out newGroupId dec).1 = .ok ∧
      ∀ slot, Touched (dec.groups slot)
        ((releaseOlderGroups fec out newGroupId dec).2.groups slot) := by
  refine loop_induction
    (fun cur => ∀ slot, Touched (dec.groups slot) (cur.groups slot))
    (fun res : FecStatus × FecDecoder =>
      res.1 = .ok ∧ ∀ slot, Touched (dec.groups slot) (res.2.groups slot))
    ?_ ?_ dec fun slot => Touched.refl _
  · intro cur _ touched continued
    rcases releaseOldest_willing willing newGroupId (unblocked.touched touched) with
      left | ⟨next, equation, more⟩
    · rw [left] at continued
      cases continued
    · rw [equation] at continued
      cases continued
      exact fun slot => (touched slot).trans (more slot)
  · intro _ _ touched left
    rcases releaseOldest_willing willing newGroupId (unblocked.touched touched) with
      done | ⟨next, equation, _⟩
    · rw [done] at left
      cases left
      exact ⟨rfl, touched⟩
    · rw [equation] at left
      cases left

theorem raiseHighest_willing (willing : Willing out) (groupId : UInt64)
    (unblocked : Unblocked fec dec) :
    (raiseHighest fec out dec groupId).1 = .ok ∧
      ∀ slot, Touched (dec.groups slot) ((raiseHighest fec out dec groupId).2.groups slot) := by
  unfold raiseHighest
  split
  · obtain ⟨status, touched⟩ := releaseOlderGroups_willing willing groupId unblocked
    dsimp only
    rw [if_neg (not_not.mpr status)]
    exact ⟨rfl, touched⟩
  · exact ⟨rfl, fun slot => Touched.refl _⟩

theorem findGroup_room (out : FecOutputFn) (dec : FecDecoder) (groupId : UInt64)
    (room : (∀ slot < fec.groupWindow, (dec.groups slot).holds groupId = false) →
      ∃ slot < fec.groupWindow, (dec.groups slot).active = .free) :
    ∃ slot < fec.groupWindow, (findGroup fec out dec groupId = (.found slot, dec) ∧
          (dec.groups slot).holds groupId = true) ∨
        (findGroup fec out dec groupId = (.found slot, openGroup dec slot groupId) ∧
          (dec.groups slot).active = .free) := by
  unfold findGroup
  dsimp only
  split
  · rename_i slot found
    have inWin := mem_range.mp (mem_of_find?_eq_some found)
    have held := List.find?_some found
    exact ⟨slot, inWin, Or.inl ⟨rfl, held⟩⟩
  rename_i notHeld
  rw [List.find?_eq_none] at notHeld
  obtain ⟨free, freeLt, isFree⟩ := room fun slot inWin => by
    simpa using notHeld slot (mem_range.mpr inWin)
  split
  · rename_i slot found
    have inWin := mem_range.mp (mem_of_find?_eq_some found)
    exact ⟨slot, inWin, Or.inr ⟨rfl, by simpa using List.find?_some found⟩⟩
  · rename_i noneFree
    rw [List.find?_eq_none] at noneFree
    exact absurd isFree (by simpa using noneFree free (mem_range.mpr freeLt))

theorem Faithful.touched {before after : FecDecodeGroup}
    (faithful : Faithful fec recs before) (touched : Touched before after) :
    Faithful fec recs after := by
  rw [touched.rest_eq]
  exact { faithful with }

end Willing

/-- What `fec_decoder_input` sees of a datagram of the encoder. -/
structure Arrives (fec : FecTransport) (records : UInt64 → List (List UInt8))
    (epoch : UInt32) (datagram : List UInt8) (header : WireHeader) : Prop where
  decoded : wireHeaderDecode datagram = some header
  shape : wireShapeOk fec header datagram.length = true
  sameEpoch : (header.blockId >>> 32).toUInt32 = epoch
  genuine : Genuine fec records header (datagram.drop WIRE_HEADER_SIZE)
  isShard : header.shardIndex.toNat < fec.n
  nonempty : 0 < (records header.blockId).length

theorem groupIdOf_epoch (epoch grp : UInt32) : (groupIdOf epoch grp >>> 32).toUInt32 = epoch := by
  have high := epoch.toNat_lt
  have low := grp.toNat_lt
  refine UInt32.toNat_inj.mp ?_
  rw [UInt64.toNat_toUInt32, UInt64.toNat_shiftRight, toNat_groupIdOf]
  change (epoch.toNat * 2 ^ 32 + grp.toNat) >>> 32 % 2 ^ 32 = _
  rw [Nat.shiftRight_eq_div_pow]
  omega

section Shape

variable {fec : FecTransport} {epoch : UInt32} {enc : FecEncoder}

theorem length_shardDatagram (grp shard validLen payloadLen : Nat) (row : Nat → UInt8) :
    (shardDatagram fec epoch grp shard validLen payloadLen row).length =
      WIRE_HEADER_SIZE + fec.shardSize := by
  simp [shardDatagram]

theorem shardDatagram_shape {grp shard validLen payloadLen : Nat} {row : Nat → UInt8}
    {hdr : WireHeader} (decoded : wireHeaderDecode
      (shardDatagram fec epoch grp shard validLen payloadLen row) = some hdr)
    (isShard : shard < fec.n) (pos : 0 < payloadLen) (short : payloadLen ≤ fec.shardSize)
    (ofRecord : shard < fec.messageShards → validLen = fec.k * fec.shardSize)
    (ofTail : fec.messageShards ≤ shard → payloadLen = fec.shardSize) :
    wireShapeOk fec hdr (WIRE_HEADER_SIZE + fec.shardSize) = true := by
  have size := shardSize_lt fec
  have len_eq : (UInt16.ofNat payloadLen).toNat = payloadLen := by
    rw [UInt16.toNat_ofNat', Nat.mod_eq_of_lt (by omega)]
  have nonzero : UInt16.ofNat payloadLen ≠ 0 := by
    intro zero
    rw [zero] at len_eq
    exact pos.ne len_eq
  have count_eq : (UInt16.ofNat fec.n).toNat = fec.n := by
    have total := fec.total_le
    have limit : FEC_TRANSPORT_MAX_SHARDS = 255 := rfl
    unfold ResolvedConfig.n
    rw [UInt16.toNat_ofNat', Nat.mod_eq_of_lt (by omega)]
  unfold shardDatagram at decoded
  rw [wireHeaderDecode_encode] at decoded
  cases Option.some.inj decoded
  unfold wireShapeOk
  rw [toNat_shard isShard, count_eq, len_eq, if_neg]
  · split
    · rename_i isRecord
      rw [ofRecord isRecord, UInt16.toNat_ofNat', decide_eq_true_eq]
    · rename_i isTail
      exact decide_eq_true (ofTail (not_lt.mp isTail))
  · rintro (contrary | contrary | contrary | contrary | contrary | contrary)
    · exact contrary rfl
    · exact contrary rfl
    · omega
    · exact nonzero contrary
    · omega
    · exact contrary rfl

theorem EncoderInv.arrives (inv : EncoderInv fec epoch enc) {dgram : List UInt8}
    (mem : dgram ∈ enc.enqueued) : ∃ header, Arrives fec enc.recordsOf epoch dgram header := by
  have below := messageShards_lt fec
  have size := fec.size_ge
  rcases inv.enqueued_cases mem with
    ⟨grp, fits, idx, record, found, rfl⟩ | ⟨grp, fits, shard, ne, isTail, isShard, rfl⟩
  · have decoded : ∃ header, wireHeaderDecode
        (dataDatagram fec epoch grp idx record) = some header :=
      ⟨_, wireHeaderDecode_encode _ _⟩
    obtain ⟨header, decoded⟩ := decoded
    obtain ⟨id_eq, index_eq, _⟩ := shardDatagram_decode fec epoch _ _ _ _ _ decoded
    obtain ⟨few, sized⟩ := inv.records_fit (groupIdOf epoch (UInt32.ofNat grp))
    rw [inv.recordsOf_eq fits] at few sized
    have known := (List.getElem?_eq_some_iff.mp found).1
    obtain ⟨pos, short⟩ := sized record (mem_of_getElem? found)
    have isShard : idx < fec.n := by omega
    refine ⟨header, decoded, ?_, ?_, inv.genuine_data fits found decoded, ?_, ?_⟩
    · unfold dataDatagram
      rw [length_shardDatagram]
      exact shardDatagram_shape decoded isShard pos short (fun _ => rfl) (fun _ => by omega)
    · rw [id_eq]
      exact groupIdOf_epoch _ _
    · rw [index_eq, toNat_shard isShard]
      exact isShard
    · rw [id_eq, inv.recordsOf_eq fits]
      omega
  · have decoded : ∃ header, wireHeaderDecode
        (tailDatagram fec epoch grp (enc.records grp) shard) = some header :=
      ⟨_, wireHeaderDecode_encode _ _⟩
    obtain ⟨header, decoded⟩ := decoded
    obtain ⟨id_eq, index_eq, _⟩ := shardDatagram_decode fec epoch _ _ _ _ _ decoded
    refine ⟨header, decoded, ?_, ?_, inv.genuine_tail fits isTail isShard decoded, ?_, ?_⟩
    · unfold tailDatagram
      rw [length_shardDatagram]
      exact shardDatagram_shape decoded isShard (by omega) (le_refl _) (fun _ => by omega)
        (fun _ => rfl)
    · rw [id_eq]
      exact groupIdOf_epoch _ _
    · rw [index_eq, toNat_shard isShard]
      exact isShard
    · rw [id_eq, inv.recordsOf_eq fits]
      exact ne

end Shape

/-- The assumptions on a run: the codec, the records and the callback. -/
structure Setting (fec : FecTransport) (output : FecOutputFn)
    (records : UInt64 → List (List UInt8)) : Prop where
  codec : ShardCodec fec.codec fec.k fec.r fec.shardSize
  tableFits : 1 + 2 * (fec.k - 1) ≤ fec.shardSize
  fit : RecordsFit fec records
  willing : Willing output
  noTimeout : fec.flushTimeoutNs = 0

variable {fec : FecTransport}

theorem Setting.decodable {out : FecOutputFn} {recs : UInt64 → List (List UInt8)}
    (setting : Setting fec out recs) {groupId : UInt64}
    (ne : 0 < (recs groupId).length) : Decodable fec (recs groupId) :=
  ⟨setting.codec, setting.tableFits, (setting.fit groupId).1, (setting.fit groupId).2, ne⟩

def Holding (group : FecDecodeGroup) (groupId : UInt64) (shard : Nat) : Prop :=
  group.holds groupId = true ∧ (group.active = .completed ∨ group.present shard = true)

/-- The decoder after some datagrams, all of groups from `lowest` on that have room in the
slots. -/
structure Receiving (fec : FecTransport) (records : UInt64 → List (List UInt8))
    (epoch : UInt32) (lowest : Nat) (arrived : List (List UInt8)) (decoder : FecDecoder) :
    Prop where
  delivery : DeliveryInv fec decoder
  trusted : Trusted fec records decoder
  answered : ∀ entry ∈ decoder.log, entry.answer = .ok
  epoch_eq : decoder.epoch = epoch
  highest : ∀ highest, decoder.highestGroupId = some highest →
    lowest ≤ highest.toNat ∧ highest.toNat < lowest + fec.groupWindow
  inRange : ∀ slot < fec.groupWindow, (decoder.groups slot).active ≠ .free →
    lowest ≤ (decoder.groups slot).groupId.toNat ∧
      (decoder.groups slot).groupId.toNat < lowest + fec.groupWindow
  progress : ∀ slot < fec.groupWindow, (decoder.groups slot).active ≠ .free →
    Progress fec (records (decoder.groups slot).groupId) (decoder.groups slot)
  kept : ∀ datagram ∈ arrived, ∀ header, wireHeaderDecode datagram = some header →
    ∃ slot < fec.groupWindow,
      Holding (decoder.groups slot) header.blockId header.shardIndex.toNat

section Receiving

variable {fec : FecTransport} {out : FecOutputFn}
  {records : UInt64 → List (List UInt8)} {epoch : UInt32} {lowest : Nat}
  {arrived : List (List UInt8)} {decoder later : FecDecoder}

theorem fecDecoderReset_receiving (fec : FecTransport)
    (recs : UInt64 → List (List UInt8)) (epoch : UInt32) (lowest : Nat) :
    Receiving fec recs epoch lowest [] (fecDecoderReset epoch) where
  delivery := fecDecoderReset_deliveryInv fec epoch
  trusted := fecDecoderReset_trusted fec recs epoch
  answered := fun _ mem => absurd mem not_mem_nil
  epoch_eq := rfl
  highest := fun _ contrary => by cases contrary
  inRange := fun _ _ occ => absurd rfl occ
  progress := fun _ _ occ => absurd rfl occ
  kept := fun _ mem => absurd mem not_mem_nil

variable (receiving : Receiving fec records epoch lowest arrived decoder)
include receiving

theorem Receiving.unblocked : Unblocked fec decoder := by
  intro slot inWin collecting
  rcases receiving.progress slot inWin (by simp [collecting]) with
    ⟨inSlot, _⟩ | ⟨completed, _⟩
  · exact inSlot.unblocked
  · rw [collecting] at completed
    cases completed

omit receiving

variable {unchecked : Prop} {received : WireHeader → List UInt8 → Prop} {groupId : UInt64}

variable {clears : Option UInt64 → FecDecodeGroup → Prop} {shard : Nat}

theorem DecoderMove.answered (willing : Willing out)
    (move : DecoderMove fec out unchecked received clears decoder later)
    (answered : ∀ entry ∈ decoder.log, entry.answer = .ok) :
    later.epoch = decoder.epoch ∧ ∀ entry ∈ later.log, entry.answer = .ok := by
  cases move with
  | inGroup _ _ _ _ move =>
    refine ⟨rfl, ?_⟩
    cases move with
    | called _ _ _ _ _ _ answer_eq =>
      intro entry mem
      rcases mem_append.mp mem with earlier | new
      · exact answered entry earlier
      · rw [mem_singleton.mp new, ← answer_eq]
        exact willing _ _
    | counted | hinted | stored | lengthRead | accepted | recovered | unrecovered => exact answered
    | completed | released => exact answered
  | counted | raised | opened | cleared => exact ⟨rfl, answered⟩

theorem DecoderMoves.answered (willing : Willing out)
    (moves : DecoderMoves fec out unchecked received clears decoder later)
    (answered : ∀ entry ∈ decoder.log, entry.answer = .ok) :
    later.epoch = decoder.epoch ∧ ∀ entry ∈ later.log, entry.answer = .ok := by
  induction moves with
  | refl => exact ⟨rfl, answered⟩
  | tail _ move ih =>
    obtain ⟨same, before⟩ := ih
    obtain ⟨step, after⟩ := move.answered willing before
    exact ⟨step.trans same, after⟩

theorem DeliveryInv.room (inv : DeliveryInv fec decoder)
    (inRange : ∀ slot < fec.groupWindow, (decoder.groups slot).active ≠ .free →
      lowest ≤ (decoder.groups slot).groupId.toNat ∧
        (decoder.groups slot).groupId.toNat < lowest + fec.groupWindow)
    (newInRange : lowest ≤ groupId.toNat ∧ groupId.toNat < lowest + fec.groupWindow)
    (unused : ∀ slot < fec.groupWindow, (decoder.groups slot).holds groupId = false) :
    ∃ slot < fec.groupWindow, (decoder.groups slot).active = .free := by
  by_contra full
  have occ : ∀ slot < fec.groupWindow, (decoder.groups slot).active ≠ .free :=
    fun slot inWin free => full ⟨slot, inWin, free⟩
  have pos := fec.window_pos
  have span := inv.full_span lowest (lowest + fec.groupWindow - 1) occ unused
    (fun slot inWin => by
      have := inRange slot inWin (occ slot inWin)
      omega) (by omega)
  omega

theorem Holding.touched {before after : FecDecodeGroup} (holding : Holding before groupId shard)
    (touched : Touched before after) : Holding after groupId shard := by
  rw [touched.rest_eq]
  exact holding

theorem Holding.moves {view after : GroupView} (holding : Holding view.group groupId shard)
    (moves : GroupMoves fec out unchecked received view after) :
    Holding after.group groupId shard := by
  obtain ⟨groupId_eq, active, collecting⟩ := moves.sameGroup
  obtain ⟨holds, arrived⟩ := holding
  have held := of_decide_eq_true holds
  refine ⟨decide_eq_true ⟨active held.1, groupId_eq.trans held.2⟩, ?_⟩
  rcases arrived with completed | present
  · left
    cases st : after.group.active with
    | free => exact absurd st (active held.1)
    | collecting =>
      rw [completed] at collecting
      cases collecting st
    | completed => rfl
  · exact Or.inr (moves.present_mono present)

/-- The slot of a group, found or opened; the other slots are only touched. -/
structure Located (fec : FecTransport) (records : UInt64 → List (List UInt8))
    (decoder : FecDecoder) (groupId : UInt64) (located : FecDecoder) (slot : Nat) : Prop where
  inWindow : slot < fec.groupWindow
  highest_eq : located.highestGroupId = raisedHighest decoder.highestGroupId groupId
  occupied : (located.groups slot).active ≠ .free
  groupId_eq : (located.groups slot).groupId = groupId
  faithful : Faithful fec (records groupId) (located.groups slot)
  progress : Progress fec (records groupId) (located.groups slot)
  same : (decoder.groups slot).active ≠ .free →
    Touched (decoder.groups slot) (located.groups slot)
  others : ∀ other ≠ slot, Touched (decoder.groups other) (located.groups other)

include receiving

theorem Receiving.room (willing : Willing out)
    (newInRange : lowest ≤ groupId.toNat ∧ groupId.toNat < lowest + fec.groupWindow)
    (unused : ∀ slot < fec.groupWindow,
      ((raiseHighest fec out decoder groupId).2.groups slot).holds groupId = false) :
    ∃ slot < fec.groupWindow,
      ((raiseHighest fec out decoder groupId).2.groups slot).active = .free := by
  obtain ⟨_, touched⟩ := raiseHighest_willing willing groupId receiving.unblocked
  have moves : DecoderMoves fec out False (Genuine fec records)
      (Forgettable fec) decoder (raiseHighest fec out decoder groupId).2 :=
    raiseHighest_moves fec out decoder groupId
  refine (DecoderMoves.deliveryInv moves receiving.delivery).room ?_ newInRange unused
  intro slot inWin occ
  rw [(touched slot).active_eq] at occ
  rw [(touched slot).groupId_eq]
  exact receiving.inRange slot inWin occ

theorem Receiving.located (willing : Willing out) {hdr : WireHeader} (body : List UInt8)
    (now : UInt64) (newInRange : lowest ≤ hdr.blockId.toNat ∧
      hdr.blockId.toNat < lowest + fec.groupWindow) :
    ∃ located slot, Located fec records decoder hdr.blockId located slot ∧
      inputGroup fec out decoder hdr body now =
        located.onGroup slot (inputShard fec out hdr body now) := by
  obtain ⟨status, touched⟩ := raiseHighest_willing willing hdr.blockId receiving.unblocked
  obtain ⟨highest_eq, _⟩ := raiseHighest_ok fec out status
  obtain ⟨slot, inWin, found⟩ := findGroup_room out
    (raiseHighest fec out decoder hdr.blockId).2 hdr.blockId
    (receiving.room willing newInRange)
  have step : ∀ located, findGroup fec out
      (raiseHighest fec out decoder hdr.blockId).2 hdr.blockId =
        (.found slot, located) →
      inputGroup fec out decoder hdr body now =
        located.onGroup slot (inputShard fec out hdr body now) := by
    intro _ equation
    unfold inputGroup
    dsimp only
    rw [if_neg (not_not.mpr status), equation]
  rcases found with ⟨equation, holds⟩ | ⟨equation, free⟩
  · have held := of_decide_eq_true holds
    have occ : (decoder.groups slot).active ≠ .free := (touched slot).active_eq ▸ held.1
    have groupId_eq := (touched slot).groupId_eq.symm.trans held.2
    have faithful := receiving.trusted.slots slot
    have progress := receiving.progress slot inWin occ
    rw [groupId_eq] at faithful progress
    exact ⟨_, slot, ⟨inWin, highest_eq, held.1, held.2, faithful.touched (touched slot),
      progress.touched (touched slot), fun _ => touched slot, fun other _ => touched other⟩,
      step _ equation⟩
  have opened_eq : (openGroup (raiseHighest fec out decoder hdr.blockId).2 slot
      hdr.blockId).groups slot =
        { groupClear with active := .collecting, groupId := hdr.blockId } := by
    simp [openGroup]
  refine ⟨_, slot, ?_, step _ equation⟩
  refine ⟨inWin, highest_eq, ?_, ?_, ?_, ?_, ?_, ?_⟩
  · rw [opened_eq]
    simp
  · rw [opened_eq]
  · rw [opened_eq]
    exact Faithful.fresh fec _ _ _
  · rw [opened_eq]
    exact Progress.fresh fec _ _
  · intro occ
    rw [(touched slot).active_eq] at free
    exact absurd free occ
  · intro other apart
    simp only [openGroup, Function.update_of_ne apart]
    exact touched other

theorem Receiving.input (setting : Setting fec out records) {dgram : List UInt8}
    {header : WireHeader} (arrives : Arrives fec records epoch dgram header)
    (newInRange : lowest ≤ header.blockId.toNat ∧
      header.blockId.toNat < lowest + fec.groupWindow) (now : UInt64) :
    Receiving fec records epoch lowest (arrived ++ [dgram])
      (fecDecoderInput fec out decoder dgram now).2 := by
  have recent : behindWindow fec decoder.highestGroupId header.blockId = false := by
    cases highest_eq : decoder.highestGroupId with
    | none => rfl
    | some highest =>
      have range := receiving.highest highest highest_eq
      rw [← Bool.not_eq_true, behindWindow_iff]
      omega
  have admitted : Admitted fec decoder dgram header :=
    ⟨arrives.decoded, arrives.shape, receiving.epoch_eq ▸ arrives.sameEpoch, recent⟩
  have moves : DecoderMoves fec out False (Genuine fec records)
      (Forgettable fec) decoder (inputGroup fec out decoder header
        (dgram.drop WIRE_HEADER_SIZE) now).2 := by
    refine inputGroup_moves fec out now arrives.genuine recent fun _ =>
      ⟨fun slot unused occ _ => ?_, fun slot _ unused occ _ _ _ _ => ?_⟩
    all_goals
      obtain ⟨free, freeLt, isFree⟩ := receiving.room setting.willing newInRange unused
      exact absurd isFree (occ free freeLt)
  obtain ⟨located, slot, found, equation⟩ := receiving.located setting.willing
    (dgram.drop WIRE_HEADER_SIZE) now newInRange
  obtain ⟨epoch_eq, answered⟩ := DecoderMoves.answered setting.willing moves receiving.answered
  rw [fecDecoderInput_admitted fec out admitted now]
  have delivery := DecoderMoves.deliveryInv moves receiving.delivery
  have trusted := DecoderMoves.trusted setting.codec setting.tableFits setting.fit moves
    receiving.trusted
  rw [equation] at delivery trusted answered epoch_eq ⊢
  have forGroup := found.groupId_eq.symm
  have slotMoves : GroupMoves fec out False (Genuine fec records)
      (located.view slot) (inputShard fec out header (dgram.drop WIRE_HEADER_SIZE) now
        (located.view slot)).2 :=
    inputShard_moves fec out header _ now _ arrives.genuine forGroup
  have slotFaithful : Faithful fec (records header.blockId) (located.view slot).group :=
    found.faithful
  obtain ⟨progress, holding⟩ := slotFaithful.inputShard_progress
    (setting.decodable arrives.nonempty) setting.willing found.progress
    (arrives.genuine.ofGroup rfl) arrives.isShard forGroup now
  obtain ⟨groupId_eq, occ, _⟩ := slotMoves.sameGroup
  rw [FecDecoder.onGroup_snd] at delivery trusted answered epoch_eq ⊢
  generalize after_eq : (inputShard fec out header (dgram.drop WIRE_HEADER_SIZE) now
    (located.view slot)).2 = after at *
  have afterId : after.group.groupId = header.blockId := groupId_eq.trans found.groupId_eq
  refine ⟨delivery, trusted, answered, epoch_eq.trans receiving.epoch_eq, ?_, ?_, ?_, ?_⟩
  · intro highest highest_eq
    change located.highestGroupId = some highest at highest_eq
    rw [found.highest_eq, raisedHighest] at highest_eq
    split at highest_eq
    · cases highest_eq
      exact newInRange
    · exact receiving.highest highest highest_eq
  · intro other otherLt inUse
    by_cases same : other = slot
    · rw [same, FecDecoder.groups_put_same, afterId]
      exact newInRange
    rw [FecDecoder.groups_put_other _ _ same] at inUse ⊢
    rw [(found.others other same).active_eq] at inUse
    rw [(found.others other same).groupId_eq]
    exact receiving.inRange other otherLt inUse
  · intro other otherLt inUse
    by_cases same : other = slot
    · rw [same, FecDecoder.groups_put_same, afterId]
      exact progress
    rw [FecDecoder.groups_put_other _ _ same] at inUse ⊢
    rw [(found.others other same).active_eq] at inUse
    rw [(found.others other same).groupId_eq]
    exact (receiving.progress other otherLt inUse).touched (found.others other same)
  intro earlier mem other decoded
  rcases mem_append.mp mem with old | new
  · obtain ⟨holder, holderLt, held⟩ := receiving.kept earlier old other decoded
    refine ⟨holder, holderLt, ?_⟩
    by_cases same : holder = slot
    · subst same
      rw [FecDecoder.groups_put_same]
      have touched := found.same (of_decide_eq_true held.1).1
      have viewed := held.touched touched
      exact viewed.moves slotMoves
    · rw [FecDecoder.groups_put_other _ _ same]
      exact held.touched (found.others holder same)
  · rw [mem_singleton.mp new, arrives.decoded] at decoded
    cases decoded
    refine ⟨slot, found.inWindow, ?_⟩
    rw [FecDecoder.groups_put_same]
    exact ⟨decide_eq_true ⟨occ found.occupied, afterId⟩, holding⟩

omit receiving in
theorem eachGroup_idle (visit : GroupView → FecStatus × GroupView) (slots : List Nat)
    (dec : FecDecoder) (idle : ∀ slot ∈ slots, visit (dec.view slot) = (.ok, dec.view slot)) :
    eachGroup visit slots dec = (.ok, dec) := by
  induction slots with
  | nil => rfl
  | cons slot _ ih =>
    have first : dec.onGroup slot visit = (.ok, dec) := by
      unfold FecDecoder.onGroup
      rw [idle slot mem_cons_self]
      simp
    rw [eachGroup, first]
    exact ih fun other mem => idle other (mem_cons_of_mem _ mem)

theorem Receiving.update (noTimeout : fec.flushTimeoutNs = 0) (now : UInt64) :
    (fecDecoderUpdate fec out decoder now).2 = decoder := by
  have retried : retryBlocked fec out decoder = (.ok, decoder) := by
    refine eachGroup_idle _ _ decoder ?_
    intro slot mem
    refine if_pos ?_
    by_cases collecting : (decoder.groups slot).active = .collecting
    · exact Or.inr (receiving.unblocked slot (mem_range.mp mem) collecting)
    · exact Or.inl collecting
  unfold fecDecoderUpdate
  rw [retried]
  dsimp only
  rw [if_neg (by simp), if_pos noTimeout]

omit receiving

def arrivals (calls : List FecDecoderCall) : List (List UInt8) :=
  calls.filterMap fun
    | .input datagram _ => some datagram
    | .update _ => none

theorem Receiving.run (setting : Setting fec out records) (calls : List FecDecoderCall)
    (all : ∀ dgram ∈ arrivals calls, ∃ hdr,
      Arrives fec records epoch dgram hdr ∧ lowest ≤ hdr.blockId.toNat ∧
        hdr.blockId.toNat < lowest + fec.groupWindow)
    (decoder : FecDecoder) (arrived : List (List UInt8))
    (receiving : Receiving fec records epoch lowest arrived decoder) :
    Receiving fec records epoch lowest (arrived ++ arrivals calls)
      (calls.foldl (fun decoder call => (decoder.call fec out call).2) decoder) := by
  induction calls generalizing decoder arrived with
  | nil => simpa [arrivals] using receiving
  | cons call rest ih =>
    rw [foldl_cons]
    cases call with
    | input dgram now =>
      have split : arrivals (.input dgram now :: rest) = dgram :: arrivals rest := rfl
      rw [split] at all ⊢
      obtain ⟨_, arrives, range⟩ := all dgram mem_cons_self
      have first := receiving.input setting arrives range now
      have final := ih (fun other mem => all other (mem_cons_of_mem _ mem)) _ _ first
      rw [append_assoc] at final
      exact final
    | update now =>
      have same : arrivals (.update now :: rest) = arrivals rest := rfl
      have idle : (decoder.call fec out (.update now)).2 = decoder :=
        receiving.update setting.noTimeout now
      rw [same] at all ⊢
      rw [idle]
      exact ih all decoder arrived receiving

def sentShards (fec : FecTransport) (count : Nat) : List Nat :=
  List.range count ++ tailShards fec

theorem Collecting.sent_le {recs : List (List UInt8)} {grp : FecDecodeGroup}
    (collecting : Collecting fec recs grp) (few : recs.length ≤ fec.messageShards)
    (waiting : presentCount grp.present fec.n < fec.k) :
    (sentShards fec recs.length).countP grp.present ≤ recs.length := by
  by_contra enough
  rw [not_le, countP_eq_length_filter] at enough
  have below := messageShards_lt fec
  -- more than the records have arrived, so a tail has
  have tail : ∃ shard ∈ tailShards fec, grp.present shard = true := by
    by_contra noTail
    have nothing : (tailShards fec).filter grp.present = [] :=
      filter_eq_nil_iff.mpr fun shard mem present => noTail ⟨shard, mem, present⟩
    rw [sentShards, filter_append, nothing, append_nil] at enough
    have := length_filter_le grp.present (List.range recs.length)
    rw [length_range] at this
    omega
  obtain ⟨shard, mem, present⟩ := tail
  obtain ⟨isTail, isShard⟩ := (mem_tailShards fec).mp mem
  have hinted := collecting.tailHint shard isShard isTail present
  have nodup : ((sentShards fec recs.length).filter grp.present).Nodup := by
    refine List.Nodup.filter _ (nodup_append.mpr ⟨nodup_range, ?_, ?_⟩)
    · exact nodup_range'
    intro _ inRange _ inTails _
    have := (mem_tailShards fec).mp inTails
    rw [mem_range] at inRange
    omega
  have disjoint : Disjoint ((sentShards fec recs.length).filter grp.present).toFinset
      (Finset.Ico recs.length fec.messageShards) := by
    rw [Finset.disjoint_left]
    intro s sent zero
    rw [mem_toFinset, mem_filter, sentShards, mem_append, mem_range, mem_tailShards] at sent
    rw [Finset.mem_Ico] at zero
    omega
  have subset : ((sentShards fec recs.length).filter grp.present).toFinset ∪
      Finset.Ico recs.length fec.messageShards ⊆ presentShards grp.present fec.n := by
    intro s mem
    rw [presentShards, Finset.mem_filter, Finset.mem_range]
    rcases Finset.mem_union.mp mem with sent | zero
    · rw [mem_toFinset, mem_filter, sentShards, mem_append, mem_range, mem_tailShards] at sent
      exact ⟨by omega, sent.2⟩
    · rw [Finset.mem_Ico] at zero
      exact ⟨by omega, (collecting.zeros s zero.2 zero.1).mpr hinted⟩
  have count := Finset.card_le_card subset
  rw [Finset.card_union_of_disjoint disjoint, toFinset_card_of_nodup nodup, Nat.card_Ico,
    ← presentCount_eq_card] at count
  unfold ResolvedConfig.messageShards at count below few
  omega

theorem filter_key_eq {α β : Type} [DecidableEq β] (key : α → β) {entries : List α}
    (distinct : (entries.map key).Nodup) {entry : α} (mem : entry ∈ entries) :
    entries.filter (fun other => key other = key entry) = [entry] := by
  induction entries with
  | nil => exact absurd mem not_mem_nil
  | cons _ _ ih =>
    rw [map_cons, nodup_cons] at distinct
    rcases mem_cons.mp mem with rfl | inRest
    · rw [filter_cons_of_pos (by simp), filter_eq_nil_iff.mpr]
      intro _ inRest same
      rw [decide_eq_true_eq] at same
      exact distinct.1 (same ▸ mem_map_of_mem inRest)
    · rw [filter_cons_of_neg, ih distinct.2 inRest]
      rw [decide_eq_true_eq]
      intro same
      exact distinct.1 (same ▸ mem_map_of_mem inRest)

def FecDecoder.offersOf (decoder : FecDecoder) (groupId : UInt64) (index : Nat) :
    List FecDelivery :=
  decoder.log.filter fun entry => (entry.groupId, entry.index) = (groupId, index)

include receiving

theorem Receiving.offersOf_eq {slot : Nat} (inWin : slot < fec.groupWindow)
    (completed : (decoder.groups slot).active = .completed)
    (delivered : Delivered (records (decoder.groups slot).groupId) (decoder.groups slot))
    (idx : Nat) :
    decoder.offersOf (decoder.groups slot).groupId idx =
      ((records (decoder.groups slot).groupId)[idx]?.map fun record =>
        ⟨(decoder.groups slot).groupId, idx, record, .ok⟩).toList := by
  have keys : acceptedKeys decoder.log =
      decoder.log.map fun entry => (entry.groupId, entry.index) := by
    unfold acceptedKeys
    rw [filter_eq_self.mpr fun entry mem => by simp [receiving.answered entry mem]]
  have once := receiving.delivery.once
  rw [keys] at once
  have true_of : ∀ entry ∈ decoder.log,
      (entry.groupId, entry.index) = ((decoder.groups slot).groupId, idx) →
      (records (decoder.groups slot).groupId)[idx]? = some entry.data := by
    intro entry mem same
    obtain ⟨id_eq, index_eq⟩ := Prod.mk.inj same
    have offered := receiving.trusted.offered entry mem
    rwa [id_eq, index_eq] at offered
  by_cases known : idx < (records (decoder.groups slot).groupId).length
  · have accepted := (receiving.delivery.recorded slot inWin (by simp [completed]) idx).mp
      (delivered idx known)
    rw [keys] at accepted
    obtain ⟨entry, mem, same⟩ := mem_map.mp accepted
    have found := true_of entry mem same
    have selected := filter_key_eq (fun entry : FecDelivery => (entry.groupId, entry.index)) once
      mem
    rw [same] at selected
    obtain ⟨id_eq, index_eq⟩ := Prod.mk.inj same
    rw [FecDecoder.offersOf, selected, found, Option.map_some, Option.toList_some, ← id_eq,
      ← index_eq, ← receiving.answered entry mem]
  · rw [List.getElem?_eq_none (not_lt.mp known), Option.map_none, Option.toList_none,
      FecDecoder.offersOf, filter_eq_nil_iff]
    intro entry mem same
    have found := true_of entry mem (by simpa using same)
    rw [List.getElem?_eq_none (not_lt.mp known)] at found
    cases found

end Receiving

def sentDatagram (fec : FecTransport) (epoch : UInt32) (group : Nat)
    (records : List (List UInt8)) (shard : Nat) : List UInt8 :=
  if shard < records.length then
    dataDatagram fec epoch group shard (records.getD shard [])
  else tailDatagram fec epoch group records shard

theorem groupDatagrams_eq (epoch : UInt32) (grp : Nat) {recs : List (List UInt8)}
    (few : recs.length ≤ fec.messageShards) :
    groupDatagrams fec epoch grp recs = (sentShards fec recs.length).map
        (sentDatagram fec epoch grp recs) := by
  unfold groupDatagrams sentShards
  rw [map_append]
  congr 1
  · unfold dataDatagrams
    refine ext_getElem (by simp) ?_
    intro idx inRecords _
    have known : idx < recs.length := by simpa using inRecords
    rw [getElem_mapIdx, getElem_map, getElem_range, sentDatagram, if_pos known,
      getD_of_found (List.getElem?_eq_getElem known)]
  · refine map_congr_left ?_
    intro _ mem
    have isTail := (mem_tailShards fec).mp mem
    rw [sentDatagram, if_neg (by omega)]

theorem sentDatagram_decode (epoch : UInt32) (grp : Nat) (recs : List (List UInt8))
    {shard : Nat} (isShard : shard < fec.n) :
    ∃ hdr, wireHeaderDecode (sentDatagram fec epoch grp recs shard) = some hdr ∧
      hdr.blockId = groupIdOf epoch (UInt32.ofNat grp) ∧ hdr.shardIndex.toNat = shard := by
  unfold sentDatagram
  split
  all_goals exact ⟨_, wireHeaderDecode_encode _ _, rfl, toNat_shard isShard⟩

section Enough

variable {fec : FecTransport} {recs : UInt64 → List (List UInt8)} {epoch : UInt32}
  {lowest grp : Nat} {arrived : List (List UInt8)} {dec : FecDecoder}
  {groupRecords : List (List UInt8)}

theorem Receiving.completed (receiving : Receiving fec recs epoch lowest arrived dec)
    (records_eq : recs (groupIdOf epoch (UInt32.ofNat grp)) = groupRecords)
    (few : groupRecords.length ≤ fec.messageShards) (enough : groupRecords.length + 1 ≤
      (groupDatagrams fec epoch grp groupRecords).countP (· ∈ arrived)) :
    ∃ slot < fec.groupWindow, (dec.groups slot).groupId = groupIdOf epoch (UInt32.ofNat grp) ∧
        (dec.groups slot).active = .completed ∧
        Delivered groupRecords (dec.groups slot) := by
  have below := messageShards_lt fec
  rw [groupDatagrams_eq epoch grp few, countP_map] at enough
  have held : ∀ shard ∈ sentShards fec groupRecords.length,
      sentDatagram fec epoch grp groupRecords shard ∈ arrived →
      ∃ slot < fec.groupWindow,
        Holding (dec.groups slot) (groupIdOf epoch (UInt32.ofNat grp)) shard := by
    intro shard mem inArrived
    have isShard : shard < fec.n := by
      rw [sentShards, mem_append, mem_range, mem_tailShards] at mem
      omega
    obtain ⟨hdr, decoded, id_eq, index_eq⟩ := sentDatagram_decode epoch grp groupRecords isShard
    have kept := receiving.kept _ inArrived hdr decoded
    rwa [id_eq, index_eq] at kept
  obtain ⟨shard, mem, inArrived⟩ := countP_pos_iff.mp ((Nat.succ_pos _).trans_le enough)
  obtain ⟨slot, inWin, holds, _⟩ := held shard mem (of_decide_eq_true inArrived)
  obtain ⟨occ, groupId_eq⟩ := of_decide_eq_true holds
  have progress := receiving.progress slot inWin occ
  rw [groupId_eq, records_eq] at progress
  rcases progress with ⟨collecting, waiting⟩ | ⟨completed, delivered⟩
  · have fewer := collecting.sent_le few waiting
    have more : (sentShards fec groupRecords.length).countP
        ((fun dgram => decide (dgram ∈ arrived)) ∘
          sentDatagram fec epoch grp groupRecords) ≤
        (sentShards fec groupRecords.length).countP (dec.groups slot).present := by
      refine countP_mono_left ?_
      intro other otherMember otherArrived
      obtain ⟨holder, holderLt, otherHolds, arrivedHere⟩ :=
        held other otherMember (of_decide_eq_true otherArrived)
      obtain ⟨otherOccupied, otherId⟩ := of_decide_eq_true otherHolds
      have same := receiving.delivery.distinct holder holderLt slot inWin otherOccupied occ
        (otherId.trans groupId_eq.symm)
      rw [same, collecting.active_eq] at arrivedHere
      exact arrivedHere.resolve_left (by simp)
    omega
  · exact ⟨slot, inWin, groupId_eq, completed, delivered⟩

end Enough

/-- Every finished group of which at least one datagram more than it has records arrives is
delivered: each record once, as it was pushed. -/
theorem group_recovered {transport : FecTransport} {backend bound : FecBackend}
    (reached : RsReachable backend.rs) {cpu : RsEncode.CpuFeatures} {config : FecTransportConfig}
    (created : fecTransportCreate backend cpu config = some (transport, bound))
    (tableFits : 1 + 2 * (transport.k - 1) ≤ transport.shardSize)
    (noTimeout : transport.flushTimeoutNs = 0) (senderOutput output : FecOutputFn)
    (willing : ∀ call data, output call data = .ok) (epoch : UInt32) (pushes : List FecEncoderCall)
    (calls : List FecDecoderCall) (fed : ∀ datagram ∈ arrivals calls,
      datagram ∈ (encodeAll transport senderOutput epoch pushes).produced) (lowest : Nat)
    (span : ∀ datagram ∈ arrivals calls, ∀ header, wireHeaderDecode datagram = some header →
      lowest ≤ header.blockId.toNat ∧ header.blockId.toNat < lowest + transport.groupWindow)
    (group : Nat) (records : List (List UInt8))
    (finished : (encodeAll transport senderOutput epoch pushes).finished[group]? = some records)
    (enough : records.length + 1 ≤
      (groupDatagrams transport epoch group records).countP (· ∈ arrivals calls)) :
    ∀ index, (decodeAll transport output epoch calls).offersOf
        (groupIdOf epoch (UInt32.ofNat group)) index = (records[index]?.map fun record =>
        ⟨groupIdOf epoch (UInt32.ofNat group), index, record, .ok⟩).toList := by
  obtain ⟨codec, _⟩ := fecTransportCreate_shardCodec reached created
  obtain ⟨settled, _⟩ := encodeAll_settled codec tableFits senderOutput epoch pushes
  have setting : Setting transport output
      (encodeAll transport senderOutput epoch pushes).recordsOf :=
    ⟨codec, tableFits, settled.records_fit, willing, noTimeout⟩
  have arrive : ∀ datagram ∈ arrivals calls, ∃ header,
      Arrives transport (encodeAll transport senderOutput epoch pushes).recordsOf epoch datagram
        header ∧
      lowest ≤ header.blockId.toNat ∧ header.blockId.toNat < lowest + transport.groupWindow := by
    intro datagram member
    have sent := fed datagram member
    unfold FecEncoder.produced at sent
    rw [settled.order] at sent
    obtain ⟨header, arrives⟩ := settled.arrives sent
    exact ⟨header, arrives, span datagram member header arrives.decoded⟩
  have receiving := Receiving.run setting calls arrive _ []
    (fecDecoderReset_receiving transport _ epoch lowest)
  have known := (List.getElem?_eq_some_iff.mp finished).1
  have fits : group < 2 ^ 32 := known.trans_le settled.finished_lt.1
  have records_eq : (encodeAll transport senderOutput epoch pushes).recordsOf
      (groupIdOf epoch (UInt32.ofNat group)) = records := by
    rw [settled.recordsOf_eq fits, FecEncoder.records, List.getD_append _ _ _ _ known,
      List.getD_eq_getElem?_getD, finished, Option.getD_some]
  have few := (settled.finished_le records (List.mem_of_getElem? finished)).2
  obtain ⟨_, inWindow, groupId_eq, completed, delivered⟩ :=
    receiving.completed records_eq few enough
  intro index
  have exact_offers := receiving.offersOf_eq inWindow completed
    (by rw [groupId_eq, records_eq]; exact delivered) index
  rw [groupId_eq, records_eq] at exact_offers
  exact exact_offers

/-- The datagrams of `twoRecords`, of which the first is lost and the others come in
another order. -/
def reorderedCalls : List FecDecoderCall :=
  [.input (twoRecords.sent.getD 3 []) 1, .input (twoRecords.sent.getD 1 []) 2,
    .input (twoRecords.sent.getD 2 []) 3]

theorem group_recovered_reordered :
    (decodeAll (smallTransport 0) (fun _ _ => .ok) 0 reorderedCalls).offersOf
        (groupIdOf 0 (UInt32.ofNat 0)) 0 = [⟨groupIdOf 0 (UInt32.ofNat 0), 0, [7], .ok⟩] ∧
      (decodeAll (smallTransport 0) (fun _ _ => .ok) 0 reorderedCalls).offersOf
          (groupIdOf 0 (UInt32.ofNat 0)) 1 = [⟨groupIdOf 0 (UInt32.ofNat 0), 1, [8], .ok⟩] := by
  obtain ⟨_, created⟩ := fecTransportCreate_small 0
  have recovered := group_recovered .init created (by decide) rfl (fun _ _ => .ok) (fun _ _ => .ok)
    (fun _ _ => rfl) 0 [.push [7] 1, .push [8] 2, .drain 4] reorderedCalls (by decide +kernel) 0
    (by
      have ids : ∀ datagram ∈ arrivals reorderedCalls,
          (wireHeaderDecode datagram).map WireHeader.blockId = some 0 := by decide +kernel
      intro datagram member header decoded
      have id_eq := ids datagram member
      rw [decoded] at id_eq
      have zero : header.blockId = 0 := Option.some.inj id_eq
      rw [zero]
      decide) 0 [[7], [8]] (by decide +kernel) (by decide +kernel)
  exact ⟨recovered 0, recovered 1⟩

end MultiFlow.Fec
