import MultiFlow.Fec.Recovery

/-!
# What a rejected datagram leaves behind

`fec_decoder_input` checks the record count of a tail (`apply_tail_hint`) only when the watermark is
raised, older groups are released and a slot is found or taken.  A datagram that is rejected there
has no effect exactly when its group had a slot already.
-/

namespace MultiFlow.Fec

open CodecApi Lib Wire

section Status

variable (fec : FecTransport) (out : FecOutputFn)

theorem answeredStatus_ne (answer : FecOutputStatus) : answeredStatus answer ≠ .wireHeader := by
  cases answer with
  | _ => decide

variable (view : GroupView)

theorem emitRecord_ne (shard length : Nat) :
    (emitRecord out view shard length).1 ≠ .wireHeader := by
  unfold emitRecord
  split
  · nofun
  split
  · nofun
  · exact answeredStatus_ne _

theorem emitRecords_ne (choice : FecDecodeGroup → Nat → EmitChoice)
    (leaves : ∀ grp index status, choice grp index = .leave status → status ≠ .wireHeader)
    (indices : List Nat) (view : GroupView) :
    (emitRecords out choice indices view).1 ≠ .wireHeader := by
  induction indices generalizing view with
  | nil => rintro ⟨⟩
  | cons index _ ih =>
    rw [emitRecords]
    split
    · exact ih view
    · rename_i chosen
      exact leaves _ _ _ chosen
    rename_i length _
    dsimp only
    split
    · exact emitRecord_ne out view index length
    split
    · rintro ⟨⟩
    · exact ih _

theorem emitContiguous_ne : (emitContiguous fec out view).1 ≠ .wireHeader := by
  refine emitRecords_ne out _ ?_ _ view
  intro _ _ _ chosen
  unfold chooseContiguous at chosen
  split at chosen
  · cases chosen
  split at chosen
  · cases chosen
    decide
  split at chosen
  · cases chosen
    decide
  · cases chosen

theorem emitAvailable_ne : (emitAvailable fec out view).1 ≠ .wireHeader := by
  refine emitRecords_ne out _ ?_ _ view
  intro _ _ _ chosen
  unfold chooseAvailable at chosen
  split at chosen
  · cases chosen
  split at chosen
  · cases chosen
  · cases chosen

theorem readLengths_ne (indices : List Nat) (grp : FecDecodeGroup) :
    (readLengths fec indices grp).1 ≠ .wireHeader := by
  induction indices generalizing grp with
  | nil => rintro ⟨⟩
  | cons _ _ ih =>
    rw [readLengths]
    split
    · rintro ⟨⟩
    split
    · rintro ⟨⟩
    split
    · exact ih _
    · exact ih _

theorem acceptMetadata_ne (grp : FecDecodeGroup) : (acceptMetadata fec grp).1 ≠ .wireHeader := by
  have parsed : (parseMetadata fec grp).1 ≠ .wireHeader := by
    unfold parseMetadata
    dsimp only
    split
    · nofun
    split
    · nofun
    split
    · nofun
    · exact readLengths_ne fec _ grp
  unfold acceptMetadata
  dsimp only
  split
  · exact parsed
  · nofun

theorem emitRecovered_ne : (emitRecovered fec out view).1 ≠ .wireHeader := by
  have emitted : (emitFromMetadata fec out view).1 ≠ .wireHeader := by
    unfold emitFromMetadata
    dsimp only
    split
    · exact acceptMetadata_ne fec view.group
    refine emitRecords_ne out _ ?_ _ _
    intro _ _ _ chosen
    unfold chooseUndelivered at chosen
    split at chosen
    · cases chosen
    · cases chosen
  unfold emitRecovered
  dsimp only
  split
  · exact emitted
  split
  · nofun
  · nofun

theorem finishInput_ne : (finishInput fec out view).1 ≠ .wireHeader := by
  have recovered : ∀ view, (recoverGroup fec out view).1 ≠ .wireHeader := by
    intro view
    unfold recoverGroup
    dsimp only
    split
    · nofun
    split
    · exact emitRecovered_ne fec out view
    split
    · nofun
    · nofun
    · exact emitRecovered_ne fec out _
  unfold finishInput
  dsimp only
  split
  · split
    · exact acceptMetadata_ne fec view.group
    split
    · nofun
    · exact recovered _
  · exact recovered view

theorem inputShard_rejected {hdr : WireHeader} {body : List UInt8} {now : UInt64} {view : GroupView}
    (rejected : (inputShard fec out hdr body now view).1 = .wireHeader) :
    (inputShard fec out hdr body now view).2 = countInvalid view := by
  have checked : (checkCount fec view hdr).1 = .ok ∨
      (checkCount fec view hdr).2 = countInvalid view := by
    unfold checkCount
    dsimp only
    split
    · unfold applyTailHint
      dsimp only
      split
      · exact Or.inr rfl
      split
      · exact Or.inr rfl
      · exact Or.inl rfl
    split
    · exact Or.inr rfl
    · exact Or.inl rfl
  unfold inputShard at rejected ⊢
  dsimp only at rejected ⊢
  split at rejected
  · rename_i failed
    rw [if_pos failed]
    exact checked.resolve_left failed
  split at rejected
  · cases rejected
  split at rejected
  · unfold emitStored at rejected
    split at rejected
    · exact absurd rejected (emitContiguous_ne fec out _)
    · cases rejected
  · exact absurd rejected (finishInput_ne fec out _)

theorem raiseHighest_ne (dec : FecDecoder) (groupId : UInt64) :
    (raiseHighest fec out dec groupId).1 ≠ .wireHeader := by
  have released : (releaseOlderGroups fec out groupId dec).1 ≠ .wireHeader := by
    refine loop_induction (fun _ => True)
      (fun res : FecStatus × FecDecoder => res.1 ≠ .wireHeader) (fun _ _ _ _ => trivial) ?_
      dec trivial
    intro cur _ _ left
    unfold releaseOldest at left
    split at left
    · cases left
      nofun
    rename_i slot _
    dsimp only at left
    split at left
    · cases left
      exact emitAvailable_ne fec out (cur.view slot)
    split at left
    · cases left
      nofun
    · cases left
  unfold raiseHighest
  split
  · dsimp only
    split
    · exact released
    · nofun
  · nofun

theorem findGroup_failed_ne {dec later : FecDecoder} {groupId : UInt64} {err : FecStatus}
    (failed : findGroup fec out dec groupId = (.failed err, later)) : err ≠ .wireHeader := by
  unfold findGroup at failed
  dsimp only at failed
  split at failed
  · cases failed
  split at failed
  · cases failed
  split at failed
  · cases failed
  split at failed
  · rename_i slot _
    split at failed
    · cases failed
    unfold evictOldest at failed
    dsimp only at failed
    split at failed
    · cases failed
      exact emitAvailable_ne fec out (dec.view slot)
    split at failed
    · cases failed
      nofun
    · cases failed
  · cases failed
    nofun

end Status

section Input

variable {fec : FecTransport} {out : FecOutputFn} {decoder : FecDecoder}
  {dgram : List UInt8} {hdr : WireHeader}

def SameBesidesStats (fec : FecTransport) (before after : FecDecoder) : Prop :=
  (∀ slot < fec.groupWindow, after.groups slot = before.groups slot) ∧
    after.highestGroupId = before.highestGroupId ∧ after.log = before.log

/-- The watermark is not below a group that has a slot. -/
def WatermarkAbove (fec : FecTransport) (decoder : FecDecoder) : Prop :=
  ∀ slot < fec.groupWindow, (decoder.groups slot).active ≠ .free →
    aboveHighest decoder.highestGroupId (decoder.groups slot).groupId = false

theorem aboveHighest_mono {highest : Option UInt64} {raised groupId : UInt64}
    (above : aboveHighest highest raised = true) (old : aboveHighest highest groupId = false) :
    aboveHighest (some raised) groupId = false := by
  cases highest with
  | none => cases old
  | some =>
    have up := UInt64.lt_iff_toNat_lt.mp (of_decide_eq_true above)
    have down := of_decide_eq_false old
    rw [UInt64.lt_iff_toNat_lt] at down
    refine decide_eq_false ?_
    rw [UInt64.lt_iff_toNat_lt]
    omega

variable {unchecked : Prop} {received : WireHeader → List UInt8 → Prop}
  {clears : Option UInt64 → FecDecodeGroup → Prop} {later : FecDecoder} {now : UInt64}
  {body : List UInt8}

theorem WatermarkAbove.move (move : DecoderMove fec out unchecked received clears decoder later)
    (watermark : WatermarkAbove fec decoder) : WatermarkAbove fec later := by
  intro slot inWin occ
  cases move with
  | inGroup other _ _ used move =>
    by_cases same : slot = other
    · subst same
      rw [FecDecoder.groups_put_same, move.sameGroup.groupId_eq]
      exact watermark slot inWin used
    · rw [FecDecoder.groups_put_other _ _ same] at occ ⊢
      exact watermark slot inWin occ
  | counted => exact watermark slot inWin occ
  | raised _ above => exact aboveHighest_mono above (watermark slot inWin occ)
  | opened other groupId highest _ _ _ highest_eq below =>
    by_cases same : slot = other
    · subst same
      have notAbove : aboveHighest (some highest) groupId = false :=
        decide_eq_false (UInt64.not_lt.mpr below)
      simpa [openGroup, highest_eq] using notAbove
    · simp only [openGroup, Function.update_of_ne same] at occ ⊢
      exact watermark slot inWin occ
  | cleared other =>
    by_cases same : slot = other
    · subst same
      simp [groupClear] at occ
    · simp only [Function.update_of_ne same] at occ ⊢
      exact watermark slot inWin occ

theorem WatermarkAbove.moves (moves : DecoderMoves fec out unchecked received clears decoder later)
    (watermark : WatermarkAbove fec decoder) : WatermarkAbove fec later := by
  induction moves with
  | refl => exact watermark
  | tail _ move ih => exact ih.move move

theorem WatermarkAbove.call (watermark : WatermarkAbove fec decoder) (call : FecDecoderCall) :
    WatermarkAbove fec (decoder.call fec out call).2 := by
  have moves : DecoderMoves fec out True (fun _ _ => True) (fun _ _ => True) decoder
      (decoder.call fec out call).2 := by
    cases call with
    | input dgram now =>
      rcases fecDecoderInput_cases fec out decoder dgram now with
        ⟨stats, same, -⟩ | ⟨hdr, admitted, equation⟩
      · rw [FecDecoder.call, same]
        exact .single (.counted stats)
      · rw [FecDecoder.call, equation]
        exact inputGroup_moves fec out now trivial admitted.recent
          fun _ => ⟨fun _ _ _ _ => trivial, fun _ _ _ _ _ _ _ _ => trivial⟩
    | update now =>
      exact fecDecoderUpdate_moves fec out decoder now
        (fun _ _ _ _ _ _ _ => Or.inr (Or.inr trivial)) (fun _ _ _ _ _ _ => trivial)
  exact WatermarkAbove.moves moves watermark

theorem decodeAll_watermark (epoch : UInt32) (calls : List FecDecoderCall) :
    WatermarkAbove fec (decodeAll fec out epoch calls) := by
  unfold decodeAll
  have initially : WatermarkAbove fec (fecDecoderReset epoch) := fun _ _ occ => absurd rfl occ
  generalize fecDecoderReset epoch = start at initially ⊢
  induction calls generalizing start with
  | nil => exact initially
  | cons call _ ih => exact ih _ (initially.call call)

theorem fecDecoderInput_rejected
    (rejected : (fecDecoderInput fec out decoder dgram now).1 = .wireHeader) :
    ∃ hdr, wireHeaderDecode dgram = some hdr ∧
      ((wireShapeOk fec hdr dgram.length = false ∧ ∃ stats,
          (fecDecoderInput fec out decoder dgram now).2 = { decoder with stats := stats }) ∨
        Admitted fec decoder dgram hdr) := by
  rcases fecDecoderInput_cases fec out decoder dgram now with
    ⟨stats, same, refused⟩ | ⟨hdr, admitted, -⟩
  · obtain ⟨hdr, decoded, shape⟩ := refused rejected
    exact ⟨hdr, decoded, Or.inl ⟨shape, stats, same⟩⟩
  · exact ⟨hdr, admitted.decoded, Or.inr admitted⟩

/-- A datagram that is rejected after its slot was found changes the statistics of what was
found only. -/
theorem inputGroup_rejected (rejected : (inputGroup fec out decoder hdr body now).1 = .wireHeader) :
    (raiseHighest fec out decoder hdr.blockId).1 = .ok ∧
      ∃ slot located, findGroup fec out (raiseHighest fec out decoder hdr.blockId).2 hdr.blockId =
            (.found slot, located) ∧
        (inputGroup fec out decoder hdr body now).2 =
          located.put slot (countInvalid (located.view slot)) := by
  unfold inputGroup at rejected ⊢
  dsimp only at rejected ⊢
  split at rejected
  · exact absurd rejected (raiseHighest_ne fec out decoder hdr.blockId)
  rename_i success
  rw [not_not] at success
  rw [if_neg (not_not.mpr success)]
  refine ⟨success, ?_⟩
  split at rejected
  · rename_i slot located found
    refine ⟨slot, located, found, ?_⟩
    rw [FecDecoder.onGroup_snd, inputShard_rejected fec out rejected]
  · cases rejected
  · rename_i found
    split at rejected
    · exact absurd rejected (findGroup_failed_ne fec out found)
    · cases rejected

theorem inputGroup_leaves_slot
    (recent : behindWindow fec decoder.highestGroupId hdr.blockId = false)
    (rejected : (inputGroup fec out decoder hdr body now).1 = .wireHeader) :
    ∃ slot < fec.groupWindow, ((inputGroup fec out decoder hdr body
      now).2.groups slot).holds hdr.blockId = true := by
  obtain ⟨success, slot, _, found, later_eq⟩ := inputGroup_rejected rejected
  obtain ⟨highest_eq, _⟩ := raiseHighest_ok fec out success
  obtain ⟨_, raised_eq, below⟩ := raisedHighest_spec decoder.highestGroupId hdr.blockId
  have find : DecoderMoves fec out True (fun _ _ => True) (fun _ _ => True) _ _ ∧
      FoundSlot fec hdr.blockId _ :=
    findGroup_moves fec out (highest_eq.trans raised_eq) below
      (highest_eq ▸ behindWindow_raised fec recent)
      ⟨fun _ _ _ _ => trivial, fun _ _ _ _ _ _ _ _ => trivial⟩
  rw [found] at find
  obtain ⟨inWin, holds⟩ := find.2 slot rfl
  refine ⟨slot, inWin, ?_⟩
  rw [later_eq, FecDecoder.groups_put_same]
  exact holds

theorem inputGroup_keeps (watermark : WatermarkAbove fec decoder) (held : ∃ slot < fec.groupWindow,
      (decoder.groups slot).holds hdr.blockId = true)
    (rejected : (inputGroup fec out decoder hdr body now).1 = .wireHeader) :
    SameBesidesStats fec decoder (inputGroup fec out decoder hdr body now).2 := by
  obtain ⟨holder, holderLt, holds⟩ := held
  obtain ⟨occ, groupId_eq⟩ := of_decide_eq_true holds
  have notAbove := watermark holder holderLt occ
  rw [groupId_eq] at notAbove
  have raised : raiseHighest fec out decoder hdr.blockId = (.ok, decoder) := by
    unfold raiseHighest
    rw [notAbove]
    rfl
  obtain ⟨_, slot, located, found, later_eq⟩ := inputGroup_rejected rejected
  rw [raised] at found
  have same : located = decoder := by
    unfold findGroup at found
    dsimp only at found
    split at found
    · exact (Prod.mk.inj found).2.symm
    · rename_i missing
      have unused := List.find?_eq_none.mp missing holder (List.mem_range.mpr holderLt)
      exact absurd holds unused
  rw [later_eq, same]
  refine ⟨?_, rfl, rfl⟩
  intro other _
  by_cases equal : other = slot
  · rw [equal, FecDecoder.groups_put_same]
    rfl
  · rw [FecDecoder.groups_put_other _ _ equal]

end Input

/-- A datagram that a decoder rejects with `FEC_ERR_WIRE_HEADER` changes nothing but statistics
exactly when the shape of its header is wrong or its group has a slot already. -/
theorem rejected_no_effect_iff (transport : FecTransport) (output : FecOutputFn) (epoch : UInt32)
    (calls : List FecDecoderCall) (datagram : List UInt8) (now : UInt64)
    (rejected : (fecDecoderInput transport output (decodeAll transport output epoch calls)
      datagram now).1 = .wireHeader) :
    let decoder := decodeAll transport output epoch calls
    SameBesidesStats transport decoder
        (fecDecoderInput transport output decoder datagram now).2 ↔
      ∀ header, wireHeaderDecode datagram = some header →
        wireShapeOk transport header datagram.length = false ∨
          ∃ slot < transport.groupWindow,
            (decoder.groups slot).holds header.blockId = true := by
  intro decoder
  have watermark : WatermarkAbove transport decoder := decodeAll_watermark epoch calls
  change (fecDecoderInput transport output decoder datagram now).1 = .wireHeader at rejected
  clear_value decoder
  obtain ⟨header, decoded, refused⟩ := fecDecoderInput_rejected rejected
  have only : ∀ P : WireHeader → Prop,
      (∀ other, wireHeaderDecode datagram = some other → P other) ↔ P header := by
    intro _
    constructor
    · exact fun all => all header decoded
    intro one _ same
    rw [decoded] at same
    cases same
    exact one
  rw [only]
  rcases refused with ⟨shape, stats, later_eq⟩ | admitted
  · rw [later_eq]
    exact iff_of_true ⟨fun _ _ => rfl, rfl, rfl⟩ (Or.inl shape)
  rw [fecDecoderInput_admitted transport output admitted] at rejected ⊢
  constructor
  · intro same
    obtain ⟨slot, inWindow, holds⟩ := inputGroup_leaves_slot admitted.recent rejected
    rw [same.1 slot inWindow] at holds
    exact Or.inr ⟨slot, inWindow, holds⟩
  · intro held
    refine inputGroup_keeps watermark (held.resolve_left ?_) rejected
    rw [admitted.shape]
    decide

/-- A tail of the first group of a small transport, with a record count of no meaning. -/
def tailHeader (payloadLen : UInt16) : WireHeader where
  version := WIRE_VERSION_V3
  type := WIRE_TYPE_DATA
  finalDst := 0
  ttl := 0
  flowId := 0
  blockId := 0
  shardIndex := 2
  shardCount := 4
  validLen := 0
  payloadLen := payloadLen

def tailBytes (payloadLen : UInt16) : List UInt8 :=
  wireHeaderEncode (tailHeader payloadLen) ++ List.replicate 32 0

theorem rejected_no_effect_shape :
    let decoder := decodeAll (smallTransport 0) (fun _ _ => .ok) 0 [.input (tailBytes 31) 0, .update 1]
    let later := fecDecoderInput (smallTransport 0) (fun _ _ => .ok) decoder (tailBytes 31) 2
    later.1 = .wireHeader ∧ SameBesidesStats (smallTransport 0) decoder later.2 := by
  intro decoder later
  have rejected : later.1 = .wireHeader := by decide +kernel
  refine ⟨rejected, (rejected_no_effect_iff (smallTransport 0) (fun _ _ => .ok) 0
    [.input (tailBytes 31) 0, .update 1] (tailBytes 31) 2 rejected).mpr ?_⟩
  intro _ decoded
  rw [tailBytes, wireHeaderDecode_encode] at decoded
  cases decoded
  exact Or.inl (by decide +kernel)

/-- The first datagram of a decoder is rejected, but raises the watermark and takes a slot. -/
theorem rejected_tail_takes_slot :
    let later := fecDecoderInput (smallTransport 0) (fun _ _ => .ok) (fecDecoderReset 0)
      (tailBytes 32) 0
    later.1 = .wireHeader ∧ later.2.highestGroupId = some 0 ∧
      (later.2.groups 0).active = .collecting := by
  have admitted : Admitted (smallTransport 0) (fecDecoderReset 0) (tailBytes 32)
      (tailHeader 32) :=
    ⟨wireHeaderDecode_encode _ _, by decide +kernel, by decide +kernel, rfl⟩
  intro later
  have equation : later = _ := fecDecoderInput_admitted (smallTransport 0) _ admitted 0
  rw [inputGroup_first] at equation
  rw [equation]
  exact ⟨by decide +kernel, by decide +kernel, by decide +kernel⟩

end MultiFlow.Fec
