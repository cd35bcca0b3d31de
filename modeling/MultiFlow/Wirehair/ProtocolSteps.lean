import MultiFlow.Wirehair.Protocol
import MultiFlow.Wire.HostOrder

/-!
# Steps of the two parties

Each party keeps its part of the agreement.  The sender may rely on `Known`, the segments that
the receiver has recovered; the receiver on the datagrams that travel.  All segments together
have fewer than `2 ^ 64` ids, so that a 64-bit id names one segment.
-/

namespace MultiFlow.Wirehair

open Function Wire

theorem toNat_ofNat_small {n : Nat} (small : n < 2 ^ 64) : (UInt64.ofNat n).toNat = n :=
  UInt64.toNat_ofNat_of_lt' small

variable {link : Link} {admitted : List (List UInt8)}

variable {pos : Nat} {data : List UInt8} {tx : WirehairSegmentTx}

theorem Segment.position_lt (segment : Segment link admitted pos data tx) :
    pos < admitted.length := by
  by_contra beyond
  have missing : admitted[pos]? = none := List.getElem?_eq_none (Nat.le_of_not_lt beyond)
  rw [segment.member] at missing
  cases missing

theorem Segment.append (segment : Segment link admitted pos data tx) (more : List (List UInt8)) :
    Segment link (admitted ++ more) pos data tx where
  member := by
    rw [List.getElem?_append_left segment.position_lt]
    exact segment.member
  created := segment.created

variable (few : admitted.length < 2 ^ 64)
include few

theorem Segment.unique {other : Nat} {dataOther : List UInt8} {txOther : WirehairSegmentTx}
    (segment : Segment link admitted pos data tx)
    (segmentOther : Segment link admitted other dataOther txOther)
    (same : UInt64.ofNat pos = UInt64.ofNat other) :
    pos = other ∧ data = dataOther ∧ tx = txOther := by
  have below := segment.position_lt
  have belowOther := segmentOther.position_lt
  have numbers := congrArg UInt64.toNat same
  rw [toNat_ofNat_small (by omega), toNat_ofNat_small (by omega)] at numbers
  subst numbers
  have equal : data = dataOther := Option.some.inj (segment.member.symm.trans segmentOther.member)
  subst equal
  exact ⟨rfl, rfl, Option.some.inj (segment.created.symm.trans segmentOther.created)⟩

omit few

section Sender

variable {Known : UInt64 → Prop} {sender : WirehairSegmentSender}

variable (part : SenderPart link admitted Known sender)
include part

theorem SenderPart.mono {Later : UInt64 → Prop} (grows : ∀ seg, Known seg → Later seg) :
    SenderPart link admitted Later sender :=
  { part with
    acked := fun idx slot found acked => grows _ (part.acked idx slot found acked)
    marked := fun idx seg found => grows _ (part.marked idx seg found)
    released := fun pos below => grows _ (part.released pos below) }

omit part

variable {after : WirehairSegmentSender}

include part

theorem SenderPart.of_slots (frame : SameFrame sender after)
    (base : after.baseSegment = sender.baseSegment)
    (active : after.activeCount = sender.activeCount)
    (acks : ∀ idx seg, after.acks idx = some seg → Known seg)
    (slots : ∀ idx slot, after.slots idx = some slot → ∃ old place,
      sender.slots place = some old ∧ slot.segmentId = old.segmentId ∧
        SameSegment old.tx slot.tx ∧ (slot.acked = true → Known slot.segmentId)) :
    SenderPart link admitted Known after where
  config_eq := frame.config_eq.trans part.config_eq
  flowId_eq := frame.flowId_eq.trans part.flowId_eq
  finalDst_eq := frame.finalDst_eq.trans part.finalDst_eq
  ttl_eq := frame.ttl_eq.trans part.ttl_eq
  window_eq := frame.window_eq.trans part.window_eq
  next_eq := frame.next_eq.trans part.next_eq
  base_le := base ▸ part.base_le
  room := by
    rw [base, frame.window_eq]
    exact part.room
  active_eq := by
    rw [base, active]
    exact part.active_eq
  slots := by
    intro idx slot found
    obtain ⟨old, place, was, id, same, -⟩ := slots idx slot found
    obtain ⟨pos, data, tx, segment, oldId, oldSame⟩ := part.slots place old was
    exact ⟨pos, data, tx, segment, id.trans oldId, oldSame.trans same⟩
  acked := by
    intro idx slot found acked
    obtain ⟨_, _, _, _, _, known⟩ := slots idx slot found
    exact known acked
  marked := acks
  released := by
    rw [base]
    exact part.released

omit part

variable {idx : Nat} {hdr : WireHeader}

theorem ackClear_acks {seg marked : UInt64} (found : (ackClear sender seg).acks idx = some marked) :
    sender.acks idx = some marked := by
  unfold ackClear at found
  split_ifs at found
  · rcases Lib.of_update found with ⟨-, new⟩ | ⟨-, found⟩
    · cases new
    · exact found
  · exact found

include few

include part

theorem SenderPart.base_lt {slot : WirehairSegmentSenderSlot} (found : sender.slots idx = some slot)
    (base : slot.segmentId = sender.baseSegment) : sender.baseSegment.toNat < admitted.length := by
  obtain ⟨_, _, _, segment, id, _⟩ := part.slots idx slot found
  have below := segment.position_lt
  rw [← base, id, toNat_ofNat_small (by omega)]
  exact below

theorem SenderPart.ackMove (move : AckMove sender after) :
    SenderPart link admitted Known after := by
  cases move with
  | applied idx slot _ found contained =>
    refine part.of_slots ⟨rfl, rfl, rfl, rfl, rfl, rfl, rfl, rfl, rfl, rfl⟩ rfl rfl part.marked ?_
    intro place other stored
    rcases Lib.of_update stored with ⟨-, new⟩ | ⟨-, stored⟩
    · cases new
      have marked : Known slot.segmentId :=
        part.marked (ackIndex slot.segmentId) slot.segmentId (beq_iff_eq.mp contained)
      exact ⟨slot, idx, found, rfl, .refl _, fun _ => marked⟩
    · exact ⟨other, place, stored, rfl, .refl _, part.acked place other stored⟩
  | released slot found base acked =>
    have below := part.base_lt few found base
    have advanced : (sender.baseSegment + 1).toNat = sender.baseSegment.toNat + 1 := by
      rw [UInt64.toNat_add]
      exact Nat.mod_eq_of_lt (show sender.baseSegment.toNat + 1 < 2 ^ 64 by omega)
    have marks : ∀ idx segmentId,
        (releaseHead sender slot).acks idx = some segmentId → Known segmentId :=
      fun idx segmentId marked => part.marked idx segmentId (ackClear_acks marked)
    obtain ⟨_, head_eq⟩ := releaseHead_eq sender slot
    rw [head_eq] at marks ⊢
    have kept : ∀ idx other, update sender.slots
        (slotIndex sender sender.baseSegment) none idx = some other →
        sender.slots idx = some other := by
      intro idx other stored
      rcases Lib.of_update stored with ⟨-, new⟩ | ⟨-, stored⟩
      · cases new
      · exact stored
    exact
      { part with
        base_le := by
          dsimp only
          omega
        room := by
          have room := part.room
          dsimp only
          omega
        active_eq := by
          have count := part.active_eq
          dsimp only
          omega
        slots := fun idx other stored => part.slots idx other (kept idx other stored)
        acked := fun idx other stored => part.acked idx other (kept idx other stored)
        marked := marks
        released := by
          intro pos earlier
          rcases Nat.lt_succ_iff_lt_or_eq.mp (advanced ▸ earlier) with before | here
          · exact part.released pos before
          · rw [here, UInt64.ofNat_toNat, ← base]
            exact part.acked _ slot found acked }

omit part

omit few

variable {codec : WirehairCodec}

theorem Travels.mono {datagram : WireHeader × List UInt8}
    (travels : Travels codec link admitted sender datagram)
    (drained : Drained admitted sender → Drained admitted after) :
    Travels codec link admitted after datagram :=
  travels.imp_right fun ended => ⟨ended.1, drained ended.2⟩

/-- A sender part together with what its party has sent; once `Ended` holds it is drained. -/
structure SenderSide (codec : WirehairCodec) (link : Link) (admitted : List (List UInt8))
    (Known : UInt64 → Prop) (Ended : Prop)
    (side : WirehairSegmentSender × List (WireHeader × List UInt8)) : Prop where
  part : SenderPart link admitted Known side.1
  sent : ∀ datagram ∈ side.2, Travels codec link admitted side.1 datagram
  ended : Ended → Drained admitted side.1

variable {sent : List (WireHeader × List UInt8)} {Ended : Prop}

theorem SenderSide.change (side : SenderSide codec link admitted Known Ended (sender, sent))
    (part : SenderPart link admitted Known after)
    (drained : Drained admitted sender → Drained admitted after) :
    SenderSide codec link admitted Known Ended (after, sent) :=
  ⟨part, fun dgram mem => (side.sent dgram mem).mono drained,
    fun ended => drained (side.ended ended)⟩

theorem SenderSide.emit {body : List UInt8} {kind : SenderPacketKind}
    (side : SenderSide codec link admitted Known Ended (sender, sent))
    (travels : Travels codec link admitted sender (hdr, body)) :
    SenderSide codec link admitted Known Ended (sender, (channelEmit hdr body kind sent).2) := by
  refine ⟨side.part, ?_, side.ended⟩
  intro dgram mem
  rcases List.mem_append.mp mem with earlier | last
  · exact side.sent dgram earlier
  · rw [List.mem_singleton.mp last]
    exact travels

include few

include part

theorem AckMove.drained (move : AckMove sender after) (drained : Drained admitted sender) :
    Drained admitted after := by
  cases move with
  | applied => exact drained
  | released _ found base =>
    have below := part.base_lt few found base
    have all := drained.2
    omega

omit part

theorem SenderMove.side {before after : WirehairSegmentSender × List (WireHeader × List UInt8)}
    (move : SenderMove codec channelEmit before after)
    (side : SenderSide codec link admitted Known Ended before) :
    SenderSide codec link admitted Known Ended after := by
  cases move with
  | acknowledged _ move =>
    exact side.change (side.part.ackMove few move) (move.drained few side.part)
  | offered _ idx slot packetId _ _ found within filled =>
    obtain ⟨pos, data, tx, segment, _, same⟩ := side.part.slots idx slot found
    refine side.emit (.inl ⟨pos, data, tx, packetId, segment, ?_, ?_, ?_⟩)
    · rw [same] at within
      exact within
    · rw [← same.fillPacketPayload]
      exact filled
    · rw [same.packetHeader]
  | advanced _ idx slot kept found acked id same =>
    refine side.change (side.part.of_slots ⟨rfl, rfl, rfl, rfl, rfl, rfl, rfl, rfl, rfl, rfl⟩
      rfl rfl side.part.marked ?_) fun drained => drained
    intro place other stored
    by_cases here : place = idx
    · subst here
      have equal : some kept = some other := (update_self place _ _).symm.trans stored
      cases equal
      refine ⟨slot, place, found, id, same, ?_⟩
      intro marked
      rw [id]
      exact side.part.acked place slot found (acked.symm.trans marked)
    · have old : _ = some other := (update_of_ne here _ _).symm.trans stored
      exact ⟨other, place, old, rfl, .refl _, side.part.acked place other old⟩
  | failed | timedOut => exact side.change { side.part with } fun drained => drained

theorem SenderSide.tick (side : SenderSide codec link admitted Known Ended (sender, sent))
    (nowNs : UInt64) :
    SenderSide codec link admitted Known Ended
      (wirehairSegmentSenderTick codec channelEmit sender nowNs sent).2 :=
  (tick_moves sender nowNs sent).invariant _ (fun _ _ move => move.side few) side

theorem SenderSide.ackMoves (side : SenderSide codec link admitted Known Ended (sender, sent))
    (moves : AckMoves sender after) : SenderSide codec link admitted Known Ended (after, sent) := by
  have kept : SenderMoves codec channelEmit (sender, sent) (after, sent) := moves.senderMoves sent
  exact kept.invariant _ (fun _ _ move => move.side few) side

theorem SenderSide.inputAck (side : SenderSide codec link admitted Known Ended (sender, sent))
    (known : Known hdr.blockId) (nowNs : UInt64) :
    SenderSide codec link admitted Known Ended
      ((wirehairSegmentSenderInputAck sender (wireHeaderEncodeV4 hdr) nowNs).2, sent) := by
  have decoded : wireHeaderDecode (wireHeaderEncodeV4 hdr) =
      some { hdr with version := WIRE_VERSION_V4 } := by
    have whole := wireHeaderDecode_encodeV4 hdr []
    rwa [List.append_nil] at whole
  unfold wirehairSegmentSenderInputAck
  rw [decoded]
  dsimp only
  split_ifs
  · exact side
  · exact side
  refine SenderSide.ackMoves few (side.change ?_ ?_) (applyPendingAcks_moves _ nowNs)
  · unfold ackMark
    split_ifs
    · exact side.part
    refine { side.part with marked := ?_ }
    intro idx seg marked
    rcases Lib.of_update marked with ⟨-, new⟩ | ⟨-, marked⟩
    · cases new
      exact known
    · exact side.part.marked idx seg marked
  · intro drained
    unfold ackMark
    split_ifs
    · exact drained
    · exact drained

omit few

theorem SenderSide.tryEmitEnd (side : SenderSide codec link admitted Known Ended (sender, sent)) :
    SenderSide codec link admitted Known Ended
      (wirehairSegmentSenderTryEmitEnd channelEmit sender sent).2 := by
  unfold wirehairSegmentSenderTryEmitEnd
  split_ifs with early
  · exact side
  simp only [Bool.or_eq_true, Bool.not_eq_true', decide_eq_true_eq, not_or, not_not,
    Bool.not_eq_true, Bool.not_eq_false] at early
  have part : SenderPart link admitted Known sender := side.part
  have base := part.base_le
  have active := part.active_eq
  have drained : Drained admitted sender := ⟨early.1.2, by omega⟩
  have travels : Travels codec link admitted sender (endHeader sender, []) := .inr ⟨rfl, drained⟩
  have emitted : SenderSide codec link admitted Known Ended
      (sender, (channelEmit (endHeader sender) [] .finish sent).2) := side.emit travels
  exact emitted.change { side.part with } fun drained => drained

theorem SenderSide.admission {seg : UInt64} {data : List UInt8} {tx : WirehairSegmentTx}
    (few : admitted.length + 1 < 2 ^ 64)
    (side : SenderSide codec link admitted Known Ended (sender, sent))
    (created : wirehairSegmentTxCreate sender.config sender.flowId seg sender.finalDst
      sender.ttl data = some tx)
    (admissible : wirehairSegmentSenderCanAdmit sender = true)
    (next : seg = sender.nextSegmentId) :
    sender.inputFinished = false ∧
      SenderSide codec link (admitted ++ [data]) Known Ended
        ({ sender with
            slots := update sender.slots (slotIndex sender seg)
              (some ⟨false, seg, tx, 0, 0, false⟩)
            nextSegmentId := sender.nextSegmentId + 1
            activeCount := sender.activeCount + 1 }, sent) := by
  have part : SenderPart link admitted Known sender := side.part
  have base := part.base_le
  have active := part.active_eq
  have id : seg = UInt64.ofNat admitted.length := next.trans part.next_eq
  have length : (admitted ++ [data]).length = admitted.length + 1 := List.length_append
  have segment : Segment link (admitted ++ [data]) admitted.length data tx := by
    constructor
    · rw [List.getElem?_append_right le_rfl, Nat.sub_self]
      rfl
    · unfold Link.tx
      rw [← id, ← part.config_eq, ← part.flowId_eq, ← part.finalDst_eq, ← part.ttl_eq]
      exact created
  obtain ⟨undone, _⟩ : sender.inputFinished = false ∧
      admitted.length < sender.baseSegment.toNat + sender.window := by
    unfold wirehairSegmentSenderCanAdmit at admissible
    split_ifs at admissible with stopped full
    simp only [Bool.or_eq_true, not_or, Bool.not_eq_true] at stopped
    have le : sender.baseSegment ≤ sender.nextSegmentId := by
      rw [UInt64.le_iff_toNat_le, part.next_eq, toNat_ofNat_small (by omega)]
      exact base
    rw [UInt64.toNat_sub_of_le _ _ le, part.next_eq, toNat_ofNat_small (by omega)] at full
    exact ⟨stopped.2, by omega⟩
  have undrained : ¬Drained admitted sender := by
    intro drained
    have finished := drained.1
    rw [undone] at finished
    cases finished
  refine ⟨undone, ?_, ?_, fun ended => absurd (side.ended ended) undrained⟩
  · constructor
    · exact part.config_eq
    · exact part.flowId_eq
    · exact part.finalDst_eq
    · exact part.ttl_eq
    · exact part.window_eq
    · rw [length, part.next_eq, UInt64.ofNat_add]
      rfl
    · dsimp only
      omega
    · dsimp only
      omega
    · dsimp only
      omega
    · intro idx slot found
      rcases Lib.of_update found with ⟨-, new⟩ | ⟨-, found⟩
      · cases new
        exact ⟨admitted.length, data, tx, segment, id, .refl _⟩
      · obtain ⟨pos, old, oldTx, oldSegment, rest⟩ := part.slots idx slot found
        exact ⟨pos, old, oldTx, oldSegment.append _, rest⟩
    · intro idx slot found acked
      rcases Lib.of_update found with ⟨-, new⟩ | ⟨-, found⟩
      · cases new
        cases acked
      · exact part.acked idx slot found acked
    · exact part.marked
    · exact part.released
  · intro dgram mem
    rcases side.sent dgram mem with packet | ended
    · obtain ⟨pos, old, oldTx, packetId, oldSegment, rest⟩ := packet
      exact .inl ⟨pos, old, oldTx, packetId, oldSegment.append _, rest⟩
    · exact absurd ended.2 undrained

end Sender

end MultiFlow.Wirehair
