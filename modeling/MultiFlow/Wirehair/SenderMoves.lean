import MultiFlow.Wirehair.Sender

/-!
# What one tick can do

A tick applies acknowledgements, offers packets of the admitted segments to the emit callback and
moves the send positions of their slots on.
-/

namespace MultiFlow.Wirehair

open MultiFlow.Wire
open Relation (ReflTransGen)

section Moves

variable (codec : WirehairCodec) {ω : Type} (emitFn : SenderEmitFn ω)

def SameSegment (tx other : WirehairSegmentTx) : Prop :=
  other = { tx with nextPacketId := other.nextPacketId }

theorem SameSegment.refl (tx : WirehairSegmentTx) : SameSegment tx tx := rfl

variable {tx : WirehairSegmentTx}

theorem SameSegment.trans {middle last : WirehairSegmentTx} (first : SameSegment tx middle)
    (second : SameSegment middle last) : SameSegment tx last := by
  unfold SameSegment at *
  rw [second, first]

theorem SameSegment.packetHeader {other : WirehairSegmentTx} (same : SameSegment tx other) :
    packetHeader other = packetHeader tx := by
  rw [same]
  rfl

theorem SameSegment.fillPacketPayload {other : WirehairSegmentTx} (same : SameSegment tx other) :
    fillPacketPayload codec other = fillPacketPayload codec tx := by
  rw [same]
  rfl

inductive SenderMove :
    WirehairSegmentSender × ω → WirehairSegmentSender × ω → Prop where
  | acknowledged {sender after : WirehairSegmentSender} (env : ω) (move : AckMove sender after) :
      SenderMove (sender, env) (after, env)
  | offered {sender : WirehairSegmentSender} (env : ω) (index : Nat)
      (slot : WirehairSegmentSenderSlot) (packetId : Nat) (payload : List UInt8)
      (kind : SenderPacketKind) (found : sender.slots index = some slot)
      (within : packetId < slot.tx.packetLimit)
      (filled : fillPacketPayload codec slot.tx packetId = some payload) :
      SenderMove (sender, env)
        (sender, (emitFn (packetHeader slot.tx packetId payload) payload kind env).2)
  | advanced {sender : WirehairSegmentSender} (env : ω) (index : Nat)
      (slot after : WirehairSegmentSenderSlot) (found : sender.slots index = some slot)
      (acked : after.acked = slot.acked) (segment : after.segmentId = slot.segmentId)
      (tx : SameSegment slot.tx after.tx) :
      SenderMove (sender, env) (setSlot sender index after, env)
  | failed (sender : WirehairSegmentSender) (env : ω) :
      SenderMove (sender, env) ({ sender with failed := true }, env)
  | timedOut (sender : WirehairSegmentSender) (env : ω) :
      SenderMove (sender, env) ({ sender with ackTimedOut := true }, env)

abbrev SenderMoves : WirehairSegmentSender × ω → WirehairSegmentSender × ω → Prop :=
  ReflTransGen (SenderMove codec emitFn)

variable {codec emitFn}

theorem SenderMoves.invariant (Inv : WirehairSegmentSender × ω → Prop)
    (preserved : ∀ before after, SenderMove codec emitFn before after → Inv before → Inv after)
    {before after : WirehairSegmentSender × ω} (moves : SenderMoves codec emitFn before after)
    (initially : Inv before) : Inv after := by
  induction moves with
  | refl => exact initially
  | tail _ move ih => exact preserved _ _ move ih

theorem AckMoves.senderMoves {snd after : WirehairSegmentSender} (moves : AckMoves snd after)
    (env : ω) : SenderMoves codec emitFn (snd, env) (after, env) := by
  induction moves with
  | refl => exact .refl
  | tail _ move ih => exact ih.tail (.acknowledged env move)

variable {snd : WirehairSegmentSender} {idx : Nat} {slot : WirehairSegmentSenderSlot}

/-- An emission for a slot keeps its segment and only offers packets. -/
def EmitsFor {α : Type} (codec : WirehairCodec) (emitFn : SenderEmitFn ω)
    (snd : WirehairSegmentSender) (slot : WirehairSegmentSenderSlot) (env : ω)
    (answer : α × WirehairSegmentTx × ω) : Prop :=
  SameSegment slot.tx answer.2.1 ∧ SenderMoves codec emitFn (snd, env) (snd, answer.2.2)

variable (found : snd.slots idx = some slot)
include found

theorem emitOnePacket_moves (same : SameSegment slot.tx tx) {packetId : Nat}
    (within : packetId < slot.tx.packetLimit) (owner : WirehairSegmentTx) (env : ω) :
    SenderMoves codec emitFn (snd, env)
      (snd, (emitOnePacket codec tx packetId (senderEmitBridge emitFn owner) env).2) := by
  unfold emitOnePacket
  rw [same.fillPacketPayload]
  cases filled : fillPacketPayload codec slot.tx packetId with
  | none => exact .refl
  | some body =>
    rw [same.packetHeader]
    unfold senderEmitBridge
    dsimp only
    -- the bridge and the emitter only translate the answer
    split_ifs <;> exact .single (.offered env idx slot packetId body _ found within filled)

variable (owner : WirehairSegmentTx)

theorem emitPackets_moves (count : Nat) (same : SameSegment slot.tx tx)
    (within : tx.nextPacketId + count ≤ slot.tx.packetLimit) (emitted : Nat) (env : ω) :
    EmitsFor codec emitFn snd slot env
      (emitPackets codec (senderEmitBridge emitFn owner) count tx emitted env) := by
  induction count generalizing tx emitted env with
  | zero => exact ⟨same, .refl⟩
  | succ count ih =>
    have first : SenderMoves codec emitFn (snd, env) (snd,
        (emitOnePacket codec tx tx.nextPacketId (senderEmitBridge emitFn owner) env).2) :=
      emitOnePacket_moves found same (by omega) owner env
    unfold emitPackets
    dsimp only
    split_ifs
    · exact ⟨same, first⟩
    have advanced : SameSegment slot.tx { tx with nextPacketId := tx.nextPacketId + 1 } := by
      unfold SameSegment at same ⊢
      rw [same]
    obtain ⟨sameAfter, rest⟩ := ih advanced (by dsimp only; omega) (emitted + 1)
      (emitOnePacket codec tx tx.nextPacketId (senderEmitBridge emitFn owner) env).2
    exact ⟨sameAfter, first.trans rest⟩

theorem emitRange_moves (endPacketId : Nat) (env : ω) :
    EmitsFor codec emitFn snd slot env (wirehairSegmentTxEmitRange codec slot.tx endPacketId
      (senderEmitBridge emitFn owner) env) := by
  unfold wirehairSegmentTxEmitRange
  split_ifs with behind
  · exact ⟨.refl _, .refl⟩
  by_cases room : slot.tx.nextPacketId ≤ min endPacketId slot.tx.packetLimit
  · exact emitPackets_moves found owner _ (.refl _) (by omega) 0 env
  · rw [show min endPacketId slot.tx.packetLimit - slot.tx.nextPacketId = 0 by omega]
    exact ⟨.refl _, .refl⟩

theorem emitSource_moves (maxPackets : Nat) (env : ω) :
    EmitsFor codec emitFn snd slot env (wirehairSegmentTxEmitSource codec slot.tx maxPackets
      (senderEmitBridge emitFn owner) env) := by
  unfold wirehairSegmentTxEmitSource
  split_ifs
  · exact ⟨.refl _, .refl⟩
  · exact emitRange_moves found owner _ env

theorem emitRepair_moves (maxPackets : Nat) (env : ω) :
    EmitsFor codec emitFn snd slot env (wirehairSegmentTxEmitRepair codec slot.tx maxPackets
      (senderEmitBridge emitFn owner) env) := by
  unfold wirehairSegmentTxEmitRepair
  split_ifs
  · exact ⟨.refl _, .refl⟩
  · exact emitRange_moves found owner _ env

theorem tickSource_moves (nowNs : UInt64) (env : ω) :
    SenderMoves codec emitFn (snd, env) (tickSource codec emitFn snd idx slot nowNs env).2 := by
  obtain ⟨same, emission⟩ : EmitsFor codec emitFn snd slot env _ :=
    emitSource_moves found slot.tx WIREHAIR_SENDER_SOURCE_BATCH env
  unfold tickSource
  dsimp only
  split_ifs
  all_goals exact emission.tail (.advanced _ idx slot _ found rfl rfl same)

omit found in
theorem scheduleRepair_fields (snd : WirehairSegmentSender) (slot : WirehairSegmentSenderSlot)
    (nowNs : UInt64) :
    (scheduleRepair snd slot nowNs).acked = slot.acked ∧
      (scheduleRepair snd slot nowNs).segmentId = slot.segmentId ∧
      (scheduleRepair snd slot nowNs).tx = slot.tx := by
  unfold scheduleRepair
  split_ifs
  all_goals exact ⟨rfl, rfl, rfl⟩

theorem tickRepair_moves (nowNs : UInt64) (env : ω) :
    SenderMoves codec emitFn (snd, env) (tickRepair codec emitFn snd idx slot nowNs env).2 := by
  obtain ⟨acked, segment, tx⟩ := scheduleRepair_fields snd slot nowNs
  have scheduled : SenderMoves codec emitFn (snd, env)
      (setSlot snd idx (scheduleRepair snd slot nowNs), env) :=
    .single (.advanced env idx slot _ found acked segment (by rw [tx]; exact .refl _))
  have stored : (setSlot snd idx (scheduleRepair snd slot nowNs)).slots idx =
      some (scheduleRepair snd slot nowNs) := Function.update_self ..
  obtain ⟨same, emission⟩ : EmitsFor codec emitFn _ _ env _ :=
    emitRepair_moves stored (scheduleRepair snd slot nowNs).tx
      (wirehairSegmentAckRepairRoundPackets (scheduleRepair snd slot nowNs).tx.sourcePackets) env
  unfold tickRepair
  dsimp only
  split_ifs
  · exact scheduled
  · exact scheduled.tail (.timedOut _ env)
  all_goals exact (scheduled.trans emission).tail (.advanced _ idx _ _ stored rfl rfl same)

omit found

theorem tickSlot_moves (pending : Bool) (nowNs : UInt64) (snd : WirehairSegmentSender)
    (idx : Nat) (env : ω) :
    SenderMoves codec emitFn (snd, env) (tickSlot codec emitFn pending nowNs snd idx env).2 := by
  unfold tickSlot
  cases found : snd.slots idx with
  | none => exact .refl
  | some slot =>
    dsimp only
    split_ifs
    · exact .refl
    · exact tickSource_moves found nowNs env
    · exact .single (.advanced env idx slot _ found rfl rfl (.refl _))
    · exact .refl
    · exact tickRepair_moves found nowNs env

theorem tickSlots_moves (pending : Bool) (nowNs : UInt64) (indices : List Nat)
    (snd : WirehairSegmentSender) (env : ω) :
    SenderMoves codec emitFn (snd, env)
      (tickSlots codec emitFn pending nowNs indices snd env).2 := by
  induction indices generalizing snd env with
  | nil => exact .refl
  | cons idx rest ih =>
    have first : SenderMoves codec emitFn (snd, env)
        (tickSlot codec emitFn pending nowNs snd idx env).2 :=
      tickSlot_moves pending nowNs snd idx env
    unfold tickSlots
    revert first
    rcases tickSlot codec emitFn pending nowNs snd idx env with ⟨step, after, envAfter⟩
    intro first
    cases step with
    | next => exact first.trans (ih after envAfter)
    | stop => exact first
    | fail => exact first.tail (.failed after envAfter)

theorem tick_moves (snd : WirehairSegmentSender) (nowNs : UInt64) (env : ω) :
    SenderMoves codec emitFn (snd, env)
      (wirehairSegmentSenderTick codec emitFn snd nowNs env).2 := by
  unfold wirehairSegmentSenderTick
  split_ifs
  · exact .refl
  · exact ((applyPendingAcks_moves snd nowNs).senderMoves env).trans
      (tickSlots_moves _ nowNs _ _ env)

end Moves

end MultiFlow.Wirehair
