import MultiFlow.Wirehair.Receiver
import Mathlib.Data.Finset.Card
import Mathlib.Logic.Relation

/-!
# What one ingest can do

Every call of the receiver is a sequence of moves, each of which changes one thing.  The
callbacks are taken to succeed.
-/

namespace MultiFlow.Wirehair

open MultiFlow.Wire
open Relation (ReflTransGen)

section Moves

variable {codec : WirehairCodec} {ω : Type}

structure ReceiverCallbacks.Succeeds (callbacks : ReceiverCallbacks ω) : Prop where
  output : ∀ flowId data env, (callbacks.output flowId data env).1 = 0
  ack : ∀ ack, callbacks.ack = some ack → ∀ header env, (ack header env).1 = 0

/-- A segment that was passed on or is complete in its slot. -/
def Recovered (receiver : WirehairSegmentReceiver codec) (segmentId : UInt64) : Prop :=
  segmentId < receiver.nextEmitSegment ∨
    ∃ index slot, receiver.slots index = some slot ∧ slot.segmentId = segmentId ∧
      slot.state = .recovered

def feedSlot (slot : WirehairSegmentSlot codec) (decoder : codec.Decoder) :
    WirehairSegmentSlot codec :=
  { slot with decoder }

def finishSlot (slot : WirehairSegmentSlot codec) (decoder : codec.Decoder)
    (recovered : List UInt8) : WirehairSegmentSlot codec :=
  { slot with decoder, state := .recovered, recovered }

def passOn (receiver : WirehairSegmentReceiver codec) (index : Nat)
    (slot : WirehairSegmentSlot codec) : WirehairSegmentReceiver codec :=
  { setReceiverSlot receiver index none with
    nextEmitSegment := receiver.nextEmitSegment + 1
    emitted := receiver.emitted ++ [slot.segmentId] }

inductive ReceiverMove (callbacks : ReceiverCallbacks ω) (header : WireHeader)
    (payload : List UInt8) :
    WirehairSegmentReceiver codec × ω → WirehairSegmentReceiver codec × ω → Prop where
  | finished (receiver : WirehairSegmentReceiver codec) (env : ω)
      (verdict : examine receiver header payload = .finish) :
      ReceiverMove callbacks header payload (receiver, env)
        ({ receiver with endSeen := true, endSegmentCount := header.blockId }, env)
  | completed (receiver : WirehairSegmentReceiver codec) (env : ω) (seen : receiver.endSeen = true)
      (all : receiver.nextEmitSegment = receiver.endSegmentCount) :
      ReceiverMove callbacks header payload (receiver, env)
        ({ receiver with complete := true }, env)
  | dropped (receiver : WirehairSegmentReceiver codec) (env : ω)
      (verdict : examine receiver header payload = .ahead) :
      ReceiverMove callbacks header payload (receiver, env)
        ({ receiver with aheadWindowDrops := receiver.aheadWindowDrops + 1 }, env)
  | fed (receiver : WirehairSegmentReceiver codec) (env : ω) (index : Nat)
      (slot : WirehairSegmentSlot codec) (result : WirehairResult) (decoder : codec.Decoder)
      (collects : Collects receiver header payload index slot)
      (collecting : slot.state ≠ .recovered)
      (decoded : codec.decode slot.decoder header.shardIndex.toNat payload = (result, decoder)) :
      ReceiverMove callbacks header payload (receiver, env)
        (setReceiverSlot receiver index (some (feedSlot slot decoder)), env)
  | recovered (receiver : WirehairSegmentReceiver codec) (env : ω) (index : Nat)
      (slot : WirehairSegmentSlot codec) (decoder : codec.Decoder) (message : List UInt8)
      (collects : Collects receiver header payload index slot)
      (collecting : slot.state ≠ .recovered)
      (decoded : codec.decode slot.decoder header.shardIndex.toNat payload = (.success, decoder))
      (complete : codec.recover decoder = some message) :
      ReceiverMove callbacks header payload (receiver, env)
        (setReceiverSlot receiver index (some (finishSlot slot decoder message)), env)
  | acked (receiver : WirehairSegmentReceiver codec) (env : ω) (ack : WireHeader → ω → Int × ω)
      (originNode : UInt8) (segmentId : UInt64) (segmentBytes : UInt32)
      (given : callbacks.ack = some ack) (known : Recovered receiver segmentId) :
      ReceiverMove callbacks header payload (receiver, env)
        (receiver, (ack (ackHeader receiver originNode segmentId segmentBytes) env).2)
  | passed (receiver : WirehairSegmentReceiver codec) (env : ω) (index : Nat)
      (slot : WirehairSegmentSlot codec)
      (found : findSlot receiver receiver.nextEmitSegment = some (index, slot))
      (ready : slot.state = .recovered) :
      ReceiverMove callbacks header payload (receiver, env)
        (passOn receiver index slot,
          (callbacks.output receiver.flowId (slot.recovered.take slot.segmentBytes.toNat) env).2)

abbrev ReceiverMoves (callbacks : ReceiverCallbacks ω) (header : WireHeader)
    (payload : List UInt8) :
    WirehairSegmentReceiver codec × ω → WirehairSegmentReceiver codec × ω → Prop :=
  ReflTransGen (ReceiverMove callbacks header payload)

variable {cbs : ReceiverCallbacks ω} {hdr : WireHeader} {payload : List UInt8}

theorem ReceiverMoves.invariant (Inv : WirehairSegmentReceiver codec × ω → Prop)
    (preserved : ∀ before after, ReceiverMove cbs hdr payload before after →
      Inv before → Inv after)
    {before after : WirehairSegmentReceiver codec × ω}
    (moves : ReceiverMoves cbs hdr payload before after) (initially : Inv before) :
    Inv after := by
  induction moves with
  | refl => exact initially
  | tail _ move ih => exact preserved _ _ move ih

theorem emitSegments_succ (passes : Nat) (rcv : WirehairSegmentReceiver codec) (env : ω) :
    emitSegments cbs (passes + 1) rcv env =
      match findSlot rcv rcv.nextEmitSegment with
      | none => (0, rcv, env)
      | some (index, slot) =>
        if slot.state ≠ .recovered then (0, rcv, env)
        else
          let (answer, env) := cbs.output rcv.flowId
            (slot.recovered.take slot.segmentBytes.toNat) env
          if answer ≠ 0 then (-1, rcv, env)
          else emitSegments cbs passes (passOn rcv index slot) env := rfl

variable {rcv : WirehairSegmentReceiver codec} {idx : Nat} {slot : WirehairSegmentSlot codec}

variable (ok : cbs.Succeeds)
include ok

theorem emitSegments_passed (passes : Nat) (env : ω)
    (found : findSlot rcv rcv.nextEmitSegment = some (idx, slot)) (ready : slot.state = .recovered)
    :
    emitSegments cbs (passes + 1) rcv env = emitSegments cbs passes (passOn rcv idx slot)
        (cbs.output rcv.flowId (slot.recovered.take slot.segmentBytes.toNat) env).2 := by
  rw [emitSegments_succ, found]
  have answered := ok.output rcv.flowId
    (slot.recovered.take slot.segmentBytes.toNat) env
  simp [ready, answered]

omit ok in
theorem emitSegments_stopped (passes : Nat) (env : ω) (settled : ∀ idx slot,
      findSlot rcv rcv.nextEmitSegment = some (idx, slot) → slot.state ≠ .recovered) :
    emitSegments cbs passes rcv env = (0, rcv, env) := by
  cases passes with
  | zero => rfl
  | succ =>
    rw [emitSegments_succ]
    cases found : findSlot rcv rcv.nextEmitSegment with
    | none => rfl
    | some entry =>
      obtain ⟨idx, slot⟩ := entry
      exact if_pos (settled idx slot found)

theorem emitSegments_moves (passes : Nat) (rcv : WirehairSegmentReceiver codec) (env : ω) :
    (emitSegments cbs passes rcv env).1 = 0 ∧
      ReceiverMoves cbs hdr payload (rcv, env) (emitSegments cbs passes rcv env).2 := by
  induction passes generalizing rcv env with
  | zero => exact ⟨rfl, .refl⟩
  | succ passes ih =>
    by_cases ready : ∃ idx slot,
        findSlot rcv rcv.nextEmitSegment = some (idx, slot) ∧
          slot.state = .recovered
    · obtain ⟨idx, slot, found, recovered⟩ := ready
      rw [emitSegments_passed ok passes env found recovered]
      obtain ⟨answered, rest⟩ := ih (passOn rcv idx slot)
        (cbs.output rcv.flowId (slot.recovered.take slot.segmentBytes.toNat) env).2
      exact ⟨answered, rest.head (.passed rcv env idx slot found recovered)⟩
    · push Not at ready
      rw [emitSegments_stopped _ env ready]
      exact ⟨rfl, .refl⟩

theorem emitReadySegments_moves (rcv : WirehairSegmentReceiver codec) (env : ω) :
    (emitReadySegments cbs rcv env).1 = 0 ∧
      ReceiverMoves cbs hdr payload (rcv, env) (emitReadySegments cbs rcv env).2 := by
  have loop : (emitSegments cbs rcv.window rcv env).1 = 0 ∧
      ReceiverMoves cbs hdr payload (rcv, env)
        (emitSegments cbs rcv.window rcv env).2 :=
    emitSegments_moves ok _ _ _
  unfold emitReadySegments
  revert loop
  rcases emitSegments cbs rcv.window rcv env with ⟨_, res⟩
  obtain ⟨last, env⟩ := res
  rintro ⟨rfl, moves⟩
  dsimp only
  rw [if_neg (by simp)]
  split_ifs with ended
  · exact ⟨rfl, moves.tail (.completed last env ended.1 ended.2)⟩
  · exact ⟨rfl, moves⟩

theorem emitReturnAck_moves (rcv : WirehairSegmentReceiver codec) (env : ω) (originNode : UInt8)
    {seg : UInt64} (segmentBytes : UInt32) (known : Recovered rcv seg) :
    (emitReturnAck cbs rcv originNode seg segmentBytes env).1 = 0 ∧
      ReceiverMoves cbs hdr payload (rcv, env)
        (rcv, (emitReturnAck cbs rcv originNode seg segmentBytes env).2) := by
  unfold emitReturnAck
  cases given : cbs.ack with
  | none => exact ⟨rfl, .refl⟩
  | some ack =>
    dsimp only
    split_ifs
    · exact ⟨rfl, .refl⟩
    · exact ⟨ok.ack ack given _ env,
        .single (.acked rcv env ack originNode seg segmentBytes given known)⟩

theorem emitAck_moves (rcv : WirehairSegmentReceiver codec) (env : ω)
    (known : Recovered rcv slot.segmentId) :
    (emitAck cbs rcv slot env).1 = 0 ∧
      ReceiverMoves cbs hdr payload (rcv, env) (rcv, (emitAck cbs rcv slot env).2) := by
  have returned : (emitReturnAck cbs rcv slot.sourceOrigin slot.segmentId
        slot.segmentBytes env).1 = 0 ∧
      ReceiverMoves cbs hdr payload (rcv, env) (rcv,
        (emitReturnAck cbs rcv slot.sourceOrigin slot.segmentId slot.segmentBytes env).2) :=
    emitReturnAck_moves ok rcv env slot.sourceOrigin slot.segmentBytes known
  unfold emitAck
  split_ifs with quiet
  · exact ⟨rfl, .refl⟩
  · refine ⟨?_, returned.2⟩
    dsimp only
    rw [returned.1, if_neg (by simp)]

omit ok

theorem setReceiverSlot_recovered (rcv : WirehairSegmentReceiver codec) (idx : Nat)
    (slot : WirehairSegmentSlot codec) (dec : codec.Decoder) (msg : List UInt8) :
    Recovered (setReceiverSlot rcv idx (some (finishSlot slot dec msg))) slot.segmentId :=
  .inr ⟨idx, finishSlot slot dec msg, Function.update_self .., rfl, rfl⟩

/-- A collecting slot whose decoder reports an error, or success without a message. -/
def DecoderFails (slot : WirehairSegmentSlot codec) (header : WireHeader)
    (payload : List UInt8) : Prop :=
  slot.state ≠ .recovered ∧
    ((codec.decode slot.decoder header.shardIndex.toNat payload).1 = .error ∨
      (codec.decode slot.decoder header.shardIndex.toNat payload).1 = .success ∧
        codec.recover (codec.decode slot.decoder header.shardIndex.toNat payload).2 = none)

theorem Collects.stored (collects : Collects rcv hdr payload idx slot)
    (complete : slot.state = .recovered) : rcv.slots idx = some slot := by
  rcases collects.known with held | ⟨_, _, _, rfl⟩
  · exact held
  · cases complete

include ok

theorem acknowledge_moves (env : ω) (known : Recovered rcv slot.segmentId) :
    (if (emitAck cbs rcv slot env).1 ≠ 0 then (-1, rcv, (emitAck cbs rcv slot env).2)
      else emitReadySegments cbs rcv (emitAck cbs rcv slot env).2).1 = 0 ∧
      ReceiverMoves cbs hdr payload (rcv, env) (if (emitAck cbs rcv slot env).1 ≠ 0 then
          (-1, rcv, (emitAck cbs rcv slot env).2)
        else emitReadySegments cbs rcv (emitAck cbs rcv slot env).2).2 := by
  have acked : (emitAck cbs rcv slot env).1 = 0 ∧
      ReceiverMoves cbs hdr payload (rcv, env)
        (rcv, (emitAck cbs rcv slot env).2) :=
    emitAck_moves ok rcv env known
  have accepted : ¬(emitAck cbs rcv slot env).1 ≠ 0 := not_not.mpr acked.1
  rw [if_neg accepted]
  obtain ⟨answered, moves⟩ := emitReadySegments_moves ok rcv (emitAck cbs rcv slot env).2
  exact ⟨answered, acked.2.trans moves⟩

theorem collectPacket_moves (env : ω) (collects : Collects rcv hdr payload idx slot) :
    ((collectPacket cbs rcv hdr payload idx slot env).1 = 0 ∨ DecoderFails slot hdr payload) ∧
      ReceiverMoves cbs hdr payload (rcv, env)
        (collectPacket cbs rcv hdr payload idx slot env).2 := by
  unfold collectPacket
  by_cases complete : slot.state = .recovered
  · have held : Recovered rcv slot.segmentId :=
      .inr ⟨idx, slot, collects.stored complete, rfl, complete⟩
    have acked : (emitAck cbs rcv slot env).1 = 0 ∧
        ReceiverMoves cbs hdr payload (rcv, env)
          (rcv, (emitAck cbs rcv slot env).2) :=
      emitAck_moves ok rcv env held
    rw [if_pos complete]
    exact ⟨.inl acked.1, acked.2⟩
  rw [if_neg complete]
  rcases decoded : codec.decode slot.decoder hdr.shardIndex.toNat payload with ⟨res, dec⟩
  have feed : ReceiverMove cbs hdr payload (rcv, env)
      (setReceiverSlot rcv idx (some (feedSlot slot dec)), env) :=
    .fed rcv env idx slot res dec collects complete decoded
  cases res with
  | needMore => exact ⟨.inl rfl, .single feed⟩
  | error => exact ⟨.inr ⟨complete, .inl (by rw [decoded])⟩, .single feed⟩
  | success =>
    cases recovery : codec.recover dec with
    | none =>
      simp only [recovery]
      exact ⟨.inr ⟨complete, .inr (by rw [decoded]; exact ⟨rfl, recovery⟩)⟩,
        .single feed⟩
    | some msg =>
      have known := setReceiverSlot_recovered rcv idx slot dec msg
      obtain ⟨answered, moves⟩ := acknowledge_moves ok env known
      simp only [recovery]
      exact ⟨.inl answered, moves.head
        (.recovered rcv env idx slot dec msg collects complete decoded recovery)⟩

theorem ingest_moves (rcv : WirehairSegmentReceiver codec) (hdr : WireHeader)
    (body : List UInt8) (env : ω) :
    ReceiverMoves cbs hdr body (rcv, env)
      (wirehairSegmentReceiverIngest cbs rcv hdr body env).2 := by
  unfold wirehairSegmentReceiverIngest
  cases verdict : examine rcv hdr body with
  | reject | full => exact .refl
  | finish => exact (emitReadySegments_moves ok _ env).2.head (.finished rcv env verdict)
  | late =>
    dsimp only
    split_ifs
    · exact (emitReturnAck_moves ok rcv env hdr.originNode hdr.segmentBytes
        (.inl (examine_late verdict))).2
    · exact .refl
  | ahead => exact .single (.dropped rcv env verdict)
  | collect => exact (collectPacket_moves ok env (examine_collect verdict)).2

theorem ingest_answer (rcv : WirehairSegmentReceiver codec) (hdr : WireHeader)
    (payload : List UInt8) (env : ω) :
    (wirehairSegmentReceiverIngest cbs rcv hdr payload env).1 = 0 ∨
      examine rcv hdr payload = .reject ∨
        ∃ idx slot, examine rcv hdr payload = .collect idx slot ∧
          DecoderFails slot hdr payload := by
  unfold wirehairSegmentReceiverIngest
  cases verdict : examine rcv hdr payload with
  | reject => exact .inr (.inl rfl)
  | finish =>
    have ready : (emitReadySegments cbs
          { rcv with endSeen := true, endSegmentCount := hdr.blockId } env).1 = 0 ∧
        ReceiverMoves cbs hdr payload _ _ := emitReadySegments_moves ok _ env
    exact .inl ready.1
  | late =>
    have returned : (emitReturnAck cbs rcv hdr.originNode hdr.blockId
          hdr.segmentBytes env).1 = 0 ∧
        ReceiverMoves cbs hdr payload _ _ :=
      emitReturnAck_moves ok rcv env hdr.originNode hdr.segmentBytes
        (.inl (examine_late verdict))
    dsimp only
    split_ifs
    · exact .inl returned.1
    · exact .inl rfl
  | ahead | full => exact .inl rfl
  | collect idx slot =>
    rcases (collectPacket_moves ok env (examine_collect verdict)).1 with answered | fails
    · exact .inl answered
    · exact .inr (.inr ⟨idx, slot, rfl, fails⟩)

end Moves

end MultiFlow.Wirehair
