import MultiFlow.Wirehair.BackPressure
import MultiFlow.Wirehair.SenderMoves

/-!
# Acknowledgements that come too early

The acknowledgement table takes every id of the window, also that of a segment which is yet to be
admitted, and the entry waits there for the segment.
-/

namespace MultiFlow.Wirehair

open Function Lib Wire

def ackFor (sender : WirehairSegmentSender) : SenderCall → Option UInt64
  | .inputAck datagram _ => (wireHeaderDecode datagram).bind fun header =>
    if header.version ≠ WIRE_VERSION_V4 ∨ header.type ≠ WIRE_TYPE_ACK ∨
      header.flowId ≠ sender.flowId then none else some header.blockId
  | _ => none

/-- A run with the segments acknowledged when one of their packets had been emitted. -/
structure AckedRun where
  run : SenderRun
  timely : List UInt64

def ackedCall (codec : WirehairCodec) (state : AckedRun) (call : SenderCall) : Option AckedRun :=
  (senderCall codec state.run call).map fun run => ⟨run,
    (ackFor state.run.sender call).toList.filter
      (fun segmentId => !(state.run.trace.accepted segmentId).isEmpty) ++ state.timely⟩

/-- An acknowledgement within the window is for a segment of which a packet has been emitted. -/
def NotEarly (state : AckedRun) (call : SenderCall) : Prop :=
  (ackFor state.run.sender call).all fun segmentId =>
    decide (segmentId < state.run.sender.baseSegment ∨
      state.run.sender.window ≤ (segmentId - state.run.sender.baseSegment).toNat ∨
        (state.run.trace.accepted segmentId).isEmpty = false)

instance (state : AckedRun) (call : SenderCall) : Decidable (NotEarly state call) :=
  inferInstanceAs (Decidable (_ = true))

structure Timely (timely : List UInt64) (sender : WirehairSegmentSender) : Prop where
  acks : ∀ i segmentId, sender.acks i = some segmentId → segmentId ∈ timely
  slots : ∀ i slot, sender.slots i = some slot → slot.acked = true → slot.segmentId ∈ timely
  released : ∀ segmentId, segmentId < sender.baseSegment → segmentId ∈ timely

section Moves

variable {timely : List UInt64} {snd after : WirehairSegmentSender}

theorem Timely.mono (inv : Timely timely snd) (more : List UInt64) : Timely (more ++ timely) snd :=
  ⟨fun i id there => List.mem_append_right _ (inv.acks i id there),
    fun i slot there acked => List.mem_append_right _ (inv.slots i slot there acked),
    fun id below => List.mem_append_right _ (inv.released id below)⟩

theorem Timely.replace (inv : Timely timely snd) {idx : Nat} {slot : WirehairSegmentSenderSlot}
    (good : slot.acked = true → slot.segmentId ∈ timely) : Timely timely (setSlot snd idx slot) := by
  refine ⟨inv.acks, ?_, inv.released⟩
  intro i other there acked
  by_cases same : i = idx
  · subst same
    cases (update_self i _ snd.slots).symm.trans there
    exact good acked
  · exact inv.slots i other ((update_of_ne same _ _).symm.trans there) acked

theorem Timely.ackMove (inv : Timely timely snd) (move : AckMove snd after) :
    Timely timely after := by
  cases move with
  | applied idx slot _ _ contained =>
    have kept : Timely timely (setSlot snd idx { slot with acked := true }) :=
      inv.replace fun _ => inv.acks _ _ (eq_of_beq contained)
    exact { kept with }
  | released slot found base acked =>
    have acks : ∀ i id, (releaseHead snd slot).acks i = some id → snd.acks i = some id := by
      intro i id
      unfold releaseHead senderReleaseSlot ackClear
      split
      · intro there
        by_cases same : i = ackIndex slot.segmentId
        · subst same
          cases (update_self _ _ snd.acks).symm.trans there
        · exact (update_of_ne same _ _).symm.trans there
      · exact fun there => there
    obtain ⟨_, head_eq⟩ := releaseHead_eq snd slot
    refine ⟨fun i id there => inv.acks i id (acks i id there), ?_, ?_⟩
    · rw [head_eq]
      intro i other there
      by_cases same : i = slotIndex snd snd.baseSegment
      · subst same
        cases (update_self _ _ snd.slots).symm.trans there
      · exact inv.slots i other ((update_of_ne same _ _).symm.trans there)
    rw [head_eq]
    intro id below
    by_cases same : id = snd.baseSegment
    · rw [same, ← base]
      exact inv.slots _ slot found acked
    refine inv.released id ?_
    have apart : id.toNat ≠ snd.baseSegment.toNat := fun equal => same (UInt64.toNat_inj.mp equal)
    rw [UInt64.lt_iff_toNat_lt, UInt64.toNat_add] at below
    change _ < (_ + 1) % _ at below
    rw [UInt64.lt_iff_toNat_lt]
    omega

theorem Timely.senderMove {codec : WirehairCodec} {ω : Type} {emitFn : SenderEmitFn ω}
    {before next : WirehairSegmentSender × ω} (move : SenderMove codec emitFn before next)
    (inv : Timely timely before.1) : Timely timely next.1 := by
  cases move with
  | acknowledged _ move => exact inv.ackMove move
  | offered => exact inv
  | advanced _ idx slot _ found acked segment =>
    exact inv.replace fun marked => segment ▸ inv.slots idx slot found (acked ▸ marked)
  | failed | timedOut => exact { inv with }

theorem Timely.inputAck (inv : Timely timely snd) (dgram : List UInt8) (nowNs : UInt64)
    (listed : ∀ id ∈ ackFor snd (.inputAck dgram nowNs), id < snd.baseSegment ∨
      snd.window ≤ (id - snd.baseSegment).toNat ∨ id ∈ timely) :
    Timely timely (wirehairSegmentSenderInputAck snd dgram nowNs).2 := by
  unfold wirehairSegmentSenderInputAck
  unfold ackFor at listed
  dsimp only at listed
  split
  · exact inv
  cases decoded : wireHeaderDecode dgram with
  | none => exact inv
  | some hdr =>
    rw [decoded, Option.bind_some] at listed
    dsimp only
    split
    · exact inv
    rename_i accepted
    rw [if_neg accepted] at listed
    have known := listed hdr.blockId rfl
    refine AckMoves.invariant (Timely timely) (applyPendingAcks_moves _ nowNs)
      (fun _ _ kept => kept.ackMove) ?_
    unfold ackMark
    split
    · exact inv
    rename_i inside
    rw [not_or, not_or] at inside
    refine ⟨?_, inv.slots, inv.released⟩
    intro i id there
    by_cases same : i = ackIndex hdr.blockId
    · subst same
      cases (update_self _ _ snd.acks).symm.trans there
      exact (known.resolve_left inside.2.1).resolve_left inside.2.2
    · exact inv.acks i id ((update_of_ne same _ _).symm.trans there)

end Moves

theorem Timely.call {codec : WirehairCodec} {before after : AckedRun} {call : SenderCall}
    (inv : Timely before.timely before.run.sender) (permitted : NotEarly before call)
    (taken : ackedCall codec before call = some after) : Timely after.timely after.run.sender := by
  obtain ⟨_, going, rfl⟩ := Option.map_eq_some_iff.mp taken
  cases call with
  | admission segmentId data =>
    unfold senderCall at going
    dsimp only at going
    rcases wirehairSegmentSenderAdmit_cases before.run.sender segmentId data with
      ⟨status, -, same⟩ | ⟨tx, -, -, -, -, admitted⟩
    · rw [same] at going
      cases going
      exact inv.mono _
    · rw [admitted] at going
      cases going
      have kept : Timely before.timely (setSlot before.run.sender
          (slotIndex before.run.sender segmentId) ⟨false, segmentId, tx, 0, 0, false⟩) :=
        inv.replace nofun
      exact { kept with }
  | markInputFinished =>
    cases going
    exact { inv with }
  | inputAck datagram nowNs =>
    cases going
    refine (inv.mono _).inputAck datagram nowNs fun id acked => ?_
    unfold NotEarly at permitted
    rw [Option.mem_def.mp acked] at permitted
    refine (of_decide_eq_true permitted).imp_right (Or.imp_right fun emitted => ?_)
    exact List.mem_append_left _ (List.mem_filter.mpr ⟨Option.mem_toList.mpr acked, by simp [emitted]⟩)
  | tick nowNs =>
    cases going
    exact SenderMoves.invariant (fun current => Timely before.timely current.1)
      (fun _ _ => Timely.senderMove) (tick_moves before.run.sender nowNs before.run.trace) inv
  | tryEmitEnd =>
    unfold senderCall wirehairSegmentSenderTryEmitEnd at going
    dsimp only at going
    split_ifs at going <;> cases going <;> exact { inv with }

/-- In every run in which no acknowledgement is early, a segment is marked as acknowledged or
released only after an acknowledgement that came when one of its packets had been emitted. -/
theorem acks_timely (codec : WirehairCodec) {cfg : WirehairSegmentConfig} {flowId : UInt32}
    {finalDst ttl : UInt8} {sender : WirehairSegmentSender}
    (created : wirehairSegmentSenderCreate cfg flowId finalDst ttl = some sender)
    (answers : Nat → Int) {st : AckedRun}
    (run : Reaches (ackedCall codec) NotEarly ⟨⟨sender, ⟨answers, []⟩⟩, []⟩ st) :
    (∀ i slot, st.run.sender.slots i = some slot → slot.acked = true →
        slot.segmentId ∈ st.timely) ∧
      ∀ seg, seg < st.run.sender.baseSegment → seg ∈ st.timely := by
  have fresh : Timely [] sender := by
    unfold wirehairSegmentSenderCreate at created
    split at created
    · cases created
    cases created
    refine ⟨nofun, nofun, fun id below => ?_⟩
    exact absurd below (UInt64.not_lt.mpr (UInt64.zero_le))
  have inv := run.invariant (fun st => Timely st.timely st.run.sender) fresh
    fun _ _ _ inv => inv.call
  exact ⟨inv.slots, inv.released⟩

def freshRun : AckedRun := ⟨⟨newSender smallConfig 7 1 1, ⟨fun _ => 0, []⟩⟩, []⟩

def firstAck : List UInt8 :=
  wireHeaderEncodeV4
    { type := WIRE_TYPE_ACK, finalDst := 1, ttl := 1, flowId := 7, blockId := 0, shardCount := 0 }

theorem acks_timely_first :
    ∃ st, Reaches (ackedCall twoPacketCodec) NotEarly freshRun st ∧
      st.run.sender.baseSegment = 1 ∧ 0 ∈ st.timely := by
  obtain ⟨st, run, seen⟩ : ∃ st, Reaches (ackedCall twoPacketCodec) NotEarly freshRun st ∧
      decide (st.run.sender.baseSegment = 1) = true :=
    Reaches.exists_of_actions [.admission 0 [9], .tick 1, .inputAck firstAck 2] _
      (by decide +kernel)
  have base := of_decide_eq_true seen
  have created : wirehairSegmentSenderCreate smallConfig 7 1 1 = some _ := rfl
  refine ⟨st, run, base, (acks_timely twoPacketCodec created _ run).2 0 ?_⟩
  rw [base]
  decide

/-- Segment 0 is acknowledged, admitted and released without a packet. -/
theorem early_ack_releases :
    ∃ st, Reaches (ackedCall twoPacketCodec) anyStep freshRun st ∧
      st.run.sender.baseSegment = 1 ∧ st.timely = [] ∧ st.run.trace.accepted 0 = [] := by
  obtain ⟨st, run, seen⟩ : ∃ st, Reaches (ackedCall twoPacketCodec) anyStep freshRun st ∧
      decide (st.run.sender.baseSegment = 1 ∧ st.timely = [] ∧
        st.run.trace.accepted 0 = []) = true :=
    Reaches.exists_of_actions [.inputAck firstAck 0, .admission 0 [9], .tick 1] _
      (by decide +kernel)
  exact ⟨st, run, of_decide_eq_true seen⟩

end MultiFlow.Wirehair
