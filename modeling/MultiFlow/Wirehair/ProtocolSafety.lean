import MultiFlow.Wirehair.ProtocolSettled

/-!
# Safety of the acknowledged window

In every run in which fewer than `2 ^ 64` segments are admitted, released segments were
recovered, no datagram is ahead of the receiver's window, END follows the recovery of everything,
and the output is a beginning of the input.
-/

namespace MultiFlow.Wirehair

open Function Wire Lib List

variable {codec : WirehairCodec} {link : Link}

def newProtocol (codec : WirehairCodec) (link : Link) : ProtocolState codec where
  sender := newSender link.config link.flowId link.finalDst link.ttl
  receiver := newReceiver codec link.config link.flowId
  sent := []
  acks := []
  admitted := []
  output := []

theorem newProtocol_agreement (codec : WirehairCodec) (link : Link) :
    Agreement link (newProtocol codec link) where
  sender :=
    { config_eq := rfl
      flowId_eq := rfl
      finalDst_eq := rfl
      ttl_eq := rfl
      window_eq := rfl
      next_eq := rfl
      base_le := le_rfl
      room := Nat.zero_le _
      active_eq := rfl
      slots := by rintro _ _ ⟨⟩
      acked := by rintro _ _ ⟨⟩
      marked := by rintro _ _ ⟨⟩
      released := by rintro _ ⟨⟩ }
  receiver :=
    { config_eq := rfl
      window_eq := rfl
      windowed := newReceiver_windowed _ _
      slots := by rintro _ _ ⟨⟩
      next_le := le_rfl
      output_eq := rfl
      drops_eq := rfl
      ended := by rintro ⟨⟩
      acks := by rintro _ ⟨⟩ }
  settled := by rintro _ _ ⟨⟩
  sent := by rintro _ ⟨⟩

variable {state after : ProtocolState codec}

theorem Agreement.base_le_next (agree : Agreement link state) :
    state.sender.baseSegment.toNat ≤ state.receiver.nextEmitSegment.toNat := by
  by_contra behind
  have recovered := agree.sender.released _ (Nat.lt_of_not_le behind)
  rw [UInt64.ofNat_toNat] at recovered
  rcases recovered with below | ⟨idx, slot, stored, id, complete⟩
  · exact UInt64.lt_irrefl _ below
  · exact agree.settled idx slot stored id complete

theorem Agreement.side (agree : Agreement link state) :
    SenderSide codec link state.admitted (Recovered state.receiver)
      (state.receiver.endSeen = true) (state.sender, state.sent) :=
  ⟨agree.sender, agree.sent, agree.receiver.ended⟩

variable {sender : WirehairSegmentSender} {hdr : WireHeader} {body : List UInt8}
  {pid : Nat}

variable {sent : List (WireHeader × List UInt8)}

theorem Agreement.of_side (agree : Agreement link state)
    (side : SenderSide codec link state.admitted (Recovered state.receiver)
      (state.receiver.endSeen = true) (sender, sent)) : Agreement link { state with sender, sent } where
  sender := side.part
  receiver := { agree.receiver with ended := side.ended }
  settled := agree.settled
  sent := side.sent

theorem Agreement.near (few : state.admitted.length < 2 ^ 64) (agree : Agreement link state)
    {dgram : WireHeader × List UInt8} (mem : dgram ∈ state.sent)
    (isData : dgram.1.type = WIRE_TYPE_DATA) :
    dgram.1.blockId.toNat < state.receiver.nextEmitSegment.toNat + state.receiver.window := by
  rcases agree.sent dgram mem with packet | ended
  · obtain ⟨position, _, _, _, segment, _, _, hdr⟩ := packet
    have below := segment.position_lt
    have passed := agree.base_le_next
    have room := agree.sender.room
    have block : dgram.1.blockId.toNat = position := by
      obtain ⟨_, _, created⟩ := wirehairSegmentTxCreate_eq segment.created
      rw [hdr, created]
      exact toNat_ofNat_small (by omega)
    rw [agree.sender.window_eq, ← agree.receiver.window_eq] at room
    omega
  · rw [ended.1] at isData
    cases isData

theorem Agreement.arrives (few : state.admitted.length < 2 ^ 64) (agree : Agreement link state)
    (mem : (hdr, body) ∈ state.sent) :
    Arrives codec link state.admitted (Drained state.admitted state.sender)
      (state.receiver.nextEmitSegment.toNat + state.receiver.window) hdr body where
  packet := by
    intro isData
    rcases agree.sent _ mem with packet | ended
    · exact packet
    · rw [ended.1] at isData
      cases isData
  near := agree.near few mem
  finish := by
    intro isEnd
    rcases agree.sent _ mem with ⟨_, _, _, _, _, _, _, equal⟩ | ended
    · rw [show hdr = _ from equal] at isEnd
      cases isEnd
    · exact ended.2

section Inversion

variable {action : ProtocolAction}

theorem protocolStep_admission {seg : UInt64} {data : List UInt8}
    (taken : protocolStep codec state (.admission seg data) = some after) :
    after = { state with
      sender := (wirehairSegmentSenderAdmit state.sender seg data).2
      admitted := if (wirehairSegmentSenderAdmit state.sender seg data).1 = 0 then
        state.admitted ++ [data] else state.admitted } :=
  (Option.some.inj taken).symm

variable {nowNs : UInt64} {pos : Nat}

theorem protocolStep_tick (taken : protocolStep codec state (.tick nowNs) = some after) :
    after = { state with
      sender := (wirehairSegmentSenderTick codec channelEmit state.sender nowNs state.sent).2.1
      sent := (wirehairSegmentSenderTick codec channelEmit state.sender nowNs state.sent).2.2 } :=
  (Option.some.inj taken).symm

theorem protocolStep_tryEmitEnd (taken : protocolStep codec state .tryEmitEnd = some after) :
    after = { state with
      sender := (wirehairSegmentSenderTryEmitEnd channelEmit state.sender state.sent).2.1
      sent := (wirehairSegmentSenderTryEmitEnd channelEmit state.sender state.sent).2.2 } :=
  (Option.some.inj taken).symm

theorem protocolStep_inputAck (taken : protocolStep codec state (.inputAck pos nowNs) = some after)
    :
    ∃ dgram ∈ state.acks, after = { state with
      sender := (wirehairSegmentSenderInputAck state.sender dgram nowNs).2 } := by
  dsimp only [protocolStep] at taken
  cases found : state.acks[pos]? with
  | none =>
    rw [found] at taken
    cases taken
  | some dgram =>
    rw [found] at taken
    exact ⟨dgram, mem_of_getElem? found, (Option.some.inj taken).symm⟩

theorem protocolStep_ingest (taken : protocolStep codec state (.ingest pos) = some after) :
    ∃ hdr body, (hdr, body) ∈ state.sent ∧ after = { state with
      receiver := (wirehairSegmentReceiverIngest channelCallbacks state.receiver hdr body
        (state.acks, state.output)).2.1
      acks := (wirehairSegmentReceiverIngest channelCallbacks state.receiver hdr body
        (state.acks, state.output)).2.2.1
      output := (wirehairSegmentReceiverIngest channelCallbacks state.receiver hdr body
        (state.acks, state.output)).2.2.2 } := by
  dsimp only [protocolStep] at taken
  cases found : state.sent[pos]? with
  | none =>
    rw [found] at taken
    cases taken
  | some dgram =>
    rw [found] at taken
    exact ⟨dgram.1, dgram.2, mem_of_getElem? found, (Option.some.inj taken).symm⟩

theorem protocolStep_admitted (taken : protocolStep codec state action = some after) :
    state.admitted.length ≤ after.admitted.length := by
  cases action with
  | admission =>
    rw [protocolStep_admission taken]
    split_ifs
    · rw [length_append]
      omega
    · exact le_rfl
  | markInputFinished =>
    cases taken
    exact le_rfl
  | tick => rw [protocolStep_tick taken]
  | tryEmitEnd => rw [protocolStep_tryEmitEnd taken]
  | inputAck =>
    obtain ⟨_, _, equal⟩ := protocolStep_inputAck taken
    rw [equal]
  | ingest =>
    obtain ⟨_, _, _, equal⟩ := protocolStep_ingest taken
    rw [equal]

end Inversion

theorem Agreement.admission (agree : Agreement link state) {seg : UInt64} {data : List UInt8}
    (taken : protocolStep codec state (.admission seg data) = some after)
    (few : after.admitted.length < 2 ^ 64) : Agreement link after := by
  have equal := protocolStep_admission taken
  rcases wirehairSegmentSenderAdmit_cases state.sender seg data with refusal | acceptance
  · obtain ⟨_, refused, res⟩ := refusal
    rw [res] at equal
    rw [if_neg refused] at equal
    rw [equal]
    exact agree
  obtain ⟨_, created, admissible, next, _, res⟩ := acceptance
  rw [res] at equal
  rw [if_pos rfl] at equal
  have room : state.admitted.length + 1 < 2 ^ 64 := by
    rw [equal, length_append] at few
    exact few
  obtain ⟨_, side⟩ := agree.side.admission room created admissible next
  rw [equal]
  exact
    { sender := side.part
      receiver := agree.receiver.append [data] side.ended
      settled := agree.settled
      sent := side.sent }

theorem Agreement.ingest (correct : codec.Correct) (ack : link.config.ackEnabled = true)
    (few : state.admitted.length < 2 ^ 64) (agree : Agreement link state)
    (mem : (hdr, body) ∈ state.sent) {receiver : WirehairSegmentReceiver codec}
    {acks output : List (List UInt8)}
    (res : (wirehairSegmentReceiverIngest channelCallbacks state.receiver hdr body
      (state.acks, state.output)).2 = (receiver, acks, output)) :
    Agreement link { state with receiver, acks, output } := by
  have arrives := agree.arrives few mem
  have moves : ReceiverMoves channelCallbacks hdr body
      (state.receiver, state.acks, state.output) (receiver, acks, output) := by
    rw [← res]
    exact ingest_moves channelCallbacks_succeeds _ _ _ _
  have kept : ReceiverSide link state.admitted (Drained state.admitted state.sender)
        (state.receiver.nextEmitSegment.toNat + state.receiver.window)
        (receiver, acks, output) ∧
      ∀ segmentId, Recovered state.receiver segmentId → Recovered receiver segmentId := by
    refine moves.invariant (fun side => ReceiverSide link state.admitted
        (Drained state.admitted state.sender)
        (state.receiver.nextEmitSegment.toNat + state.receiver.window) side ∧
      ∀ segmentId, Recovered state.receiver segmentId → Recovered side.1 segmentId) ?_
      ⟨⟨agree.receiver, le_rfl⟩, fun _ recovered => recovered⟩
    intro _ _ move earlier
    exact ⟨move.side correct few ack arrives earlier.1, fun segmentId recovered =>
      earlier.1.1.recovered_mono few move (earlier.2 segmentId recovered)⟩
  have part := kept.1.1
  exact
    { sender := agree.sender.mono kept.2
      receiver := part
      settled := by
        have last : (wirehairSegmentReceiverIngest channelCallbacks state.receiver hdr body
            (state.acks, state.output)).2.1 = receiver := congrArg Prod.fst res
        have windowed := part.windowed
        rw [← last] at windowed ⊢
        exact ingest_settled channelCallbacks_succeeds hdr body _ agree.settled windowed
      sent := agree.sent }

theorem Agreement.step (correct : codec.Correct) (ack : link.config.ackEnabled = true)
    (agree : Agreement link state) {action : ProtocolAction}
    (taken : protocolStep codec state action = some after)
    (few : after.admitted.length < 2 ^ 64) : Agreement link after := by
  have before : state.admitted.length < 2 ^ 64 := lt_of_le_of_lt (protocolStep_admitted taken) few
  cases action with
  | admission => exact agree.admission taken few
  | markInputFinished =>
    cases taken
    exact agree.of_side (agree.side.change { agree.sender with }
      fun drained => ⟨rfl, drained.2⟩)
  | tick nowNs =>
    rw [protocolStep_tick taken]
    exact agree.of_side (agree.side.tick before nowNs)
  | tryEmitEnd =>
    rw [protocolStep_tryEmitEnd taken]
    exact agree.of_side agree.side.tryEmitEnd
  | inputAck _ nowNs =>
    obtain ⟨dgram, mem, equal⟩ := protocolStep_inputAck taken
    obtain ⟨_, rfl, known⟩ := agree.receiver.acks dgram mem
    rw [equal]
    exact agree.of_side (agree.side.inputAck before known nowNs)
  | ingest =>
    obtain ⟨_, _, mem, equal⟩ := protocolStep_ingest taken
    rw [equal]
    exact agree.ingest correct ack before mem rfl

theorem Agreement.recovers_all (agree : Agreement link state) (drained : Drained state.admitted state.sender)
    {pos : Nat} (below : pos < state.admitted.length) :
    Recovered state.receiver (UInt64.ofNat pos) :=
  agree.sender.released pos (drained.2.symm ▸ below)

theorem Agreement.output_all (agree : Agreement link state)
    (drained : Drained state.admitted state.sender) : state.output = state.admitted := by
  have passed := agree.base_le_next
  have bounded := agree.receiver.next_le
  have all : state.receiver.nextEmitSegment.toNat = state.admitted.length := by
    have base := drained.2
    omega
  have output := agree.receiver.output_eq
  dsimp only at output
  rw [output, all, take_length]

theorem ack_window_safe (correct : codec.Correct) (link : Link)
    {receiver : WirehairSegmentReceiver codec}
    (senderCreated : wirehairSegmentSenderCreate link.config link.flowId link.finalDst link.ttl =
      some sender)
    (receiverCreated : wirehairSegmentReceiverCreate codec link.config link.flowId = some receiver)
    (run : Reaches (protocolStep codec) anyStep ⟨sender, receiver, [], [], [], []⟩ state)
    (few : state.admitted.length < 2 ^ 64) :
    (∀ position < state.sender.baseSegment.toNat,
        Recovered state.receiver (UInt64.ofNat position)) ∧
      (∀ datagram ∈ state.sent, datagram.1.type = WIRE_TYPE_DATA →
        datagram.1.blockId.toNat < state.receiver.nextEmitSegment.toNat + state.receiver.window) ∧
      state.receiver.aheadWindowDrops = 0 ∧
      (∀ datagram ∈ state.sent, datagram.1.type = WIRE_TYPE_END →
        ∀ position < state.admitted.length, Recovered state.receiver (UInt64.ofNat position)) ∧
      state.output = state.admitted.take state.receiver.nextEmitSegment.toNat ∧
      state.output.length = state.receiver.nextEmitSegment.toNat ∧
      (state.receiver.endSeen = true → state.output = state.admitted) := by
  obtain ⟨ack, rfl⟩ : link.config.ackEnabled = true ∧
      sender = newSender link.config link.flowId link.finalDst link.ttl := by
    unfold wirehairSegmentSenderCreate at senderCreated
    split_ifs at senderCreated with refused
    cases senderCreated
    simp only [not_or, Bool.not_eq_false] at refused
    exact ⟨refused.2.1, rfl⟩
  obtain rfl : receiver = newReceiver codec link.config link.flowId := by
    unfold wirehairSegmentReceiverCreate at receiverCreated
    split_ifs at receiverCreated
    cases receiverCreated
    rfl
  have kept : state.admitted.length < 2 ^ 64 → Agreement link state := by
    refine run.invariant (fun state => state.admitted.length < 2 ^ 64 → Agreement link state)
      (fun _ => newProtocol_agreement codec link) ?_
    intro _ _ _ agreement _ taken small
    exact (agreement (lt_of_le_of_lt (protocolStep_admitted taken) small)).step correct ack taken
      small
  have agreement := kept few
  have output : state.output = state.admitted.take state.receiver.nextEmitSegment.toNat :=
    agreement.receiver.output_eq
  refine ⟨agreement.sender.released, fun _ member => agreement.near few member,
    agreement.receiver.drops_eq, ?_, output, ?_, ?_⟩
  · intro _ member isEnd _ below
    have drained := (agreement.arrives few member).finish isEnd
    exact agreement.recovers_all drained below
  · rw [output, List.length_take]
    exact min_eq_left agreement.receiver.next_le
  · intro ended
    exact agreement.output_all (agreement.receiver.ended ended)

theorem twoPacketCodec_holds {tx : WirehairSegmentTx} {dec : twoPacketCodec.Decoder}
    (decodes : DecodesFor twoPacketCodec tx dec) :
    dec.1 = tx.message.length ∧
      (∀ payload, dec.2.1 = some payload → fillPacketPayload twoPacketCodec tx 0 = some payload) ∧
      ∀ payload, dec.2.2 = some payload →
        fillPacketPayload twoPacketCodec tx 1 = some payload := by
  induction decodes with
  | fresh =>
    refine ⟨rfl, ?_, ?_⟩
    · rintro _ ⟨⟩
    · rintro _ ⟨⟩
  | fed pid _ _ filled ih =>
    obtain ⟨bytes, first, second⟩ := ih
    refine ⟨bytes, ?_, ?_⟩
    · intro held stored
      by_cases here : pid = 0
      · subst here
        cases stored
        exact filled
      · exact first held ((if_neg here).symm.trans stored)
    · intro held stored
      by_cases here : pid = 1
      · subst here
        cases stored
        exact filled
      · exact second held ((if_neg here).symm.trans stored)

theorem twoPacketCodec_success {dec after : twoPacketCodec.Decoder}
    (decoded : twoPacketCodec.decode dec pid body = (.success, after)) :
    after.1 = 2 * WH_PACKET_SIZE := by
  have sizes : dec.1 = after.1 := congrArg
    (fun res : WirehairResult × twoPacketCodec.Decoder => res.2.1) decoded
  have answer := congrArg Prod.fst decoded
  rw [← sizes]
  by_contra other
  have pending : (twoPacketCodec.decode dec pid body).1 = .needMore := by
    refine if_neg ?_
    simp only [Bool.and_eq_true, decide_eq_true_eq]
    exact fun all => other all.1.1
  rw [pending] at answer
  cases answer

theorem twoPacketCodec_correct : twoPacketCodec.Correct := by
  intro _ _ _ _ _ _ tx _ _ pid body _ created
    decodes filled decoded recovered
  have whole := twoPacketCodec_success decoded
  have fed := decodes.fed pid body filled
  rw [decoded] at fed
  obtain ⟨bytes, first, second⟩ := twoPacketCodec_holds fed
  have two := two_le_sourcePackets (wirehairSegmentTxCreate_nonempty created)
  obtain ⟨_, _, equal⟩ := wirehairSegmentTxCreate_eq created
  have sources : 2 ≤ tx.sourcePackets := by
    rw [equal]
    exact two
  have length : tx.message.length = 2 * WH_PACKET_SIZE := bytes.symm.trans whole
  obtain ⟨left, leftHeld, rest⟩ := Option.bind_eq_some_iff.mp recovered
  obtain ⟨right, rightHeld, rfl⟩ := Option.map_eq_some_iff.mp rest
  have leftFilled := first left leftHeld
  have rightFilled := second right rightHeld
  unfold WH_PACKET_SIZE at length
  unfold fillPacketPayload at leftFilled rightFilled
  rw [if_pos (by omega)] at leftFilled rightFilled
  dsimp only [WH_PACKET_SIZE] at leftFilled rightFilled
  rw [if_neg (by omega)] at leftFilled rightFilled
  cases leftFilled
  cases rightFilled
  have rightWhole : (tx.message.drop (1 * 1370)).take 1370 = tx.message.drop 1370 :=
    take_of_length_le (by rw [length_drop]; omega)
  rw [rightWhole, Nat.zero_mul, drop_zero]
  exact take_append_drop 1370 tx.message

def narrowLink : Link := ⟨narrowConfig, 7, 2, 1⟩

variable (seg : UInt64)

theorem narrowTx_created :
    wirehairSegmentTxCreate narrowConfig 7 seg 2 1 [0] = some (narrowTx seg) := by
  have packets : wirehairSegmentSourcePackets 1 = 2 := by decide
  have repair : wirehairSegmentRepairCeiling 2 0 true = 2 := by decide
  have accepted : ¬(wirehairSegmentConfigValid narrowConfig = false ∨ [(0 : UInt8)].length = 0 ∨
      narrowConfig.segmentBytes.toNat < [(0 : UInt8)].length ∨ (2 : UInt8) = 0 ∨
      (1 : UInt8) = 0) := by decide
  unfold wirehairSegmentTxCreate
  rw [if_neg accepted]
  simp [packets, repair, narrowTx, narrowConfig]

variable (segmentId : UInt64)

def idleSender : WirehairSegmentSender :=
  { newSender narrowConfig 7 2 1 with baseSegment := segmentId, nextSegmentId := segmentId }

def sentTx (nextPacketId : Nat) : WirehairSegmentTx :=
  { narrowTx segmentId with nextPacketId }

def busySlot (nextPacketId : Nat) (acked : Bool) : WirehairSegmentSenderSlot :=
  ⟨acked, segmentId, sentTx segmentId nextPacketId, 0, 0, false⟩

def busySender (nextPacketId : Nat) : WirehairSegmentSender :=
  { idleSender segmentId with
    slots := update (fun _ => none) 0 (some (busySlot segmentId nextPacketId false))
    nextSegmentId := segmentId + 1
    activeCount := 1 }

theorem busySender_slot (nextPacketId : Nat) :
    (busySender seg nextPacketId).slots 0 = some (busySlot seg nextPacketId false) :=
  rfl

theorem idleSender_accepts :
    wirehairSegmentSenderAdmit (idleSender seg) seg [0] = (0, busySender seg 0) := by
  have idx : slotIndex (idleSender seg) seg = 0 := Nat.mod_one _
  have admissible : wirehairSegmentSenderCanAdmit (idleSender seg) = true := by
    have room : ¬(idleSender seg).window ≤
        ((idleSender seg).nextSegmentId - (idleSender seg).baseSegment).toNat :=
      Nat.not_le.mpr (inside_narrow seg)
    unfold wirehairSegmentSenderCanAdmit
    rw [if_neg (by exact Bool.false_ne_true), if_neg room]
    rfl
  have valid : ¬([(0 : UInt8)].length = 0 ∨
      (idleSender seg).config.segmentBytes.toNat < [(0 : UInt8)].length ∨
      (idleSender seg).failed = true) := by
    show ¬([(0 : UInt8)].length = 0 ∨ narrowConfig.segmentBytes.toNat < [(0 : UInt8)].length ∨
      false = true)
    decide
  have created : wirehairSegmentTxCreate (idleSender seg).config
      (idleSender seg).flowId seg (idleSender seg).finalDst
      (idleSender seg).ttl [0] = some (narrowTx seg) := narrowTx_created seg
  unfold wirehairSegmentSenderAdmit
  rw [if_neg valid, admissible, if_neg (by decide), if_neg (fun other => other rfl), idx, created]
  rfl

theorem busySender_acks (nextPacketId : Nat) (nowNs : UInt64) :
    applyPendingAcks (busySender seg nextPacketId) nowNs =
      busySender seg nextPacketId := by
  have idx : slotIndex (busySender seg nextPacketId)
      (busySender seg nextPacketId).baseSegment = 0 := Nat.mod_one _
  have applied : applyAck nowNs (busySender seg nextPacketId) 0 =
      busySender seg nextPacketId := by
    unfold applyAck
    rw [busySender_slot]
    exact if_neg fun both => Bool.false_ne_true both.2
  show releaseAckedBase (applyAck nowNs (busySender seg nextPacketId) 0) = _
  rw [applied]
  show releaseBase 1 _ = _
  unfold releaseBase
  rw [idx, busySender_slot]
  exact if_pos (.inr rfl)

theorem fill_narrow (src : pid < 2) :
    fillPacketPayload twoPacketCodec (narrowTx seg) pid = some (narrowPayload pid) := by
  have covered : ¬(padSegment [0]).length ≤ pid * WH_PACKET_SIZE := by
    rw [length_padSegment]
    unfold WH_PACKET_SIZE
    simp only [length_cons, length_nil]
    omega
  exact (if_pos src).trans (if_neg covered)

variable (owner : WirehairSegmentTx)

theorem emitOnePacket_narrow (seg : UInt64) (nextPacketId : Nat) (src : pid < 2)
    (sent : List (WireHeader × List UInt8)) :
    emitOnePacket twoPacketCodec (sentTx seg nextPacketId) pid
      (senderEmitBridge channelEmit owner) sent = (0, sent ++ [sourcePacket seg pid]) := by
  have same : SameSegment (narrowTx seg) (sentTx seg nextPacketId) := rfl
  unfold emitOnePacket
  rw [same.fillPacketPayload, same.packetHeader, fill_narrow seg src]
  rfl

theorem emitPackets_narrow (seg : UInt64) {nextPacketId : Nat} (src : nextPacketId < 2)
    (count emitted : Nat) (sent : List (WireHeader × List UInt8)) :
    emitPackets twoPacketCodec (senderEmitBridge channelEmit owner) (count + 1)
      (sentTx seg nextPacketId) emitted sent =
        emitPackets twoPacketCodec (senderEmitBridge channelEmit owner) count
          (sentTx seg (nextPacketId + 1)) (emitted + 1)
          (sent ++ [sourcePacket seg nextPacketId]) := by
  have first := emitOnePacket_narrow owner seg nextPacketId src sent
  rw [emitPackets, show (sentTx seg nextPacketId).nextPacketId = nextPacketId from rfl, first]
  exact if_neg (not_not.mpr rfl)

theorem emitSource_narrow (seg : UInt64) (sent : List (WireHeader × List UInt8)) :
    wirehairSegmentTxEmitSource twoPacketCodec (sentTx seg 0) WIREHAIR_SENDER_SOURCE_BATCH
      (senderEmitBridge channelEmit owner) sent =
        (2, sentTx seg 2, sent ++ [sourcePacket seg 0] ++ [sourcePacket seg 1]) := by
  have range : wirehairSegmentTxEmitSource twoPacketCodec (sentTx seg 0)
      WIREHAIR_SENDER_SOURCE_BATCH (senderEmitBridge channelEmit owner) sent =
      emitPackets twoPacketCodec (senderEmitBridge channelEmit owner) 2 (sentTx seg 0) 0
        sent := by
    have pos : ¬WIREHAIR_SENDER_SOURCE_BATCH = 0 := by decide
    have first : ¬min ((sentTx seg 0).nextPacketId + WIREHAIR_SENDER_SOURCE_BATCH)
        (sentTx seg 0).sourcePackets < (sentTx seg 0).nextPacketId :=
      Nat.not_lt_zero _
    have count : min (min ((sentTx seg 0).nextPacketId + WIREHAIR_SENDER_SOURCE_BATCH)
        (sentTx seg 0).sourcePackets) (sentTx seg 0).packetLimit -
          (sentTx seg 0).nextPacketId = 2 :=
      show min (min (0 + 32) 2) 4 - 0 = 2 by decide
    unfold wirehairSegmentTxEmitSource wirehairSegmentTxEmitRange
    rw [if_neg pos, if_neg first, count]
  rw [range, emitPackets_narrow owner seg (by decide),
    emitPackets_narrow owner seg (by decide)]
  rfl

theorem busySender_tick (sent : List (WireHeader × List UInt8)) :
    wirehairSegmentSenderTick twoPacketCodec channelEmit (busySender seg 0) 0 sent =
      (0, busySender seg 2, sent ++ [sourcePacket seg 0] ++ [sourcePacket seg 1]) := by
  have order : tickOrder (busySender seg 0) = [0] := by
    show [(seg + UInt64.ofNat 0).toNat % 1] = [0]
    rw [Nat.mod_one]
  have slots : setSlot (busySender seg 0) 0 (busySlot seg 2 false) =
      busySender seg 2 := by
    unfold setSlot busySender
    rw [update_idem]
  have src : tickSlot twoPacketCodec channelEmit (sourcePending (busySender seg 0)) 0
      (busySender seg 0) 0 sent = (.next, busySender seg 2,
        sent ++ [sourcePacket seg 0] ++ [sourcePacket seg 1]) := by
    unfold tickSlot
    rw [busySender_slot]
    show tickSource twoPacketCodec channelEmit (busySender seg 0) 0
      (busySlot seg 0 false) 0 sent = _
    unfold tickSource
    rw [show (busySlot seg 0 false).tx = sentTx seg 0 from rfl, emitSource_narrow,
      ← slots]
    rfl
  unfold wirehairSegmentSenderTick
  rw [if_neg (by exact Bool.false_ne_true), busySender_acks]
  dsimp only
  rw [order]
  unfold tickSlots
  rw [src]
  rfl

def markedSender : WirehairSegmentSender :=
  { busySender segmentId 2 with
    acks := update (fun _ => none) (ackIndex segmentId) (some segmentId) }

def ackedSender : WirehairSegmentSender :=
  { busySender segmentId 2 with
    acks := update (fun _ => none) (ackIndex segmentId) (some segmentId)
    slots := update (fun _ => none) 0 (some (busySlot segmentId 2 true)) }

theorem ackedSender_release :
    releaseAckedBase (ackedSender segmentId) = idleSender (segmentId + 1) := by
  have idx : slotIndex (ackedSender segmentId) (ackedSender segmentId).baseSegment = 0 :=
    Nat.mod_one _
  have slot : (ackedSender segmentId).slots 0 = some (busySlot segmentId 2 true) := rfl
  have marked : (ackedSender segmentId).acks (ackIndex segmentId) = some segmentId := if_pos rfl
  have ready : ¬((busySlot segmentId 2 true).segmentId ≠ (ackedSender segmentId).baseSegment ∨
      (busySlot segmentId 2 true).acked = false) := by
    rintro (other | unacked)
    · exact other rfl
    · cases unacked
  have cleared : update (ackedSender segmentId).acks (ackIndex segmentId) none =
      fun _ => none := by
    show update (update _ _ _) _ _ = _
    rw [update_idem]
    exact update_eq_self (ackIndex segmentId) fun _ => none
  have emptied : update (ackedSender segmentId).slots 0 none = fun _ => none := by
    show update (update _ _ _) _ _ = _
    rw [update_idem]
    exact update_eq_self 0 fun _ => none
  show releaseBase 1 (ackedSender segmentId) = _
  unfold releaseBase
  rw [idx, slot]
  dsimp only
  rw [if_neg ready]
  unfold releaseHead ackClear senderReleaseSlot
  rw [idx, show (busySlot segmentId 2 true).segmentId = segmentId from rfl, if_pos marked]
  dsimp only
  rw [cleared, emptied]
  rfl

theorem busySender_inputAck (type : hdr.type = WIRE_TYPE_ACK) (flow : hdr.flowId = 7)
    (block : hdr.blockId = segmentId) :
    (wirehairSegmentSenderInputAck (busySender segmentId 2) (wireHeaderEncodeV4 hdr) 0).2 =
      idleSender (segmentId + 1) := by
  have decoded : wireHeaderDecode (wireHeaderEncodeV4 hdr) =
      some { hdr with version := WIRE_VERSION_V4 } := by
    have whole := wireHeaderDecode_encodeV4 hdr []
    rwa [append_nil] at whole
  have ne : ¬(wireHeaderEncodeV4 hdr).length = 0 := by
    intro empty
    rw [length_eq_zero_iff.mp empty] at decoded
    cases decoded
  have ours : ¬(({ hdr with version := WIRE_VERSION_V4 } : WireHeader).version ≠
      WIRE_VERSION_V4 ∨ hdr.type ≠ WIRE_TYPE_ACK ∨
      hdr.flowId ≠ (busySender segmentId 2).flowId) := by
    rintro (other | other | other)
    · exact other rfl
    · exact other type
    · exact other flow
  have inside : ¬(hdr.flowId ≠ (busySender segmentId 2).flowId ∨
      hdr.blockId < (busySender segmentId 2).baseSegment ∨
      (busySender segmentId 2).window ≤
        (hdr.blockId - (busySender segmentId 2).baseSegment).toNat) := by
    rw [block]
    rintro (other | below | beyond)
    · exact other flow
    · exact UInt64.lt_irrefl _ below
    · exact Nat.not_le.mpr (inside_narrow segmentId) beyond
  have marked : ackMark (busySender segmentId 2) { hdr with version := WIRE_VERSION_V4 } =
      markedSender segmentId := by
    unfold ackMark
    rw [if_neg inside, block]
    rfl
  have pending : (busySlot segmentId 2 false).acked = false ∧
      ackContains (markedSender segmentId) (busySlot segmentId 2 false).segmentId = true := by
    refine ⟨rfl, ?_⟩
    have stored : (markedSender segmentId).acks (ackIndex segmentId) = some segmentId := if_pos rfl
    show ((markedSender segmentId).acks (ackIndex segmentId) == some segmentId) = true
    rw [stored]
    exact beq_self_eq_true _
  have applied : applyAck 0 (markedSender segmentId) 0 = ackedSender segmentId := by
    unfold applyAck
    rw [show (markedSender segmentId).slots 0 = some (busySlot segmentId 2 false) from rfl]
    dsimp only
    have slots : update (markedSender segmentId).slots 0
        (some (busySlot segmentId 2 true)) = (ackedSender segmentId).slots := by
      show update (update _ _ _) _ _ = update _ _ _
      rw [update_idem]
    rw [if_pos pending]
    show ({ markedSender segmentId with
      slots := update (markedSender segmentId).slots 0
        (some (busySlot segmentId 2 true)) } : WirehairSegmentSender) = ackedSender segmentId
    rw [slots]
    rfl
  unfold wirehairSegmentSenderInputAck
  rw [if_neg ne, decoded]
  dsimp only
  rw [if_neg ours, marked]
  show releaseAckedBase (applyAck 0 (markedSender segmentId) 0) = _
  rw [applied]
  exact ackedSender_release segmentId

structure Lockstep (count : Nat) (state : ProtocolState twoPacketCodec) : Prop where
  reached : Reaches (protocolStep twoPacketCodec) anyStep
    (newProtocol twoPacketCodec narrowLink) state
  sender_eq : state.sender = idleSender (UInt64.ofNat count)
  receiver_eq : ∃ emitted, state.receiver = betweenSegments (UInt64.ofNat count) emitted
  admitted_eq : state.admitted.length = count
  output_eq : state.output.length = count
  nothing : count = 0 → state.sent = []
  sent : 0 < count → state.sent[0]? = some (sourcePacket 0 0) ∧
    state.sent[1]? = some (sourcePacket 0 1)

theorem ingest_second_channel (emitted : List UInt64) (acks out : List (List UInt8)) :
    ∃ hdr data, hdr.type = WIRE_TYPE_ACK ∧ hdr.flowId = 7 ∧
      hdr.blockId = seg ∧
      wirehairSegmentReceiverIngest channelCallbacks (halfSegment seg emitted)
        (sourcePacket seg 1).1 (narrowPayload 1) (acks, out) =
          (0, betweenSegments (seg + 1) (emitted ++ [seg]),
            acks ++ [wireHeaderEncodeV4 hdr], out ++ [data]) := by
  refine ⟨ackHeader (fullSegment seg emitted) 1 seg 1,
    (narrowPayload 0 ++ narrowPayload 1).take 1, rfl, rfl, rfl, ?_⟩
  have acked : emitAck channelCallbacks (fullSegment seg emitted) (fullSlot seg)
      (acks, out) = (0, acks ++ [wireHeaderEncodeV4
        (ackHeader (fullSegment seg emitted) 1 seg 1)], out) := by
    unfold emitAck
    rw [if_neg (show ¬(fullSlot seg).ackRequested = false from Bool.noConfusion)]
    rfl
  rw [ingest_second channelCallbacks_succeeds, acked]
  rfl

theorem delivers {seg : UInt64} {emitted : List UInt64} {acks admitted out : List (List UInt8)}
    {first second : Nat} (reached : Reaches (protocolStep twoPacketCodec) anyStep
      (newProtocol twoPacketCodec narrowLink)
      ⟨sender, betweenSegments seg emitted, sent, acks, admitted, out⟩)
    (firstSent : sent[first]? = some (sourcePacket seg 0))
    (secondSent : sent[second]? = some (sourcePacket seg 1)) :
    ∃ hdr data, hdr.type = WIRE_TYPE_ACK ∧ hdr.flowId = 7 ∧
      hdr.blockId = seg ∧
      Reaches (protocolStep twoPacketCodec) anyStep (newProtocol twoPacketCodec narrowLink)
        ⟨sender, betweenSegments (seg + 1) (emitted ++ [seg]), sent,
          acks ++ [wireHeaderEncodeV4 hdr], admitted, out ++ [data]⟩ := by
  obtain ⟨hdr, data, type, flow, block, ingested⟩ := ingest_second_channel seg emitted acks out
  refine ⟨hdr, data, type, flow, block, ?_⟩
  have half : protocolStep twoPacketCodec
      ⟨sender, betweenSegments seg emitted, sent, acks, admitted, out⟩
      (.ingest first) =
      some ⟨sender, halfSegment seg emitted, sent, acks, admitted, out⟩ := by
    dsimp only [protocolStep]
    rw [firstSent]
    dsimp only [sourcePacket]
    have ingestedFirst : wirehairSegmentReceiverIngest channelCallbacks
        (betweenSegments seg emitted) (sourcePacket seg 0).1 (narrowPayload 0)
        (acks, out) = _ := ingest_first seg emitted (acks, out)
    dsimp only [sourcePacket] at ingestedFirst
    rw [ingestedFirst]
  have full : protocolStep twoPacketCodec
      ⟨sender, halfSegment seg emitted, sent, acks, admitted, out⟩ (.ingest second) =
      some ⟨sender, betweenSegments (seg + 1) (emitted ++ [seg]), sent,
        acks ++ [wireHeaderEncodeV4 hdr], admitted, out ++ [data]⟩ := by
    dsimp only [protocolStep]
    rw [secondSent]
    dsimp only [sourcePacket] at ingested ⊢
    rw [ingested]
  exact .next (.ingest second) (.next (.ingest first) reached trivial half) trivial full

theorem Lockstep.next {count : Nat} {state : ProtocolState twoPacketCodec}
    (lockstep : Lockstep count state) : ∃ after, Lockstep (count + 1) after := by
  obtain ⟨_, _, sent, acks, admitted, output⟩ := state
  obtain ⟨reached, rfl, ⟨emitted, rfl⟩, length, lengthOutput, nothing, first⟩ := lockstep
  dsimp only at length lengthOutput nothing first
  have admission : protocolStep twoPacketCodec
      ⟨idleSender (UInt64.ofNat count), betweenSegments (UInt64.ofNat count) emitted, sent, acks,
        admitted, output⟩ (.admission (UInt64.ofNat count) [0]) =
      some ⟨busySender (UInt64.ofNat count) 0, betweenSegments (UInt64.ofNat count) emitted, sent,
        acks, admitted ++ [[0]], output⟩ := by
    dsimp only [protocolStep]
    rw [idleSender_accepts]
    rfl
  have tick : protocolStep twoPacketCodec
      ⟨busySender (UInt64.ofNat count) 0, betweenSegments (UInt64.ofNat count) emitted, sent,
        acks, admitted ++ [[0]], output⟩ (.tick 0) =
      some ⟨busySender (UInt64.ofNat count) 2, betweenSegments (UInt64.ofNat count) emitted,
        sent ++ [sourcePacket (UInt64.ofNat count) 0] ++ [sourcePacket (UInt64.ofNat count) 1],
        acks, admitted ++ [[0]], output⟩ := by
    dsimp only [protocolStep]
    rw [busySender_tick]
  have ticked := Reaches.next (.tick 0)
    (Reaches.next (.admission (UInt64.ofNat count) [0]) reached trivial admission) trivial tick
  have packets : sent ++ [sourcePacket (UInt64.ofNat count) 0] ++
      [sourcePacket (UInt64.ofNat count) 1] =
      sent ++ [sourcePacket (UInt64.ofNat count) 0, sourcePacket (UInt64.ofNat count) 1] := by
    rw [append_assoc]
    rfl
  rw [packets] at ticked
  have firstSent : (sent ++ [sourcePacket (UInt64.ofNat count) 0,
      sourcePacket (UInt64.ofNat count) 1])[sent.length]? =
      some (sourcePacket (UInt64.ofNat count) 0) := by
    rw [List.getElem?_append_right le_rfl, Nat.sub_self]
    rfl
  have secondSent : (sent ++ [sourcePacket (UInt64.ofNat count) 0,
      sourcePacket (UInt64.ofNat count) 1])[sent.length + 1]? =
      some (sourcePacket (UInt64.ofNat count) 1) := by
    rw [List.getElem?_append_right (by omega), Nat.add_sub_cancel_left]
    rfl
  obtain ⟨hdr, data, type, flow, block, delivered⟩ := delivers ticked firstSent secondSent
  have advance : UInt64.ofNat count + 1 = UInt64.ofNat (count + 1) := (UInt64.ofNat_add count 1).symm
  have acknowledged := busySender_inputAck (UInt64.ofNat count) type flow block
  rw [advance] at delivered acknowledged
  have ackSent : (acks ++ [wireHeaderEncodeV4 hdr])[acks.length]? =
      some (wireHeaderEncodeV4 hdr) := by
    rw [List.getElem?_append_right le_rfl, Nat.sub_self]
    rfl
  have released : protocolStep twoPacketCodec
      ⟨busySender (UInt64.ofNat count) 2,
        betweenSegments (UInt64.ofNat (count + 1)) (emitted ++ [UInt64.ofNat count]),
        sent ++ [sourcePacket (UInt64.ofNat count) 0, sourcePacket (UInt64.ofNat count) 1],
        acks ++ [wireHeaderEncodeV4 hdr], admitted ++ [[0]], output ++ [data]⟩
      (.inputAck acks.length 0) =
      some ⟨idleSender (UInt64.ofNat (count + 1)),
        betweenSegments (UInt64.ofNat (count + 1)) (emitted ++ [UInt64.ofNat count]),
        sent ++ [sourcePacket (UInt64.ofNat count) 0, sourcePacket (UInt64.ofNat count) 1],
        acks ++ [wireHeaderEncodeV4 hdr], admitted ++ [[0]], output ++ [data]⟩ := by
    dsimp only [protocolStep]
    rw [ackSent]
    dsimp only
    rw [acknowledged]
  refine ⟨_, .next (.inputAck acks.length 0) delivered trivial released, rfl, ⟨_, rfl⟩, ?_, ?_,
    fun none => absurd none (Nat.succ_ne_zero count), ?_⟩
  · rw [length_append, length]
    rfl
  · rw [length_append, lengthOutput]
    rfl
  · intro _
    rcases Nat.eq_zero_or_pos count with zero | pos
    · rw [nothing zero, zero]
      exact ⟨rfl, rfl⟩
    obtain ⟨head, next⟩ := first pos
    have two : 1 < sent.length := (List.getElem?_eq_some_iff.mp next).1
    rw [List.getElem?_append_left (by omega), List.getElem?_append_left two]
    exact ⟨head, next⟩

theorem lockstep_exists (count : Nat) : ∃ state, Lockstep count state := by
  induction count with
  | zero =>
    exact ⟨newProtocol twoPacketCodec narrowLink, .start, rfl, ⟨[], rfl⟩, rfl, rfl,
      fun _ => rfl, fun pos => absurd pos (lt_irrefl 0)⟩
  | succ _ ih =>
    obtain ⟨_, lockstep⟩ := ih
    exact lockstep.next

theorem narrowLink_created :
    wirehairSegmentSenderCreate narrowLink.config narrowLink.flowId narrowLink.finalDst
        narrowLink.ttl = some (newProtocol twoPacketCodec narrowLink).sender ∧
      wirehairSegmentReceiverCreate twoPacketCodec narrowLink.config narrowLink.flowId =
        some (newProtocol twoPacketCodec narrowLink).receiver :=
  ⟨if_neg (by decide), if_neg (by decide)⟩

/-- After `2 ^ 64` segments the first packets, delivered once more, are taken for a new
segment 0. -/
theorem output_exceeds_input :
    twoPacketCodec.Correct ∧
      wirehairSegmentSenderCreate narrowLink.config narrowLink.flowId narrowLink.finalDst
        narrowLink.ttl = some (newProtocol twoPacketCodec narrowLink).sender ∧
      wirehairSegmentReceiverCreate twoPacketCodec narrowLink.config narrowLink.flowId =
        some (newProtocol twoPacketCodec narrowLink).receiver ∧
      ∃ state, Reaches (protocolStep twoPacketCodec) anyStep
          (newProtocol twoPacketCodec narrowLink) state ∧
        state.admitted.length < state.output.length := by
  refine ⟨twoPacketCodec_correct, narrowLink_created.1, narrowLink_created.2, ?_⟩
  obtain ⟨count, size⟩ : ∃ count, count = 2 ^ 64 := ⟨_, rfl⟩
  obtain ⟨⟨_⟩, lockstep⟩ := lockstep_exists count
  obtain ⟨reached, rfl, ⟨_, rfl⟩, length, lengthOutput, _, first⟩ := lockstep
  have wrapped : UInt64.ofNat count = 0 := by
    rw [size]
    rfl
  obtain ⟨firstSent, secondSent⟩ := first (by omega)
  rw [wrapped] at reached
  obtain ⟨_, _, _, _, _, delivered⟩ := delivers reached firstSent secondSent
  refine ⟨_, delivered, ?_⟩
  rw [List.length_append, length, lengthOutput]
  exact Nat.lt_succ_self count

theorem ack_window_safe_single :
    ∃ state, Reaches (protocolStep twoPacketCodec) anyStep
        (newProtocol twoPacketCodec narrowLink) state ∧ state.admitted.length = 1 ∧
      (∀ position < state.sender.baseSegment.toNat,
        Recovered state.receiver (UInt64.ofNat position)) ∧
      state.output = state.admitted.take state.receiver.nextEmitSegment.toNat := by
  obtain ⟨state, lockstep⟩ := lockstep_exists 1
  have few : state.admitted.length < 2 ^ 64 := by
    rw [lockstep.admitted_eq]
    decide
  have safe := ack_window_safe twoPacketCodec_correct narrowLink narrowLink_created.1
    narrowLink_created.2 lockstep.reached few
  exact ⟨state, lockstep.reached, lockstep.admitted_eq, safe.1, safe.2.2.2.2.1⟩

end MultiFlow.Wirehair
