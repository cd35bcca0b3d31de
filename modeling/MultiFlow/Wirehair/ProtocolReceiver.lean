import MultiFlow.Wirehair.ProtocolSteps

/-!
# The receiver of the protocol

A receiver that is given only packets of admitted segments, none of them ahead of its window.
-/

namespace MultiFlow.Wirehair

open Wire

theorem wirehairSegmentRepairCeiling_ack {sourcePackets repairPercent : Nat}
    (two : 2 ≤ sourcePackets) (percent : repairPercent ≤ 100) :
    wirehairSegmentRepairCeiling sourcePackets repairPercent true = sourcePackets := by
  have scaled : sourcePackets * repairPercent ≤ sourcePackets * 100 := Nat.mul_le_mul_left _ percent
  unfold wirehairSegmentRepairCeiling wirehairSegmentRepairPackets WH_REPAIR_MIN_PACKETS
  simp only [Bool.true_and, decide_eq_true_eq]
  split_ifs <;> omega

theorem two_le_sourcePackets {bytes : Nat} (ne : bytes ≠ 0) :
    2 ≤ wirehairSegmentSourcePackets bytes := by
  unfold wirehairSegmentSourcePackets
  rw [if_neg ne]
  dsimp only
  split_ifs <;> omega

variable {cfg : WirehairSegmentConfig}

theorem wirehairSegmentConfigValid_percent (valid : wirehairSegmentConfigValid cfg = true) :
    cfg.repairPercent.toNat ≤ 100 := by
  unfold wirehairSegmentConfigValid at valid
  split_ifs at valid with bad
  simp only [not_or, Nat.not_lt] at bad
  exact bad.2.1

variable {segmentId : UInt64}

theorem wirehairSegmentTxCreate_nonempty {flowId : UInt32} {finalDst ttl : UInt8}
    {data : List UInt8} {tx : WirehairSegmentTx}
    (created : wirehairSegmentTxCreate cfg flowId segmentId finalDst ttl data = some tx) :
    data.length ≠ 0 := by
  intro empty
  unfold wirehairSegmentTxCreate at created
  rw [if_pos (.inr (.inl empty))] at created
  cases created

variable {codec : WirehairCodec} {link : Link} {admitted : List (List UInt8)}

section Geometry

variable {pos : Nat} {data : List UInt8} {tx : WirehairSegmentTx}

theorem Segment.bytes (segment : Segment link admitted pos data tx) (pid : Nat)
    (body : List UInt8) : (packetHeader tx pid body).segmentBytes.toNat = data.length := by
  obtain ⟨_, short, rfl⟩ := wirehairSegmentTxCreate_eq segment.created
  have bound := link.config.segmentBytes.toNat_lt
  exact UInt32.toNat_ofNat_of_lt' (lt_of_le_of_lt short bound)

/-- A packet id that does not fit its field belongs to a segment whose packets fail the geometry
check. -/
theorem Segment.limit_lt (ack : link.config.ackEnabled = true)
    (segment : Segment link admitted pos data tx)
    {rcv : WirehairSegmentReceiver codec} {pid : Nat} {body : List UInt8}
    (geometry : headerGeometryOk rcv (packetHeader tx pid body) = true) :
    tx.packetLimit < 2 ^ 16 := by
  have bytes := segment.bytes pid body
  have two := two_le_sourcePackets (wirehairSegmentTxCreate_nonempty segment.created)
  obtain ⟨valid, _, equal⟩ := wirehairSegmentTxCreate_eq segment.created
  have percent := wirehairSegmentConfigValid_percent valid
  have limit : tx.packetLimit = wirehairSegmentSourcePackets data.length +
      wirehairSegmentSourcePackets data.length := by
    rw [equal]
    rw [ack, wirehairSegmentRepairCeiling_ack two percent]
  unfold headerGeometryOk at geometry
  split_ifs at geometry
  rw [bytes] at geometry
  have enough := (of_decide_eq_true geometry).1
  have count : (packetHeader tx pid body).shardCount.toNat = tx.packetLimit % 2 ^ 16 :=
    UInt16.toNat_ofNat'
  omega

end Geometry

/-- A datagram that the receiver may be given: a packet of an admitted segment that is not ahead
of the window, or an END. -/
structure Arrives (codec : WirehairCodec) (link : Link) (admitted : List (List UInt8))
    (Ended : Prop) (bound : Nat) (header : WireHeader) (payload : List UInt8) : Prop where
  packet : header.type = WIRE_TYPE_DATA → ∃ position data tx packetId,
    Segment link admitted position data tx ∧ packetId < tx.packetLimit ∧
      fillPacketPayload codec tx packetId = some payload ∧
      header = packetHeader tx packetId payload
  near : header.type = WIRE_TYPE_DATA → header.blockId.toNat < bound
  finish : header.type = WIRE_TYPE_END → Ended

variable {Ended : Prop} {rcv : WirehairSegmentReceiver codec}
  {before after : WirehairSegmentReceiver codec × List (List UInt8) × List (List UInt8)}
  {env : List (List UInt8) × List (List UInt8)} {hdr : WireHeader} {payload : List UInt8}
  {bound index : Nat} {slot : WirehairSegmentSlot codec}

variable (few : admitted.length < 2 ^ 64)
include few

theorem ReceiverPart.collects (ack : link.config.ackEnabled = true)
    (part : ReceiverPart link admitted Ended rcv env)
    (arrives : Arrives codec link admitted Ended bound hdr payload)
    (collects : Collects rcv hdr payload index slot) (collecting : slot.state ≠ .recovered) :
    ∃ position data tx, SlotPart link admitted slot position data tx ∧
      fillPacketPayload codec tx hdr.shardIndex.toNat = some payload := by
  obtain ⟨position, data, tx, packetId, segment, within, filled, rfl⟩ :=
    arrives.packet (dataFieldsOk_type collects.fields)
  have created := wirehairSegmentTxCreate_eq segment.created
  have block : (packetHeader tx packetId payload).blockId = UInt64.ofNat position := by
    rw [created.2.2]
    rfl
  have shard : tx.packetLimit < 2 ^ 16 →
      (packetHeader tx packetId payload).shardIndex.toNat = packetId := fun limit =>
    UInt16.toNat_ofNat_of_lt' (lt_trans within limit)
  rcases collects.known with held | ⟨_, _, geometry, fresh⟩
  · obtain ⟨place, old, oldTx, kept⟩ := part.slots index slot held
    have same : UInt64.ofNat place = UInt64.ofNat position :=
      kept.id_eq.symm.trans (collects.segment.trans block)
    obtain ⟨rfl, rfl, rfl⟩ := kept.segment.unique few segment same
    refine ⟨place, old, oldTx, kept, ?_⟩
    rw [shard kept.limit_lt]
    exact filled
  have limit := segment.limit_lt ack geometry
  refine ⟨position, data, tx, ⟨segment, collects.segment.trans block, ?_, limit, ?_, ?_⟩, ?_⟩
  · rw [collects.bytes]
    exact segment.bytes packetId payload
  · have length : max (packetHeader tx packetId payload).segmentBytes.toNat
        (2 * WH_PACKET_SIZE) = tx.message.length := by
      rw [segment.bytes, created.2.2, length_padSegment]
    rw [fresh]
    show DecodesFor codec tx (codec.decoderCreate (max _ _))
    rw [length]
    exact .fresh
  · intro complete
    exact absurd complete collecting
  · rw [shard limit]
    exact filled

omit few

theorem Collects.keeps_recovered (collects : Collects rcv hdr payload index slot)
    (collecting : slot.state ≠ .recovered) {place : Nat} {held : WirehairSegmentSlot codec}
    (stored : rcv.slots place = some held) (complete : held.state = .recovered)
    (value : Option (WirehairSegmentSlot codec)) :
    (setReceiverSlot rcv index value).slots place = some held := by
  have elsewhere : place ≠ index := by
    rintro rfl
    rcases collects.known with known | ⟨free, _⟩
    · rw [known] at stored
      cases stored
      exact collecting complete
    · rw [free] at stored
      cases stored
  exact (Function.update_of_ne elsewhere _ _).trans stored

theorem Collects.recovered_mono (collects : Collects rcv hdr payload index slot)
    (collecting : slot.state ≠ .recovered) (value : Option (WirehairSegmentSlot codec))
    (recovered : Recovered rcv segmentId) :
    Recovered (setReceiverSlot rcv index value) segmentId := by
  rcases recovered with below | ⟨place, held, stored, id, complete⟩
  · exact .inl below
  · exact .inr ⟨place, held, collects.keeps_recovered collecting stored complete value, id,
      complete⟩

include few

variable (part : ReceiverPart link admitted Ended rcv env)
include part

theorem ReceiverPart.next_advances (found : findSlot rcv rcv.nextEmitSegment = some (index, slot)) :
    rcv.nextEmitSegment.toNat < admitted.length ∧
      (rcv.nextEmitSegment + 1).toNat = rcv.nextEmitSegment.toNat + 1 := by
  obtain ⟨_, stored, id⟩ := findSlot_some found
  obtain ⟨position, _, _, kept⟩ := part.slots index slot stored
  have below := kept.segment.position_lt
  have here : rcv.nextEmitSegment.toNat = position := by
    rw [← id, kept.id_eq, toNat_ofNat_small (by omega)]
  refine ⟨by omega, ?_⟩
  rw [UInt64.toNat_add]
  exact Nat.mod_eq_of_lt (show rcv.nextEmitSegment.toNat + 1 < 2 ^ 64 by omega)

omit part

theorem ReceiverPart.recovered_mono (part : ReceiverPart link admitted Ended before.1 before.2)
    (move : ReceiverMove channelCallbacks hdr payload before after)
    (recovered : Recovered before.1 segmentId) : Recovered after.1 segmentId := by
  cases move with
  | fed _ _ _ _ _ _ collects collecting | recovered _ _ _ _ _ _ collects collecting =>
    exact collects.recovered_mono collecting _ recovered
  | passed rcv env index _ found =>
    have before : ReceiverPart link admitted Ended rcv env := part
    obtain ⟨_⟩ := before.next_advances few found
    obtain ⟨_, stored, id⟩ := findSlot_some found
    rcases recovered with below | ⟨place, held, kept, same, complete⟩
    · left
      rw [UInt64.lt_iff_toNat_lt] at below ⊢
      dsimp only at below
      show _ < (rcv.nextEmitSegment + 1).toNat
      omega
    by_cases here : place = index
    · left
      subst here
      rw [stored] at kept
      cases kept
      rw [UInt64.lt_iff_toNat_lt, ← same, id]
      show _ < (rcv.nextEmitSegment + 1).toNat
      omega
    · exact .inr ⟨place, held, (Function.update_of_ne here _ _).trans kept, same, complete⟩
  | _ => exact recovered

theorem ReceiverPart.acks_mono (part : ReceiverPart link admitted Ended before.1 before.2)
    (move : ReceiverMove channelCallbacks hdr payload before after) {dgram : List UInt8}
    (mem : dgram ∈ before.2.1) :
    ∃ hdr, dgram = wireHeaderEncodeV4 hdr ∧ Recovered after.1 hdr.blockId := by
  obtain ⟨ackHeader, equal, recovered⟩ := part.acks dgram mem
  exact ⟨ackHeader, equal, part.recovered_mono few move recovered⟩

omit few

include part

theorem ReceiverPart.store {kept : WirehairSegmentSlot codec}
    (windowed : Windowed (setReceiverSlot rcv index (some kept)))
    (segment : ∃ pos data tx, SlotPart link admitted kept pos data tx)
    (acks : ∀ dgram ∈ env.1, ∃ hdr, dgram = wireHeaderEncodeV4 hdr ∧
      Recovered (setReceiverSlot rcv index (some kept)) hdr.blockId) :
    ReceiverPart link admitted Ended (setReceiverSlot rcv index (some kept)) env where
  config_eq := part.config_eq
  window_eq := part.window_eq
  windowed := windowed
  slots := by
    intro place held stored
    rcases setReceiverSlot_cases stored with ⟨_, ⟨⟩⟩ | ⟨_, old⟩
    · exact segment
    · exact part.slots place held old
  next_le := part.next_le
  output_eq := part.output_eq
  drops_eq := part.drops_eq
  ended := part.ended
  acks := acks

omit part in
theorem SlotPart.take_message {pos : Nat} {data : List UInt8} {tx : WirehairSegmentTx}
    (kept : SlotPart link admitted slot pos data tx) (complete : slot.state = .recovered) :
    slot.recovered.take slot.segmentBytes.toNat = data := by
  rw [kept.message_eq complete, kept.bytes_eq]
  obtain ⟨_, _, equal⟩ := wirehairSegmentTxCreate_eq kept.segment.created
  rw [equal]
  exact List.take_left

include few

theorem ReceiverPart.passOn (found : findSlot rcv rcv.nextEmitSegment = some (index, slot))
    (ready : slot.state = .recovered)
    (acks : ∀ dgram ∈ env.1, ∃ hdr, dgram = wireHeaderEncodeV4 hdr ∧
      Recovered (Wirehair.passOn rcv index slot) hdr.blockId) :
    ReceiverPart link admitted Ended (Wirehair.passOn rcv index slot)
      (env.1, env.2 ++ [slot.recovered.take slot.segmentBytes.toNat]) := by
  obtain ⟨_, advanced⟩ := part.next_advances few found
  obtain ⟨_, stored, id⟩ := findSlot_some found
  obtain ⟨position, _, _, kept⟩ := part.slots index slot stored
  have bounded := kept.segment.position_lt
  have here : rcv.nextEmitSegment.toNat = position := by
    rw [← id, kept.id_eq, toNat_ofNat_small (by omega)]
  constructor
  · exact part.config_eq
  · exact part.window_eq
  · exact part.windowed.passOn found
  · intro place held remains
    rcases setReceiverSlot_cases remains with ⟨_, ⟨⟩⟩ | ⟨_, old⟩
    exact part.slots place held old
  · show (rcv.nextEmitSegment + 1).toNat ≤ _
    omega
  · show env.2 ++ _ = admitted.take (rcv.nextEmitSegment + 1).toNat
    rw [advanced, List.take_add_one, kept.take_message ready, part.output_eq, here,
      kept.segment.member]
    rfl
  · exact part.drops_eq
  · exact part.ended
  · exact acks

omit few

theorem ReceiverPart.append {Later : Prop} (more : List (List UInt8))
    (ended : rcv.endSeen = true → Later) : ReceiverPart link (admitted ++ more) Later rcv env :=
  { part with
    slots := by
      intro index slot stored
      obtain ⟨pos, data, tx, kept⟩ := part.slots index slot stored
      exact ⟨pos, data, tx, { kept with segment := kept.segment.append more }⟩
    next_le := part.next_le.trans (by rw [List.length_append]; omega)
    output_eq := by
      rw [List.take_append_of_le_length part.next_le]
      exact part.output_eq
    ended }

omit part

def ReceiverSide (link : Link) (admitted : List (List UInt8)) (Ended : Prop) (bound : Nat)
    (side : WirehairSegmentReceiver codec × List (List UInt8) × List (List UInt8)) : Prop :=
  ReceiverPart link admitted Ended side.1 side.2 ∧
    bound ≤ side.1.nextEmitSegment.toNat + side.1.window

theorem ReceiverMove.side (correct : codec.Correct) (few : admitted.length < 2 ^ 64)
    (ack : link.config.ackEnabled = true)
    (arrives : Arrives codec link admitted Ended bound hdr payload)
    (move : ReceiverMove channelCallbacks hdr payload before after)
    (side : ReceiverSide link admitted Ended bound before) :
    ReceiverSide link admitted Ended bound after := by
  obtain ⟨part, reach⟩ := side
  have windowed := move.windowed part.windowed
  have acks : ∀ dgram ∈ before.2.1, ∃ hdr, dgram = wireHeaderEncodeV4 hdr ∧
      Recovered after.1 hdr.blockId := fun dgram mem => part.acks_mono few move mem
  cases move with
  | finished _ _ verdict =>
    exact ⟨{ part with
      windowed
      ended := fun _ => arrives.finish (examine_finish verdict)
      acks }, reach⟩
  | completed => exact ⟨{ part with windowed, acks }, reach⟩
  | dropped _ _ verdict =>
    obtain ⟨isData, reached, ahead⟩ := examine_ahead verdict
    have near := arrives.near isData
    have lower := UInt64.le_iff_toNat_le.mp reached
    rw [UInt64.toNat_sub_of_le _ _ reached] at ahead
    dsimp only at reach
    omega
  | fed rcv env _ _ _ decoder collects collecting decoded =>
    have cur : ReceiverPart link admitted Ended rcv env := part
    obtain ⟨pos, data, tx, kept, filled⟩ := cur.collects few ack arrives collects collecting
    have decodes : DecodesFor codec tx decoder := by
      have next := kept.decodes.fed hdr.shardIndex.toNat payload filled
      rwa [decoded] at next
    exact ⟨cur.store windowed ⟨pos, data, tx, { kept with
      decodes
      message_eq := fun complete => absurd complete collecting }⟩ acks, reach⟩
  | recovered rcv env _ slot decoder message collects collecting decoded complete =>
    have cur : ReceiverPart link admitted Ended rcv env := part
    obtain ⟨pos, data, tx, kept, filled⟩ := cur.collects few ack arrives collects collecting
    have decodes : DecodesFor codec tx decoder := by
      have next := kept.decodes.fed hdr.shardIndex.toNat payload filled
      rwa [decoded] at next
    have whole : message = tx.message := correct _ _ _ _ _ _ tx slot.decoder decoder _ payload
      message kept.segment.created kept.decodes filled decoded complete
    exact ⟨cur.store windowed ⟨pos, data, tx, { kept with
      decodes
      message_eq := fun _ => whole }⟩ acks, reach⟩
  | acked _ _ _ _ _ _ given known =>
    cases given
    refine ⟨{ part with acks := ?_ }, reach⟩
    intro dgram mem
    rcases List.mem_append.mp mem with earlier | last
    · exact acks dgram earlier
    · exact ⟨_, List.mem_singleton.mp last, known⟩
  | passed rcv env _ _ found ready =>
    have cur : ReceiverPart link admitted Ended rcv env := part
    obtain ⟨_⟩ := cur.next_advances few found
    refine ⟨cur.passOn few found ready acks, ?_⟩
    show bound ≤ (rcv.nextEmitSegment + 1).toNat + rcv.window
    dsimp only at reach
    omega

end MultiFlow.Wirehair
