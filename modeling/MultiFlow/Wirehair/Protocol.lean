import MultiFlow.Wirehair.SenderMoves
import MultiFlow.Wirehair.ReceiverWindow

/-!
# Sender and receiver over a lossy channel

A sender and a receiver of one configuration.  The channel keeps every datagram that was ever
emitted: delivering any of them, in any order and any number of times, covers loss, duplication and
reordering.  `admitted` and `output` record the segments that went in and came out; neither party
reads them.
-/

namespace MultiFlow.Wirehair

open Wire

structure ProtocolState (codec : WirehairCodec) where
  sender : WirehairSegmentSender
  receiver : WirehairSegmentReceiver codec
  sent : List (WireHeader × List UInt8)
  acks : List (List UInt8)
  admitted : List (List UInt8)
  output : List (List UInt8)

inductive ProtocolAction where
  | admission (segmentId : UInt64) (data : List UInt8)
  | markInputFinished
  | tick (nowNs : UInt64)
  | tryEmitEnd
  | inputAck (position : Nat) (nowNs : UInt64)
  | ingest (position : Nat)

def channelEmit : SenderEmitFn (List (WireHeader × List UInt8)) := fun header payload _ sent =>
  (0, sent ++ [(header, payload)])

/-- The environment is the acknowledgements sent and the segments output. -/
def channelCallbacks : ReceiverCallbacks (List (List UInt8) × List (List UInt8)) where
  output := fun _ data env => (0, (env.1, env.2 ++ [data]))
  ack := some fun header env => (0, (env.1 ++ [wireHeaderEncodeV4 header], env.2))

theorem channelCallbacks_succeeds : channelCallbacks.Succeeds where
  output := fun _ _ _ => rfl
  ack := by
    rintro _ ⟨⟩ _ _
    rfl

def protocolStep (codec : WirehairCodec) (state : ProtocolState codec) :
    ProtocolAction → Option (ProtocolState codec)
  | .admission segmentId data =>
    let (answer, sender) := wirehairSegmentSenderAdmit state.sender segmentId data
    some { state with
      sender
      admitted := if answer = 0 then state.admitted ++ [data] else state.admitted }
  | .markInputFinished =>
    some { state with sender := wirehairSegmentSenderMarkInputFinished state.sender }
  | .tick nowNs =>
    let (_, sender, sent) :=
      wirehairSegmentSenderTick codec channelEmit state.sender nowNs state.sent
    some { state with sender, sent }
  | .tryEmitEnd =>
    let (_, sender, sent) :=
      wirehairSegmentSenderTryEmitEnd channelEmit state.sender state.sent
    some { state with sender, sent }
  | .inputAck position nowNs =>
    match state.acks[position]? with
    | none => none
    | some datagram =>
      some { state with
        sender := (wirehairSegmentSenderInputAck state.sender datagram nowNs).2 }
  | .ingest position =>
    match state.sent[position]? with
    | none => none
    | some (header, payload) =>
      let (_, receiver, acks, output) := wirehairSegmentReceiverIngest channelCallbacks
        state.receiver header payload (state.acks, state.output)
      some { state with receiver, acks, output }

/-- A decoder that was given only packets of one segment. -/
inductive DecodesFor (codec : WirehairCodec) (tx : WirehairSegmentTx) : codec.Decoder → Prop where
  | fresh : DecodesFor codec tx (codec.decoderCreate tx.message.length)
  | fed {decoder : codec.Decoder} (packetId : Nat) (payload : List UInt8)
      (earlier : DecodesFor codec tx decoder)
      (filled : fillPacketPayload codec tx packetId = some payload) :
      DecodesFor codec tx (codec.decode decoder packetId payload).2

/-- A decoder that was given only packets of one segment and reports success recovers no other
segment. -/
def WirehairCodec.Correct (codec : WirehairCodec) : Prop :=
  ∀ (config : WirehairSegmentConfig) (flowId : UInt32) (segmentId : UInt64) (finalDst ttl : UInt8)
    (data : List UInt8) (tx : WirehairSegmentTx) (decoder after : codec.Decoder) (packetId : Nat)
    (payload message : List UInt8),
    wirehairSegmentTxCreate config flowId segmentId finalDst ttl data = some tx →
    DecodesFor codec tx decoder → fillPacketPayload codec tx packetId = some payload →
    codec.decode decoder packetId payload = (.success, after) →
    codec.recover after = some message → message = tx.message

structure Link where
  config : WirehairSegmentConfig
  flowId : UInt32
  finalDst : UInt8
  ttl : UInt8

def Link.tx (link : Link) (position : Nat) (data : List UInt8) : Option WirehairSegmentTx :=
  wirehairSegmentTxCreate link.config link.flowId (UInt64.ofNat position) link.finalDst link.ttl
    data

/-- The segment at a position of the admitted ones, with its encoder. -/
structure Segment (link : Link) (admitted : List (List UInt8)) (position : Nat)
    (data : List UInt8) (tx : WirehairSegmentTx) : Prop where
  member : admitted[position]? = some data
  created : link.tx position data = some tx

structure SenderPart (link : Link) (admitted : List (List UInt8)) (Known : UInt64 → Prop)
    (sender : WirehairSegmentSender) : Prop where
  config_eq : sender.config = link.config
  flowId_eq : sender.flowId = link.flowId
  finalDst_eq : sender.finalDst = link.finalDst
  ttl_eq : sender.ttl = link.ttl
  window_eq : sender.window = wirehairSegmentWindow link.config
  next_eq : sender.nextSegmentId = UInt64.ofNat admitted.length
  base_le : sender.baseSegment.toNat ≤ admitted.length
  room : admitted.length ≤ sender.baseSegment.toNat + sender.window
  active_eq : sender.activeCount = admitted.length - sender.baseSegment.toNat
  slots : ∀ index slot, sender.slots index = some slot → ∃ position data tx,
    Segment link admitted position data tx ∧ slot.segmentId = UInt64.ofNat position ∧
      SameSegment tx slot.tx
  acked : ∀ index slot, sender.slots index = some slot → slot.acked = true → Known slot.segmentId
  marked : ∀ index segmentId, sender.acks index = some segmentId → Known segmentId
  released : ∀ position < sender.baseSegment.toNat, Known (UInt64.ofNat position)

/-- The input is finished and every admitted segment was released. -/
def Drained (admitted : List (List UInt8)) (sender : WirehairSegmentSender) : Prop :=
  sender.inputFinished = true ∧ sender.baseSegment.toNat = admitted.length

/-- A packet of an admitted segment, or the END of a drained sender. -/
def Travels (codec : WirehairCodec) (link : Link) (admitted : List (List UInt8))
    (sender : WirehairSegmentSender) (datagram : WireHeader × List UInt8) : Prop :=
  (∃ position data tx packetId, Segment link admitted position data tx ∧
      packetId < tx.packetLimit ∧ fillPacketPayload codec tx packetId = some datagram.2 ∧
      datagram.1 = packetHeader tx packetId datagram.2) ∨
    datagram.1.type = WIRE_TYPE_END ∧ Drained admitted sender

/-- A receiver slot that collects an admitted segment. -/
structure SlotPart {codec : WirehairCodec} (link : Link) (admitted : List (List UInt8))
    (slot : WirehairSegmentSlot codec) (position : Nat) (data : List UInt8)
    (tx : WirehairSegmentTx) : Prop where
  segment : Segment link admitted position data tx
  id_eq : slot.segmentId = UInt64.ofNat position
  bytes_eq : slot.segmentBytes.toNat = data.length
  limit_lt : tx.packetLimit < 2 ^ 16
  decodes : DecodesFor codec tx slot.decoder
  message_eq : slot.state = .recovered → slot.recovered = tx.message

structure ReceiverPart {codec : WirehairCodec} (link : Link) (admitted : List (List UInt8))
    (Ended : Prop) (receiver : WirehairSegmentReceiver codec)
    (env : List (List UInt8) × List (List UInt8)) : Prop where
  config_eq : receiver.config = link.config
  window_eq : receiver.window = wirehairSegmentWindow link.config
  windowed : Windowed receiver
  slots : ∀ index slot, receiver.slots index = some slot →
    ∃ position data tx, SlotPart link admitted slot position data tx
  next_le : receiver.nextEmitSegment.toNat ≤ admitted.length
  output_eq : env.2 = admitted.take receiver.nextEmitSegment.toNat
  drops_eq : receiver.aheadWindowDrops = 0
  ended : receiver.endSeen = true → Ended
  acks : ∀ datagram ∈ env.1, ∃ header, datagram = wireHeaderEncodeV4 header ∧
    Recovered receiver header.blockId

def Settled {codec : WirehairCodec} (receiver : WirehairSegmentReceiver codec) : Prop :=
  ∀ index slot, receiver.slots index = some slot →
    slot.segmentId = receiver.nextEmitSegment → slot.state ≠ .recovered

structure Agreement {codec : WirehairCodec} (link : Link) (state : ProtocolState codec) :
    Prop where
  sender : SenderPart link state.admitted (Recovered state.receiver) state.sender
  receiver : ReceiverPart link state.admitted (Drained state.admitted state.sender) state.receiver
    (state.acks, state.output)
  settled : Settled state.receiver
  sent : ∀ datagram ∈ state.sent, Travels codec link state.admitted state.sender datagram

end MultiFlow.Wirehair
