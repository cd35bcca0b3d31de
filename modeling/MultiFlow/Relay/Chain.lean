import MultiFlow.Relay.Ingress
import MultiFlow.Wire.HostOrder
import MultiFlow.Wire.Progress
import MultiFlow.Wire.Sender
import MultiFlow.Wirehair.Protocol

/-!
# Chains of relays

A relay without transforms sends a datagram on with one hop less, and nothing else changes that a
receiver reads.  So no datagram outlives its hop budget, a flow decodes behind relays as it does
without them, and the Wirehair parties cannot tell relays from a lossy channel.
-/

namespace MultiFlow.Relay

open Lib Wire FlowDecoder Sender Wirehair

variable {Peer : Type} {datagram next : List UInt8} {hdr : WireHeader}

/-- A relay takes the datagram, on either of its paths, and sends `next`. -/
def Hop (Peer : Type) (datagram next : List UInt8) : Prop :=
  ∃ (ctx : RelayCtx Peer) (target : Peer), ctx.config.Plain ∧
    (fastFate ctx datagram = some (.sent target next) ∨
      ∃ nowNs memory, deferredFate ctx datagram nowNs memory = .sent target next)

inductive Relayed (Peer : Type) (datagram : List UInt8) : Nat → List UInt8 → Prop
  | start : Relayed Peer datagram 0 datagram
  | hop {n : Nat} {last next : List UInt8} :
      Relayed Peer datagram n last → Hop Peer last next → Relayed Peer datagram (n + 1) next

def hopBudget (datagram : List UInt8) : Nat :=
  (recvWireDatagram datagram).elim 0 fun got => got.1.ttl.toNat

def withTtl (ttl : UInt8) (got : Datagram) : Datagram := ({ got.1 with ttl }, got.2)

theorem relayTxEmit_sent {ctx : RelayCtx Peer} {pkt : EgressPacket Peer} {target : Peer}
    (plain : ctx.config.Plain) (sent : relayTxEmit ctx pkt = .sent target next) :
    next = pkt.datagram := by
  unfold relayTxEmit egressDatagram at sent
  rw [plain.2] at sent
  dsimp only at sent
  split at sent
  · cases sent
  split at sent
  · cases sent
  cases sent
  rfl

section Ingress

variable {ctx after : RelayCtx Peer} {src : RelayPacketSource} {nowNs : UInt64}
  {memory : InsertMemory} {pending : ForwardPending Peer} {emitted : List (ForwardPending Peer)}

theorem submitData_forwarded (forwarded : submitData ctx datagram hdr src nowNs memory =
      (.forwarded pending emitted, after)) :
    after.config = ctx.config ∧ pending.pkt.datagram = datagram := by
  unfold submitData at forwarded
  dsimp only at forwarded
  -- With and without a cached generation the datagram goes on unless a hook took it.
  split_ifs at forwarded
  · cases forwarded
  · cases forwarded
    exact ⟨rfl, rfl⟩
  · cases forwarded
  · cases forwarded
    exact ⟨rfl, rfl⟩

theorem submitForward_forwarded (plain : ctx.config.Plain)
    (forwarded : submitForward ctx datagram hdr src nowNs memory =
      (.forwarded pending emitted, after)) :
    after.config = ctx.config ∧ pending.pkt.datagram = datagram := by
  unfold submitForward recodeDatagram at forwarded
  rw [plain.1] at forwarded
  dsimp only at forwarded
  split at forwarded
  · cases forwarded
    refine ⟨?_, rfl⟩
    split <;> rfl
  · exact submitData_forwarded forwarded

theorem ingressSubmitOwned_forwarded (plain : ctx.config.Plain)
    (forwarded : ingressSubmitOwned ctx datagram src nowNs memory =
      (.forwarded pending emitted, after)) :
    after.config = ctx.config ∧ ∃ hdr, wireHeaderDecode datagram = some hdr ∧ 1 < hdr.ttl ∧
      pending.pkt.datagram = writeHeader { hdr with ttl := hdr.ttl - 1 } datagram := by
  unfold ingressSubmitOwned at forwarded
  split at forwarded
  · cases forwarded
  split at forwarded
  · cases forwarded
  next hdr decoded =>
    split at forwarded
    · cases forwarded -- loopback
    split at forwarded
    · cases forwarded -- no hop left
    split at forwarded
    · cases forwarded -- an ACK of the local source
    split at forwarded
    · cases forwarded -- local delivery
    split at forwarded
    · cases forwarded -- the last hop
    rename_i spent
    obtain ⟨config_eq, datagram_eq⟩ := submitForward_forwarded plain forwarded
    exact ⟨config_eq, hdr, decoded, UInt8.not_le.mp spent, datagram_eq⟩

theorem rxTryFastAck_enqueued {pkt : EgressPacket Peer}
    (enqueued : rxTryFastAck ctx datagram = .enqueued pkt) :
    ∃ hdr, wireHeaderDecode datagram = some hdr ∧ 1 < hdr.ttl ∧
      pkt.datagram = writeHeader { hdr with ttl := hdr.ttl - 1 } datagram := by
  unfold rxTryFastAck at enqueued
  split at enqueued
  · cases enqueued
  split at enqueued
  · cases enqueued
  split at enqueued
  · cases enqueued
  next hdr decoded =>
    split at enqueued
    · cases enqueued -- no ACK of the return path
    split at enqueued
    · cases enqueued -- for the local source
    split at enqueued
    · cases enqueued -- the last hop
    rename_i spent
    cases enqueued
    exact ⟨hdr, decoded, UInt8.not_le.mp spent, rfl⟩

end Ingress

theorem hop_writes (hop : Hop Peer datagram next) :
    ∃ hdr, wireHeaderDecode datagram = some hdr ∧ 1 < hdr.ttl ∧
      next = writeHeader { hdr with ttl := hdr.ttl - 1 } datagram := by
  obtain ⟨ctx, target, plain, fast | ⟨nowNs, memory, deferred⟩⟩ := hop
  · unfold fastFate at fast
    split at fast
    · cases fast
    · cases fast
    next pkt enqueued =>
      obtain ⟨hdr, decoded, budget, written⟩ := rxTryFastAck_enqueued enqueued
      have sent := relayTxEmit_sent plain (Option.some.inj fast)
      exact ⟨hdr, decoded, budget, sent.trans written⟩
  · unfold deferredFate at deferred
    split at deferred
    case h_9 pending _ after forwarded =>
      obtain ⟨config_eq, hdr, decoded, budget, written⟩ :=
        ingressSubmitOwned_forwarded plain forwarded
      have sent := relayTxEmit_sent (config_eq ▸ plain) deferred
      exact ⟨hdr, decoded, budget, sent.trans written⟩
    all_goals cases deferred

theorem recv_header {bytes : List UInt8} (size : bytes.length = wireHeaderSize hdr)
    (decoded : ∀ rest, wireHeaderDecode (bytes ++ rest) = some hdr) :
    recvWireDatagram (bytes ++ datagram.drop bytes.length) =
      some (hdr, datagram.drop (wireHeaderSize hdr)) := by
  rw [recvWireDatagram, decoded, Option.map_some, ← size, List.drop_left]

theorem recv_writeHeader (ttl : UInt8) (decoded : wireHeaderDecode datagram = some hdr) :
    recvWireDatagram (writeHeader { hdr with ttl } datagram) =
      (recvWireDatagram datagram).map (withTtl ttl) := by
  have version : hdr.version = WIRE_VERSION_V4 ∨ hdr.version = WIRE_VERSION_V3 ∧
      hdr.originNode = 0 ∧ hdr.flags = 0 ∧ hdr.segmentBytes = 0 := by
    unfold wireHeaderDecode at decoded
    grind
  rw [recvWireDatagram.eq_def datagram, decoded]
  cases hdr
  obtain rfl | ⟨rfl, rfl, rfl, rfl⟩ := version
  · refine recv_header ?_ (wireHeaderDecode_encodeV4 _)
    simp [wireHeaderEncodeV4, length_wireHeaderEncodeBase, wireHeaderSize, WIRE_HEADER_SIZE,
      WIRE_V4_HEADER_SIZE]
  · exact recv_header (length_wireHeaderEncode _) (wireHeaderDecode_encode _)

/-- One hop spends one of at least two hops. -/
theorem hop_recv (hop : Hop Peer datagram next) :
    (∃ ttl, recvWireDatagram next = (recvWireDatagram datagram).map (withTtl ttl)) ∧
      hopBudget datagram = hopBudget next + 1 ∧ 0 < hopBudget next := by
  obtain ⟨hdr, decoded, budget, rfl⟩ := hop_writes hop
  have sent := recv_writeHeader (hdr.ttl - 1) decoded
  have spent := UInt8.toNat_sub_of_le hdr.ttl 1 (UInt8.le_of_lt budget)
  refine ⟨⟨_, sent⟩, ?_⟩
  have budget : 1 < hdr.ttl.toNat := budget
  rw [hopBudget, hopBudget, sent, recvWireDatagram, decoded]
  simp only [Option.map_some, Option.elim_some, withTtl, spent, UInt8.toNat_one]
  omega

/-- No chain of relays, closed or not, carries a datagram further than its hop budget. -/
theorem hops_lt_budget {n : Nat} (relayed : Relayed Peer datagram n next) :
    n + hopBudget next = hopBudget datagram ∧ (n = 0 ∨ 0 < hopBudget next) := by
  induction relayed with
  | start => exact ⟨Nat.zero_add _, Or.inl rfl⟩
  | hop _ hop ih =>
    have spent := (hop_recv hop).2
    omega

def ackWithTtl (ttl : UInt8) : List UInt8 := wireHeaderEncodeV4 { strayAck with ttl }

/-- The decoding node sends the ACK back over its return hop. -/
theorem strayAck_relayed : Relayed Nat (ackWithTtl 5) 1 (ackWithTtl 4) :=
  .hop .start ⟨decodingNode true, 1, ⟨rfl, rfl⟩, Or.inl (by decide +kernel)⟩

theorem hops_lt_budget_ack : 1 + hopBudget (ackWithTtl 4) = hopBudget (ackWithTtl 5) :=
  (hops_lt_budget strayAck_relayed).1

theorem relayed_recv {n : Nat} (relayed : Relayed Peer datagram n next) :
    ∃ ttl, recvWireDatagram next = (recvWireDatagram datagram).map (withTtl ttl) := by
  induction relayed with
  | start =>
    cases recvWireDatagram datagram with
    | none => exact ⟨0, rfl⟩
    | some got => exact ⟨got.1.ttl, rfl⟩
  | hop _ hop ih =>
    obtain ⟨ttl, got⟩ := (hop_recv hop).1
    obtain ⟨_, first⟩ := ih
    refine ⟨ttl, ?_⟩
    rw [got, first, Option.map_map]
    rfl

/-- The flow decoder ends in the same state, with the same output, whether its datagrams came
over relays or straight from the sender. -/
theorem ingestAll_relayed (config : WireFlowDecoderConfig) (dec : WireFlowDecoder)
    (sent received : List (List UInt8))
    (relayed : List.Forall₂ (fun first last => ∃ n, Relayed Peer first n last) sent received) :
    ingestAll config dec (received.filterMap recvWireDatagram) =
      ingestAll config dec (sent.filterMap recvWireDatagram) := by
  induction relayed generalizing dec with
  | nil => rfl
  | @cons first _ _ _ chain _ ih =>
    obtain ⟨_, chain⟩ := chain
    obtain ⟨_, got⟩ := relayed_recv chain
    rw [List.filterMap_cons, List.filterMap_cons, got]
    cases recvWireDatagram first with
    | none => exact ih dec
    | some => exact ih _

def dataWithTtl (ttl : UInt8) : List UInt8 :=
  wireHeaderEncode
    { plainEnd 0 with type := WIRE_TYPE_DATA, finalDst := 1, ttl, validLen := 3, payloadLen := 1400 } ++
    List.replicate 1400 7

theorem data_relayed : Relayed Nat (dataWithTtl 5) 1 (dataWithTtl 4) :=
  .hop .start ⟨decodingNode true, 0, ⟨rfl, rfl⟩, Or.inr ⟨0, ⟨true, true⟩, by decide +kernel⟩⟩

theorem ingestAll_relayed_data :
    (([dataWithTtl 5, ackWithTtl 5].filterMap recvWireDatagram).map fun got =>
        dataMalformed (plainConfig true) got.1 got.2) = [false, true] ∧
      ingestAll (plainConfig true) freshDecoder
          ([dataWithTtl 4, ackWithTtl 4].filterMap recvWireDatagram) =
        ingestAll (plainConfig true) freshDecoder
          ([dataWithTtl 5, ackWithTtl 5].filterMap recvWireDatagram) :=
  ⟨by decide +kernel,
    ingestAll_relayed _ _ _ _ (.cons ⟨1, data_relayed⟩ (.cons ⟨1, strayAck_relayed⟩ .nil))⟩

/-- A step of the Wirehair parties with relays between them. -/
inductive RelayedStep (Peer : Type) {codec : WirehairCodec} (state : ProtocolState codec) :
    ProtocolState codec → Prop
  | own {action : ProtocolAction} {later : ProtocolState codec} :
      protocolStep codec state action = some later → RelayedStep Peer state later
  | inputAck {n : Nat} {ack arrived : List UInt8} (position : Nat) (nowNs : UInt64) :
      state.acks[position]? = some ack → Relayed Peer ack n arrived →
      RelayedStep Peer state
        { state with sender := (wirehairSegmentSenderInputAck state.sender arrived nowNs).2 }
  | ingest {position n : Nat} {datagram arrived : List UInt8} {got : Datagram} :
      state.sent[position]? = recvWireDatagram datagram → Relayed Peer datagram n arrived →
      recvWireDatagram arrived = some got →
      RelayedStep Peer state
        (let (_, receiver, acks, output) := wirehairSegmentReceiverIngest channelCallbacks
          state.receiver got.1 got.2 (state.acks, state.output)
        { state with receiver, acks, output })

/-- The sender reads of an ACK what a receiver gets. -/
theorem inputAck_eq (sender : WirehairSegmentSender) (ack : List UInt8) (nowNs : UInt64) :
    wirehairSegmentSenderInputAck sender ack nowNs =
      (recvWireDatagram ack).elim (-1, sender) fun got =>
        if got.1.version ≠ WIRE_VERSION_V4 ∨ got.1.type ≠ WIRE_TYPE_ACK ∨
            got.1.flowId ≠ sender.flowId then (-1, sender)
        else (0, applyPendingAcks (ackMark sender got.1) nowNs) := by
  unfold wirehairSegmentSenderInputAck recvWireDatagram
  cases decoded : wireHeaderDecode ack with
  | none => simp
  | some =>
    have long := headerSize_le_of_decode decoded
    rw [if_neg (by unfold WIRE_HEADER_SIZE at long; omega)]
    rfl

/-- Relays between the two parties add nothing to what the channel can do. -/
theorem relayed_refines {codec : WirehairCodec} {start state : ProtocolState codec}
    (run : Relation.ReflTransGen (RelayedStep Peer) start state) :
    Reaches (protocolStep codec) anyStep start state := by
  induction run with
  | refl => exact .start
  | tail _ taken ih =>
    cases taken with
    | own taken => exact .next _ ih trivial taken
    | @inputAck _ ack _ position nowNs held relayed =>
      refine .next (.inputAck position nowNs) ih trivial ?_
      obtain ⟨ttl, got⟩ := relayed_recv relayed
      rw [protocolStep, held]
      dsimp only
      rw [inputAck_eq, inputAck_eq, got]
      cases recvWireDatagram ack <;> rfl
    | @ingest position _ _ _ _ held relayed received =>
      refine .next (.ingest position) ih trivial ?_
      obtain ⟨ttl, got⟩ := relayed_recv relayed
      rw [got, Option.map_eq_some_iff] at received
      obtain ⟨pair, direct, rfl⟩ := received
      rw [protocolStep, held, direct]
      rfl

def ackedProtocol : ProtocolState twoPacketCodec :=
  ⟨newSender narrowConfig 1 7 1, newReceiver _ narrowConfig 1, [], [ackWithTtl 5], [], []⟩

theorem relayed_refines_ack :
    Reaches (protocolStep twoPacketCodec) anyStep ackedProtocol
      { ackedProtocol with
        sender := (wirehairSegmentSenderInputAck ackedProtocol.sender (ackWithTtl 4) 0).2 } :=
  relayed_refines (.single (.inputAck 0 0 rfl strayAck_relayed))

end MultiFlow.Relay
