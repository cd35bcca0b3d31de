import MultiFlow.Lib.Transition
import MultiFlow.Relay.Ingress

/-!
# The transmit worker of the relay

`tx_worker_main` takes a packet from the egress queues and calls `relay_tx_emit` until the packet is
consumed; between two calls it sends the ACKs that wait.  The transform of the egress runs in place,
on the buffer that a call leaves behind when the socket would block.

The answers of `sendto` are inputs, and so are the routes that `relay_tx_emit` looks up, since the
receiving thread changes them.  `sent` pairs what was dequeued with what was sent; nothing reads
it.
-/

namespace MultiFlow.Relay

open Lib Wire Wirehair List

def payloadBoundsOk (datagramLen : Nat) (header : WireHeader) : Bool :=
  if datagramLen < WIRE_HEADER_SIZE then false
  else if header.type ≠ WIRE_TYPE_DATA then
    decide (header.payloadLen = 0 ∧ datagramLen = WIRE_HEADER_SIZE)
  else decide (0 < header.payloadLen ∧ header.payloadLen.toNat = datagramLen - WIRE_HEADER_SIZE)

def mapPayload (change : UInt8 → UInt8) (header : WireHeader) (datagram : List UInt8) :
    List UInt8 :=
  let payload := datagram.drop WIRE_HEADER_SIZE
  datagram.take WIRE_HEADER_SIZE ++
    ((payload.take header.payloadLen.toNat).map change ++ payload.drop header.payloadLen.toNat)

def relayPayloadTransform (change : UInt8 → UInt8) (datagram : List UInt8) (header : WireHeader) :
    Option (List UInt8) :=
  if payloadBoundsOk datagram.length header = false then none
  else if header.type = WIRE_TYPE_DATA then some (mapPayload change header datagram)
  else some datagram

/-- Input and output are the same buffer, so the check of its capacity is dropped. -/
def relayRecodePayloadAdd1 : List UInt8 → WireHeader → Option (List UInt8) :=
  relayPayloadTransform (· + 1)

def relayEgressPayloadSub1 : List UInt8 → WireHeader → Option (List UInt8) :=
  relayPayloadTransform (· - 1)

/-- What `sendto` answers: everything was taken, only a part, `EAGAIN`, `EINTR`, another error. -/
inductive SendAnswer where
  | sent
  | short
  | wouldBlock
  | interrupted
  | failed
  deriving DecidableEq

/-- A packet the worker owns, and the datagram it was when it was dequeued. -/
structure OwnedPacket (Peer : Type) where
  pkt : EgressPacket Peer
  dequeued : List UInt8

/-- Where the worker stands.  `data` is the packet that waits for a retry while an ACK is sent. -/
inductive TxPhase (Peer : Type) where
  | dequeueing
  | emitting (owned : OwnedPacket Peer) (data : Option (OwnedPacket Peer))
  | sending (owned : OwnedPacket Peer) (returnPath : Bool) (data : Option (OwnedPacket Peer))
  | drainingAcks (data : OwnedPacket Peer)
  | stopped

structure TxState (Peer : Type) where
  phase : TxPhase Peer
  sent : List (List UInt8 × List UInt8)

inductive TxAction (Peer : Type) where
  | dequeue (pkt : EgressPacket Peer)
  | shutdown
  | emit (ctx : RelayCtx Peer)
  | answer (result : SendAnswer)
  | dequeueAck (pkt : EgressPacket Peer)
  | acksEmpty

section Worker

variable {Peer : Type}

def isReturnPath (header : WireHeader) : Bool :=
  decide (header.version = WIRE_VERSION_V4 ∧ header.flags &&& WIRE_FLAG_RETURN_PATH ≠ 0)

/-- The test of the header as `relay_tx_emit` finds it, before the transform. -/
def takesReturnPath (datagram : List UInt8) : Bool :=
  (wireHeaderDecode datagram).any isReturnPath

def consumed (data : Option (OwnedPacket Peer)) : TxPhase Peer :=
  match data with
  | none => .dequeueing
  | some data => .drainingAcks data

def noteSent (state : TxState Peer) (owned : OwnedPacket Peer) : List (List UInt8 × List UInt8) :=
  state.sent ++ [(owned.dequeued, owned.pkt.datagram)]

/-- `relay_tx_emit` up to its first `sendto`, or all of it with a capture hook. -/
def emitPacket (config : RelayConfig) (captures : Bool) (state : TxState Peer)
    (owned : OwnedPacket Peer) (data : Option (OwnedPacket Peer)) (ctx : RelayCtx Peer) :
    TxState Peer :=
  match relayTxEmit { ctx with config } owned.pkt with
  | .sent _ datagram =>
    let changed := { owned with pkt := { owned.pkt with datagram } }
    if captures then ⟨consumed data, noteSent state changed⟩
    else { state with phase := .sending changed (takesReturnPath owned.pkt.datagram) data }
  | _ => { state with phase := consumed data }

/-- `data_dontwait` is set for the packets that no other packet waits behind. -/
def answerPacket (state : TxState Peer) (owned : OwnedPacket Peer) (returnPath : Bool)
    (data : Option (OwnedPacket Peer)) : SendAnswer → TxState Peer
  | .sent => ⟨consumed data, noteSent state owned⟩
  | .short => { state with phase := consumed data }
  | .failed => { state with phase := consumed data }
  | .interrupted => state
  | .wouldBlock =>
    if !returnPath && data.isNone then { state with phase := .drainingAcks owned }
    else { state with phase := consumed data }

def txStep (config : RelayConfig) (captures : Bool) (state : TxState Peer) :
    TxAction Peer → Option (TxState Peer)
  | .dequeue pkt =>
    match state.phase with
    | .dequeueing => some { state with phase := .emitting ⟨pkt, pkt.datagram⟩ none }
    | _ => none
  | .shutdown =>
    match state.phase with
    | .dequeueing => some { state with phase := .stopped }
    | _ => none
  | .emit ctx =>
    match state.phase with
    | .emitting owned data => some (emitPacket config captures state owned data ctx)
    | _ => none
  | .answer result =>
    match state.phase with
    | .sending owned returnPath data =>
      some (answerPacket state owned returnPath data result)
    | _ => none
  | .dequeueAck pkt =>
    match state.phase with
    | .drainingAcks data => some { state with phase := .emitting ⟨pkt, pkt.datagram⟩ (some data) }
    | _ => none
  | .acksEmpty =>
    match state.phase with
    | .drainingAcks data => some { state with phase := .emitting data none }
    | _ => none

def txStart : TxState Peer := ⟨.dequeueing, []⟩

def egressOnce (config : RelayConfig) (datagram : List UInt8) : Option (List UInt8) :=
  (wireHeaderDecode datagram).bind fun header =>
    match config.egressFn with
    | none => some datagram
    | some egress => egress datagram header

/-- Everything that was sent is what was dequeued, transformed once. -/
def SentOnce (config : RelayConfig) (state : TxState Peer) : Prop :=
  ∀ entry ∈ state.sent, egressOnce config entry.1 = some entry.2

/-- A second transform of a datagram that can be offered again fails or changes nothing. -/
def RetrySafe (config : RelayConfig) (datagram : List UInt8) : Prop :=
  takesReturnPath datagram = false → ∀ once, egressOnce config datagram = some once →
    egressOnce config once = none ∨ egressOnce config once = some once

variable {config : RelayConfig} {once : List UInt8}

theorem egressOnce_of_sent {ctx : RelayCtx Peer} {pkt : EgressPacket Peer} {target : Peer}
    {datagram : List UInt8} (sent : relayTxEmit { ctx with config } pkt = .sent target datagram) :
    egressOnce config pkt.datagram = some datagram := by
  unfold relayTxEmit at sent
  unfold egressOnce
  cases decoded : wireHeaderDecode pkt.datagram with
  | none =>
    rw [decoded] at sent
    cases sent
  | some =>
    rw [decoded] at sent
    dsimp only at sent
    rw [Option.bind_some]
    split at sent
    · cases sent
    split at sent
    next => cases sent
    next found =>
      cases sent
      exact found

/-- In the egress queues are only datagrams of the given kind. -/
def dequeuesOnly (kind : List UInt8 → Prop) (_ : TxState Peer) : TxAction Peer → Prop
  | .dequeue pkt => kind pkt.datagram
  | _ => True

section Sound

variable {config : RelayConfig} {captures : Bool}

structure Retried (config : RelayConfig) (owned : OwnedPacket Peer) : Prop where
  forward : takesReturnPath owned.dequeued = false
  once : egressOnce config owned.dequeued = some owned.pkt.datagram
  safe : RetrySafe config owned.dequeued

def PhaseOk (config : RelayConfig) (captures : Bool) : TxPhase Peer → Prop
  | .dequeueing => True
  | .emitting owned data =>
    (owned.pkt.datagram = owned.dequeued ∧
        (data = none → captures = true ∨ RetrySafe config owned.dequeued) ∨
      Retried config owned) ∧
    ∀ held ∈ data, Retried config held
  | .sending owned returnPath data =>
    egressOnce config owned.dequeued = some owned.pkt.datagram ∧
      (returnPath = false → takesReturnPath owned.dequeued = false) ∧
      (data = none → RetrySafe config owned.dequeued) ∧
      ∀ held ∈ data, Retried config held
  | .drainingAcks data => Retried config data
  | .stopped => True

def TxSound (config : RelayConfig) (captures : Bool) (state : TxState Peer) : Prop :=
  SentOnce config state ∧ PhaseOk config captures state.phase

variable {data : Option (OwnedPacket Peer)} {st : TxState Peer} {owned : OwnedPacket Peer}

theorem phaseOk_consumed (waiting : ∀ held ∈ data, Retried config held) :
    PhaseOk config captures (consumed data) := by
  cases data with
  | none => trivial
  | some held => exact waiting held rfl

theorem SentOnce.noteSent {phase : TxPhase Peer} (before : SentOnce config st)
    (once : egressOnce config owned.dequeued = some owned.pkt.datagram) :
    SentOnce config ⟨phase, noteSent st owned⟩ := by
  intro entry mem
  rcases mem_append.mp mem with old | new
  · exact before entry old
  · rw [mem_singleton.mp new]
    exact once

theorem Retried.again {datagram : List UInt8} (retried : Retried config owned)
    (again : egressOnce config owned.pkt.datagram = some datagram) :
    egressOnce config owned.dequeued = some datagram := by
  rcases retried.safe retried.forward _ retried.once with failed | same
  · rw [failed] at again
    cases again
  rw [same] at again
  cases again
  exact retried.once

theorem TxSound.emit (sentOnce : SentOnce config st)
    (ok : PhaseOk config captures (.emitting owned data)) (ctx : RelayCtx Peer) :
    TxSound config captures (emitPacket config captures st owned data ctx) := by
  obtain ⟨offered, waiting⟩ := ok
  unfold emitPacket
  split
  next datagram sent =>
    have applied := egressOnce_of_sent sent
    have once : egressOnce config owned.dequeued = some datagram := by
      rcases offered with ⟨fresh, _⟩ | retried
      · rw [← fresh]
        exact applied
      · exact retried.again applied
    split
    · exact ⟨sentOnce.noteSent once, phaseOk_consumed waiting⟩
    rename_i sends
    refine ⟨sentOnce, once, ?_, ?_, waiting⟩
    · intro forward
      rcases offered with ⟨fresh, _⟩ | retried
      · rw [← fresh]
        exact forward
      · exact retried.forward
    · intro alone
      rcases offered with ⟨_, safe⟩ | retried
      · exact (safe alone).resolve_left sends
      · exact retried.safe
  next => exact ⟨sentOnce, phaseOk_consumed waiting⟩

theorem TxSound.answer {returnPath : Bool} (sound : TxSound config captures st)
    (stands : st.phase = .sending owned returnPath data) (res : SendAnswer) :
    TxSound config captures (answerPacket st owned returnPath data res) := by
  obtain ⟨sentOnce, ok⟩ := sound
  have sending := ok
  rw [stands] at sending
  obtain ⟨once, forward, safe, waiting⟩ := sending
  cases res with
  | sent => exact ⟨sentOnce.noteSent once, phaseOk_consumed waiting⟩
  | short | failed => exact ⟨sentOnce, phaseOk_consumed waiting⟩
  | interrupted => exact ⟨sentOnce, ok⟩
  | wouldBlock =>
    unfold answerPacket
    dsimp only
    split
    next retries =>
      rw [Bool.and_eq_true, Bool.not_eq_true', Option.isNone_iff_eq_none] at retries
      exact ⟨sentOnce, forward retries.1, once, safe retries.2⟩
    next => exact ⟨sentOnce, phaseOk_consumed waiting⟩

theorem TxSound.step {kind : List UInt8 → Prop} {after : TxState Peer} {action : TxAction Peer}
    (safe : captures = true ∨ ∀ dgram, kind dgram → RetrySafe config dgram)
    (sound : TxSound config captures st) (permitted : dequeuesOnly kind st action)
    (taken : txStep config captures st action = some after) : TxSound config captures after := by
  obtain ⟨sentOnce, ok⟩ := sound
  -- Each action is taken in one phase only.
  cases action <;> rw [txStep] at taken <;> split at taken <;> cases taken
  next => -- dequeue
    refine ⟨sentOnce, Or.inl ⟨rfl, fun _ => ?_⟩, nofun⟩
    exact safe.imp_right fun every => every _ permitted
  next => exact ⟨sentOnce, trivial⟩ -- shutdown
  next ctx _ _ _ stands => -- emit
    rw [stands] at ok
    exact TxSound.emit sentOnce ok ctx
  next res _ _ _ _ stands => exact TxSound.answer ⟨sentOnce, ok⟩ stands res
  next stands => -- dequeueAck
    rw [stands] at ok
    refine ⟨sentOnce, Or.inl ⟨rfl, nofun⟩, ?_⟩
    intro _ isHeld
    cases isHeld
    exact ok
  next stands => -- acksEmpty
    rw [stands] at ok
    exact ⟨sentOnce, Or.inr ok, nofun⟩

end Sound

theorem relayTxEmit_once {pkt : EgressPacket Peer} (ctx : RelayCtx Peer)
    (applied : egressOnce config pkt.datagram = some once) :
    ∃ target, relayTxEmit { ctx with haveReturnHop := true, config } pkt = .sent target once := by
  obtain ⟨hdr, decoded, transformed⟩ := Option.bind_eq_some_iff.mp applied
  unfold relayTxEmit
  rw [decoded]
  dsimp only
  have transforms : egressDatagram { ctx with haveReturnHop := true, config } pkt.datagram hdr =
      some once := transformed
  have reached : ∃ target, (if hdr.version = WIRE_VERSION_V4 ∧
      hdr.flags &&& WIRE_FLAG_RETURN_PATH ≠ 0 then
        (lookupReturnRoute { ctx with haveReturnHop := true, config } hdr.flowId).or
          (if true = true then some ctx.returnHop else none)
      else some ctx.nextHop) = some target := by
    split
    next =>
      cases lookupReturnRoute { ctx with haveReturnHop := true, config } hdr.flowId with
      | none => exact ⟨ctx.returnHop, rfl⟩
      | some peer => exact ⟨peer, rfl⟩
    next => exact ⟨ctx.nextHop, rfl⟩
  obtain ⟨target, found⟩ := reached
  refine ⟨target, ?_⟩
  rw [found]
  rw [transforms]

theorem emitPacket_once (st : TxState Peer) (owned : OwnedPacket Peer)
    (data : Option (OwnedPacket Peer)) (ctx : RelayCtx Peer)
    (applied : egressOnce config owned.pkt.datagram = some once) :
    emitPacket config false st owned data { ctx with haveReturnHop := true } =
      { st with
        phase := .sending { owned with pkt := { owned.pkt with datagram := once } }
          (takesReturnPath owned.pkt.datagram) data } := by
  obtain ⟨_, emitted⟩ := relayTxEmit_once ctx applied
  unfold emitPacket
  rw [emitted]
  rfl

theorem sent_after_retry {kind : List UInt8 → Prop} (peer : Peer)
    {datagram twice : List UInt8} (queued : kind datagram)
    (forward : takesReturnPath datagram = false) (first : egressOnce config datagram = some once)
    (second : egressOnce config once = some twice) :
    ∃ st : TxState Peer, Reaches (txStep config false) (dequeuesOnly kind) txStart st ∧
      (datagram, twice) ∈ st.sent := by
  let ctx : RelayCtx Peer := ⟨config, generationCacheInit none, false, peer, peer, true,
    fun _ => ⟨0, peer, false⟩, fun _ => ⟨0, 0, false⟩⟩
  let pkt : EgressPacket Peer := ⟨datagram, 0, 0, none, false⟩
  let changed : EgressPacket Peer := { pkt with datagram := once }
  let last : EgressPacket Peer := { pkt with datagram := twice }
  have firstCall := emitPacket_once ⟨.emitting ⟨pkt, datagram⟩ none, []⟩ ⟨pkt, datagram⟩ none ctx
    first
  have secondCall := emitPacket_once ⟨.emitting ⟨changed, datagram⟩ none, []⟩ ⟨changed, datagram⟩
    none ctx second
  have blocked : txStep config false
      ⟨.sending ⟨changed, datagram⟩ (takesReturnPath datagram) none, []⟩ (.answer .wouldBlock) =
        some ⟨.drainingAcks ⟨changed, datagram⟩, []⟩ := by
    rw [forward]
    rfl
  have run : Reaches (txStep config false) (dequeuesOnly kind) (txStart : TxState Peer)
      ⟨.dequeueing, [(datagram, twice)]⟩ := by
    refine .prepend (.dequeue pkt) queued rfl ?_
    refine .prepend (.emit ctx) trivial
      (congrArg some firstCall) ?_
    refine .prepend (.answer .wouldBlock) trivial blocked ?_
    refine .prepend .acksEmpty trivial rfl ?_
    refine .prepend (.emit ctx) trivial
      (congrArg some secondCall) ?_
    exact .prepend (.answer .sent) trivial rfl .start
  exact ⟨_, run, mem_singleton.mpr rfl⟩

end Worker

theorem field_take {data : List UInt8} {off width size : Nat} (inside : off + width ≤ size) :
    field (data.take size) off width = field data off width := by
  unfold field
  rw [drop_take, take_take, Nat.min_eq_left (by omega)]

theorem getD_take {data : List UInt8} {i size : Nat} (inside : i < size) :
    (data.take size).getD i 0 = data.getD i 0 := by
  rw [getD_eq_getElem?_getD, getD_eq_getElem?_getD, List.getElem?_take_of_lt inside]

variable {hdr : WireHeader}

/-- The type and the payload length are in the first bytes, which a transform of the payload
leaves alone. -/
theorem wireHeaderDecode_same_start {before after : List UInt8}
    (decoded : wireHeaderDecode before = some hdr)
    (start_eq : after.take WIRE_HEADER_SIZE = before.take WIRE_HEADER_SIZE)
    (length_eq : after.length = before.length) :
    ∃ header', wireHeaderDecode after = some header' ∧ header'.type = hdr.type ∧
      header'.payloadLen = hdr.payloadLen := by
  have fields : ∀ off width, off + width ≤ WIRE_HEADER_SIZE →
      field after off width = field before off width := by
    intro _ _ inside
    rw [← field_take inside, start_eq, field_take inside]
  have bytes : ∀ i < WIRE_HEADER_SIZE, after.getD i 0 = before.getD i 0 := by
    intro _ inside
    rw [← getD_take inside, start_eq, getD_take inside]
  unfold wireHeaderDecode at decoded ⊢
  dsimp only at decoded ⊢
  rw [length_eq, fields 0 4 (by decide), bytes 4 (by decide), bytes 5 (by decide),
    fields 26 2 (by decide)]
  split at decoded
  · cases decoded
  rename_i long
  split at decoded
  · cases decoded
  rename_i accepted
  cases decoded
  rw [if_neg long, if_neg accepted]
  exact ⟨_, rfl, rfl, rfl⟩

variable {datagram : List UInt8}

theorem take_mapPayload (change : UInt8 → UInt8) (hdr : WireHeader)
    (long : WIRE_HEADER_SIZE ≤ datagram.length) :
    (mapPayload change hdr datagram).take WIRE_HEADER_SIZE = datagram.take WIRE_HEADER_SIZE := by
  have size : (datagram.take WIRE_HEADER_SIZE).length = WIRE_HEADER_SIZE := by
    rw [length_take, Nat.min_eq_left long]
  exact take_left' size

theorem length_mapPayload (change : UInt8 → UInt8) (hdr : WireHeader) (dgram : List UInt8) :
    (mapPayload change hdr dgram).length = dgram.length := by
  unfold mapPayload
  simp only [length_append, length_map, length_take, length_drop]
  omega

theorem mapPayload_mapPayload (change undo : UInt8 → UInt8) {first second : WireHeader}
    (long : WIRE_HEADER_SIZE ≤ datagram.length) (same : second.payloadLen = first.payloadLen) :
    mapPayload undo second (mapPayload change first datagram) =
      mapPayload (undo ∘ change) first datagram := by
  have size : (datagram.take WIRE_HEADER_SIZE).length = WIRE_HEADER_SIZE := by
    rw [length_take, Nat.min_eq_left long]
  have rest : (mapPayload change first datagram).drop WIRE_HEADER_SIZE =
      ((datagram.drop WIRE_HEADER_SIZE).take first.payloadLen.toNat).map change ++
        (datagram.drop WIRE_HEADER_SIZE).drop first.payloadLen.toNat :=
    drop_left' size
  rw [mapPayload, take_mapPayload change first long, rest, mapPayload, same, ← map_map]
  congr 1
  generalize datagram.drop WIRE_HEADER_SIZE = body
  rcases Nat.le_total first.payloadLen.toNat body.length with fits | short
  · have length_eq : ((body.take first.payloadLen.toNat).map change).length =
        first.payloadLen.toNat := by
      rw [length_map, length_take, Nat.min_eq_left fits]
    rw [take_left' length_eq, drop_left' length_eq]
  · rw [drop_of_length_le short, append_nil, append_nil,
      take_of_length_le short, take_of_length_le (by simpa using short),
      drop_of_length_le (by simpa using short), append_nil]

theorem mapPayload_id {change : UInt8 → UInt8} (same : ∀ byte, change byte = byte)
    (hdr : WireHeader) (datagram : List UInt8) : mapPayload change hdr datagram = datagram := by
  have identity : change = id := funext same
  rw [mapPayload, identity, map_id, take_append_drop, take_append_drop]

theorem egressOnce_add1_sub1 {cfg : RelayConfig}
    (subtracts : cfg.egressFn = some relayEgressPayloadSub1) {added : List UInt8}
    (decoded : wireHeaderDecode datagram = some hdr)
    (adds : relayRecodePayloadAdd1 datagram hdr = some added) :
    egressOnce cfg added = some datagram := by
  unfold relayRecodePayloadAdd1 relayPayloadTransform at adds
  split at adds
  · cases adds
  rename_i bounds
  rw [Bool.not_eq_false] at bounds
  split at adds
  next isData =>
    cases adds
    have long : WIRE_HEADER_SIZE ≤ datagram.length := by
      by_contra short
      unfold payloadBoundsOk at bounds
      rw [if_pos (by omega)] at bounds
      cases bounds
    have length_eq := length_mapPayload (· + 1) hdr datagram
    obtain ⟨header', decoded', type_eq, len_eq⟩ := wireHeaderDecode_same_start decoded
      (take_mapPayload (· + 1) hdr long) length_eq
    have bounds' : payloadBoundsOk (mapPayload (· + 1) hdr datagram).length header' = true := by
      rw [length_eq, ← bounds]
      unfold payloadBoundsOk
      rw [type_eq, len_eq]
    unfold egressOnce
    rw [decoded', Option.bind_some, subtracts]
    dsimp only
    unfold relayEgressPayloadSub1 relayPayloadTransform
    rw [if_neg (by rw [bounds']; exact Bool.noConfusion), if_pos (type_eq.trans isData),
      mapPayload_mapPayload _ _ long len_eq]
    refine congrArg some (mapPayload_id ?_ hdr datagram)
    intro byte
    exact UInt8.add_sub_cancel byte 1
  next notData =>
    cases adds
    unfold egressOnce
    rw [decoded, Option.bind_some, subtracts]
    dsimp only
    unfold relayEgressPayloadSub1 relayPayloadTransform
    rw [if_neg (by rw [bounds]; exact Bool.noConfusion), if_neg notData]

/-- For every kind of datagrams in the egress queues, the worker sends each of them transformed
exactly once, whatever the socket answers, if and only if there is a capture hook or a second
transform of those that can be offered again fails or changes nothing.  One transform undoes the
addition at the ingress. -/
theorem tx_transform_once_iff {Peer : Type} [Nonempty Peer] (config : RelayConfig)
    (captures : Bool) (kind : List UInt8 → Prop) :
    ((∀ state : TxState Peer, Reaches (txStep config captures) (dequeuesOnly kind) txStart state →
          SentOnce config state) ↔
      captures = true ∨ ∀ datagram, kind datagram → RetrySafe config datagram) ∧
    ∀ (relay : RelayConfig) (datagram added : List UInt8) (header : WireHeader),
      relay.egressFn = some relayEgressPayloadSub1 → wireHeaderDecode datagram = some header →
        relayRecodePayloadAdd1 datagram header = some added →
          egressOnce relay added = some datagram := by
  refine ⟨⟨?_, ?_⟩, ?_⟩
  · intro always
    cases captures with
    | true => exact Or.inl rfl
    | false =>
      refine Or.inr fun datagram queued forward once first => ?_
      cases second : egressOnce config once with
      | none => exact Or.inl rfl
      | some twice =>
        obtain ⟨peer⟩ := ‹Nonempty Peer›
        obtain ⟨state, run, sent⟩ := sent_after_retry peer queued forward first second
        have right : egressOnce config datagram = some twice := always state run _ sent
        rw [first] at right
        cases right
        exact Or.inr rfl
  · intro safe state run
    have sound : TxSound config captures state := by
      have initially : TxSound config captures (txStart : TxState Peer) :=
        ⟨fun _ mem => absurd mem List.not_mem_nil, trivial⟩
      refine run.invariant (TxSound config captures) initially ?_
      intro _ _ _ sound permitted taken
      exact sound.step safe permitted taken
    exact sound.1
  · intro _ _ _ _ subtracts decoded adds
    exact egressOnce_add1_sub1 subtracts decoded adds

/-- A relay that adds one at the ingress and subtracts one at the egress. -/
def add1Sub1 : RelayConfig :=
  { (decodingNode true).config with
    recodeFn := some relayRecodePayloadAdd1
    egressFn := some relayEgressPayloadSub1 }

def byteDatagram (payload : UInt8) : List UInt8 :=
  wireHeaderEncode
    { type := WIRE_TYPE_DATA
      finalDst := 2
      ttl := 8
      flowId := 7
      blockId := 0
      shardCount := 1
      validLen := 1
      payloadLen := 1 } ++ [payload]

theorem tx_transform_once_idle :
    ∃ state : TxState Nat,
      Reaches (txStep { add1Sub1 with egressFn := none } false) (dequeuesOnly fun _ => True) txStart
        state ∧ (byteDatagram 6, byteDatagram 6) ∈ state.sent ∧
        SentOnce { add1Sub1 with egressFn := none } state := by
  have forward : takesReturnPath (byteDatagram 6) = false := by decide +kernel
  have kept : egressOnce { add1Sub1 with egressFn := none } (byteDatagram 6) =
      some (byteDatagram 6) := by decide +kernel
  obtain ⟨state, run, sent⟩ :=
    @sent_after_retry Nat _ _ (fun _ => True) 0 _ _ trivial forward kept kept
  refine ⟨state, run, sent, (tx_transform_once_iff _ false _).1.mpr (Or.inr ?_) state run⟩
  intro _ _ _ _ first
  obtain ⟨_, _, same⟩ := Option.bind_eq_some_iff.mp first
  cases same
  exact Or.inr first

/-- After one answer of the socket that it would block, one is subtracted twice. -/
theorem tx_subtracts_twice :
    (wireHeaderDecode (byteDatagram 5)).bind (relayRecodePayloadAdd1 (byteDatagram 5)) =
        some (byteDatagram 6) ∧
      ∃ state : TxState Nat,
        Reaches (txStep add1Sub1 false) (dequeuesOnly fun _ => True) txStart state ∧
        (byteDatagram 6, byteDatagram 4) ∈ state.sent ∧ ¬ SentOnce add1Sub1 state := by
  have first : egressOnce add1Sub1 (byteDatagram 6) = some (byteDatagram 5) := by decide +kernel
  have second : egressOnce add1Sub1 (byteDatagram 5) = some (byteDatagram 4) := by decide +kernel
  refine ⟨by decide +kernel, ?_⟩
  have forward : takesReturnPath (byteDatagram 6) = false := by decide +kernel
  have retried : ∃ state : TxState Nat,
      Reaches (txStep add1Sub1 false) (dequeuesOnly fun _ => True) txStart state ∧
        (byteDatagram 6, byteDatagram 4) ∈ state.sent :=
    sent_after_retry 0 trivial forward first second
  obtain ⟨state, run, sent⟩ := retried
  refine ⟨state, run, sent, fun once => ?_⟩
  have right := once _ sent
  rw [first] at right
  exact absurd right (by decide +kernel)

theorem wireHeaderDecode_version {dgram : List UInt8}
    (decoded : wireHeaderDecode dgram = some hdr) :
    hdr.version = WIRE_VERSION_V3 ∨ hdr.version = WIRE_VERSION_V4 := by
  unfold wireHeaderDecode at decoded
  dsimp only at decoded
  split at decoded
  · cases decoded
  split at decoded
  · cases decoded
  rename_i accepted
  cases decoded
  simp only [not_or, not_and, not_not, ne_eq] at accepted
  exact or_iff_not_imp_left.mpr accepted.2.1

theorem payloadBoundsOk_iff {dgram : List UInt8} (decoded : wireHeaderDecode dgram = some hdr)
    (length_eq : dgram.length = wireHeaderSize hdr + hdr.payloadLen.toNat) :
    payloadBoundsOk dgram.length hdr = true ↔
      hdr.version = WIRE_VERSION_V3 ∧ (hdr.type = WIRE_TYPE_DATA ↔ 0 < hdr.payloadLen.toNat) := by
  have zero : hdr.payloadLen = 0 ↔ hdr.payloadLen.toNat = 0 := UInt16.toNat_inj.symm
  unfold payloadBoundsOk
  rw [length_eq]
  rcases wireHeaderDecode_version decoded with isV3 | isV4
  · have size : wireHeaderSize hdr = WIRE_HEADER_SIZE := by rw [wireHeaderSize, isV3]; rfl
    by_cases isData : hdr.type = WIRE_TYPE_DATA <;>
      simp [size, isV3, isData, zero, UInt16.lt_iff_toNat_lt]
  · have size : wireHeaderSize hdr = WIRE_HEADER_SIZE + 8 := by rw [wireHeaderSize, isV4]; rfl
    have other : ¬ WIRE_VERSION_V4 = WIRE_VERSION_V3 := by decide
    simp only [size, isV4, other, false_and, iff_false, Bool.not_eq_true]
    split_ifs <;> simp <;> omega

theorem relayPayloadTransform_some (change : UInt8 → UInt8) {dgram : List UInt8}
    (bounds : payloadBoundsOk dgram.length hdr = true) :
    ∃ out, relayPayloadTransform change dgram hdr = some out ∧
      out.length = dgram.length ∧
      out.take WIRE_HEADER_SIZE = dgram.take WIRE_HEADER_SIZE := by
  have long : WIRE_HEADER_SIZE ≤ dgram.length := by
    by_contra short
    simp [payloadBoundsOk, Nat.not_le.mp short] at bounds
  unfold relayPayloadTransform
  rw [if_neg (by simp [bounds])]
  split
  · exact ⟨_, rfl, length_mapPayload _ _ _, take_mapPayload _ _ long⟩
  · exact ⟨_, rfl, rfl, rfl⟩

/-- A datagram of the length that its header announces passes both hooks, which leave its header
and its length alone and of which the second undoes the first, if and only if it is of version 3
and exactly a DATA datagram has a payload. -/
theorem recode_hooks_iff {datagram : List UInt8} {header : WireHeader}
    (decoded : wireHeaderDecode datagram = some header)
    (length_eq : datagram.length = wireHeaderSize header + header.payloadLen.toNat) :
    (∃ added subtracted, relayRecodePayloadAdd1 datagram header = some added ∧
        relayEgressPayloadSub1 datagram header = some subtracted ∧
        (∀ out ∈ [added, subtracted], out.length = datagram.length ∧
          out.take (wireHeaderSize header) = datagram.take (wireHeaderSize header)) ∧
        (wireHeaderDecode added).bind (relayEgressPayloadSub1 added) = some datagram) ↔
      header.version = WIRE_VERSION_V3 ∧
        (header.type = WIRE_TYPE_DATA ↔ 0 < header.payloadLen.toNat) := by
  rw [← payloadBoundsOk_iff decoded length_eq]
  constructor
  · rintro ⟨added, _, adds, -⟩
    by_contra refused
    unfold relayRecodePayloadAdd1 relayPayloadTransform at adds
    rw [if_pos (Bool.eq_false_of_not_eq_true refused)] at adds
    cases adds
  intro bounds
  have isV3 := ((payloadBoundsOk_iff decoded length_eq).mp bounds).1
  have size : wireHeaderSize header = WIRE_HEADER_SIZE := by rw [wireHeaderSize, isV3]; rfl
  obtain ⟨added, adds, addsOk⟩ := relayPayloadTransform_some (· + 1) bounds
  obtain ⟨subtracted, subtracts, subtractsOk⟩ :=
    relayPayloadTransform_some (· - 1) bounds
  have back : egressOnce add1Sub1 added = some datagram := egressOnce_add1_sub1 rfl decoded adds
  refine ⟨added, subtracted, adds, subtracts, ?_, back⟩
  simpa [size] using And.intro addsOk subtractsOk

theorem recode_hooks_byte :
    ∃ header added, wireHeaderDecode (byteDatagram 5) = some header ∧
      relayRecodePayloadAdd1 (byteDatagram 5) header = some added := by
  have seen : (wireHeaderDecode (byteDatagram 5)).map (fun header => decide
      ((byteDatagram 5).length = wireHeaderSize header + header.payloadLen.toNat ∧
        header.version = WIRE_VERSION_V3 ∧
        (header.type = WIRE_TYPE_DATA ↔ 0 < header.payloadLen.toNat))) = some true := by
    decide +kernel
  obtain ⟨header, decoded, known⟩ := Option.map_eq_some_iff.mp seen
  obtain ⟨length_eq, version⟩ := of_decide_eq_true known
  obtain ⟨added, _, adds, -⟩ := (recode_hooks_iff decoded length_eq).mpr version
  exact ⟨header, added, decoded, adds⟩

/-- A DATA datagram of version 4 with a payload of one byte. -/
theorem hooks_refuse_v4 :
    let datagram := wireHeaderEncodeV4
      { type := WIRE_TYPE_DATA, finalDst := 2, ttl := 8, flowId := 7, blockId := 0
        shardCount := 1, validLen := 1, payloadLen := 1 } ++ [5]
    (wireHeaderDecode datagram).map (fun header =>
      (decide (datagram.length = wireHeaderSize header + header.payloadLen.toNat),
        relayRecodePayloadAdd1 datagram header, relayEgressPayloadSub1 datagram header)) =
      some (true, none, none) := by
  decide +kernel

end MultiFlow.Relay
