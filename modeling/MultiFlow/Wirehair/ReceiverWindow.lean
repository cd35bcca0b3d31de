import MultiFlow.Wirehair.ReceiverMoves
import MultiFlow.Lib.Transition
import Mathlib.Data.Fintype.EquivFin

/-!
# The window of the receiver

Whatever headers and payloads arrive, the slots hold different segments of the window, and the
segments leave in the order of their ids.  The ids are 64-bit numbers: the segment after
`2 ^ 64 - 1` is segment 0 again.
-/

namespace MultiFlow.Wirehair

open Wire Lib List

section Window

variable {codec : WirehairCodec} {ω : Type}

def receiverStep (callbacks : ReceiverCallbacks ω)
    (state : WirehairSegmentReceiver codec × ω) (datagram : WireHeader × List UInt8) :
    Option (WirehairSegmentReceiver codec × ω) :=
  some (wirehairSegmentReceiverIngest callbacks state.1 datagram.1 datagram.2 state.2).2

structure Windowed (receiver : WirehairSegmentReceiver codec) : Prop where
  index_lt : ∀ {index slot}, receiver.slots index = some slot → index < receiver.window
  reached : ∀ {index slot}, receiver.slots index = some slot →
    receiver.nextEmitSegment.toNat ≤ slot.segmentId.toNat
  inside : ∀ {index slot}, receiver.slots index = some slot →
    slot.segmentId.toNat < receiver.nextEmitSegment.toNat + receiver.window
  distinct : ∀ {index other slot held}, receiver.slots index = some slot →
    receiver.slots other = some held → slot.segmentId = held.segmentId → index = other
  next : receiver.nextEmitSegment = UInt64.ofNat receiver.emitted.length
  emitted : receiver.emitted = (List.range receiver.emitted.length).map UInt64.ofNat

theorem newReceiver_windowed (cfg : WirehairSegmentConfig) (flowId : UInt32) :
    Windowed (newReceiver codec cfg flowId) where
  index_lt := by rintro _ _ ⟨⟩
  reached := by rintro _ _ ⟨⟩
  inside := by rintro _ _ ⟨⟩
  distinct := by rintro _ _ _ _ ⟨⟩
  next := rfl
  emitted := rfl

variable {receiver : WirehairSegmentReceiver codec}

theorem Windowed.congr {after : WirehairSegmentReceiver codec} (windowed : Windowed receiver)
    (window : after.window = receiver.window)
    (next : after.nextEmitSegment = receiver.nextEmitSegment)
    (slots : after.slots = receiver.slots) (emitted : after.emitted = receiver.emitted) :
    Windowed after := by
  constructor
  · rw [slots, window]
    exact windowed.index_lt
  · rw [slots, next]
    exact windowed.reached
  · rw [slots, next, window]
    exact windowed.inside
  · rw [slots]
    exact windowed.distinct
  · rw [next, emitted]
    exact windowed.next
  · rw [emitted]
    exact windowed.emitted

variable {after : WirehairSegmentReceiver codec × ω} {hdr : WireHeader} {payload : List UInt8}
  {index : Nat} {slot : WirehairSegmentSlot codec} {callbacks : ReceiverCallbacks ω}

theorem Collects.toNat_window (collects : Collects receiver hdr payload index slot) :
    receiver.nextEmitSegment.toNat ≤ hdr.blockId.toNat ∧
      hdr.blockId.toNat < receiver.nextEmitSegment.toNat + receiver.window := by
  have reached := UInt64.le_iff_toNat_le.mp collects.reached
  have ahead := collects.ahead
  rw [UInt64.toNat_sub_of_le _ _ collects.reached] at ahead
  exact ⟨reached, by omega⟩

theorem Collects.alone (windowed : Windowed receiver)
    (collects : Collects receiver hdr payload index slot) {other : Nat}
    {held : WirehairSegmentSlot codec} (stored : receiver.slots other = some held)
    (same : held.segmentId = hdr.blockId) : other = index := by
  rcases collects.known with known | ⟨_, missing, _, _⟩
  · exact windowed.distinct stored known (same.trans collects.segment.symm)
  · exact absurd same (findSlot_none missing (windowed.index_lt stored) stored)

theorem Windowed.store {kept : WirehairSegmentSlot codec} (windowed : Windowed receiver)
    (collects : Collects receiver hdr payload index slot)
    (segment : kept.segmentId = slot.segmentId) :
    Windowed (setReceiverSlot receiver index (some kept)) := by
  have id : kept.segmentId = hdr.blockId := segment.trans collects.segment
  obtain ⟨reached, inside⟩ := collects.toNat_window
  constructor
  · intro place held stored
    rcases setReceiverSlot_cases stored with ⟨rfl, _⟩ | ⟨_, old⟩
    · exact collects.index_lt
    · exact windowed.index_lt old
  · intro place held stored
    rcases setReceiverSlot_cases stored with ⟨_, ⟨⟩⟩ | ⟨_, old⟩
    · rw [id]
      exact reached
    · exact windowed.reached old
  · intro place held stored
    rcases setReceiverSlot_cases stored with ⟨_, ⟨⟩⟩ | ⟨_, old⟩
    · rw [id]
      exact inside
    · exact windowed.inside old
  · intro _ _ _ _ stored storedOther same
    rcases setReceiverSlot_cases stored with ⟨rfl, ⟨⟩⟩ | ⟨_, old⟩
    · rcases setReceiverSlot_cases storedOther with ⟨rfl, _⟩ | ⟨_, oldOther⟩
      · rfl
      · exact (collects.alone windowed oldOther (same.symm.trans id)).symm
    · rcases setReceiverSlot_cases storedOther with ⟨rfl, ⟨⟩⟩ | ⟨_, oldOther⟩
      · exact collects.alone windowed old (same.trans id)
      · exact windowed.distinct old oldOther same
  · exact windowed.next
  · exact windowed.emitted

theorem Windowed.passOn (windowed : Windowed receiver)
    (found : findSlot receiver receiver.nextEmitSegment = some (index, slot)) :
    Windowed (passOn receiver index slot) := by
  obtain ⟨_, stored, segment⟩ := findSlot_some found
  -- the slots that stay hold later segments, so the counter does not wrap below them
  have later : ∀ {place held}, (Wirehair.passOn receiver index slot).slots place = some held →
      receiver.slots place = some held ∧
        (receiver.nextEmitSegment + 1).toNat = receiver.nextEmitSegment.toNat + 1 ∧
        receiver.nextEmitSegment.toNat < held.segmentId.toNat := by
    intro place held kept
    obtain ⟨_, ⟨⟩⟩ | ⟨elsewhere, old⟩ := setReceiverSlot_cases kept
    have apart : held.segmentId.toNat ≠ receiver.nextEmitSegment.toNat := by
      intro equal
      exact elsewhere
        (windowed.distinct old stored ((UInt64.toNat_inj.mp equal).trans segment.symm))
    have reached := windowed.reached old
    have bound := held.segmentId.toNat_lt
    refine ⟨old, ?_, by omega⟩
    rw [UInt64.toNat_add]
    exact Nat.mod_eq_of_lt (show receiver.nextEmitSegment.toNat + 1 < 2 ^ 64 by omega)
  have length : (Wirehair.passOn receiver index slot).emitted.length =
      receiver.emitted.length + 1 := length_append
  constructor
  · intro place held kept
    exact windowed.index_lt (later kept).1
  · intro place held kept
    obtain ⟨_⟩ := later kept
    show (receiver.nextEmitSegment + 1).toNat ≤ _
    omega
  · intro place held kept
    obtain ⟨old, _⟩ := later kept
    have inside := windowed.inside old
    show _ < (receiver.nextEmitSegment + 1).toNat + receiver.window
    omega
  · intro _ _ _ _ stays staysOther same
    exact windowed.distinct (later stays).1 (later staysOther).1 same
  · rw [length, UInt64.ofNat_add, ← windowed.next]
    rfl
  · rw [length, range_succ, map_append, ← windowed.emitted]
    show _ ++ [slot.segmentId] = _
    rw [segment, windowed.next]
    rfl

variable {before : WirehairSegmentReceiver codec × ω}

theorem ReceiverMove.windowed (move : ReceiverMove callbacks hdr payload before after)
    (windowed : Windowed before.1) : Windowed after.1 := by
  cases move with
  | fed _ _ _ _ _ _ collects | recovered _ _ _ _ _ _ collects => exact windowed.store collects rfl
  | acked => exact windowed
  | passed _ _ _ _ found => exact windowed.passOn found
  | _ => exact windowed.congr rfl rfl rfl rfl

theorem Windowed.exists_free (windowed : Windowed receiver) {seg : UInt64}
    (reached : receiver.nextEmitSegment.toNat ≤ seg.toNat)
    (inside : seg.toNat < receiver.nextEmitSegment.toNat + receiver.window)
    (missing : findSlot receiver seg = none) :
    ∃ index, index < receiver.window ∧ receiver.slots index = none := by
  by_contra taken
  push Not at taken
  have slots : ∀ index : Fin receiver.window, ∃ slot, receiver.slots index = some slot :=
    fun index => Option.ne_none_iff_exists'.mp (taken index index.isLt)
  choose slot stored using slots
  let offset (index : Fin receiver.window) : Fin receiver.window :=
    ⟨(slot index).segmentId.toNat - receiver.nextEmitSegment.toNat, by
      have bound := windowed.inside (stored index)
      have lower := windowed.reached (stored index)
      omega⟩
  have injective : Function.Injective offset := by
    intro first second equal
    have offsets : (slot first).segmentId.toNat - receiver.nextEmitSegment.toNat =
        (slot second).segmentId.toNat - receiver.nextEmitSegment.toNat := congrArg Fin.val equal
    have lowerFirst := windowed.reached (stored first)
    have lowerSecond := windowed.reached (stored second)
    have same : (slot first).segmentId = (slot second).segmentId := UInt64.toNat_inj.mp (by omega)
    exact Fin.ext (windowed.distinct (stored first) (stored second) same)
  obtain ⟨index, hit⟩ := Finite.injective_iff_surjective.mp injective
    ⟨seg.toNat - receiver.nextEmitSegment.toNat, by omega⟩
  have offsets : (slot index).segmentId.toNat - receiver.nextEmitSegment.toNat =
      seg.toNat - receiver.nextEmitSegment.toNat := congrArg Fin.val hit
  have lower := windowed.reached (stored index)
  exact findSlot_none missing index.isLt (stored index) (UInt64.toNat_inj.mp (by omega))

theorem Windowed.allocates (windowed : Windowed receiver)
    (reached : receiver.nextEmitSegment ≤ hdr.blockId)
    (ahead : (hdr.blockId - receiver.nextEmitSegment).toNat < receiver.window)
    (missing : findSlot receiver hdr.blockId = none)
    (geometry : headerGeometryOk receiver hdr = true) :
    (allocateSlot receiver hdr).isSome = true := by
  have lower := UInt64.le_iff_toNat_le.mp reached
  rw [UInt64.toNat_sub_of_le _ _ reached] at ahead
  obtain ⟨index, inside, free⟩ := windowed.exists_free lower (by omega) missing
  unfold allocateSlot
  rw [if_neg (by rw [geometry]; decide), Option.isSome_map, List.find?_isSome]
  exact ⟨index, mem_range.mpr inside, by rw [free]; rfl⟩

theorem Windowed.nodup (windowed : Windowed receiver) (few : receiver.emitted.length ≤ 2 ^ 64) :
    receiver.emitted.Nodup := by
  rw [windowed.emitted]
  refine List.Nodup.map_on ?_ nodup_range
  intro _ mem _ memberSecond equal
  have below := mem_range.mp mem
  have belowSecond := mem_range.mp memberSecond
  have numbers := congrArg UInt64.toNat equal
  rwa [UInt64.toNat_ofNat_of_lt' (lt_of_lt_of_le below few),
    UInt64.toNat_ofNat_of_lt' (lt_of_lt_of_le belowSecond few)] at numbers

theorem receiverStep_windowed (ok : callbacks.Succeeds) {dgram : WireHeader × List UInt8}
    (windowed : Windowed before.1) (taken : receiverStep callbacks before dgram = some after) :
    Windowed after.1 := by
  cases taken
  exact ReceiverMoves.invariant (fun st => Windowed st.1)
    (fun _ _ move => move.windowed) (ingest_moves ok before.1 dgram.1 dgram.2 before.2)
    windowed

theorem receiver_keeps_window {config : WirehairSegmentConfig} {flowId : UInt32}
    (succeeds : callbacks.Succeeds)
    (created : wirehairSegmentReceiverCreate codec config flowId = some receiver) {env : ω}
    (run : Reaches (receiverStep callbacks) anyStep (receiver, env) after) :
    (∀ index slot, after.1.slots index = some slot →
      after.1.nextEmitSegment.toNat ≤ slot.segmentId.toNat ∧
        slot.segmentId.toNat < after.1.nextEmitSegment.toNat + after.1.window ∧
        ∀ other held, after.1.slots other = some held → slot.segmentId = held.segmentId →
          index = other) ∧
      (∀ header : WireHeader, after.1.nextEmitSegment ≤ header.blockId →
        (header.blockId - after.1.nextEmitSegment).toNat < after.1.window →
        findSlot after.1 header.blockId = none → headerGeometryOk after.1 header = true →
        (allocateSlot after.1 header).isSome = true) ∧
      after.1.emitted = (List.range after.1.emitted.length).map UInt64.ofNat ∧
      (after.1.emitted.length ≤ 2 ^ 64 → after.1.emitted.Nodup) ∧
      (∀ header payload, examine after.1 header payload = .reject →
        wirehairSegmentReceiverIngest callbacks after.1 header payload after.2 = (-1, after)) ∧
      ∀ header payload,
        (wirehairSegmentReceiverIngest callbacks after.1 header payload after.2).1 = 0 ∨
          examine after.1 header payload = .reject ∨
          ∃ index slot, examine after.1 header payload = .collect index slot ∧
            DecoderFails slot header payload := by
  have initially : Windowed receiver := by
    unfold wirehairSegmentReceiverCreate at created
    split at created
    next => cases created
    next =>
      cases created
      exact newReceiver_windowed config flowId
  have windowed : Windowed after.1 :=
    run.invariant (fun state => Windowed state.1) initially
      fun _ _ _ kept _ taken => receiverStep_windowed succeeds kept taken
  refine ⟨?_, ?_, windowed.emitted, windowed.nodup, ?_, ?_⟩
  · intro _ _ stored
    exact ⟨windowed.reached stored, windowed.inside stored,
      fun _ _ storedOther same => windowed.distinct stored storedOther same⟩
  · intro header reached ahead missing geometry
    exact windowed.allocates reached ahead missing geometry
  · intro header payload rejected
    unfold wirehairSegmentReceiverIngest
    rw [rejected]
  · intro header payload
    exact ingest_answer succeeds after.1 header payload after.2

end Window

def narrowConfig : WirehairSegmentConfig := ⟨1, 0, 1, true, 1, 1⟩

def quietCallbacks : ReceiverCallbacks Unit where
  output := fun _ _ env => (0, env)
  ack := none

theorem quietCallbacks_succeeds : quietCallbacks.Succeeds where
  output := fun _ _ _ => rfl
  ack := by rintro _ ⟨⟩

variable (segmentId : UInt64)

def narrowTx : WirehairSegmentTx where
  config := narrowConfig
  flowId := 7
  segmentId := segmentId
  finalDst := 2
  ttl := 1
  message := padSegment [0]
  dataLen := 1
  sourcePackets := 2
  packetLimit := 4
  nextPacketId := 0

def narrowPayload (packetId : Nat) : List UInt8 :=
  ((padSegment [0]).drop (packetId * WH_PACKET_SIZE)).take WH_PACKET_SIZE

def sourcePacket (packetId : Nat) : WireHeader × List UInt8 :=
  (packetHeader (narrowTx segmentId) packetId (narrowPayload packetId), narrowPayload packetId)

theorem length_narrowPayload {pid : Nat} (src : pid < 2) :
    (narrowPayload pid).length = WH_PACKET_SIZE := by
  unfold narrowPayload
  rw [length_take, length_drop, length_padSegment]
  unfold WH_PACKET_SIZE
  simp only [length_cons, length_nil]
  omega

variable (seg : UInt64)

theorem dataFieldsOk_sourcePacket {packetId : Nat} (src : packetId < 2) :
    dataFieldsOk (sourcePacket seg packetId).1 (narrowPayload packetId) = true := by
  have length := length_narrowPayload src
  have index : (UInt16.ofNat packetId).toNat = packetId :=
    UInt16.toNat_ofNat_of_lt' (lt_trans src (by decide))
  have below : UInt16.ofNat packetId < UInt16.ofNat 4 := by
    rw [UInt16.lt_iff_toNat_lt, index]
    exact lt_trans src (by decide)
  unfold dataFieldsOk sourcePacket packetHeader narrowTx
  rw [length]
  simp only [below, decide_true, Bool.and_true]
  rfl

def betweenSegments (emitted : List UInt64) : WirehairSegmentReceiver twoPacketCodec :=
  { newReceiver twoPacketCodec narrowConfig 7 with nextEmitSegment := segmentId, emitted }

/-- The slot of a segment with what its decoder has of the two packets. -/
def segmentSlot (first second : Option (List UInt8)) : WirehairSegmentSlot twoPacketCodec where
  state := .collecting
  segmentId := segmentId
  segmentBytes := 1
  codecBytes := 2 * WH_PACKET_SIZE
  packetLimit := 4
  sourceOrigin := 1
  ackRequested := true
  decoder := (2 * WH_PACKET_SIZE, first, second)
  recovered := []

abbrev halfSlot : WirehairSegmentSlot twoPacketCodec :=
  segmentSlot segmentId (some (narrowPayload 0)) none

abbrev fullSlot : WirehairSegmentSlot twoPacketCodec :=
  finishSlot (halfSlot segmentId)
    (2 * WH_PACKET_SIZE, some (narrowPayload 0), some (narrowPayload 1))
    (narrowPayload 0 ++ narrowPayload 1)

def halfSegment (emitted : List UInt64) : WirehairSegmentReceiver twoPacketCodec :=
  setReceiverSlot (betweenSegments segmentId emitted) 0 (some (halfSlot segmentId))

def fullSegment (emitted : List UInt64) : WirehairSegmentReceiver twoPacketCodec :=
  setReceiverSlot (halfSegment segmentId emitted) 0 (some (fullSlot segmentId))

variable (emitted : List UInt64)

theorem newSlot_sourcePacket :
    newSlot (betweenSegments seg emitted) (sourcePacket seg 0).1 =
      segmentSlot seg none none := by
  have padded : max (sourcePacket seg 0).1.segmentBytes.toNat (2 * WH_PACKET_SIZE) =
      2 * WH_PACKET_SIZE := max_eq_right (show 1 ≤ 2740 by omega)
  have asked : ((sourcePacket seg 0).1.flags &&& WIRE_FLAG_ACK_REQUEST != 0) = true :=
    show (WIRE_FLAG_ACK_REQUEST &&& WIRE_FLAG_ACK_REQUEST != 0) = true by decide
  unfold newSlot
  rw [padded, asked]
  rfl

theorem headerGeometryOk_sourcePacket :
    headerGeometryOk (betweenSegments seg emitted) (sourcePacket seg 0).1 = true := by
  have packets : wirehairSegmentSourcePackets 1 = 2 := by decide
  have repair : wirehairSegmentRepairCeiling 2 0 true = 2 := by decide
  have cfg : (betweenSegments seg emitted).config = narrowConfig := rfl
  simp [headerGeometryOk, cfg, narrowConfig, sourcePacket, packetHeader, narrowTx, packets, repair]

theorem findSlot_first {rcv : WirehairSegmentReceiver twoPacketCodec} {seg : UInt64}
    {slot : WirehairSegmentSlot twoPacketCodec} (one : rcv.window = 1)
    (stored : rcv.slots 0 = some slot) (id : slot.segmentId = seg) :
    findSlot rcv seg = some (0, slot) := by
  have held : holdsSegment rcv seg 0 = some (0, slot) := holdsSegment_eq_some.mpr ⟨rfl, stored, id⟩
  unfold findSlot
  rw [one]
  show List.findSome? _ [0] = _
  rw [List.findSome?_cons, held]

theorem inside_narrow : (seg - seg).toNat < 1 := by
  rw [UInt64.sub_self]
  decide

theorem betweenSegments_examine :
    examine (betweenSegments seg emitted) (sourcePacket seg 0).1 (narrowPayload 0) =
      .collect 0 (segmentSlot seg none none) := by
  have missing : findSlot (betweenSegments seg emitted)
      (sourcePacket seg 0).1.blockId = none := rfl
  have allocated : allocateSlot (betweenSegments seg emitted) (sourcePacket seg 0).1 =
      some (0, segmentSlot seg none none) := by
    unfold allocateSlot
    rw [headerGeometryOk_sourcePacket, newSlot_sourcePacket]
    rfl
  refine Eq.trans (examine_inside rfl rfl (dataFieldsOk_sourcePacket seg (by decide))
    (UInt64.le_refl _) (inside_narrow seg)) ?_
  unfold seekSlot
  rw [missing, headerGeometryOk_sourcePacket, allocated]
  rfl

theorem halfSegment_examine :
    examine (halfSegment seg emitted) (sourcePacket seg 1).1 (narrowPayload 1) =
      .collect 0 (halfSlot seg) := by
  have found : findSlot (halfSegment seg emitted) (sourcePacket seg 1).1.blockId =
      some (0, halfSlot seg) := findSlot_first rfl rfl rfl
  refine Eq.trans (examine_inside rfl rfl (dataFieldsOk_sourcePacket seg (by decide))
    (UInt64.le_refl _) (inside_narrow seg)) ?_
  unfold seekSlot
  rw [found]
  rfl

section Lockstep

variable {ω : Type} {cbs : ReceiverCallbacks ω}

theorem ingest_first (env : ω) :
    wirehairSegmentReceiverIngest cbs (betweenSegments seg emitted)
      (sourcePacket seg 0).1 (narrowPayload 0) env = (0, halfSegment seg emitted, env) := by
  unfold wirehairSegmentReceiverIngest
  rw [betweenSegments_examine]
  rfl

theorem fullSegment_passOn :
    passOn (fullSegment seg emitted) 0 (fullSlot seg) =
      betweenSegments (seg + 1) (emitted ++ [seg]) := by
  have slots : Function.update (fullSegment seg emitted).slots 0 none = fun _ => none := by
    funext index
    by_cases first : index = 0
    · rw [first, Function.update_self]
    rw [Function.update_of_ne first]
    cases held : (fullSegment seg emitted).slots index with
    | none => rfl
    | some =>
      obtain ⟨here, _⟩ | ⟨_, half⟩ := setReceiverSlot_cases held
      · exact absurd here first
      obtain ⟨here, _⟩ | ⟨_, ⟨⟩⟩ := setReceiverSlot_cases half
      exact absurd here first
  unfold passOn setReceiverSlot
  rw [slots]
  rfl

theorem fullSegment_emits (ok : cbs.Succeeds) (seg : UInt64) (emitted : List UInt64) (env : ω) :
    emitReadySegments cbs (fullSegment seg emitted) env =
      (0, betweenSegments (seg + 1) (emitted ++ [seg]),
        (cbs.output 7 ((narrowPayload 0 ++ narrowPayload 1).take 1) env).2) := by
  have found : findSlot (fullSegment seg emitted)
      (fullSegment seg emitted).nextEmitSegment = some (0, fullSlot seg) :=
    findSlot_first rfl rfl rfl
  have loop : emitSegments cbs (fullSegment seg emitted).window
      (fullSegment seg emitted) env =
      (0, betweenSegments (seg + 1) (emitted ++ [seg]),
        (cbs.output 7 ((narrowPayload 0 ++ narrowPayload 1).take 1) env).2) := by
    refine (emitSegments_passed ok 0 env found rfl).trans ?_
    rw [fullSegment_passOn]
    rfl
  unfold emitReadySegments
  rw [loop]
  rfl

theorem ingest_second (ok : cbs.Succeeds) (seg : UInt64) (emitted : List UInt64) (env : ω) :
    wirehairSegmentReceiverIngest cbs (halfSegment seg emitted)
      (sourcePacket seg 1).1 (narrowPayload 1) env =
        (0, betweenSegments (seg + 1) (emitted ++ [seg]),
          (cbs.output 7 ((narrowPayload 0 ++ narrowPayload 1).take 1)
            (emitAck cbs (fullSegment seg emitted) (fullSlot seg) env).2).2) := by
  have acked : (emitAck cbs (fullSegment seg emitted) (fullSlot seg) env).1 =
        0 ∧ ReceiverMoves cbs (sourcePacket seg 1).1 [] _ _ :=
    emitAck_moves ok _ env (.inr ⟨0, fullSlot seg, rfl, rfl, rfl⟩)
  have accepted : ¬(emitAck cbs (fullSegment seg emitted) (fullSlot seg)
      env).1 ≠ 0 := not_not.mpr acked.1
  unfold wirehairSegmentReceiverIngest
  rw [halfSegment_examine]
  refine Eq.trans (b := if (emitAck cbs (fullSegment seg emitted)
    (fullSlot seg) env).1 ≠ 0 then (-1, _, _) else emitReadySegments cbs
      (fullSegment seg emitted) (emitAck cbs (fullSegment seg emitted) (fullSlot seg) env).2) rfl ?_
  rw [if_neg accepted]
  exact fullSegment_emits ok seg emitted _

end Lockstep

theorem receiverStep_first :
    receiverStep quietCallbacks (betweenSegments seg emitted, ()) (sourcePacket seg 0) =
      some (halfSegment seg emitted, ()) :=
  congrArg (fun res : Int × WirehairSegmentReceiver twoPacketCodec × Unit => some res.2)
    (ingest_first seg emitted ())

theorem receiverStep_second :
    receiverStep quietCallbacks (halfSegment seg emitted, ()) (sourcePacket seg 1) =
      some (betweenSegments (seg + 1) (emitted ++ [seg]), ()) := by
  have ingested := ingest_second quietCallbacks_succeeds seg emitted ()
  unfold receiverStep
  dsimp only [sourcePacket] at ingested ⊢
  rw [ingested]

theorem betweenSegments_reached (count : Nat) :
    Reaches (receiverStep quietCallbacks) anyStep (newReceiver twoPacketCodec narrowConfig 7, ())
      (betweenSegments (UInt64.ofNat count) ((List.range count).map UInt64.ofNat), ()) := by
  induction count with
  | zero => exact .start
  | succ count ih =>
    have half := Reaches.next (sourcePacket (UInt64.ofNat count) 0) ih trivial
      (receiverStep_first _ _)
    have full := Reaches.next (sourcePacket (UInt64.ofNat count) 1) half trivial
      (receiverStep_second _ _)
    rw [range_succ, map_append, UInt64.ofNat_add]
    exact full

theorem ofNat_repeats {count : Nat} (size : count = 2 ^ 64) :
    ¬((List.range (count + 1)).map UInt64.ofNat).Nodup := by
  intro distinct
  have first : UInt64.ofNat 0 ∈ (List.range count).map UInt64.ofNat :=
    mem_map.mpr ⟨0, mem_range.mpr (by omega), rfl⟩
  have wrapped : UInt64.ofNat count = UInt64.ofNat 0 := by
    rw [size]
    rfl
  rw [range_succ, map_append, nodup_append] at distinct
  exact distinct.2.2 _ first _ (mem_singleton.mpr rfl) wrapped.symm

/-- After `2 ^ 64` segments the output callback is given segment 0 a second time. -/
theorem segment_output_twice :
    ∃ after, wirehairSegmentReceiverCreate twoPacketCodec narrowConfig 7 =
        some (newReceiver twoPacketCodec narrowConfig 7) ∧
      Reaches (receiverStep quietCallbacks) anyStep
        (newReceiver twoPacketCodec narrowConfig 7, ()) after ∧
      ¬after.1.emitted.Nodup := by
  have valid : wirehairSegmentReceiverCreate twoPacketCodec narrowConfig 7 =
      some (newReceiver twoPacketCodec narrowConfig 7) := if_neg (by decide)
  obtain ⟨count, size⟩ : ∃ count, count = 2 ^ 64 := ⟨_, rfl⟩
  exact ⟨_, valid, betweenSegments_reached (count + 1), ofNat_repeats size⟩

theorem receiver_keeps_window_half :
    (halfSegment 0 []).nextEmitSegment.toNat ≤ (halfSlot 0).segmentId.toNat ∧
      (halfSlot 0).segmentId.toNat <
        (halfSegment 0 []).nextEmitSegment.toNat + (halfSegment 0 []).window ∧
      ∀ other held, (halfSegment 0 []).slots other = some held →
        (halfSlot 0).segmentId = held.segmentId → 0 = other :=
  (receiver_keeps_window quietCallbacks_succeeds
    (show wirehairSegmentReceiverCreate twoPacketCodec narrowConfig 7 = some _ from
      if_neg (by decide))
    (.next (sourcePacket 0 0) .start trivial (receiverStep_first 0 []))).1 0 (halfSlot 0) rfl

end MultiFlow.Wirehair
