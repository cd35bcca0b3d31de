import MultiFlow.Lib.Transition
import MultiFlow.Wirehair.Sender

/-!
# Back-pressure on the segment sender

Runs of one sender whose emit callback answers 0 or a positive number in any pattern.  The trace
records every offer to the callback with its answer, and the admissions, so that the packets
accepted for a segment can be read off it.
-/

namespace MultiFlow.Wirehair

open Function Lib Wire List

inductive SenderEvent where
  | admitted (segmentId : UInt64)
  | offered (header : WireHeader) (kind : SenderPacketKind) (answer : Int)

/-- The callback's answers as a function of the number of earlier events. -/
structure SenderTrace where
  answers : Nat → Int
  events : List SenderEvent

def traceEmit : SenderEmitFn SenderTrace := fun header _ kind trace =>
  let answer := trace.answers trace.events.length
  (answer, { trace with events := trace.events ++ [.offered header kind answer] })

structure SenderRun where
  sender : WirehairSegmentSender
  trace : SenderTrace

inductive SenderCall where
  | admission (segmentId : UInt64) (data : List UInt8)
  | markInputFinished
  | inputAck (datagram : List UInt8) (nowNs : UInt64)
  | tick (nowNs : UInt64)
  | tryEmitEnd

def senderCall (codec : WirehairCodec) (run : SenderRun) : SenderCall → Option SenderRun
  | .admission segmentId data =>
    let (status, sender) := wirehairSegmentSenderAdmit run.sender segmentId data
    some
      { sender
        trace := if status = 0 then
            { run.trace with events := run.trace.events ++ [.admitted segmentId] }
          else run.trace }
  | .markInputFinished =>
    some { run with sender := wirehairSegmentSenderMarkInputFinished run.sender }
  | .inputAck datagram nowNs =>
    some { run with sender := (wirehairSegmentSenderInputAck run.sender datagram nowNs).2 }
  | .tick nowNs =>
    let (_, sender, trace) := wirehairSegmentSenderTick codec traceEmit run.sender nowNs run.trace
    some { sender, trace }
  | .tryEmitEnd =>
    let (_, sender, trace) := wirehairSegmentSenderTryEmitEnd traceEmit run.sender run.trace
    some { sender, trace }

def acceptedAfter (segmentId : UInt64) (ids : List Nat) : SenderEvent → List Nat
  | .admitted admitted => if admitted = segmentId then [] else ids
  | .offered header kind answer =>
    if header.blockId = segmentId ∧ kind ≠ .finish ∧ answer = 0 then
      ids ++ [header.shardIndex.toNat]
    else ids

def SenderTrace.accepted (trace : SenderTrace) (segmentId : UInt64) : List Nat :=
  trace.events.foldl (acceptedAfter segmentId) []

/-- The callback has refused an offer with a positive answer. -/
def SenderTrace.Refused (trace : SenderTrace) : Prop :=
  ∃ header kind answer, .offered header kind answer ∈ trace.events ∧ 0 < answer

def SenderTrace.offer (trace : SenderTrace) (header : WireHeader) (kind : SenderPacketKind) :
    SenderTrace :=
  { trace with
    events := trace.events ++ [.offered header kind (trace.answers trace.events.length)] }

theorem traceEmit_eq (hdr : WireHeader) (body : List UInt8) (kind : SenderPacketKind)
    (trace : SenderTrace) :
    traceEmit hdr body kind trace = (trace.answers trace.events.length, trace.offer hdr kind) := rfl

theorem refused_offer (trace : SenderTrace) (hdr : WireHeader) (kind : SenderPacketKind) :
    (trace.offer hdr kind).Refused ↔
      trace.Refused ∨ 0 < trace.answers trace.events.length := by
  constructor
  · rintro ⟨seen, seenKind, answer, mem, pos⟩
    rcases mem_append.mp mem with earlier | last
    · exact Or.inl ⟨seen, seenKind, answer, earlier, pos⟩
    · cases mem_singleton.mp last
      exact Or.inr pos
  · rintro (⟨seen, seenKind, answer, mem, pos⟩ | pos)
    · exact ⟨seen, seenKind, answer, mem_append_left _ mem, pos⟩
    · exact ⟨hdr, kind, _, mem_append_right _ (mem_singleton_self _), pos⟩

theorem accepted_offer (trace : SenderTrace) (hdr : WireHeader) (kind : SenderPacketKind)
    (segmentId : UInt64) :
    (trace.offer hdr kind).accepted segmentId =
      if hdr.blockId = segmentId ∧ kind ≠ .finish ∧ trace.answers trace.events.length = 0 then
        trace.accepted segmentId ++ [hdr.shardIndex.toNat] else trace.accepted segmentId := by
  unfold SenderTrace.accepted SenderTrace.offer
  rw [foldl_append]
  rfl

structure Ready (tx : WirehairSegmentTx) (trace : SenderTrace) : Prop where
  sound : tx.Sound
  limit : tx.packetLimit ≤ 65535
  willing : ∀ n, 0 ≤ trace.answers n
  own : trace.accepted tx.segmentId = List.range tx.nextPacketId
  fresh : ¬trace.Refused

/-- What an emission leaves: packets are accepted from the next id on without a gap, and the
answer is -1 exactly if one was refused. -/
structure Emitted (tx : WirehairSegmentTx) (trace : SenderTrace)
    (result : Int × WirehairSegmentTx × SenderTrace) : Prop where
  tx_eq : result.2.1 = { tx with nextPacketId := result.2.1.nextPacketId }
  next_le : result.2.1.nextPacketId ≤ tx.packetLimit
  answers_eq : result.2.2.answers = trace.answers
  own : result.2.2.accepted tx.segmentId = List.range result.2.1.nextPacketId
  others : ∀ segmentId ≠ tx.segmentId, result.2.2.accepted segmentId = trace.accepted segmentId
  refused : result.1 = -1 ∧ result.2.2.Refused ∨ 0 ≤ result.1 ∧ ¬result.2.2.Refused

section Range

variable (codec : WirehairCodec) {tx : WirehairSegmentTx} {trace : SenderTrace}

theorem emitOnePacket_trace (ready : Ready tx trace) (pid : Nat) (owner : WirehairSegmentTx) :
    ∃ hdr kind, hdr.blockId = tx.segmentId ∧ hdr.shardIndex = UInt16.ofNat pid ∧
      kind ≠ .finish ∧
      emitOnePacket codec tx pid (senderEmitBridge traceEmit owner) trace =
        (if trace.answers trace.events.length = 0 then 0 else -1, trace.offer hdr kind) := by
  obtain ⟨payload, filled⟩ := fillPacketPayload_some codec ready.sound pid
  refine ⟨packetHeader tx pid payload,
    if (packetHeader tx pid payload).shardIndex.toNat < owner.sourcePackets then .data
    else .repair, rfl, rfl, ?_, ?_⟩
  · split <;> exact SenderPacketKind.noConfusion
  · unfold emitOnePacket senderEmitBridge
    rw [filled]
    dsimp only
    rw [traceEmit_eq]
    have answered := ready.willing trace.events.length
    by_cases accepted : trace.answers trace.events.length = 0
    · rw [accepted]
      rfl
    · rw [if_pos (lt_of_le_of_ne answered (Ne.symm accepted)), if_neg accepted]
      rfl

theorem Ready.nothing (ready : Ready tx trace) {answer : Int} (counted : 0 ≤ answer) :
    Emitted tx trace (answer, tx, trace) :=
  ⟨rfl, ready.sound.next_le, rfl, ready.own, fun _ _ => rfl, Or.inr ⟨counted, ready.fresh⟩⟩

variable (owner : WirehairSegmentTx)

theorem emitPackets_emitted (ready : Ready tx trace) (count emitted : Nat)
    (room : tx.nextPacketId + count ≤ tx.packetLimit) :
    Emitted tx trace
      (emitPackets codec (senderEmitBridge traceEmit owner) count tx emitted trace) := by
  induction count generalizing tx trace emitted with
  | zero => exact ready.nothing (Int.natCast_nonneg emitted)
  | succ _ ih =>
    obtain ⟨hdr, kind, block_eq, index_eq, packet, emission⟩ :=
      emitOnePacket_trace codec ready tx.nextPacketId owner
    have others : ∀ segmentId ≠ tx.segmentId,
        (trace.offer hdr kind).accepted segmentId = trace.accepted segmentId := by
      intro segmentId other
      rw [accepted_offer, if_neg (fun all => other (all.1.symm.trans block_eq))]
    unfold emitPackets
    rw [emission]
    dsimp only
    by_cases accepted : trace.answers trace.events.length = 0
    · rw [if_pos accepted, if_neg (not_not.mpr rfl)]
      have own_after : (trace.offer hdr kind).accepted tx.segmentId =
          List.range (tx.nextPacketId + 1) := by
        have small : tx.nextPacketId < UInt16.size := by
          have := ready.limit
          unfold UInt16.size
          omega
        rw [accepted_offer, if_pos ⟨block_eq, packet, accepted⟩, ready.own, index_eq,
          UInt16.toNat_ofNat_of_lt' small, range_succ]
      have fresh_after : ¬(trace.offer hdr kind).Refused := by
        rw [refused_offer, accepted]
        exact fun refused => refused.elim ready.fresh (lt_irrefl 0)
      have ready_after : Ready { tx with nextPacketId := tx.nextPacketId + 1 }
          (trace.offer hdr kind) :=
        ⟨⟨ready.sound.covers, ready.sound.source_le, by dsimp only; omega⟩, ready.limit,
          ready.willing, own_after, fresh_after⟩
      have later := ih ready_after (emitted + 1) (by dsimp only; omega)
      exact { later with
        others := fun segmentId other =>
          (later.others segmentId other).trans (others segmentId other) }
    · rw [if_neg accepted, if_pos (by decide)]
      refine ⟨rfl, ready.sound.next_le, rfl, ?_, others, Or.inl ⟨rfl, ?_⟩⟩
      · rw [accepted_offer, if_neg (fun all => accepted all.2.2), ready.own]
      · rw [refused_offer]
        exact Or.inr (lt_of_le_of_ne (ready.willing _) (Ne.symm accepted))

theorem emitRange_emitted (ready : Ready tx trace) {endPacketId : Nat}
    (ahead : tx.nextPacketId ≤ endPacketId) :
    Emitted tx trace (wirehairSegmentTxEmitRange codec tx endPacketId
      (senderEmitBridge traceEmit owner) trace) := by
  have next_le := ready.sound.next_le
  unfold wirehairSegmentTxEmitRange
  rw [if_neg (Nat.not_lt.mpr ahead)]
  exact emitPackets_emitted codec owner ready _ 0 (by omega)

theorem emitSource_emitted (ready : Ready tx trace) (maxPackets : Nat)
    (incomplete : wirehairSegmentTxSourceComplete tx = false) :
    Emitted tx trace (wirehairSegmentTxEmitSource codec tx maxPackets
      (senderEmitBridge traceEmit owner) trace) := by
  have before : ¬tx.sourcePackets ≤ tx.nextPacketId := of_decide_eq_false incomplete
  unfold wirehairSegmentTxEmitSource
  split
  next => exact ready.nothing le_rfl
  next => exact emitRange_emitted codec owner ready (by omega)

theorem emitRepair_emitted (ready : Ready tx trace) (maxPackets : Nat) :
    Emitted tx trace (wirehairSegmentTxEmitRepair codec tx maxPackets
      (senderEmitBridge traceEmit owner) trace) := by
  have next_le := ready.sound.next_le
  unfold wirehairSegmentTxEmitRepair
  split
  next => exact ready.nothing le_rfl
  next => exact emitRange_emitted codec owner ready (by omega)

end Range

/-- The slot sits at the index of its segment, whose accepted ids are those below the next one. -/
structure SteadySlot (window : Nat) (trace : SenderTrace) (index : Nat)
    (slot : WirehairSegmentSenderSlot) : Prop where
  placed : slot.segmentId.toNat % window = index
  owned : slot.tx.segmentId = slot.segmentId
  sound : slot.tx.Sound
  limit : slot.tx.packetLimit ≤ 65535
  progress : trace.accepted slot.segmentId = List.range slot.tx.nextPacketId

structure Steady (sender : WirehairSegmentSender) (trace : SenderTrace) : Prop where
  willing : ∀ n, 0 ≤ trace.answers n
  fits : sender.config.segmentBytes.toNat + WH_PACKET_SIZE ≤ 2 ^ 32
  slots : ∀ i slot, sender.slots i = some slot → SteadySlot sender.window trace i slot
  gapless : ∀ segmentId, ∃ count, trace.accepted segmentId = List.range count

namespace Steady

variable {snd : WirehairSegmentSender} {trace : SenderTrace}

variable (steady : Steady snd trace)
include steady

variable {after : WirehairSegmentSender}

theorem of_slots (config_eq : after.config = snd.config) (window_eq : after.window = snd.window)
    (kept : ∀ i slot, after.slots i = some slot →
      ∃ old, snd.slots i = some old ∧ slot.segmentId = old.segmentId ∧ slot.tx = old.tx) :
    Steady after trace := by
  refine ⟨steady.willing, config_eq ▸ steady.fits, ?_, steady.gapless⟩
  intro i slot found
  obtain ⟨old, was, id_eq, tx_eq⟩ := kept i slot found
  obtain ⟨placed, owned, sound, limit, progress⟩ := steady.slots i old was
  rw [← id_eq] at placed owned progress
  rw [← tx_eq] at owned sound limit progress
  exact ⟨window_eq ▸ placed, owned, sound, limit, progress⟩

theorem unchanged (config_eq : after.config = snd.config) (window_eq : after.window = snd.window)
    (slots_eq : after.slots = snd.slots) : Steady after trace :=
  steady.of_slots config_eq window_eq fun i slot found =>
    ⟨slot, by rw [← slots_eq]; exact found, rfl, rfl⟩

theorem setSlot {idx : Nat} {slot slotAfter : WirehairSegmentSenderSlot}
    (found : snd.slots idx = some slot) (id_eq : slotAfter.segmentId = slot.segmentId)
    (tx_eq : slotAfter.tx = slot.tx) : Steady (Wirehair.setSlot snd idx slotAfter) trace := by
  refine steady.of_slots rfl rfl ?_
  intro i other found_other
  unfold Wirehair.setSlot at found_other
  dsimp only at found_other
  rcases of_update found_other with ⟨rfl, new⟩ | ⟨-, found_other⟩
  · cases new
    exact ⟨slot, found, id_eq, tx_eq⟩
  · exact ⟨other, found_other, rfl, rfl⟩

theorem ackMoves (moves : AckMoves snd after) : Steady after trace := by
  refine moves.invariant (fun snd => Steady snd trace) ?_ steady
  intro before next steady move
  cases move with
  | applied index slot _ found =>
    have marked : Steady (Wirehair.setSlot before index { slot with acked := true }) trace :=
      steady.setSlot found rfl rfl
    exact marked.unchanged rfl rfl rfl
  | released slot =>
    obtain ⟨_, head_eq⟩ := releaseHead_eq before slot
    rw [head_eq]
    refine steady.of_slots rfl rfl ?_
    intro i other found_other
    dsimp only at found_other
    rcases of_update found_other with ⟨-, new⟩ | ⟨-, found_other⟩
    · cases new
    · exact ⟨other, found_other, rfl, rfl⟩

theorem emit {idx : Nat} {slot slotAfter : WirehairSegmentSenderSlot} {answer : Int}
    {after : SenderTrace} (found : snd.slots idx = some slot)
    (id_eq : slotAfter.segmentId = slot.segmentId)
    (emitted : Emitted slot.tx trace (answer, slotAfter.tx, after)) :
    Steady (Wirehair.setSlot snd idx slotAfter) after := by
  have held := steady.slots idx slot found
  have own := held.owned ▸ emitted.own
  have others := held.owned ▸ emitted.others
  have tx_eq : slotAfter.tx = _ := emitted.tx_eq
  refine ⟨?_, steady.fits, ?_, ?_⟩
  · rw [show after.answers = trace.answers from emitted.answers_eq]
    exact steady.willing
  · intro i other found_other
    unfold Wirehair.setSlot at found_other
    dsimp only at found_other
    rcases of_update found_other with ⟨same, new⟩ | ⟨same, found_other⟩
    · cases new
      rw [same]
      refine ⟨id_eq ▸ held.placed, ?_, ?_, ?_, id_eq ▸ own⟩
      · rw [tx_eq, id_eq]
        exact held.owned
      · rw [tx_eq]
        exact ⟨held.sound.covers, held.sound.source_le, emitted.next_le⟩
      · rw [tx_eq]
        exact held.limit
    · have kept := steady.slots i other found_other
      have distinct : other.segmentId ≠ slot.segmentId := by
        intro equal
        refine same (kept.placed.symm.trans ?_)
        rw [equal]
        exact held.placed
      exact { kept with progress := (others _ distinct).trans kept.progress }
  · intro seg
    by_cases same : seg = slot.segmentId
    · rw [same]
      exact ⟨_, own⟩
    · rw [others _ same]
      exact steady.gapless seg

theorem admission {seg : UInt64} {data : List UInt8} {tx : WirehairSegmentTx}
    (created : wirehairSegmentTxCreate snd.config snd.flowId seg snd.finalDst
      snd.ttl data = some tx) :
    Steady
      { snd with
        slots := update snd.slots (slotIndex snd seg)
          (some ⟨false, seg, tx, 0, 0, false⟩)
        nextSegmentId := snd.nextSegmentId + 1
        activeCount := snd.activeCount + 1 }
      { trace with events := trace.events ++ [.admitted seg] } := by
  have accepted_eq : ∀ other, SenderTrace.accepted
      { trace with events := trace.events ++ [.admitted seg] } other =
        if seg = other then [] else trace.accepted other := by
    intro other
    unfold SenderTrace.accepted
    rw [foldl_append]
    rfl
  refine ⟨steady.willing, steady.fits, ?_, ?_⟩
  · intro i slot found
    dsimp only at found
    rcases of_update found with ⟨same, new⟩ | ⟨same, found⟩
    · cases new
      have sound := wirehairSegmentTxCreate_sound created
      have limit := wirehairSegmentTxCreate_limit created steady.fits
      obtain ⟨-, -, rfl⟩ := wirehairSegmentTxCreate_eq created
      exact ⟨same.symm, rfl, sound, limit, (accepted_eq _).trans (if_pos rfl)⟩
    have kept := steady.slots i slot found
    have distinct : seg ≠ slot.segmentId := by
      intro equal
      refine same (kept.placed.symm.trans ?_)
      rw [← equal]
      rfl
    refine { kept with progress := ?_ }
    rw [accepted_eq, if_neg distinct]
    exact kept.progress
  · intro other
    rw [accepted_eq]
    split
    · exact ⟨0, rfl⟩
    · exact steady.gapless other

end Steady

def Standing (sender : WirehairSegmentSender) (trace : SenderTrace) : Prop :=
  ¬trace.Refused ∧ sender.ackTimedOut = false

/-- Exactly one of the two reasons to fail. -/
def Broken (sender : WirehairSegmentSender) (trace : SenderTrace) : Prop :=
  trace.Refused ∧ sender.ackTimedOut = false ∨ ¬trace.Refused ∧ sender.ackTimedOut = true

/-- The state of a sender after a slot of its tick. -/
structure Ticked (failed : Bool) (result : TickStep × WirehairSegmentSender × SenderTrace) :
    Prop where
  steady : Steady result.2.1 result.2.2
  failed_eq : result.2.1.failed = failed
  standing : result.1 ≠ .fail → Standing result.2.1 result.2.2
  broken : result.1 = .fail → Broken result.2.1 result.2.2

section Calls

variable (codec : WirehairCodec) {snd : WirehairSegmentSender} {trace : SenderTrace}
  {idx : Nat} {slot : WirehairSegmentSenderSlot}

theorem Steady.ready (steady : Steady snd trace) (standing : Standing snd trace)
    (found : snd.slots idx = some slot) : Ready slot.tx trace := by
  have held := steady.slots idx slot found
  exact ⟨held.sound, held.limit, steady.willing, held.owned ▸ held.progress, standing.1⟩

theorem Ticked.emit {slotAfter : WirehairSegmentSenderSlot} {answer : Int} {after : SenderTrace}
    (steady : Steady snd trace) (standing : Standing snd trace)
    (found : snd.slots idx = some slot) (id_eq : slotAfter.segmentId = slot.segmentId)
    (emitted : Emitted slot.tx trace (answer, slotAfter.tx, after)) :
    Ticked snd.failed (afterEmission answer, setSlot snd idx slotAfter, after) := by
  refine ⟨steady.emit found id_eq emitted, rfl, ?_, ?_⟩
  · intro going
    obtain ⟨refused, -⟩ | ⟨-, fresh⟩ := emitted.refused
    · cases refused
      exact absurd rfl going
    · exact ⟨fresh, standing.2⟩
  · intro failing
    obtain ⟨-, refused⟩ | ⟨counted, -⟩ := emitted.refused
    · exact Or.inl ⟨refused, standing.2⟩
    dsimp only [afterEmission] at failing counted
    rw [if_neg (Int.not_lt.mpr counted)] at failing
    cases failing

variable {after : WirehairSegmentSender}

theorem Ticked.same (steady : Steady after trace) (failed_eq : after.failed = snd.failed)
    (standing : Standing after trace) : Ticked snd.failed (.next, after, trace) :=
  ⟨steady, failed_eq, fun _ => standing, fun failing => nomatch failing⟩

theorem tickSource_ticked (nowNs : UInt64) (steady : Steady snd trace)
    (standing : Standing snd trace) (found : snd.slots idx = some slot)
    (incomplete : wirehairSegmentTxSourceComplete slot.tx = false) :
    Ticked snd.failed (tickSource codec traceEmit snd idx slot nowNs trace) := by
  have emitted := emitSource_emitted codec slot.tx (steady.ready standing found)
    WIREHAIR_SENDER_SOURCE_BATCH incomplete
  refine .emit steady standing found ?_ ?_
  · split <;> rfl
  · split
    all_goals exact emitted

theorem tickRepair_ticked (nowNs : UInt64) (steady : Steady snd trace)
    (standing : Standing snd trace) (found : snd.slots idx = some slot) :
    Ticked snd.failed (tickRepair codec traceEmit snd idx slot nowNs trace) := by
  have same : (scheduleRepair snd slot nowNs).segmentId = slot.segmentId ∧
      (scheduleRepair snd slot nowNs).tx = slot.tx := by
    unfold scheduleRepair
    split <;> exact ⟨rfl, rfl⟩
  unfold tickRepair
  dsimp only
  generalize scheduleRepair snd slot nowNs = due at same ⊢
  have steady_due := steady.setSlot found same.1 same.2
  have standing_due : Standing (setSlot snd idx due) trace := standing
  have found_due : (setSlot snd idx due).slots idx = some due := update_self _ _ _
  have emitted := emitRepair_emitted codec due.tx (steady_due.ready standing_due found_due)
    (wirehairSegmentAckRepairRoundPackets due.tx.sourcePackets)
  split
  · exact .same steady_due rfl standing_due
  split
  next =>
    exact ⟨steady_due.unchanged rfl rfl rfl, rfl, fun going => absurd rfl going,
      fun _ => Or.inr ⟨standing.1, rfl⟩⟩
  next =>
    refine Ticked.emit steady_due standing_due found_due ?_ ?_
    · split <;> rfl
    · split
      all_goals exact emitted

theorem tickSlot_ticked (pending : Bool) (nowNs : UInt64) (idx : Nat)
    (steady : Steady snd trace) (standing : Standing snd trace) :
    Ticked snd.failed (tickSlot codec traceEmit pending nowNs snd idx trace) := by
  unfold tickSlot
  cases found : snd.slots idx with
  | none => exact .same steady rfl standing
  | some =>
    dsimp only
    split_ifs with acked incomplete
    · exact .same steady rfl standing
    · exact tickSource_ticked codec nowNs steady standing found incomplete
    · exact .same (steady.setSlot found rfl rfl) rfl standing
    · exact .same steady rfl standing
    · exact tickRepair_ticked codec nowNs steady standing found

/-- A sender fails for exactly one of the two reasons. -/
structure Pressured (state : WirehairSegmentSender × SenderTrace) : Prop where
  steady : Steady state.1 state.2
  standing : state.1.failed = false → Standing state.1 state.2
  broken : state.1.failed = true → Broken state.1 state.2

theorem Standing.pressured (steady : Steady snd trace) (standing : Standing snd trace)
    (working : snd.failed = false) : Pressured (snd, trace) :=
  ⟨steady, fun _ => standing, fun failed => nomatch working.symm.trans failed⟩

theorem tickSlots_pressured (pending : Bool) (nowNs : UInt64) (indices : List Nat)
    (steady : Steady snd trace) (standing : Standing snd trace) (working : snd.failed = false) :
    Pressured (tickSlots codec traceEmit pending nowNs indices snd trace).2 := by
  induction indices generalizing snd trace with
  | nil => exact standing.pressured steady working
  | cons idx _ ih =>
    have ticked := tickSlot_ticked codec pending nowNs idx steady standing
    unfold tickSlots
    rcases step_eq : tickSlot codec traceEmit pending nowNs snd idx trace with
      ⟨step, after, traceAfter⟩
    rw [step_eq] at ticked
    have working_after : after.failed = false := ticked.failed_eq.trans working
    cases step with
    | next => exact ih ticked.steady (ticked.standing nofun) working_after
    | stop => exact (ticked.standing nofun).pressured ticked.steady working_after
    | fail => exact ⟨ticked.steady.unchanged rfl rfl rfl, nofun, fun _ => ticked.broken rfl⟩

variable (pressured : Pressured (snd, trace))
include pressured

theorem Pressured.ackMoves (moves : AckMoves snd after) : Pressured (after, trace) := by
  have frame := moves.sameFrame
  refine ⟨pressured.steady.ackMoves moves, ?_, ?_⟩
  · intro working
    unfold Standing
    rw [frame.timedOut_eq]
    exact pressured.standing (frame.failed_eq.symm.trans working)
  · intro failed
    unfold Broken
    rw [frame.timedOut_eq]
    exact pressured.broken (frame.failed_eq.symm.trans failed)

theorem Pressured.inputAck (dgram : List UInt8) (nowNs : UInt64) :
    Pressured ((wirehairSegmentSenderInputAck snd dgram nowNs).2, trace) := by
  unfold wirehairSegmentSenderInputAck
  split
  · exact pressured
  cases wireHeaderDecode dgram with
  | none => exact pressured
  | some hdr =>
    dsimp only
    split
    · exact pressured
    have marked : Pressured (ackMark snd hdr, trace) := by
      unfold ackMark
      split
      next => exact pressured
      next =>
        exact ⟨pressured.steady.unchanged rfl rfl rfl, pressured.standing, pressured.broken⟩
    exact marked.ackMoves (applyPendingAcks_moves _ nowNs)

theorem Pressured.tick (nowNs : UInt64) :
    Pressured (wirehairSegmentSenderTick codec traceEmit snd nowNs trace).2 := by
  unfold wirehairSegmentSenderTick
  split
  · exact pressured
  rename_i working
  have moves := applyPendingAcks_moves snd nowNs
  have acked := pressured.ackMoves moves
  have working_after := moves.sameFrame.failed_eq.trans (Bool.eq_false_of_not_eq_true working)
  exact tickSlots_pressured codec _ nowNs _ acked.steady (acked.standing working_after)
    working_after

theorem Pressured.tryEmitEnd :
    Pressured (wirehairSegmentSenderTryEmitEnd traceEmit snd trace).2 := by
  unfold wirehairSegmentSenderTryEmitEnd
  split
  · exact pressured
  rename_i ready
  rw [traceEmit_eq]
  dsimp only
  have working : snd.failed = false := by
    by_contra failed
    rw [Bool.not_eq_false] at failed
    exact ready (by rw [failed]; rfl)
  have standing := pressured.standing working
  have kept : ∀ segmentId, (trace.offer (endHeader snd) .finish).accepted segmentId =
      trace.accepted segmentId := by
    intro segmentId
    rw [accepted_offer, if_neg (fun all => all.2.1 rfl)]
  have steady : Steady snd (trace.offer (endHeader snd) .finish) := by
    refine ⟨pressured.steady.willing, pressured.steady.fits, fun i slot found => ?_,
      fun segmentId => (pressured.steady.gapless segmentId).imp fun _ own => (kept _).trans own⟩
    have held := pressured.steady.slots i slot found
    exact { held with progress := (kept _).trans held.progress }
  split
  next refused =>
    refine ⟨steady.unchanged rfl rfl rfl, nofun, fun _ => Or.inl ⟨?_, standing.2⟩⟩
    rw [refused_offer]
    exact Or.inr (lt_of_le_of_ne (pressured.steady.willing _) (Ne.symm refused))
  next accepted =>
    refine Standing.pressured (steady.unchanged rfl rfl rfl) ⟨?_, standing.2⟩ working
    rw [refused_offer, not_not.mp accepted]
    exact fun refused => refused.elim standing.1 (lt_irrefl 0)

omit pressured

theorem canAdmit_working (admissible : wirehairSegmentSenderCanAdmit snd = true) :
    snd.failed = false := by
  unfold wirehairSegmentSenderCanAdmit at admissible
  cases failed : snd.failed with
  | false => rfl
  | true =>
    rw [failed] at admissible
    exact absurd admissible Bool.false_ne_true

end Calls

theorem Pressured.call {codec : WirehairCodec} {run after : SenderRun} {call : SenderCall}
    (pressured : Pressured (run.sender, run.trace)) (taken : senderCall codec run call = some after) :
    Pressured (after.sender, after.trace) := by
  cases call with
  | admission seg data =>
    dsimp only [senderCall] at taken
    obtain ⟨_, refused, res⟩ | ⟨tx, created, admissible, -, -, res⟩ :=
      wirehairSegmentSenderAdmit_cases run.sender seg data
    · rw [res] at taken
      rw [if_neg refused] at taken
      cases taken
      exact pressured
    · have working := canAdmit_working admissible
      have standing := pressured.standing working
      rw [res] at taken
      cases taken
      refine Standing.pressured (pressured.steady.admission created) ⟨?_, standing.2⟩ working
      rintro ⟨hdr, kind, answer, mem, pos⟩
      rcases mem_append.mp mem with earlier | last
      · exact standing.1 ⟨hdr, kind, answer, earlier, pos⟩
      · exact absurd (mem_singleton.mp last) nofun
  | markInputFinished =>
    cases taken
    exact ⟨pressured.steady.unchanged rfl rfl rfl, pressured.standing, pressured.broken⟩
  | inputAck dgram nowNs =>
    cases taken
    exact pressured.inputAck dgram nowNs
  | tick nowNs =>
    cases taken
    exact pressured.tick codec nowNs
  | tryEmitEnd =>
    cases taken
    exact pressured.tryEmitEnd

/-- For a callback that answers 0 or a positive number, in any run: the packet ids accepted for
a segment are 0, 1, 2, ... , and the sender fails without an overdue acknowledgement if and only
if an answer was positive. -/
theorem sender_fails_iff_refused (codec : WirehairCodec) (config : WirehairSegmentConfig)
    (flowId : UInt32) (finalDst ttl : UInt8) (sender : WirehairSegmentSender)
    (created : wirehairSegmentSenderCreate config flowId finalDst ttl = some sender)
    (fits : config.segmentBytes.toNat + WH_PACKET_SIZE ≤ 2 ^ 32) (answers : Nat → Int)
    (willing : ∀ n, 0 ≤ answers n) (run : SenderRun)
    (reached : Reaches (senderCall codec) anyStep ⟨sender, ⟨answers, []⟩⟩ run) :
    (∀ segmentId, ∃ count, run.trace.accepted segmentId = List.range count) ∧
      (run.sender.failed = true ∧ run.sender.ackTimedOut = false ↔ run.trace.Refused) := by
  have initially : Pressured (sender, ⟨answers, []⟩) := by
    unfold wirehairSegmentSenderCreate at created
    split at created
    · cases created
    cases created
    refine ⟨⟨willing, fits, nofun, fun _ => ⟨0, rfl⟩⟩, fun _ => ⟨?_, rfl⟩, nofun⟩
    rintro ⟨_, _, _, member, -⟩
    cases member
  have pressured : Pressured (run.sender, run.trace) :=
    reached.invariant (fun run => Pressured (run.sender, run.trace)) initially
      fun _ _ _ pressured _ taken => pressured.call taken
  refine ⟨pressured.steady.gapless, ?_⟩
  constructor
  · rintro ⟨failed, onTime⟩
    rcases pressured.broken failed with ⟨refused, -⟩ | ⟨-, late⟩
    · exact refused
    · exact absurd (onTime.symm.trans late) nofun
  intro refused
  cases failed : run.sender.failed with
  | false => exact absurd refused (pressured.standing failed).1
  | true =>
    rcases pressured.broken failed with ⟨-, onTime⟩ | ⟨fresh, -⟩
    · exact ⟨rfl, onTime⟩
    · exact absurd refused fresh

/-- One segment at a time, of at most 1000 bytes. -/
def smallConfig : WirehairSegmentConfig := ⟨1000, 0, 1, true, 1, 1⟩

theorem sender_fails_iff_refused_accepting :
    ∃ run, Reaches (senderCall twoPacketCodec) anyStep
        ⟨newSender smallConfig 7 1 1, ⟨fun _ => 0, []⟩⟩ run ∧
      run.trace.accepted 0 = [0, 1] ∧
      (run.sender.failed = true ∧ run.sender.ackTimedOut = false ↔ run.trace.Refused) := by
  obtain ⟨run, reached, seen⟩ : ∃ run : SenderRun,
      Reaches (senderCall twoPacketCodec) anyStep
          ⟨newSender smallConfig 7 1 1, ⟨fun _ => 0, []⟩⟩ run ∧
        decide (run.trace.accepted 0 = [0, 1]) = true :=
    Reaches.exists_of_actions [.admission 0 [9], .tick 1] _ (by decide +kernel)
  exact ⟨run, reached, of_decide_eq_true seen,
    (sender_fails_iff_refused twoPacketCodec smallConfig 7 1 1 _ rfl (by decide) (fun _ => 0)
      (fun _ => le_rfl) run reached).2⟩

/-- The callback answers 1, output queue full, to the first source packet: the tick marks the
sender failed, and later ticks offer nothing. -/
theorem refused_packet_fails_sender :
    wirehairSegmentSenderCreate smallConfig 7 1 1 = some (newSender smallConfig 7 1 1) ∧
      ∃ run, Reaches (senderCall twoPacketCodec) anyStep
          ⟨newSender smallConfig 7 1 1, ⟨fun _ => 1, []⟩⟩ run ∧
        run.sender.failed = true ∧ run.sender.ackTimedOut = false ∧
        run.trace.events.length = 2 := by
  obtain ⟨run, reached, seen⟩ : ∃ run : SenderRun,
      Reaches (senderCall twoPacketCodec) anyStep
          ⟨newSender smallConfig 7 1 1, ⟨fun _ => 1, []⟩⟩ run ∧
        decide (run.sender.failed = true ∧ run.sender.ackTimedOut = false ∧
          run.trace.events.length = 2) = true :=
    Reaches.exists_of_actions [.admission 0 [9], .tick 1, .tick 2] _ (by decide +kernel)
  exact ⟨rfl, run, reached, of_decide_eq_true seen⟩

end MultiFlow.Wirehair
