import MultiFlow.Bats.RelayComplete

/-!
# The exit of the relay

A run of `run_relay` whose polls meet a condition on the clock and on the held packets never fails,
exits when the deadline has passed, and has then sent every batch it received a packet of.
-/

namespace MultiFlow.Bats

open Lib List

section Exit

variable {nSlots batsM : Nat} {sizes : BatchKey → Nat} {src : BatchKey → Nat → CodedPacket}
  {env : RelayEnv} {cfg : RelayConfig}

def Received (batsM : Nat) (received : List BatchKey) (held : List (List UInt8))
    (relay : RelayState) : Prop :=
  ∀ key ∈ received, (∃ index, .processed key index ∈ relay.trace) ∨
    ∃ buf ∈ held, ∃ pkt, parseData batsM buf = some pkt ∧ pkt.key = key

variable {held : List (List UInt8)} {relay : RelayState} {state : LoopState}
  {elapsedMs waitMs : Nat} {buf : List UInt8}

theorem Received.move {received : List BatchKey} {kept : List (List UInt8)} {after : RelayState}
    (all : Received batsM received held relay) (grows : Grows relay after)
    (settles : ∀ buf ∈ held, Settles batsM kept after buf) :
    Received batsM received kept after := by
  intro key mem
  obtain ⟨idx, old⟩ | ⟨buf, waiting, pkt, parsed, rfl⟩ := all key mem
  · exact Or.inl ⟨idx, grows.processed key idx old⟩
  obtain still | gone := settles buf waiting
  · exact Or.inr ⟨buf, still, pkt, parsed, rfl⟩
  · exact Or.inl ⟨pkt.index, gone pkt parsed⟩

structure LoopSound (nSlots batsM : Nat) (sizes : BatchKey → Nat)
    (source : BatchKey → Nat → CodedPacket) (state : LoopState) : Prop where
  integrity : Integrity nSlots batsM sizes source state.relay
  waits : ∀ buf ∈ state.held, ∃ pkt, Waits batsM sizes source state.relay buf pkt
  received : Received batsM state.received state.held state.relay

theorem LoopSound.replace (sound : LoopSound nSlots batsM sizes src state) {status : LoopStatus}
    (integrity : Integrity nSlots batsM sizes src relay) (grows : Grows state.relay relay)
    (sub : held.Sublist state.held) (settles : ∀ buf ∈ state.held, Settles batsM held relay buf) :
    LoopSound nSlots batsM sizes src { state with relay, held, status } where
  integrity := integrity
  waits := by
    intro buf mem
    obtain ⟨pkt, wait⟩ := sound.waits buf (sub.subset mem)
    exact ⟨pkt, wait.grow grows⟩
  received := sound.received.move grows settles

theorem settles_self (held : List (List UInt8)) (relay : RelayState) :
    ∀ buf ∈ held, Settles batsM held relay buf := fun _ mem => Or.inl mem

theorem length_inputs_le (batsM : Nat) (slot : RelaySlot) : (slot.inputs batsM).length ≤ batsM := by
  calc ((List.range batsM).filterMap slot.seen).length ≤ (List.range batsM).length :=
        length_filterMap_le _ _
    _ = batsM := length_range

theorem Integrity.empty_of_idle (integrity : Integrity nSlots batsM sizes src relay)
    (idle : ∀ i slot, relay.slots i = some slot → slot.ready batsM false = false)
    (whole : relayHasPartial nSlots batsM relay.slots = false) : ∀ i, relay.slots i = none := by
  intro i
  cases here : relay.slots i with
  | none => rfl
  | some slot =>
    exfalso
    have sound := integrity.sound i slot here
    have unready := idle i slot here
    have small := length_inputs_le batsM slot
    rw [← sound.count_eq] at small
    unfold relayHasPartial at whole
    rw [any_eq_false] at whole
    have complete := whole i (mem_range.mpr sound.inside)
    rw [here] at complete
    simp [RelaySlot.ready, sound.nonempty] at unready complete
    omega

theorem LoopSound.flushed_of_empty (sound : LoopSound nSlots batsM sizes src state)
    (nothing : state.held = []) (empty : ∀ i, state.relay.slots i = none) :
    ∀ key ∈ state.received, batchWasFlushed state.relay.maps key = true := by
  intro key mem
  obtain ⟨idx, processed⟩ | ⟨_, waiting, -⟩ := sound.received key mem
  · obtain flushed | ⟨i, _, here, -⟩ := sound.integrity.accounted key idx processed
    · exact flushed
    · rw [empty i] at here
      cases here
  · rw [nothing] at waiting
    cases waiting

/-- The relay has exited, and every key that arrived has been flushed. -/
structure Exited (nSlots batsM : Nat) (sizes : BatchKey → Nat)
    (source : BatchKey → Nat → CodedPacket) (state : LoopState) : Prop where
  sound : LoopSound nSlots batsM sizes source state
  status_eq : state.status = .exited
  flushed : ∀ key ∈ state.received, batchWasFlushed state.relay.maps key = true

theorem heldKeys_subset {kept : List (List UInt8)} (sub : kept.Sublist held) :
    (heldKeys batsM kept).card ≤ (heldKeys batsM held).card := by
  refine Finset.card_le_card ?_
  intro key mem
  unfold heldKeys at mem ⊢
  rw [mem_toFinset, mem_filterMap] at mem ⊢
  obtain ⟨buf, waiting, parsed⟩ := mem
  exact ⟨buf, sub.subset waiting, parsed⟩

theorem LoopSound.finalSweep (sound : LoopSound nSlots batsM sizes src state)
    (ok : env.Succeeds batsM) (few : (heldKeys batsM state.held).card ≤ nSlots) :
    Exited nSlots batsM sizes src (Bats.finalSweep env nSlots batsM state) := by
  obtain ⟨first, flushing, whole, drains, empty⟩ := sound.integrity.forceFlush_total ok
  have waiting := waits_grow sound.waits drains.grows
  obtain ⟨placed, sweeping⟩ : ∃ placed,
      retryHeld env nSlots batsM false state.held first = some ([], placed) := by
    refine retryHeld_sweep ok few whole ?_ ?_
    · intro buf mem
      obtain ⟨pkt, wait⟩ := waiting buf mem
      exact ⟨pkt, wait, mem_heldKeys mem wait.1⟩
    · intro i slot here
      rw [empty i] at here
      cases here
  obtain ⟨_, _, retried, wholePlaced, grows, -, settles⟩ :=
    retryHeld_total ok false whole waiting
  rw [sweeping] at retried
  cases retried
  obtain ⟨last, flushingLast, wholeLast, drainsLast, emptyLast⟩ := wholePlaced.forceFlush_total ok
  have res : Bats.finalSweep env nSlots batsM state =
      { state with relay := last, held := [], status := .exited } := by
    unfold Bats.finalSweep
    simp only [flushing, sweeping, flushingLast, Option.bind_eq_bind, Option.bind_some,
      Option.pure_def]
    rfl
  rw [res]
  have soundLast : LoopSound nSlots batsM sizes src
      { state with relay := last, held := [], status := .exited } := by
    refine sound.replace wholeLast ((drains.grows.trans grows).trans drainsLast.grows)
      (nil_sublist _) ?_
    intro buf mem
    obtain still | gone := settles buf mem
    · cases still
    · exact Or.inr fun pkt parsed => drainsLast.grows.processed _ _ (gone pkt parsed)
  exact ⟨soundLast, rfl, soundLast.flushed_of_empty rfl emptyLast⟩

/-- The outcome of a poll that does not fail: the relay has exited, or runs on.  Once the deadline
has passed it runs on only with nothing held, or with an empty table. -/
inductive Polls (nSlots batsM : Nat) (sizes : BatchKey → Nat)
    (source : BatchKey → Nat → CodedPacket) (config : RelayConfig) (before : LoopState)
    (due : Prop) (after : LoopState) : Prop where
  | exits (exited : Exited nSlots batsM sizes source after) :
      Polls nSlots batsM sizes source config before due after
  | waits (sound : LoopSound nSlots batsM sizes source after) (running : after.status = .running)
      (sub : after.held.Sublist before.held)
      (ends : flowsAllEnded config before.relay.flows = true →
        flowsAllEnded config after.relay.flows = true)
      (rest : due → after.held = [] ∨ ∀ i, after.relay.slots i = none)
      (stays : due → before.held ≠ []) :
      Polls nSlots batsM sizes source config before due after

/-- Both readings of the clock are below one idle time; or the first is not, the held packets fit
into the table, and if flows are still open both readings are below three idle times. -/
def PollTimely (nSlots batsM : Nat) (config : RelayConfig) (state : LoopState)
    (elapsedMs waitMs : Nat) : Prop :=
  config.idleSec = 0 ∨
    (elapsedMs < config.idleSec * 1000 ∧ waitMs < config.idleSec * 1000) ∨
    (config.idleSec * 1000 ≤ elapsedMs ∧ (heldKeys batsM state.held).card ≤ nSlots ∧
      (flowsAllEnded config state.relay.flows = true ∨
        (elapsedMs < config.idleSec * 1000 * 3 ∧ waitMs < config.idleSec * 1000 * 3)))

instance (nSlots batsM : Nat) (config : RelayConfig) (state : LoopState) (elapsedMs waitMs : Nat) :
    Decidable (PollTimely nSlots batsM config state elapsedMs waitMs) := by
  unfold PollTimely
  infer_instance

def Due (config : RelayConfig) (state : LoopState) (elapsedMs : Nat) : Prop :=
  0 < config.idleSec ∧ config.idleSec * 1000 ≤ elapsedMs ∧
    flowsAllEnded config state.relay.flows = true

/-- A retry of the held packets keeps the loop sound, ends no flow and stays in time. -/
theorem LoopSound.retry (sound : LoopSound nSlots batsM sizes src state) (ok : env.Succeeds batsM)
    (timely : PollTimely nSlots batsM cfg state elapsedMs waitMs) :
    ∃ kept relay, retryHeld env nSlots batsM true state.held state.relay = some (kept, relay) ∧
      LoopSound nSlots batsM sizes src { state with relay, held := kept } ∧
      kept.Sublist state.held ∧
      (flowsAllEnded cfg state.relay.flows = true → flowsAllEnded cfg relay.flows = true) ∧
      PollTimely nSlots batsM cfg { state with relay, held := kept } elapsedMs waitMs := by
  obtain ⟨kept, relay, retried, whole, grows, sub, settles⟩ :=
    retryHeld_total ok true sound.integrity sound.waits
  have ends : flowsAllEnded cfg state.relay.flows = true →
      flowsAllEnded cfg relay.flows = true := fun ended =>
    ended_retryHeld ok true sound.integrity sound.waits ended retried
  refine ⟨kept, relay, retried, sound.replace whole grows sub settles, sub, ends, ?_⟩
  obtain idle_eq | early | ⟨late, few, open_or⟩ := timely
  · exact Or.inl idle_eq
  · exact Or.inr (Or.inl early)
  · refine Or.inr (Or.inr ⟨late, (heldKeys_subset sub).trans few, ?_⟩)
    exact open_or.imp ends fun below => below

section Polling

variable (sound : LoopSound nSlots batsM sizes src state) (ok : env.Succeeds batsM)
  (running : state.status = .running)
include sound ok running

theorem LoopSound.pollDeadline (timely : PollTimely nSlots batsM cfg state elapsedMs waitMs) :
    Polls nSlots batsM sizes src cfg state (Due cfg state elapsedMs)
      (Bats.pollDeadline env nSlots batsM cfg state elapsedMs waitMs) := by
  have noted := sound.integrity.reflow fun flowId old =>
    (findFlow_map_isSome state.relay.flows flowId _ flowId_flowNoteComplete).symm ▸ old
  obtain ⟨relay, flushing, whole, drains, idle⟩ := noted.flushReady_total ok false
  have grows : Grows state.relay relay := by
    refine ⟨drains.grows.processed, ?_⟩
    intro flowId old
    refine drains.grows.known flowId ?_
    rw [findFlow_map_isSome _ _ _ flowId_flowNoteComplete]
    exact old
  have ends : flowsAllEnded cfg state.relay.flows = true →
      flowsAllEnded cfg relay.flows = true := fun ended =>
    ended_flushReady (flowsAllEnded_map endSeen_flowNoteComplete ended) flushing
  have soundAfter : ∀ status, LoopSound nSlots batsM sizes src { state with relay, status } :=
    fun status => sound.replace whole grows (List.Sublist.refl _) (settles_self _ _)
  have soundNext : LoopSound nSlots batsM sizes src { state with relay } :=
    sound.replace whole grows (List.Sublist.refl _) (settles_self _ _)
  unfold Bats.pollDeadline
  dsimp only
  rw [flushing]
  dsimp only
  generalize incomplete_eq : relayHasPartial nSlots batsM relay.slots = incomplete
  split
  next looping =>
    refine .waits soundNext running (List.Sublist.refl _) ends (fun _ => Or.inr ?_) fun _ => ?_
    · have partless : incomplete = false := by simpa using looping.2
      exact whole.empty_of_idle idle (incomplete_eq.trans partless)
    · simpa using looping.1
  split
  next finished =>
    refine .exits ⟨soundAfter .exited, rfl, ?_⟩
    have partless : incomplete = false := by simpa using finished.2.2
    have nothing : state.held = [] := by simpa using finished.1
    exact (soundAfter .exited).flushed_of_empty nothing
      (whole.empty_of_idle idle (incomplete_eq.trans partless))
  split
  next passed =>
    have late : cfg.idleSec * 1000 ≤ elapsedMs := by
      have deadline := passed.2
      unfold idleDeadlineMs at deadline
      split_ifs at deadline <;> omega
    obtain _ | ⟨_, -⟩ | ⟨-, few, open_or⟩ := timely
    · omega
    · omega
    split
    next notEnded =>
      -- Flows are open after the flush, so they were before, and three idle times have not
      -- passed.
      exfalso
      have openAfter : flowsAllEnded cfg relay.flows = false := by simpa using notEnded
      obtain endedBefore | ⟨_, -⟩ := open_or
      · rw [ends endedBefore] at openAfter
        cases openAfter
      have deadline := passed.2
      unfold idleDeadlineMs at deadline
      rw [openAfter, if_neg (by decide)] at deadline
      omega
    next => exact .exits (soundNext.finalSweep ok few)
  next notPassed =>
    split
    next failing =>
      exfalso
      have deadline := failing.2
      have missed : elapsedMs <
          idleDeadlineMs cfg.idleSec (flowsAllEnded cfg relay.flows) :=
        not_le.mp fun reached => notPassed ⟨failing.1, reached⟩
      unfold idleDeadlineMs at deadline missed
      obtain _ | ⟨_, _⟩ | ⟨late, -, open_or⟩ := timely
      · omega
      · split_ifs at deadline missed <;> omega
      split_ifs at deadline missed with endedAfter
      · omega
      obtain endedBefore | ⟨-, _⟩ := open_or
      · exact endedAfter (ends endedBefore)
      · omega
    next =>
      have notDue : ¬ Due cfg state elapsedMs := by
        rintro ⟨pos, late, endedBefore⟩
        refine notPassed ⟨pos, ?_⟩
        rw [ends endedBefore]
        exact late
      exact .waits soundNext running (List.Sublist.refl _) ends
        (fun due => absurd due notDue) fun due => absurd due notDue

theorem LoopSound.poll (timely : PollTimely nSlots batsM cfg state elapsedMs waitMs) :
    Polls nSlots batsM sizes src cfg state (Due cfg state elapsedMs)
      (onPoll env nSlots batsM cfg state elapsedMs waitMs) := by
  unfold onPoll
  split
  · exact sound.pollDeadline ok running timely
  rename_i someHeld
  have ne : state.held ≠ [] := by simpa using someHeld
  obtain ⟨_, _, retried, soundNext, sub, ends, timelyNext⟩ := sound.retry ok timely
  rw [retried]
  dsimp only
  split
  next nothing =>
    exact .waits soundNext running sub ends (fun _ => Or.inl (by simpa using nothing))
      fun _ => ne
  cases soundNext.pollDeadline ok running timelyNext with
  | exits exited => exact .exits exited
  | waits soundAfter runningAfter subAfter endsAfter rest =>
    refine .waits soundAfter runningAfter (subAfter.trans sub)
      (fun ended => endsAfter (ends ended)) ?_ fun _ => ne
    rintro ⟨pos, late, ended⟩
    exact rest ⟨pos, late, ends ended⟩

theorem LoopSound.poll_shortens (some_slot : 0 < nSlots)
    (timely : PollTimely nSlots batsM cfg state elapsedMs waitMs) (ne : state.held ≠ [])
    (empty : ∀ i, state.relay.slots i = none) :
    (onPoll env nSlots batsM cfg state elapsedMs waitMs).status = .exited ∨
      (onPoll env nSlots batsM cfg state elapsedMs waitMs).held.length < state.held.length := by
  obtain ⟨_, _, retried, soundNext, -, -, timelyNext⟩ := sound.retry ok timely
  have shorter := retryHeld_shortens ok some_slot sound.integrity sound.waits empty ne
    retried
  have someHeld : ¬ state.held.isEmpty = true := by simpa using ne
  unfold onPoll
  rw [if_neg someHeld, retried]
  dsimp only
  split
  · exact Or.inr shorter
  cases soundNext.pollDeadline ok running timelyNext with
  | exits exited => exact Or.inl exited.status_eq
  | waits _ _ subAfter => exact Or.inr (subAfter.length_le.trans_lt shorter)

end Polling

def isLine (buf : List UInt8) : Prop :=
  ¬ (buf.length < BATS_LINE_HDR ∨ Wire.field buf 0 4 ≠ BATS_LINE_MAGIC ∨
    buf.getD 4 0 ≠ BATS_LINE_VERSION)

instance (buf : List UInt8) : Decidable (isLine buf) := inferInstanceAs (Decidable (¬ _))

instance (flows : List FlowRx) (flowId : Nat) : Decidable (HasRoom flows flowId) :=
  inferInstanceAs (Decidable (_ ∨ _))

def timelyEvent (nSlots batsM : Nat) (config : RelayConfig) (sizes : BatchKey → Nat)
    (source : BatchKey → Nat → CodedPacket) (state : LoopState) : LoopEvent → Prop
  | .packet buf =>
    isLine buf → HasRoom state.relay.flows (lineFields batsM buf).key.flowId ∧
      (buf.getD 5 0 = BATS_LINE_DATA → ∀ pkt ∈ parseData batsM buf, Honest batsM sizes source pkt)
  | .poll elapsedMs waitMs => PollTimely nSlots batsM config state elapsedMs waitMs

instance (nSlots batsM : Nat) (config : RelayConfig) (sizes : BatchKey → Nat)
    (source : BatchKey → Nat → CodedPacket) (state : LoopState) (event : LoopEvent) :
    Decidable (timelyEvent nSlots batsM config sizes source state event) := by
  unfold timelyEvent
  split <;> infer_instance

theorem key_of_parseData {pkt : LinePacket} (parsed : parseData batsM buf = some pkt) :
    pkt = lineFields batsM buf := by
  unfold parseData at parsed
  dsimp only at parsed
  split_ifs at parsed
  exact (Option.some.inj parsed).symm

theorem onEnd_total (env : RelayEnv) (relay : RelayState)
    (room : HasRoom relay.flows (lineFields batsM buf).key.flowId) :
    ∃ flows, onEnd env batsM relay buf = some { relay with flows } ∧
      ∀ flowId, (findFlow relay.flows flowId).isSome → (findFlow flows flowId).isSome := by
  obtain ⟨flows, got⟩ : ∃ flows, flowGet env relay.flows (lineFields batsM buf).key.flowId =
      some flows := flowGet_total room
  obtain ⟨-, keeps⟩ := flowGet_spec got
  refine ⟨updateFlow flows (lineFields batsM buf).key.flowId fun flow =>
    { flowNoteMeta (lineFields batsM buf) flow with endSeen := true }, ?_, ?_⟩
  · simp only [onEnd, got, Option.map_some]
  · intro flowId old
    have noted := findFlow_updateFlow_isSome flows (lineFields batsM buf).key.flowId flowId
      (fun flow => { flowNoteMeta (lineFields batsM buf) flow with endSeen := true })
      (fun flow => flowId_flowNoteMeta (lineFields batsM buf) flow)
    exact noted.symm ▸ keeps flowId old

theorem LoopSound.onPacket (sound : LoopSound nSlots batsM sizes src state)
    (ok : env.Succeeds batsM) (running : state.status = .running)
    (timely : timelyEvent nSlots batsM cfg sizes src state (.packet buf)) :
    LoopSound nSlots batsM sizes src (Bats.onPacket env nSlots batsM state buf) ∧
      (Bats.onPacket env nSlots batsM state buf).status = .running := by
  unfold Bats.onPacket
  split
  · exact ⟨sound, running⟩
  rename_i line
  obtain ⟨room, honest⟩ := timely line
  split
  next =>
    obtain ⟨_, ended, known⟩ := onEnd_total env state.relay room
    rw [ended]
    refine ⟨⟨sound.integrity.reflow known, ?_, sound.received⟩, running⟩
    intro other mem
    obtain ⟨pkt, parsed, honestPkt, old⟩ := sound.waits other mem
    exact ⟨pkt, parsed, honestPkt, known _ old⟩
  split
  · exact ⟨sound, running⟩
  rename_i isData
  have data : buf.getD 5 0 = BATS_LINE_DATA := not_not.mp isData
  cases parsed : parseData batsM buf with
  | none =>
    -- A malformed DATA datagram is ignored, and so is what it claims to be.
    have ignored : relayOnData env nSlots batsM state.relay buf =
        some (.done, state.relay) := by
      unfold relayOnData
      rw [parsed]
    obtain ⟨_, flushing, whole, drains, -⟩ := sound.integrity.flushReady_total ok false
    dsimp only
    rw [ignored]
    dsimp only
    rw [flushing]
    refine ⟨⟨whole, waits_grow sound.waits drains.grows, ?_⟩, running⟩
    simp only [Option.map_none, Option.toList_none, append_nil]
    exact sound.received.move drains.grows (settles_self _ _)
  | some pkt =>
    have pkt_eq := key_of_parseData parsed
    have honestPkt := honest data pkt parsed
    rw [← pkt_eq] at room
    obtain ⟨verdict, mid, taken, accepts⟩ := sound.integrity.onPacket_total ok honestPkt room
    have answered : relayOnData env nSlots batsM state.relay buf =
        some (verdict, mid) := by
      unfold relayOnData
      rw [parsed]
      exact taken
    simp only [Option.map_some, Option.toList_some]
    rw [answered]
    have older := waits_grow sound.waits accepts.grows
    cases verdict with
    | noSlot =>
      refine ⟨⟨accepts.integrity, ?_, ?_⟩, running⟩
      · intro other mem
        obtain old | new := mem_append.mp mem
        · exact older other old
        · rw [mem_singleton.mp new]
          exact ⟨pkt, parsed, honestPkt, accepts.known⟩
      intro key mem
      obtain old | new := mem_append.mp mem
      · obtain ⟨idx, done⟩ | ⟨other, waiting, next, parsedNext, same⟩ :=
          sound.received key old
        · exact Or.inl ⟨idx, accepts.grows.processed key idx done⟩
        · exact Or.inr ⟨other, mem_append_left _ waiting, next, parsedNext, same⟩
      · rw [mem_singleton.mp new]
        exact Or.inr ⟨buf, mem_append_right _ (mem_singleton_self buf), pkt, parsed, rfl⟩
    | done =>
      obtain ⟨_, flushing, whole, drains, -⟩ :=
        accepts.integrity.flushReady_total ok false
      dsimp only
      rw [flushing]
      refine ⟨⟨whole, waits_grow older drains.grows, ?_⟩, running⟩
      intro key mem
      obtain old | new := mem_append.mp mem
      · exact sound.received.move (accepts.grows.trans drains.grows)
          (settles_self _ _) key old
      · rw [mem_singleton.mp new]
        exact Or.inl ⟨pkt.index, drains.grows.processed _ _ (accepts.done rfl)⟩

/-- A run that has not failed: the loop goes on, or the relay has exited with nothing left over. -/
inductive Alive (nSlots batsM : Nat) (sizes : BatchKey → Nat)
    (source : BatchKey → Nat → CodedPacket) (state : LoopState) : Prop where
  | loops (sound : LoopSound nSlots batsM sizes source state) (running : state.status = .running) :
      Alive nSlots batsM sizes source state
  | exited (exited : Exited nSlots batsM sizes source state) : Alive nSlots batsM sizes source state

theorem Alive.initial : Alive nSlots batsM sizes src .initial :=
  .loops ⟨Integrity.initial, nofun, nofun⟩ rfl

theorem Polls.alive {before after : LoopState} {due : Prop}
    (polls : Polls nSlots batsM sizes src cfg before due after) :
    Alive nSlots batsM sizes src after := by
  cases polls with
  | exits exited => exact .exited exited
  | waits sound running => exact .loops sound running

theorem Alive.step {after : LoopState} {event : LoopEvent}
    (alive : Alive nSlots batsM sizes src state) (ok : env.Succeeds batsM)
    (timely : timelyEvent nSlots batsM cfg sizes src state event)
    (taken : loopStep env nSlots batsM cfg state event = some after) :
    Alive nSlots batsM sizes src after := by
  unfold loopStep at taken
  cases alive with
  | exited exited =>
    rw [if_pos (by rw [exited.status_eq]; decide)] at taken
    cases taken
  | loops sound running =>
    rw [if_neg (not_not.mpr running)] at taken
    cases event with
    | packet =>
      cases taken
      obtain ⟨soundAfter, runningAfter⟩ := sound.onPacket ok running timely
      exact .loops soundAfter runningAfter
    | poll =>
      cases taken
      exact (sound.poll ok running timely).alive

def SentOnce (trace : List RelayEvent) (key : BatchKey) : Prop :=
  ∃ before inputs after, trace = before ++ .recoded key inputs :: after ∧
    (∀ other, .recoded key other ∉ before) ∧ ∀ other, .recoded key other ∉ after

theorem Exited.sentOnce (exited : Exited nSlots batsM sizes src state) :
    ∀ key ∈ state.received, SentOnce state.relay.trace key := by
  intro key mem
  obtain ⟨inputs, recoded⟩ := (exited.sound.integrity.flushed key).mp (exited.flushed key mem)
  obtain ⟨before, after, split⟩ := append_of_mem recoded
  have faithful := exited.sound.integrity.faithful
  exact ⟨before, inputs, after, split, (faithful before key inputs after split).2,
    faithful.once split⟩

theorem received_finalSweep (env : RelayEnv) (st : LoopState) :
    (finalSweep env nSlots batsM st).received = st.received := by
  unfold finalSweep
  dsimp only
  split <;> rfl

theorem received_pollDeadline (env : RelayEnv) (st : LoopState) (elapsedMs waitMs : Nat) :
    (pollDeadline env nSlots batsM cfg st elapsedMs waitMs).received = st.received := by
  unfold pollDeadline
  dsimp only
  split
  · rfl
  split_ifs
  · rfl
  · rfl
  · rfl
  · exact received_finalSweep env _
  · rfl
  · rfl

theorem received_onPoll (env : RelayEnv) (st : LoopState) (elapsedMs waitMs : Nat) :
    (onPoll env nSlots batsM cfg st elapsedMs waitMs).received = st.received := by
  unfold onPoll
  split
  · exact received_pollDeadline env st elapsedMs waitMs
  split
  · rfl
  split
  next => rfl
  next => exact received_pollDeadline env _ elapsedMs waitMs

/-- The next `n` passes over an empty queue, with the two readings of the clock that each makes. -/
def polls (readings : Nat → Nat × Nat) (n : Nat) : List LoopEvent :=
  (List.range n).map fun k => .poll (readings k).1 (readings k).2

def ExitsByPolls (env : RelayEnv) (nSlots batsM : Nat) (config : RelayConfig)
    (sizes : BatchKey → Nat) (source : BatchKey → Nat → CodedPacket) (readings : Nat → Nat × Nat)
    (state : LoopState) : Prop :=
  ∃ n final, (polls readings n).foldlM (loopStep env nSlots batsM config) state = some final ∧
    Exited nSlots batsM sizes source final ∧ final.received = state.received

theorem loopStep_poll (env : RelayEnv) (running : state.status = .running)
    (elapsedMs waitMs : Nat) :
    loopStep env nSlots batsM cfg state (.poll elapsedMs waitMs) =
      some (onPoll env nSlots batsM cfg state elapsedMs waitMs) := by
  unfold loopStep
  rw [if_neg (not_not.mpr running)]

variable {readings : Nat → Nat × Nat}

section ByPolls

variable (running : state.status = .running)
include running

theorem ExitsByPolls.later
    (rest : ExitsByPolls env nSlots batsM cfg sizes src (fun k => readings (k + 1))
      (onPoll env nSlots batsM cfg state (readings 0).1 (readings 0).2)) :
    ExitsByPolls env nSlots batsM cfg sizes src readings state := by
  obtain ⟨n, final, run, exited, same⟩ := rest
  refine ⟨n + 1, final, ?_, exited, same.trans (received_onPoll env state _ _)⟩
  rw [polls, List.range_succ_eq_map, List.map_cons, List.foldlM_cons, loopStep_poll env running,
    List.map_map]
  exact run

theorem ExitsByPolls.now (exited : Exited nSlots batsM sizes src
      (onPoll env nSlots batsM cfg state (readings 0).1 (readings 0).2)) :
    ExitsByPolls env nSlots batsM cfg sizes src readings state :=
  .later running ⟨0, _, rfl, exited, rfl⟩

end ByPolls

section Exiting

variable (ok : env.Succeeds batsM)
include ok

/-- Once the deadline has passed, polls over an empty table place the held packets in a finite
number of passes. -/
theorem LoopSound.exits_of_rest (some_slot : 0 < nSlots) (bound : Nat) :
    ∀ (readings : Nat → Nat × Nat) (state : LoopState), LoopSound nSlots batsM sizes src state →
      state.status = .running → (∀ k, Due cfg state (readings k).1) →
      (heldKeys batsM state.held).card ≤ nSlots →
      (state.held = [] ∨ ∀ i, state.relay.slots i = none) → state.held.length ≤ bound →
      ExitsByPolls env nSlots batsM cfg sizes src readings state := by
  -- Each pass that does not exit takes at least one packet off the held list.
  induction bound with
  | zero =>
    intro readings state sound running due few _ short
    have nothing : state.held = [] := length_eq_zero_iff.mp (Nat.le_zero.mp short)
    cases sound.poll ok running (Or.inr (Or.inr ⟨(due 0).2.1, few, Or.inl (due 0).2.2⟩)) with
    | exits exited => exact .now running exited
    | waits _ _ _ _ _ stays => exact absurd nothing (stays (due 0))
  | succ _ ih =>
    intro readings state sound running due few rest short
    have timely : PollTimely nSlots batsM cfg state (readings 0).1 (readings 0).2 :=
      Or.inr (Or.inr ⟨(due 0).2.1, few, Or.inl (due 0).2.2⟩)
    cases sound.poll ok running timely with
    | exits exited => exact .now running exited
    | waits soundAfter runningAfter sub ends restAfter stays =>
      have ne := stays (due 0)
      have empty := rest.resolve_left ne
      obtain exitedNow | shorter := sound.poll_shortens ok running some_slot timely ne empty
      · rw [runningAfter] at exitedNow
        cases exitedNow
      refine .later running (ih _ _ soundAfter runningAfter (fun k => ?_) ?_ (restAfter (due 0)) ?_)
      · exact ⟨(due 0).1, (due (k + 1)).2.1, ends (due 0).2.2⟩
      · exact (heldKeys_subset sub).trans few
      · omega

theorem LoopSound.exits (some_slot : 0 < nSlots) (sound : LoopSound nSlots batsM sizes src state)
    (running : state.status = .running) (due : ∀ k, Due cfg state (readings k).1)
    (few : (heldKeys batsM state.held).card ≤ nSlots) :
    ExitsByPolls env nSlots batsM cfg sizes src readings state := by
  cases sound.poll ok running (Or.inr (Or.inr ⟨(due 0).2.1, few, Or.inl (due 0).2.2⟩)) with
  | exits exited => exact .now running exited
  | waits soundAfter runningAfter sub ends rest =>
    exact .later running (LoopSound.exits_of_rest ok some_slot _ _ _
      soundAfter runningAfter (fun k => ⟨(due 0).1, (due (k + 1)).2.1, ends (due 0).2.2⟩)
      ((heldKeys_subset sub).trans few) (rest (due 0)) le_rfl)

end Exiting

/-- In every timely run the relay does not fail; when it has exited, each key that arrived was sent
once; and when the deadline passes after the END of every flow, polling leads to that exit, whatever
the clock shows from then on. -/
theorem relay_exit_complete (env : RelayEnv) (batsM : Nat) (succeeds : env.Succeeds batsM)
    (config : RelayConfig) (sizes : BatchKey → Nat) (source : BatchKey → Nat → CodedPacket)
    (state : LoopState) (run : Reaches (loopStep env RELAY_SLOTS batsM config)
      (timelyEvent RELAY_SLOTS batsM config sizes source) .initial state) :
    state.status ≠ .failed ∧
      (state.status = .exited → ∀ key ∈ state.received, SentOnce state.relay.trace key) ∧
      (state.status = .running → ∀ readings : Nat → Nat × Nat,
        (∀ k, Due config state (readings k).1) → (heldKeys batsM state.held).card ≤ RELAY_SLOTS →
        ∃ n final, (polls readings n).foldlM (loopStep env RELAY_SLOTS batsM config) state =
            some final ∧
          final.status = .exited ∧ final.received = state.received ∧
          ∀ key ∈ final.received, SentOnce final.relay.trace key) := by
  have alive : Alive RELAY_SLOTS batsM sizes source state :=
    run.invariant (Alive RELAY_SLOTS batsM sizes source) Alive.initial
      fun _ _ _ alive timely taken => alive.step succeeds timely taken
  cases alive with
  | loops sound running =>
    refine ⟨by rw [running]; decide, fun exited => ?_, fun _ readings due few => ?_⟩
    · rw [running] at exited
      cases exited
    obtain ⟨n, final, polled, exited, same⟩ := sound.exits succeeds (by decide) running due few
    exact ⟨n, final, polled, exited.status_eq, same, exited.sentOnce⟩
  | exited exited =>
    refine ⟨by rw [exited.status_eq]; decide, fun _ => exited.sentOnce, fun running => ?_⟩
    rw [exited.status_eq] at running
    cases running

/-- Recoding that returns `batsM` copies of its first input, and a network that takes everything. -/
def fillEnv (batsM : Nat) : RelayEnv :=
  ⟨0, fun inputs _ state => some (List.replicate batsM (inputs.headD ⟨[], []⟩), state),
    fun _ _ _ => true⟩

theorem fillEnv_succeeds : (fillEnv batsM).Succeeds batsM :=
  ⟨fun _ _ _ _ => ⟨_, _, rfl, length_replicate⟩, fun _ _ _ => rfl⟩

def sampleEnd : List UInt8 :=
  [0x42, 0x41, 0x54, 0x53, 1, 2, 0, 1, 0, 0, 0, 0, 0, 0, 0, 0, 0, 0, 0, 0,
    0, 0, 0, 2, 0, 0, 0, 2, 0, 0, 0, 1, 0, 0, 0, 1, 0, 0, 0, 0, 0, 0, 0, 0]

/-- One packet of a batch and the END arrive.  With both readings at 999 ms the relay waits, with
the next ones past the deadline it sends the partial batch and exits. -/
theorem relay_exit_complete_sample :
    ∃ state, Reaches (loopStep (fillEnv 2) RELAY_SLOTS 2 ⟨1, 1⟩)
        (timelyEvent RELAY_SLOTS 2 ⟨1, 1⟩ (fun _ => 1) sampleSource) .initial state ∧
      state.received = [⟨1, 0, 0⟩] ∧ state.status = .exited ∧
      SentOnce state.relay.trace ⟨1, 0, 0⟩ := by
  obtain ⟨state, run, seen⟩ : ∃ state, Reaches (loopStep (fillEnv 2) RELAY_SLOTS 2 ⟨1, 1⟩)
        (timelyEvent RELAY_SLOTS 2 ⟨1, 1⟩ (fun _ => 1) sampleSource) .initial state ∧
      decide (state.received = [⟨1, 0, 0⟩] ∧ state.status = .exited) = true :=
    Reaches.exists_of_actions
      [.packet (sampleData 1), .packet sampleEnd, .poll 999 999, .poll 1000 1000] _
      (by decide +kernel)
  obtain ⟨received, exited⟩ := of_decide_eq_true seen
  refine ⟨state, run, received, exited, ?_⟩
  refine (relay_exit_complete (fillEnv 2) 2 fillEnv_succeeds ⟨1, 1⟩ (fun _ => 1) sampleSource state
    run).2.1 exited _ ?_
  rw [received]
  exact List.mem_singleton_self _

/-- The deadline passes between the two readings of the clock: the relay fails although the END
was seen, and the partial batch is never sent. -/
theorem relay_fails_between_readings :
    (fillEnv 2).Succeeds 2 ∧
      ∃ state, Reaches (loopStep (fillEnv 2) RELAY_SLOTS 2 ⟨1, 1⟩) anyStep .initial state ∧
        flowsAllEnded ⟨1, 1⟩ state.relay.flows = true ∧ state.received = [⟨1, 0, 0⟩] ∧
        state.status = .failed ∧ ¬ SentOnce state.relay.trace ⟨1, 0, 0⟩ := by
  obtain ⟨state, run, seen⟩ : ∃ state,
      Reaches (loopStep (fillEnv 2) RELAY_SLOTS 2 ⟨1, 1⟩) anyStep .initial state ∧
      decide (flowsAllEnded ⟨1, 1⟩ state.relay.flows = true ∧ state.received = [⟨1, 0, 0⟩] ∧
        state.status = .failed ∧ state.relay.trace = [.processed ⟨1, 0, 0⟩ 1]) = true :=
    Reaches.exists_of_actions [.packet (sampleData 1), .packet sampleEnd, .poll 999 1000] _
      (by decide +kernel)
  obtain ⟨ended, received, failed, trace⟩ := of_decide_eq_true seen
  refine ⟨fillEnv_succeeds, state, run, ended, received, failed, ?_⟩
  rintro ⟨_, inputs, _, split, -⟩
  have recoded : .recoded ⟨1, 0, 0⟩ inputs ∈ state.relay.trace := by
    rw [split]
    exact List.mem_append_right _ List.mem_cons_self
  rw [trace] at recoded
  cases List.mem_singleton.mp recoded

end Exit

end MultiFlow.Bats
