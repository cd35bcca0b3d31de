import MultiFlow.Bats.RelayLoop

/-!
# What the relay has sent when it exits

When recoding and sending succeed every call of the loop answers, a forced flush empties the table,
and held packets of at most as many batches as the table has slots fit into it.
-/

namespace MultiFlow.Bats

open Lib List

/-- Recoding gives a full batch, and the network takes it. -/
structure RelayEnv.Succeeds (env : RelayEnv) (batsM : Nat) : Prop where
  recodes : ∀ inputs symbolSize state, inputs ≠ [] →
    ∃ outputs after, env.recode inputs symbolSize state = some (outputs, after) ∧
      outputs.length = batsM
  sends : ∀ flow key outputs, env.sendCoded flow key outputs = true

section Complete

variable {nSlots batsM : Nat} {sizes : BatchKey → Nat} {src : BatchKey → Nat → CodedPacket}
  {env : RelayEnv} {state after : RelayState}

variable {i fuel flowId : Nat} {slot : RelaySlot} {buf : List UInt8} {keys : Finset BatchKey}
  {key : BatchKey} {kept : List (List UInt8)} {change : FlowRx → FlowRx}

theorem flushSlot_succeeds (ok : env.Succeeds batsM)
    (known : (findFlow state.flows slot.key.flowId).isSome) (ne : (slot.inputs batsM).length ≠ 0) :
    ∃ after, flushSlot env batsM state i slot = some after := by
  obtain ⟨flow, found⟩ := Option.isSome_iff_exists.mp known
  have some_input : slot.inputs batsM ≠ [] := fun none => ne (by rw [none]; rfl)
  obtain ⟨_, _, recoded, count⟩ :=
    ok.recodes (slot.inputs batsM) slot.symbolSize flow.recodeState some_input
  unfold flushSlot
  rw [found]
  dsimp only
  rw [if_neg ne, recoded]
  dsimp only
  rw [if_neg (not_not.mpr count), ok.sends, if_neg (by decide)]
  exact ⟨_, rfl⟩

theorem bestReady_fold_none (force : Bool) (slots : Nat → Option RelaySlot) (order : List Nat)
    (best : Option (Nat × RelaySlot))
    (nothing : order.foldl (readyStep batsM force slots) best = none) :
    best = none ∧ ∀ i ∈ order, ∀ slot, slots i = some slot → slot.ready batsM force = false := by
  induction order generalizing best with
  | nil => exact ⟨nothing, nofun⟩
  | cons j _ ih =>
    obtain ⟨earlier, others⟩ := ih _ nothing
    obtain ⟨same, idle⟩ | ⟨other, _, _, changed⟩ := readyStep_cases force slots best j
    · have none_yet := same.symm.trans earlier
      exact ⟨none_yet, forall_mem_cons.mpr ⟨idle none_yet, others⟩⟩
    · cases changed.symm.trans earlier

variable {force : Bool} {flows : List FlowRx} {pkt : LinePacket} {held : List (List UInt8)}
  {cfg : RelayConfig}

theorem bestReady_none {slots : Nat → Option RelaySlot}
    (nothing : bestReady nSlots batsM force slots = none) :
    ∀ i < nSlots, ∀ slot, slots i = some slot → slot.ready batsM force = false :=
  fun i inside => (bestReady_fold_none force slots _ none nothing).2 i (mem_range.mpr inside)

def usedSlots (nSlots : Nat) (slots : Nat → Option RelaySlot) : Finset Nat :=
  (Finset.range nSlots).filter fun i => (slots i).isSome

theorem card_usedSlots_le (nSlots : Nat) (slots : Nat → Option RelaySlot) :
    (usedSlots nSlots slots).card ≤ nSlots := by
  calc (usedSlots nSlots slots).card ≤ (Finset.range nSlots).card := Finset.card_filter_le _ _
    _ = nSlots := Finset.card_range nSlots

theorem usedSlots_clear (slots : Nat → Option RelaySlot) (i : Nat) :
    usedSlots nSlots (Function.update slots i none) = (usedSlots nSlots slots).erase i := by
  ext j
  unfold usedSlots
  rw [Finset.mem_erase, Finset.mem_filter, Finset.mem_filter]
  by_cases same : j = i
  · subst same
    simp
  · simp [same]

section Flushing

variable (integrity : Integrity nSlots batsM sizes src state) (ok : env.Succeeds batsM)
include integrity ok

theorem Integrity.flushReadyLoop_total (force : Bool)
    (enough : (usedSlots nSlots state.slots).card ≤ fuel) :
    ∃ after, Bats.flushReadyLoop env nSlots batsM force fuel state = some after ∧
      bestReady nSlots batsM force after.slots = none := by
  induction fuel generalizing state with
  | zero =>
    refine ⟨state, rfl, ?_⟩
    cases found : bestReady nSlots batsM force state.slots with
    | none => rfl
    | some best =>
      obtain ⟨inside, here, -⟩ := bestReady_some found
      have mem : best.1 ∈ usedSlots nSlots state.slots := by
        unfold usedSlots
        rw [Finset.mem_filter, here]
        exact ⟨Finset.mem_range.mpr inside, rfl⟩
      exact absurd (Finset.card_pos.mpr ⟨_, mem⟩) (by omega)
  | succ fuel ih =>
    unfold Bats.flushReadyLoop
    cases found : bestReady nSlots batsM force state.slots with
    | none => exact ⟨state, rfl, found⟩
    | some best =>
      obtain ⟨i, slot⟩ := best
      obtain ⟨inside, here, -⟩ := bestReady_some found
      have sound := integrity.sound i slot here
      have ne : (slot.inputs batsM).length ≠ 0 := by
        rw [← sound.count_eq]
        exact sound.nonempty.ne'
      obtain ⟨mid, first⟩ := flushSlot_succeeds (i := i) ok sound.known ne
      have flushes := flushSlot_flushes ne first
      have mem : i ∈ usedSlots nSlots state.slots := by
        unfold usedSlots
        rw [Finset.mem_filter, here]
        exact ⟨Finset.mem_range.mpr inside, rfl⟩
      have fewer : (usedSlots nSlots mid.slots).card ≤ fuel := by
        rw [flushes.slots_eq, usedSlots_clear, Finset.card_erase_of_mem mem]
        omega
      obtain ⟨last, rest, done⟩ := ih (integrity.flush here flushes) fewer
      refine ⟨last, ?_, done⟩
      dsimp only
      rw [first]
      exact rest

theorem Integrity.flushReady_total (force : Bool) :
    ∃ after, Bats.flushReady env nSlots batsM force state = some after ∧
      Integrity nSlots batsM sizes src after ∧ Drains state after ∧
      ∀ i slot, after.slots i = some slot → slot.ready batsM force = false := by
  obtain ⟨last, flushed, nothing⟩ :=
    integrity.flushReadyLoop_total ok force (card_usedSlots_le nSlots state.slots)
  obtain ⟨kept, drains⟩ := integrity.flushReady flushed
  exact ⟨last, flushed, kept, drains,
    fun i slot here => bestReady_none nothing i (kept.sound i slot here).inside slot here⟩

theorem Integrity.forceFlush_total :
    ∃ after, Bats.flushReady env nSlots batsM true state = some after ∧
      Integrity nSlots batsM sizes src after ∧ Drains state after ∧
      ∀ i, after.slots i = none := by
  obtain ⟨last, flushed, kept, drains, idle⟩ := integrity.flushReady_total ok true
  refine ⟨last, flushed, kept, drains, ?_⟩
  intro i
  cases here : last.slots i with
  | none => rfl
  | some slot =>
    have unready := idle i slot here
    have ne := (kept.sound i slot here).nonempty
    simp [RelaySlot.ready, ne] at unready

end Flushing

structure Grows (state after : RelayState) : Prop where
  processed : ∀ key index, .processed key index ∈ state.trace → .processed key index ∈ after.trace
  known : ∀ flowId, (findFlow state.flows flowId).isSome → (findFlow after.flows flowId).isSome

theorem Grows.refl (state : RelayState) : Grows state state := ⟨fun _ _ h => h, fun _ h => h⟩

theorem Grows.trans {mid : RelayState} (first : Grows state mid) (second : Grows mid after) :
    Grows state after :=
  ⟨fun key idx old => second.processed key idx (first.processed key idx old),
    fun flowId old => second.known flowId (first.known flowId old)⟩

theorem Drains.grows (drains : Drains state after) : Grows state after where
  processed := fun key idx old => (drains.processed_eq key idx).mpr old
  known := fun flowId old => by rw [drains.flows_eq]; exact old

/-- The flow of a packet is in the table, or there is room for it. -/
def HasRoom (flows : List FlowRx) (flowId : Nat) : Prop :=
  (findFlow flows flowId).isSome ∨ flows.length < BATS_MAX_FLOWS

theorem flowGet_total (room : HasRoom flows flowId) :
    ∃ created, flowGet env flows flowId = some created := by
  unfold flowGet
  split_ifs with present full
  · exact ⟨flows, rfl⟩
  · obtain known | short := room
    · exact absurd known present
    · omega
  · exact ⟨_, rfl⟩

theorem Integrity.takeSlot_total (integrity : Integrity nSlots batsM sizes src state)
    (ok : env.Succeeds batsM) (key : BatchKey) :
    ∃ choice after, Bats.takeSlot env nSlots batsM state key = some (choice, after) ∧
      (choice = .full → slotOfKey nSlots state.slots key = none ∧
        freeSlot nSlots state.slots = none) := by
  unfold Bats.takeSlot
  cases own : slotOfKey nSlots state.slots key with
  | some i => exact ⟨.slot i, state, rfl, nofun⟩
  | none =>
    cases free : freeSlot nSlots state.slots with
    | some i => exact ⟨.slot i, state, rfl, nofun⟩
    | none =>
      obtain ⟨flushed, flushing, -⟩ := integrity.flushReady_total ok false
      rw [flushing]
      cases late : freeSlot nSlots flushed.slots with
      | some i => exact ⟨.slot i, flushed, by simp [late], nofun⟩
      | none => exact ⟨.full, flushed, by simp [late], fun _ => ⟨rfl, rfl⟩⟩

structure Accepts (nSlots batsM : Nat) (sizes : BatchKey → Nat)
    (source : BatchKey → Nat → CodedPacket) (state : RelayState) (pkt : LinePacket)
    (verdict : RelayVerdict) (after : RelayState) : Prop where
  integrity : Integrity nSlots batsM sizes source after
  grows : Grows state after
  known : (findFlow after.flows pkt.key.flowId).isSome
  done : verdict = .done → .processed pkt.key pkt.index ∈ after.trace
  keys_sub : ∀ i slot, after.slots i = some slot →
    slot.key = pkt.key ∨ ∃ old, state.slots i = some old ∧ old.key = slot.key
  crowded : verdict = .noSlot → slotOfKey nSlots state.slots pkt.key = none ∧
    freeSlot nSlots state.slots = none

theorem keys_storeInSlot (relay : RelayState) (pkt : LinePacket) (i j : Nat) (slot : RelaySlot)
    (here : (storeInSlot relay i pkt).slots j = some slot) :
    slot.key = pkt.key ∨ ∃ old, relay.slots j = some old ∧ old.key = slot.key := by
  unfold storeInSlot setRelaySlot at here
  by_cases same : j = i
  · subst same
    dsimp only at here
    rw [Function.update_self] at here
    cases here
    cases before : relay.slots j with
    | none => exact Or.inl rfl
    | some old => exact Or.inr ⟨old, rfl, rfl⟩
  · dsimp only at here
    rw [Function.update_of_ne same] at here
    exact Or.inr ⟨slot, here, rfl⟩

theorem Integrity.onPacket_total (integrity : Integrity nSlots batsM sizes src state)
    (ok : env.Succeeds batsM) (honest : Honest batsM sizes src pkt)
    (room : HasRoom state.flows pkt.key.flowId) :
    ∃ verdict after, relayOnPacket env nSlots batsM state pkt = some (verdict, after) ∧
      Accepts nSlots batsM sizes src state pkt verdict after := by
  obtain ⟨flows, got⟩ := flowGet_total room
  obtain ⟨known, keeps⟩ := flowGet_spec got
  have noted : ∀ flowId,
      (findFlow (updateFlow flows pkt.key.flowId (flowNoteMeta pkt)) flowId).isSome =
        (findFlow flows flowId).isSome :=
    fun flowId => findFlow_updateFlow_isSome _ _ _ _ (flowId_flowNoteMeta pkt)
  have opened := integrity.reflow fun flowId old => (noted flowId).symm ▸ keeps flowId old
  have answer : ∀ verdict after, relayOnPacket env nSlots batsM state pkt = some (verdict, after) →
      Grows { state with flows := updateFlow flows pkt.key.flowId (flowNoteMeta pkt) } after →
      (verdict = .done → .processed pkt.key pkt.index ∈ after.trace) →
      (∀ i slot, after.slots i = some slot →
        slot.key = pkt.key ∨ ∃ old, state.slots i = some old ∧ old.key = slot.key) →
      (verdict = .noSlot → slotOfKey nSlots state.slots pkt.key = none ∧
        freeSlot nSlots state.slots = none) →
      Accepts nSlots batsM sizes src state pkt verdict after := by
    intro _ _ taken grows done keys crowded
    refine ⟨integrity.onPacket honest taken, ⟨grows.processed, ?_⟩, ?_, done, keys, crowded⟩
    · intro flowId old
      exact grows.known flowId ((noted flowId).symm ▸ keeps flowId old)
    · exact grows.known _ ((noted _).symm ▸ known)
  have noting : ∀ relay : RelayState, Grows relay (noteProcessed relay pkt) := fun relay =>
    ⟨fun key idx old => (mem_noteProcessed relay pkt key idx).mpr (Or.inl old), fun _ old => old⟩
  have present : ∀ relay : RelayState,
      .processed pkt.key pkt.index ∈ (noteProcessed relay pkt).trace :=
    fun relay => (mem_noteProcessed relay pkt _ _).mpr (Or.inr ⟨rfl, rfl⟩)
  by_cases flushed : batchWasFlushed state.maps pkt.key = true
  · have taken : relayOnPacket env nSlots batsM state pkt = some (.done, noteProcessed
        { state with flows := updateFlow flows pkt.key.flowId (flowNoteMeta pkt) } pkt) := by
      unfold relayOnPacket
      rw [got, Option.bind_some, if_pos flushed]
    refine ⟨_, _, taken, answer _ _ taken (noting _) (fun _ => present _) ?_ ?_⟩
    · exact fun i slot here => Or.inr ⟨slot, here, rfl⟩
    · rintro ⟨⟩
  obtain ⟨choice, reserved, choosing, crowded⟩ := opened.takeSlot_total ok pkt.key
  obtain ⟨-, drains, -⟩ := opened.takeSlot (Bool.eq_false_of_not_eq_true flushed) choosing
  have keys : ∀ i slot, reserved.slots i = some slot →
      ∃ old, state.slots i = some old ∧ old.key = slot.key :=
    fun i slot here => ⟨slot, drains.slots_sub i slot here, rfl⟩
  cases choice with
  | full =>
    have taken : relayOnPacket env nSlots batsM state pkt = some (.noSlot, reserved) := by
      unfold relayOnPacket
      rw [got, Option.bind_some, if_neg flushed]
      exact congrArg (Option.map _) choosing
    refine ⟨_, _, taken, answer _ _ taken drains.grows ?_ ?_ fun _ => crowded rfl⟩
    · rintro ⟨⟩
    · exact fun i slot here => Or.inr (keys i slot here)
  | slot i =>
    have taken : relayOnPacket env nSlots batsM state pkt =
        some (.done, noteProcessed (if (reserved.slots i).any fun slot =>
            decide (slot.symbolSize ≠ pkt.symbolSize ∨
              slot.key.flowId ≠ pkt.key.flowId) || (slot.seen pkt.index).isSome
          then reserved else storeInSlot reserved i pkt) pkt) := by
      unfold relayOnPacket
      rw [got, Option.bind_some, if_neg flushed]
      exact congrArg (Option.map _) choosing
    refine ⟨_, _, taken, answer _ _ taken ?_ (fun _ => present _) ?_ ?_⟩
    · refine drains.grows.trans (Grows.trans ?_ (noting _))
      split_ifs
      · exact Grows.refl _
      · exact ⟨fun _ _ old => old, fun _ old => old⟩
    · intro j slot here
      split_ifs at here
      · exact Or.inr (keys j slot here)
      obtain same | ⟨old, there, same⟩ := keys_storeInSlot reserved pkt i j slot here
      · exact Or.inl same
      · obtain ⟨older, origin, key_eq⟩ := keys j old there
        exact Or.inr ⟨older, origin, key_eq.trans same⟩
    · rintro ⟨⟩

/-- A datagram that waits for a slot: honest DATA of a flow that is in the table. -/
def Waits (batsM : Nat) (sizes : BatchKey → Nat) (source : BatchKey → Nat → CodedPacket)
    (relay : RelayState) (buf : List UInt8) (pkt : LinePacket) : Prop :=
  parseData batsM buf = some pkt ∧ Honest batsM sizes source pkt ∧
    (findFlow relay.flows pkt.key.flowId).isSome

theorem Waits.grow (waits : Waits batsM sizes src state buf pkt) (grows : Grows state after) :
    Waits batsM sizes src after buf pkt :=
  ⟨waits.1, waits.2.1, grows.known _ waits.2.2⟩

theorem Waits.onData {buf : List UInt8} (waits : Waits batsM sizes src state buf pkt)
    (integrity : Integrity nSlots batsM sizes src state) (ok : env.Succeeds batsM) :
    ∃ verdict after, relayOnPacket env nSlots batsM state pkt = some (verdict, after) ∧
      relayOnData env nSlots batsM state buf = some (verdict, after) ∧
      Accepts nSlots batsM sizes src state pkt verdict after := by
  obtain ⟨parsed, honest, known⟩ := waits
  obtain ⟨verdict, after, taken, accepts⟩ := integrity.onPacket_total ok honest (Or.inl known)
  refine ⟨verdict, after, taken, ?_, accepts⟩
  unfold relayOnData
  rw [parsed]
  exact taken

theorem waits_grow (waits : ∀ buf ∈ held, ∃ pkt, Waits batsM sizes src state buf pkt)
    (grows : Grows state after) : ∀ buf ∈ held, ∃ pkt, Waits batsM sizes src after buf pkt :=
  fun buf mem => (waits buf mem).imp fun _ wait => wait.grow grows

def Settles (batsM : Nat) (kept : List (List UInt8)) (relay : RelayState) (buf : List UInt8) : Prop :=
  buf ∈ kept ∨ ∀ pkt, parseData batsM buf = some pkt → .processed pkt.key pkt.index ∈ relay.trace

theorem retryHeld_total (ok : env.Succeeds batsM) (flushing : Bool)
    (integrity : Integrity nSlots batsM sizes src state)
    (waits : ∀ buf ∈ held, ∃ pkt, Waits batsM sizes src state buf pkt) :
    ∃ kept after, retryHeld env nSlots batsM flushing held state = some (kept, after) ∧
      Integrity nSlots batsM sizes src after ∧ Grows state after ∧
      kept.Sublist held ∧ ∀ buf ∈ held, Settles batsM kept after buf := by
  induction held generalizing state with
  | nil => exact ⟨[], state, rfl, integrity, Grows.refl state, List.Sublist.refl [], nofun⟩
  | cons buf _ ih =>
    obtain ⟨_, wait⟩ := waits buf mem_cons_self
    obtain ⟨verdict, mid, _, onData, accepts⟩ := wait.onData integrity ok
    have waiting := waits_grow (forall_mem_of_forall_mem_cons waits) accepts.grows
    unfold retryHeld
    rw [onData]
    cases verdict with
    | noSlot =>
      obtain ⟨kept, last, retried, done, grows, sub, settles⟩ := ih accepts.integrity waiting
      refine ⟨buf :: kept, last, ?_, done, accepts.grows.trans grows, sub.cons_cons buf, ?_⟩
      · dsimp only
        rw [retried]
        rfl
      intro other member
      obtain rfl | member := mem_cons.mp member
      · exact Or.inl mem_cons_self
      obtain still | gone := settles other member
      · exact Or.inl (mem_cons_of_mem buf still)
      · exact Or.inr gone
    | done =>
      obtain ⟨flushed, flushing_eq, whole, grows⟩ : ∃ flushed,
          (if flushing then flushReady env nSlots batsM false mid else some mid) =
            some flushed ∧
          Integrity nSlots batsM sizes src flushed ∧ Grows mid flushed := by
        cases flushing with
        | false => exact ⟨mid, rfl, accepts.integrity, Grows.refl mid⟩
        | true =>
          obtain ⟨flushed, flushing, whole, drains, -⟩ :=
            accepts.integrity.flushReady_total ok false
          exact ⟨flushed, flushing, whole, drains.grows⟩
      obtain ⟨kept, last, retried, done, growsLast, sub, settles⟩ :=
        ih whole (waits_grow waiting grows)
      refine ⟨kept, last, ?_, done, (accepts.grows.trans grows).trans growsLast, sub.cons buf, ?_⟩
      · dsimp only
        rw [flushing_eq]
        exact retried
      intro other member
      obtain rfl | member := mem_cons.mp member
      · refine Or.inr ?_
        intro _ parsedAgain
        obtain rfl := Option.some.inj (wait.1.symm.trans parsedAgain)
        exact (grows.trans growsLast).processed _ _ (accepts.done rfl)
      · exact settles other member

def heldKeys (batsM : Nat) (held : List (List UInt8)) : Finset BatchKey :=
  (held.filterMap fun buf => (parseData batsM buf).map LinePacket.key).toFinset

theorem mem_heldKeys (mem : buf ∈ held) (parsed : parseData batsM buf = some pkt) :
    pkt.key ∈ heldKeys batsM held := by
  unfold heldKeys
  rw [mem_toFinset, mem_filterMap]
  exact ⟨buf, mem, by rw [parsed]; rfl⟩

/-- As long as the slots hold only some of at most `nSlots` keys, another of these keys finds one. -/
theorem Integrity.uncrowded (integrity : Integrity nSlots batsM sizes src state)
    (few : keys.card ≤ nSlots) (mem : key ∈ keys)
    (inside : ∀ i slot, state.slots i = some slot → slot.key ∈ keys)
    (absent : slotOfKey nSlots state.slots key = none) : freeSlot nSlots state.slots ≠ none := by
  intro crowded
  have used : ∀ i < nSlots, ∃ slot, state.slots i = some slot := by
    intro i below
    have taken := firstIndex_none _ crowded i below
    exact Option.isSome_iff_exists.mp (by simpa using taken)
  have others := integrity.absent_of_slotOfKey absent
  -- The keys of the slots are `nSlots` different members of `keys`, and none of them is `key`.
  have bound : (Finset.range nSlots).card ≤ (keys.erase key).card := by
    refine Finset.card_le_card_of_injOn
      (fun i => ((state.slots i).map RelaySlot.key).getD key) ?_ ?_
    · intro i below
      obtain ⟨slot, here⟩ := used i (Finset.mem_range.mp below)
      simp only [here, Option.map_some, Option.getD_some]
      exact Finset.mem_erase.mpr ⟨others i slot here, inside i slot here⟩
    · intro i belowI j belowJ same
      obtain ⟨left, hereI⟩ := used i (Finset.mem_range.mp belowI)
      obtain ⟨right, hereJ⟩ := used j (Finset.mem_range.mp belowJ)
      simp only [hereI, hereJ, Option.map_some, Option.getD_some] at same
      exact integrity.unique i j left right hereI hereJ same
  rw [Finset.card_range, Finset.card_erase_of_mem mem] at bound
  have pos := Finset.card_pos.mpr ⟨key, mem⟩
  omega

section Sweeping

variable (ok : env.Succeeds batsM)
include ok

theorem retryHeld_sweep (few : keys.card ≤ nSlots)
    (integrity : Integrity nSlots batsM sizes src state)
    (waits : ∀ buf ∈ held, ∃ pkt, Waits batsM sizes src state buf pkt ∧ pkt.key ∈ keys)
    (inside : ∀ i slot, state.slots i = some slot → slot.key ∈ keys) :
    ∃ after, retryHeld env nSlots batsM false held state = some ([], after) := by
  induction held generalizing state with
  | nil => exact ⟨state, rfl⟩
  | cons buf _ ih =>
    obtain ⟨_, wait, mem⟩ := waits buf mem_cons_self
    obtain ⟨verdict, _, _, onData, accepts⟩ := wait.onData integrity ok
    unfold retryHeld
    rw [onData]
    cases verdict with
    | noSlot =>
      obtain ⟨absent, crowded⟩ := accepts.crowded rfl
      exact absurd crowded (integrity.uncrowded few mem inside absent)
    | done =>
      refine ih accepts.integrity ?_ ?_
      · intro other later
        obtain ⟨next, wait, nextMember⟩ := waits other (mem_cons_of_mem buf later)
        exact ⟨next, wait.grow accepts.grows, nextMember⟩
      intro i slot here
      obtain same | ⟨old, there, same⟩ := accepts.keys_sub i slot here
      · rw [same]
        exact mem
      · rw [← same]
        exact inside i old there

theorem retryHeld_shortens (some_slot : 0 < nSlots)
    (integrity : Integrity nSlots batsM sizes src state)
    (waits : ∀ buf ∈ held, ∃ pkt, Waits batsM sizes src state buf pkt)
    (empty : ∀ i, state.slots i = none) (ne : held ≠ [])
    (retried : retryHeld env nSlots batsM true held state = some (kept, after)) :
    kept.length < held.length := by
  cases held with
  | nil => exact absurd rfl ne
  | cons buf =>
    obtain ⟨pkt, wait⟩ := waits buf mem_cons_self
    obtain ⟨verdict, _, _, onData, accepts⟩ := wait.onData integrity ok
    cases verdict with
    | noSlot =>
      obtain ⟨absent, crowded⟩ := accepts.crowded rfl
      refine absurd crowded (integrity.uncrowded (show ({pkt.key} : Finset BatchKey).card ≤ nSlots from ?_) ?_ ?_ absent)
      · rw [Finset.card_singleton]
        exact some_slot
      · exact Finset.mem_singleton_self _
      intro i _ here
      rw [empty i] at here
      cases here
    | done =>
      obtain ⟨_, flushing, whole, drains, -⟩ := accepts.integrity.flushReady_total ok false
      have later := waits_grow (forall_mem_of_forall_mem_cons waits)
        (accepts.grows.trans drains.grows)
      obtain ⟨_, _, again, -, -, sub, -⟩ := retryHeld_total ok true whole later
      unfold retryHeld at retried
      rw [onData] at retried
      dsimp only at retried
      rw [if_pos rfl, flushing, Option.bind_some, again] at retried
      cases retried
      exact Nat.lt_succ_of_le sub.length_le

end Sweeping

theorem flowsAllEnded_map (keeps : ∀ flow, flow.endSeen = true → (change flow).endSeen = true)
    (ended : flowsAllEnded cfg flows = true) : flowsAllEnded cfg (flows.map change) = true := by
  unfold flowsAllEnded at ended ⊢
  rw [Bool.and_eq_true, all_eq_true] at ended ⊢
  refine ⟨?_, ?_⟩
  · intro _ mem
    obtain ⟨old, oldMember, rfl⟩ := mem_map.mp mem
    exact keeps old (ended.1 old oldMember)
  · rw [length_map]
    exact ended.2

theorem endSeen_flowNoteComplete (flow : FlowRx) (ended : flow.endSeen = true) :
    (flowNoteComplete flow).endSeen = true := by
  unfold flowNoteComplete
  rw [if_pos (Or.inl ended)]
  exact ended

theorem flowsAllEnded_updateFlow
    (keeps : ∀ flow, flow.endSeen = true → (change flow).endSeen = true)
    (ended : flowsAllEnded cfg flows = true) :
    flowsAllEnded cfg (updateFlow flows flowId change) = true := by
  refine flowsAllEnded_map ?_ ended
  intro flow old
  split_ifs
  · exact keeps flow old
  · exact old

section Ended

variable (ended : flowsAllEnded cfg state.flows = true)
include ended

theorem ended_flushSlot (flushed : flushSlot env batsM state i slot = some after) :
    flowsAllEnded cfg after.flows = true := by
  unfold flushSlot at flushed
  split at flushed
  · cases flushed
  dsimp only at flushed
  split at flushed
  next =>
    cases flushed
    exact ended
  split at flushed
  · cases flushed
  split at flushed
  · cases flushed
  split at flushed
  · cases flushed
  cases flushed
  exact flowsAllEnded_updateFlow
    (fun flow old => endSeen_flowNoteComplete _ old) ended

theorem ended_flushReadyLoop
    (flushed : flushReadyLoop env nSlots batsM force fuel state = some after) :
    flowsAllEnded cfg after.flows = true := by
  induction fuel generalizing state with
  | zero =>
    cases flushed
    exact ended
  | succ _ ih =>
    unfold flushReadyLoop at flushed
    split at flushed
    next =>
      cases flushed
      exact ended
    next =>
      obtain ⟨_, first, rest⟩ := Option.bind_eq_some_iff.mp flushed
      exact ih (ended_flushSlot ended first) rest

theorem ended_flushReady (flushed : flushReady env nSlots batsM force state = some after) :
    flowsAllEnded cfg after.flows = true :=
  ended_flushReadyLoop ended flushed

theorem ended_takeSlot {choice : SlotChoice}
    (taken : takeSlot env nSlots batsM state key = some (choice, after)) :
    flowsAllEnded cfg after.flows = true := by
  unfold takeSlot at taken
  split at taken
  next =>
    cases taken
    exact ended
  split at taken
  next =>
    cases taken
    exact ended
  obtain ⟨_, flushing, answer⟩ := Option.map_eq_some_iff.mp taken
  have kept := ended_flushReady ended flushing
  split at answer
  all_goals
    next =>
      cases answer
      exact kept

end Ended

theorem ended_onPacket {verdict : RelayVerdict}
    (known : (findFlow state.flows pkt.key.flowId).isSome)
    (ended : flowsAllEnded cfg state.flows = true)
    (taken : relayOnPacket env nSlots batsM state pkt = some (verdict, after)) :
    flowsAllEnded cfg after.flows = true := by
  obtain ⟨flows, got, taken⟩ := Option.bind_eq_some_iff.mp taken
  have same : flows = state.flows := by
    unfold flowGet at got
    rw [if_pos known] at got
    exact (Option.some.inj got).symm
  subst same
  have noted : flowsAllEnded cfg
      (updateFlow state.flows pkt.key.flowId (flowNoteMeta pkt)) = true := by
    refine flowsAllEnded_updateFlow ?_ ended
    intro _ old
    unfold flowNoteMeta
    split_ifs
    · exact old
    · exact old
  dsimp only at taken
  split at taken
  next =>
    cases taken
    exact noted
  obtain ⟨⟨choice, _⟩, choosing, answer⟩ := Option.map_eq_some_iff.mp taken
  have kept := ended_takeSlot noted choosing
  cases choice with
  | full =>
    cases answer
    exact kept
  | slot =>
    cases answer
    split_ifs
    all_goals exact kept

theorem ended_retryHeld (ok : env.Succeeds batsM) (flushing : Bool)
    (integrity : Integrity nSlots batsM sizes src state)
    (waits : ∀ buf ∈ held, ∃ pkt, Waits batsM sizes src state buf pkt)
    (ended : flowsAllEnded cfg state.flows = true)
    (retried : retryHeld env nSlots batsM flushing held state = some (kept, after)) :
    flowsAllEnded cfg after.flows = true := by
  induction held generalizing state kept with
  | nil =>
    cases retried
    exact ended
  | cons buf _ ih =>
    obtain ⟨_, wait⟩ := waits buf mem_cons_self
    obtain ⟨verdict, _, taken, onData, accepts⟩ := wait.onData integrity ok
    have endedMiddle := ended_onPacket wait.2.2 ended taken
    have waiting := waits_grow (forall_mem_of_forall_mem_cons waits) accepts.grows
    unfold retryHeld at retried
    rw [onData] at retried
    cases verdict with
    | noSlot =>
      obtain ⟨⟨_⟩, again, answer⟩ := Option.map_eq_some_iff.mp retried
      cases answer
      exact ih accepts.integrity waiting endedMiddle again
    | done =>
      obtain ⟨_, first, again⟩ := Option.bind_eq_some_iff.mp retried
      cases flushing with
      | false =>
        cases first
        exact ih accepts.integrity waiting endedMiddle again
      | true =>
        obtain ⟨whole, drains⟩ := accepts.integrity.flushReady first
        exact ih whole (waits_grow waiting drains.grows)
          (ended_flushReady endedMiddle first) again

end Complete

end MultiFlow.Bats
