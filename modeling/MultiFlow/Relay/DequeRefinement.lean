import MultiFlow.Relay.DeferredHub

/-!
# The deferred hub as a map from flows to deques

What the hub is for: each flow id has a deque of datagrams.  A push puts a datagram at the end of
its flow's deque, or at the front when `prefer_head` is set; a pop takes the front of some
non-empty deque.  Slots are bound, released and bound again behind this view.
-/

namespace MultiFlow.Relay

open Function Lib List

abbrev Deques : Type := UInt32 → List RelayDeferredPacket

def Deques.push (deques : Deques) (pkt : RelayDeferredPacket) : Deques :=
  update deques pkt.flowId
    (if pkt.preferHead then pkt :: deques pkt.flowId else deques pkt.flowId ++ [pkt])

inductive HubCall where
  | push (pkt : RelayDeferredPacket)
  | pop
  | shutdown

/-- What a call answers: a status and, for a pop, the packet handed out. -/
structure HubAnswer where
  status : RelayDeferredStatus
  out : RelayDeferredPacket

/-- The calls and answers that a map from flows to deques allows. -/
def Deques.Allows (before : Deques) (call : HubCall) (answer : HubAnswer) (after : Deques) : Prop :=
  match call with
  | .push pkt => after = if answer.status = .ok then before.push pkt else before
  | .pop =>
    if answer.status = .ok then
      ∃ rest, before answer.out.flowId = answer.out :: rest ∧
        after = update before answer.out.flowId rest
    else (∀ flowId, before flowId = []) ∧ after = before
  | .shutdown => after = before

def RelayDeferredHub.deques (hub : RelayDeferredHub) : Deques := fun flowId =>
  match findSlotIndex hub flowId with
  | some slotIndex => (hub.slots slotIndex).ring.toList
  | none => []

def hubCall (hub : RelayDeferredHub) : HubCall → HubAnswer × RelayDeferredHub
  | .push pkt =>
    let (status, pushed, left) := relayDeferredHubTryPush hub pkt
    (⟨status, left⟩, pushed)
  | .pop =>
    let (status, out, popped) := relayDeferredHubTryPop hub
    (⟨status, out⟩, popped)
  | .shutdown => (⟨.ok, clearedPacket⟩, relayDeferredHubShutdown hub)

/-- A slot belongs to one flow, an unused slot is empty, and the books count the rings. -/
structure RelayDeferredHub.Sound (hub : RelayDeferredHub) : Prop where
  unused : ∀ idx < hub.config.maxActiveFlows, (hub.slots idx).inUse = false →
    (hub.slots idx).ring.count = 0
  distinct : ∀ first < hub.config.maxActiveFlows, ∀ second < hub.config.maxActiveFlows,
    (hub.slots first).inUse = true → (hub.slots second).inUse = true →
      (hub.slots first).wireFlowId = (hub.slots second).wireFlowId → first = second
  owned : ∀ idx < hub.config.maxActiveFlows, ∀ pkt ∈ (hub.slots idx).ring.toList,
    pkt.flowId = (hub.slots idx).wireFlowId
  total : hub.totalCount =
    ∑ idx ∈ Finset.range hub.config.maxActiveFlows, (hub.slots idx).ring.count
  active : ∀ idx < hub.config.maxActiveFlows,
    hub.activeBits.getLsbD idx = decide (0 < (hub.slots idx).ring.count)
  sticky : hub.rrStickyValid = true → hub.rrStickySlot < hub.config.maxActiveFlows

theorem relayDeferredHubInit_sound (cfg : RelayDeferredHubConfig) : (relayDeferredHubInit cfg).Sound where
  unused := fun _ _ _ => rfl
  distinct := by
    intro _ _ _ _ used
    cases used
  owned := by
    intro _ _ pkt mem
    cases mem
  total := Finset.sum_const_zero.symm
  active := fun _ _ => BitVec.getLsbD_zero
  sticky := by
    intro valid
    cases valid

@[simp] theorem slots_setSlot_self (hub : RelayDeferredHub) (idx : Nat)
    (slot : RelayDeferredSlot) : (setSlot hub idx slot).slots idx = slot :=
  update_self _ _ _

section Slots

variable {hub : RelayDeferredHub} {slotIndex : Nat} {flowId : UInt32}

theorem boundTo_iff :
    boundTo hub flowId slotIndex = true ↔
      (hub.slots slotIndex).inUse = true ∧ (hub.slots slotIndex).wireFlowId = flowId := by
  simp [boundTo]

theorem findSlotIndex_some (found : findSlotIndex hub flowId = some slotIndex) :
    slotIndex < hub.config.maxActiveFlows ∧ (hub.slots slotIndex).inUse = true ∧
      (hub.slots slotIndex).wireFlowId = flowId := by
  obtain ⟨inRange, passes⟩ := probe_some _ found
  exact ⟨inRange, boundTo_iff.mp passes⟩

theorem findSlotIndex_none (missing : findSlotIndex hub flowId = none) :
    ∀ idx < hub.config.maxActiveFlows, (hub.slots idx).inUse = true →
      (hub.slots idx).wireFlowId ≠ flowId := by
  intro idx inRange used same
  have fails := probe_none _ missing idx inRange
  rw [boundTo_iff.mpr ⟨used, same⟩] at fails
  cases fails

theorem findSlotIndex_of_bound (sound : hub.Sound) (inRange : slotIndex < hub.config.maxActiveFlows)
    (used : (hub.slots slotIndex).inUse = true) (own : (hub.slots slotIndex).wireFlowId = flowId) :
    findSlotIndex hub flowId = some slotIndex := by
  cases search : findSlotIndex hub flowId with
  | none => exact absurd own (findSlotIndex_none search slotIndex inRange used)
  | some found =>
    obtain ⟨foundIn, foundUsed, foundOwn⟩ := findSlotIndex_some search
    rw [sound.distinct found foundIn slotIndex inRange foundUsed used (foundOwn.trans own.symm)]

theorem deques_of_bound (sound : hub.Sound) (inRange : slotIndex < hub.config.maxActiveFlows)
    (used : (hub.slots slotIndex).inUse = true) (own : (hub.slots slotIndex).wireFlowId = flowId) :
    hub.deques flowId = (hub.slots slotIndex).ring.toList := by
  unfold RelayDeferredHub.deques
  rw [findSlotIndex_of_bound sound inRange used own]

theorem deques_of_unbound (unbound : ∀ idx < hub.config.maxActiveFlows,
    (hub.slots idx).inUse = true → (hub.slots idx).wireFlowId ≠ flowId) :
    hub.deques flowId = [] := by
  unfold RelayDeferredHub.deques
  cases search : findSlotIndex hub flowId with
  | none => rfl
  | some found =>
    obtain ⟨foundIn, foundUsed, foundOwn⟩ := findSlotIndex_some search
    exact absurd foundOwn (unbound found foundIn foundUsed)

end Slots

/-- The slot of a flow: it is bound to the flow, or it is free and no slot is bound to it. -/
structure SlotOf (hub : RelayDeferredHub) (flowId : UInt32) (slotIndex : Nat) : Prop where
  inRange : slotIndex < hub.config.maxActiveFlows
  own : (hub.slots slotIndex).inUse = true → (hub.slots slotIndex).wireFlowId = flowId
  others : ∀ idx < hub.config.maxActiveFlows, idx ≠ slotIndex →
    (hub.slots idx).inUse = true → (hub.slots idx).wireFlowId ≠ flowId

/-- One slot is replaced, and the books follow it. -/
structure Replaces (hub after : RelayDeferredHub) (flowId : UInt32) (slotIndex : Nat)
    (slot : RelayDeferredSlot) : Prop where
  config_eq : after.config = hub.config
  slots_eq : after.slots = update hub.slots slotIndex slot
  bound : slot.inUse = true → slot.wireFlowId = flowId
  unused : slot.inUse = false → slot.ring.count = 0
  owned : ∀ pkt ∈ slot.ring.toList, pkt.flowId = slot.wireFlowId
  total_eq : after.totalCount + (hub.slots slotIndex).ring.count = hub.totalCount + slot.ring.count
  active_eq : ∀ idx < 64, after.activeBits.getLsbD idx =
    if idx = slotIndex then decide (0 < slot.ring.count) else hub.activeBits.getLsbD idx
  sticky : after.rrStickyValid = true → after.rrStickySlot < hub.config.maxActiveFlows

section Replacing

variable {hub after : RelayDeferredHub} {flowId : UInt32} {slotIndex : Nat}
  {slot : RelayDeferredSlot}

theorem SlotOf.of_bound (sound : hub.Sound) (inRange : slotIndex < hub.config.maxActiveFlows)
    (used : (hub.slots slotIndex).inUse = true) :
    SlotOf hub (hub.slots slotIndex).wireFlowId slotIndex where
  inRange := inRange
  own := fun _ => rfl
  others := by
    intro idx inside other usedToo same
    exact other (sound.distinct idx inside slotIndex inRange usedToo used same)

theorem Replaces.slot_self (replaces : Replaces hub after flowId slotIndex slot) :
    after.slots slotIndex = slot := by
  rw [replaces.slots_eq, update_self]

theorem Replaces.slot_other (replaces : Replaces hub after flowId slotIndex slot) {idx : Nat}
    (other : idx ≠ slotIndex) : after.slots idx = hub.slots idx := by
  rw [replaces.slots_eq, update_of_ne other]

theorem RelayDeferredHub.Sound.replace (sound : hub.Sound) (place : SlotOf hub flowId slotIndex)
    (replaces : Replaces hub after flowId slotIndex slot) : after.Sound where
  unused := by
    intro idx inRange free
    by_cases same : idx = slotIndex
    · rw [same, replaces.slot_self] at free ⊢
      exact replaces.unused free
    · rw [replaces.slot_other same] at free ⊢
      exact sound.unused idx (replaces.config_eq ▸ inRange) free
  distinct := by
    rw [replaces.config_eq, replaces.slots_eq]
    refine update_distinct (·.inUse = true) RelayDeferredSlot.wireFlowId sound.distinct ?_
    intro idx inside other used new same
    exact place.others idx inside other used (same.trans (replaces.bound new))
  owned := by
    intro idx inRange
    by_cases same : idx = slotIndex
    · rw [same, replaces.slot_self]
      exact replaces.owned
    · rw [replaces.slot_other same]
      exact sound.owned idx (replaces.config_eq ▸ inRange)
  total := by
    have moved := sum_update (fun slot => slot.ring.count) hub.slots
      (Finset.mem_range.mpr place.inRange) slot
    rw [← sound.total, ← replaces.slots_eq, ← replaces.config_eq] at moved
    have total_eq := replaces.total_eq
    omega
  active := by
    intro idx inRange
    rw [replaces.config_eq] at inRange
    have small : idx < 64 := inRange.trans_le hub.config.maxActiveFlows_le
    rw [replaces.active_eq idx small]
    by_cases same : idx = slotIndex
    · rw [if_pos same, same, replaces.slot_self]
    · rw [if_neg same, replaces.slot_other same]
      exact sound.active idx inRange
  sticky := replaces.config_eq ▸ replaces.sticky

theorem Replaces.deques_eq (sound : hub.Sound) (place : SlotOf hub flowId slotIndex)
    (replaces : Replaces hub after flowId slotIndex slot) :
    after.deques = update hub.deques flowId (if slot.inUse then slot.ring.toList else []) := by
  have soundAfter := sound.replace place replaces
  have inRange : slotIndex < after.config.maxActiveFlows := replaces.config_eq ▸ place.inRange
  funext other
  by_cases same : other = flowId
  · subst same
    rw [update_self]
    cases used : slot.inUse with
    | true =>
      rw [deques_of_bound soundAfter inRange (replaces.slot_self ▸ used)
        (replaces.slot_self ▸ replaces.bound used), replaces.slot_self]
      rfl
    | false =>
      refine deques_of_unbound ?_
      intro idx inside usedAfter
      rw [replaces.config_eq] at inside
      by_cases at_slot : idx = slotIndex
      · rw [at_slot, replaces.slot_self, used] at usedAfter
        cases usedAfter
      · rw [replaces.slot_other at_slot] at usedAfter ⊢
        exact place.others idx inside at_slot usedAfter
  · rw [update_of_ne same]
    cases search : findSlotIndex hub other with
    | some idx =>
      obtain ⟨inside, used, own⟩ := findSlotIndex_some search
      have elsewhere : idx ≠ slotIndex := by
        rintro rfl
        exact same (own.symm.trans (place.own used))
      have unchanged := replaces.slot_other elsewhere
      rw [deques_of_bound sound inside used own, deques_of_bound soundAfter
        (replaces.config_eq ▸ inside) (unchanged ▸ used) (unchanged ▸ own), unchanged]
    | none =>
      have unbound := findSlotIndex_none search
      rw [deques_of_unbound unbound]
      refine deques_of_unbound ?_
      intro idx inside usedAfter
      rw [replaces.config_eq] at inside
      by_cases at_slot : idx = slotIndex
      · rw [at_slot, replaces.slot_self] at usedAfter ⊢
        rw [replaces.bound usedAfter]
        exact Ne.symm same
      · rw [replaces.slot_other at_slot] at usedAfter ⊢
        exact unbound idx inside usedAfter

end Replacing

section Pushing

variable {hub bound : RelayDeferredHub} {flowId : UInt32} {slotIndex : Nat}
  {pkt : RelayDeferredPacket}

theorem deques_congr {after : RelayDeferredHub} (config_eq : after.config = hub.config)
    (slots_eq : after.slots = hub.slots) : after.deques = hub.deques := by
  unfold RelayDeferredHub.deques findSlotIndex slotIndexForFlow boundTo
  rw [config_eq, slots_eq]

theorem SlotOf.of_free (missing : findSlotIndex hub flowId = none)
    (free : findFreeSlotIndex hub flowId = some slotIndex) : SlotOf hub flowId slotIndex where
  inRange := (probe_some _ free).1
  own := by
    intro used
    have unused := (probe_some _ free).2
    rw [used] at unused
    cases unused
  others := fun idx inRange _ used => findSlotIndex_none missing idx inRange used

theorem bindSlot_spec (sound : hub.Sound) (taken : bindSlot hub flowId = some (slotIndex, bound)) :
    bound.Sound ∧ bound.deques = hub.deques ∧ slotIndex < bound.config.maxActiveFlows ∧
      (bound.slots slotIndex).inUse = true ∧ (bound.slots slotIndex).wireFlowId = flowId := by
  unfold bindSlot at taken
  cases search : findSlotIndex hub flowId with
  | some =>
    rw [search] at taken
    cases taken
    exact ⟨sound, rfl, findSlotIndex_some search⟩
  | none =>
    rw [search] at taken
    cases free : findFreeSlotIndex hub flowId with
    | none =>
      rw [free] at taken
      cases taken
    | some =>
      rw [free] at taken
      cases taken
      have place : SlotOf hub flowId slotIndex := .of_free search free
      have unused : (hub.slots slotIndex).inUse = false := by simpa using (probe_some _ free).2
      have empty := sound.unused slotIndex place.inRange unused
      have replaces : Replaces hub
          (setSlot hub slotIndex ((hub.slots slotIndex).bind flowId)) flowId slotIndex
          ((hub.slots slotIndex).bind flowId) := by
        refine ⟨rfl, rfl, fun _ => rfl, fun _ => rfl, ?_, ?_, ?_, sound.sticky⟩
        · intro pkt mem
          cases mem
        · change hub.totalCount + (hub.slots slotIndex).ring.count = hub.totalCount + 0
          rw [empty]
        intro idx _
        change hub.activeBits.getLsbD idx = if idx = slotIndex then decide (0 < 0) else _
        split
        next same => rw [same, sound.active slotIndex place.inRange, empty]; rfl
        next => rfl
      refine ⟨sound.replace place replaces, ?_, place.inRange, ?_, ?_⟩
      · rw [replaces.deques_eq sound place]
        have nothing : hub.deques flowId = [] := deques_of_unbound (findSlotIndex_none search)
        exact update_eq_self_iff.mpr nothing.symm
      all_goals
        rw [slots_setSlot_self]
        rfl

theorem count_store (slot : RelayDeferredSlot) (pkt : RelayDeferredPacket)
    (room : slot.ring.count < slot.ring.capacity) :
    (slot.store pkt).ring.count = slot.ring.count + 1 := by
  unfold RelayDeferredSlot.store
  split
  · exact RingBuffer.count_pushFront pkt room
  · exact RingBuffer.count_push pkt room

theorem toList_store (slot : RelayDeferredSlot) (pkt : RelayDeferredPacket)
    (room : slot.ring.count < slot.ring.capacity) :
    (slot.store pkt).ring.toList =
      if pkt.preferHead then pkt :: slot.ring.toList else slot.ring.toList ++ [pkt] := by
  unfold RelayDeferredSlot.store
  split
  · exact RingBuffer.toList_pushFront pkt room
  · exact RingBuffer.toList_push pkt room

theorem storePacket_fields (hub : RelayDeferredHub) (idx : Nat) (pkt : RelayDeferredPacket) :
    (storePacket hub idx pkt).config = hub.config ∧
      (storePacket hub idx pkt).slots = update hub.slots idx ((hub.slots idx).store pkt) ∧
      (storePacket hub idx pkt).totalCount = hub.totalCount + 1 ∧
      (storePacket hub idx pkt).activeBits =
        (if (hub.slots idx).ring.count = 0 then hub.activeBits ||| 1#64 <<< idx
          else hub.activeBits) ∧
      (storePacket hub idx pkt).rrStickyValid = hub.rrStickyValid ∧
      (storePacket hub idx pkt).rrStickySlot = hub.rrStickySlot := by
  unfold storePacket
  dsimp only
  split <;> exact ⟨rfl, rfl, rfl, rfl, rfl, rfl⟩

theorem storePacket_replaces (sound : hub.Sound) (inRange : slotIndex < hub.config.maxActiveFlows)
    (used : (hub.slots slotIndex).inUse = true)
    (own : (hub.slots slotIndex).wireFlowId = pkt.flowId)
    (room : (hub.slots slotIndex).ring.count < (hub.slots slotIndex).ring.capacity) :
    Replaces hub (storePacket hub slotIndex pkt) pkt.flowId slotIndex
      ((hub.slots slotIndex).store pkt) := by
  obtain ⟨config_eq, slots_eq, _, bits_eq, valid_eq, sticky_eq⟩ :=
    storePacket_fields hub slotIndex pkt
  have grown := count_store (hub.slots slotIndex) pkt room
  refine ⟨config_eq, slots_eq, fun _ => own, ?_, ?_, by omega, ?_, ?_⟩
  · intro unused
    exact absurd used (Bool.not_eq_true _ ▸ unused)
  · intro other mem
    have cases_of : other = pkt ∨ other ∈ (hub.slots slotIndex).ring.toList := by
      rw [toList_store _ pkt room] at mem
      split at mem
      · exact mem_cons.mp mem
      · exact (mem_append.mp mem).symm.imp mem_singleton.mp id
    rcases cases_of with rfl | earlier
    · exact own.symm
    · exact sound.owned slotIndex inRange other earlier
  · intro idx small
    rw [bits_eq, grown, decide_eq_true (Nat.succ_pos _)]
    split
    · exact getLsbD_setBit hub.activeBits slotIndex small
    rename_i ne
    by_cases same : idx = slotIndex
    · rw [if_pos same, same, sound.active slotIndex inRange]
      exact decide_eq_true (Nat.pos_of_ne_zero ne)
    · rw [if_neg same]
  · rw [valid_eq, sticky_eq]
    exact sound.sticky

theorem pushBound_spec (sound : hub.Sound) (inRange : slotIndex < hub.config.maxActiveFlows)
    (used : (hub.slots slotIndex).inUse = true)
    (own : (hub.slots slotIndex).wireFlowId = pkt.flowId) :
    (pushBound hub slotIndex pkt).2.1.Sound ∧
      (pushBound hub slotIndex pkt).2.1.deques =
        if (pushBound hub slotIndex pkt).1 = .ok then hub.deques.push pkt else hub.deques := by
  have place : SlotOf hub pkt.flowId slotIndex := own ▸ .of_bound sound inRange used
  unfold pushBound
  dsimp only
  split
  next =>
    refine ⟨{ sound with }, ?_⟩
    rw [if_neg RelayDeferredStatus.noConfusion]
    exact deques_congr rfl rfl
  split
  next =>
    -- The drop counter of the slot is the only thing that changes.
    have replaces : Replaces hub
        { setSlot hub slotIndex (hub.slots slotIndex).overflow with
          stats.dropOverflowFlow := hub.stats.dropOverflowFlow + 1 } pkt.flowId slotIndex
        (hub.slots slotIndex).overflow := by
      refine ⟨rfl, rfl, fun _ => own, sound.unused slotIndex inRange,
        sound.owned slotIndex inRange, rfl, ?_, sound.sticky⟩
      intro idx _
      split
      next same => rw [same]; exact sound.active slotIndex inRange
      next => rfl
    refine ⟨sound.replace place replaces, ?_⟩
    rw [if_neg RelayDeferredStatus.noConfusion, replaces.deques_eq sound place]
    refine update_eq_self_iff.mpr ?_
    rw [deques_of_bound sound inRange used own]
    exact if_pos used
  next notFull =>
    have room := Nat.lt_of_not_le notFull
    have replaces := storePacket_replaces sound inRange used own room
    refine ⟨sound.replace place replaces, ?_⟩
    have kept : ((hub.slots slotIndex).store pkt).inUse = true := used
    rw [if_pos rfl, replaces.deques_eq sound place, if_pos kept, toList_store _ pkt room]
    unfold Deques.push
    rw [deques_of_bound sound inRange used own]

theorem tryPush_spec (sound : hub.Sound) (pkt : RelayDeferredPacket) :
    (relayDeferredHubTryPush hub pkt).2.1.Sound ∧
      (relayDeferredHubTryPush hub pkt).2.1.deques =
        if (relayDeferredHubTryPush hub pkt).1 = .ok then hub.deques.push pkt else hub.deques := by
  unfold relayDeferredHubTryPush
  split
  · exact ⟨sound, (if_neg RelayDeferredStatus.noConfusion).symm⟩
  split
  · exact ⟨sound, (if_neg RelayDeferredStatus.noConfusion).symm⟩
  cases taken : bindSlot hub pkt.flowId with
  | none =>
    refine ⟨{ sound with }, ?_⟩
    rw [if_neg RelayDeferredStatus.noConfusion]
    exact deques_congr rfl rfl
  | some found =>
    obtain ⟨_⟩ := found
    obtain ⟨soundBound, same, inRange, used, own⟩ := bindSlot_spec sound taken
    rw [← same]
    exact pushBound_spec soundBound inRange used own

end Pushing

structure SameRings (hub after : RelayDeferredHub) : Prop where
  config_eq : after.config = hub.config
  slots_eq : after.slots = hub.slots
  total_eq : after.totalCount = hub.totalCount
  bits_eq : after.activeBits = hub.activeBits

section Popping

variable {hub selected : RelayDeferredHub} {slotIndex : Nat}

theorem RelayDeferredHub.Sound.sameRings (sound : hub.Sound) (same : SameRings hub selected)
    (sticky : selected.rrStickyValid = true →
      selected.rrStickySlot < selected.config.maxActiveFlows) : selected.Sound := by
  obtain ⟨config_eq, slots_eq, total_eq, bits_eq⟩ := same
  constructor
  · rw [config_eq, slots_eq]
    exact sound.unused
  · rw [config_eq, slots_eq]
    exact sound.distinct
  · rw [config_eq, slots_eq]
    exact sound.owned
  · rw [config_eq, slots_eq, total_eq]
    exact sound.total
  · rw [config_eq, slots_eq, bits_eq]
    exact sound.active
  · exact sticky

theorem servable_eq (sound : hub.Sound) (inRange : slotIndex < hub.config.maxActiveFlows) :
    servable hub slotIndex = decide (0 < (hub.slots slotIndex).ring.count) := by
  have small : slotIndex < 64 := inRange.trans_le hub.config.maxActiveFlows_le
  have bit := sound.active slotIndex inRange
  unfold servable
  by_cases waiting : 0 < (hub.slots slotIndex).ring.count
  · rw [decide_eq_true waiting] at bit ⊢
    have set : ¬hub.activeBits &&& 1#64 <<< slotIndex = 0#64 := by
      rw [and_bit_eq_zero_iff hub.activeBits small, bit]
      exact Bool.noConfusion
    rw [Bool.and_true]
    exact decide_eq_true set
  · rw [decide_eq_false waiting, Bool.and_false]

/-- What `select_rr_slot` answers: a slot that holds packets, or nothing if none does. -/
structure Selects (hub : RelayDeferredHub) (choice : Option Nat × RelayDeferredHub) : Prop where
  rings : SameRings hub choice.2
  sound : choice.2.Sound
  chosen : ∀ slotIndex, choice.1 = some slotIndex →
    slotIndex < hub.config.maxActiveFlows ∧ 0 < (hub.slots slotIndex).ring.count
  nothing : choice.1 = none →
    ∀ idx < hub.config.maxActiveFlows, (hub.slots idx).ring.count = 0

theorem dropSticky_rings (hub : RelayDeferredHub) : SameRings hub (dropSticky hub) :=
  ⟨rfl, rfl, rfl, rfl⟩

theorem dropSticky_sound (sound : hub.Sound) : (dropSticky hub).Sound := by
  refine sound.sameRings (dropSticky_rings hub) ?_
  intro valid
  cases valid

theorem selectFromCursor_selects (sound : hub.Sound) : Selects hub (selectFromCursor hub) := by
  unfold selectFromCursor
  cases search : probe (servable hub) hub.rrCursor hub.config.maxActiveFlows with
  | some =>
    obtain ⟨inRange, passes⟩ := probe_some _ search
    refine ⟨⟨rfl, rfl, rfl, rfl⟩, sound.sameRings ⟨rfl, rfl, rfl, rfl⟩ fun _ => inRange, ?_, ?_⟩
    · intro _ same
      obtain rfl := Option.some.inj same
      rw [servable_eq sound inRange] at passes
      exact ⟨inRange, of_decide_eq_true passes⟩
    · intro missing
      cases missing
  | none =>
    refine ⟨dropSticky_rings hub, dropSticky_sound sound, ?_, ?_⟩
    · intro _ impossible
      cases impossible
    intro _ idx inRange
    have fails := probe_none _ search idx inRange
    rw [servable_eq sound inRange] at fails
    exact Nat.eq_zero_of_not_pos (of_decide_eq_false fails)

theorem selectRrSlot_selects (sound : hub.Sound) : Selects hub (selectRrSlot hub) := by
  unfold selectRrSlot
  split
  next none_active =>
    refine ⟨⟨rfl, rfl, rfl, rfl⟩, sound, ?_, ?_⟩
    · intro _ impossible
      cases impossible
    intro _ idx inRange
    have bit := sound.active idx inRange
    rw [none_active] at bit
    exact Nat.eq_zero_of_not_pos (of_decide_eq_false (bit.symm.trans BitVec.getLsbD_zero))
  split
  next keeps =>
    split
    next serves =>
      have inRange := sound.sticky keeps.1
      refine ⟨⟨rfl, rfl, rfl, rfl⟩, sound, ?_, ?_⟩
      · intro _ same
        obtain rfl := Option.some.inj same
        rw [servable_eq sound inRange] at serves
        exact ⟨inRange, of_decide_eq_true serves⟩
      · intro missing
        cases missing
    next =>
      have rest := selectFromCursor_selects (dropSticky_sound sound)
      exact ⟨⟨rest.rings.config_eq, rest.rings.slots_eq, rest.rings.total_eq,
        rest.rings.bits_eq⟩, rest.sound, rest.chosen, rest.nothing⟩
  next => exact selectFromCursor_selects sound

theorem useQuota_rings (hub : RelayDeferredHub) (idx count : Nat) :
    SameRings hub (useQuota hub idx count) := by
  unfold useQuota
  split_ifs
  · exact dropSticky_rings hub
  all_goals exact ⟨rfl, rfl, rfl, rfl⟩

theorem useQuota_sticky {idx count bound : Nat}
    (sticky : hub.rrStickyValid = true → hub.rrStickySlot < bound) :
    (useQuota hub idx count).rrStickyValid = true →
      (useQuota hub idx count).rrStickySlot < bound := by
  unfold useQuota
  split_ifs
  · intro valid
    cases valid
  · exact sticky
  · exact sticky

/-- The slot after its front packet is taken; an empty one is released. -/
def RelayDeferredSlot.poppedSlot (slot : RelayDeferredSlot) : RelayDeferredSlot :=
  if slot.ring.pop.count = 0 then
    { slot with inUse := false, wireFlowId := 0, ring := slot.ring.pop.reset }
  else { slot with ring := slot.ring.pop }

theorem toList_poppedSlot (slot : RelayDeferredSlot) :
    slot.poppedSlot.ring.toList = slot.ring.pop.toList := by
  unfold RelayDeferredSlot.poppedSlot
  split
  next empty =>
    have nothing : slot.ring.pop.toList = [] :=
      length_eq_zero_iff.mp ((RingBuffer.length_toList _).trans empty)
    rw [nothing]
    rfl
  next => rfl

theorem count_poppedSlot (slot : RelayDeferredSlot) :
    slot.poppedSlot.ring.count = slot.ring.count - 1 := by
  rw [← RingBuffer.length_toList, toList_poppedSlot, RingBuffer.length_toList, RingBuffer.count_pop]

theorem releaseEmptySlot_fields (hub : RelayDeferredHub) (idx : Nat) :
    (releaseEmptySlot hub idx).config = hub.config ∧
      (releaseEmptySlot hub idx).totalCount = hub.totalCount ∧
      (releaseEmptySlot hub idx).activeBits =
        (if (hub.slots idx).ring.count = 0 then hub.activeBits &&& ~~~(1#64 <<< idx)
          else hub.activeBits) ∧
      (releaseEmptySlot hub idx).rrStickyValid = hub.rrStickyValid ∧
      (releaseEmptySlot hub idx).rrStickySlot = hub.rrStickySlot := by
  unfold releaseEmptySlot
  by_cases empty : (hub.slots idx).ring.count = 0
  · rw [if_neg (not_not.mpr empty), if_pos empty]
    exact ⟨rfl, rfl, rfl, rfl, rfl⟩
  · rw [if_pos empty, if_neg empty]
    exact ⟨rfl, rfl, rfl, rfl, rfl⟩

theorem popSlot_slots (hub : RelayDeferredHub) (idx : Nat) :
    (popSlot hub idx).2.slots = update hub.slots idx (hub.slots idx).poppedSlot := by
  unfold popSlot releaseEmptySlot RelayDeferredSlot.poppedSlot
  dsimp only
  rw [(useQuota_rings _ _ _).slots_eq]
  rw [slots_setSlot_self]
  by_cases empty : (hub.slots idx).ring.pop.count = 0
  · rw [if_neg (not_not.mpr empty), if_pos empty]
    unfold setSlot clearActive
    rw [(useQuota_rings _ _ _).slots_eq]
    exact update_idem _ _ _
  · rw [if_pos empty, if_neg empty, (useQuota_rings _ _ _).slots_eq]
    rfl

theorem popSlot_replaces (sound : hub.Sound) (inRange : slotIndex < hub.config.maxActiveFlows)
    (waiting : 0 < (hub.slots slotIndex).ring.count) :
    Replaces hub (popSlot hub slotIndex).2 (hub.slots slotIndex).wireFlowId slotIndex
      (hub.slots slotIndex).poppedSlot := by
  have counted : (hub.slots slotIndex).ring.count ≤ hub.totalCount := by
    rw [sound.total]
    exact Finset.single_le_sum (f := fun idx => (hub.slots idx).ring.count)
      (fun _ _ => Nat.zero_le _) (Finset.mem_range.mpr inRange)
  have shrunk := count_poppedSlot (hub.slots slotIndex)
  obtain ⟨config_eq, total_eq, bits_eq, valid_eq, sticky_eq⟩ := releaseEmptySlot_fields
    (useQuota { setSlot hub slotIndex
          { hub.slots slotIndex with ring := (hub.slots slotIndex).ring.pop } with
        totalCount := hub.totalCount - 1
        stats.dequeueOk := hub.stats.dequeueOk + 1 } slotIndex
      (hub.slots slotIndex).ring.pop.count) slotIndex
  rw [(useQuota_rings _ _ _).config_eq] at config_eq
  rw [(useQuota_rings _ _ _).total_eq] at total_eq
  rw [(useQuota_rings _ _ _).slots_eq, (useQuota_rings _ _ _).bits_eq] at bits_eq
  rw [slots_setSlot_self] at bits_eq
  refine ⟨config_eq, popSlot_slots hub slotIndex, ?_, ?_, ?_, ?_, ?_, ?_⟩
  · unfold RelayDeferredSlot.poppedSlot
    split
    · intro released
      cases released
    · exact fun _ => rfl
  · intro released
    unfold RelayDeferredSlot.poppedSlot at released ⊢
    split at released
    next empty =>
      rw [if_pos empty]
      rfl
    next =>
      have empty := sound.unused slotIndex inRange released
      omega
  · intro pkt mem
    have earlier : pkt ∈ (hub.slots slotIndex).ring.toList := by
      rw [RingBuffer.toList_pop waiting]
      exact mem_cons_of_mem _ (toList_poppedSlot _ ▸ mem)
    unfold RelayDeferredSlot.poppedSlot at mem ⊢
    split at mem
    next => cases mem
    next left =>
      rw [if_neg left]
      exact sound.owned slotIndex inRange pkt earlier
  · change (releaseEmptySlot _ slotIndex).totalCount + _ = _
    rw [total_eq]
    dsimp only
    omega
  · intro idx small
    change (releaseEmptySlot _ slotIndex).activeBits.getLsbD idx = _
    rw [bits_eq, shrunk, ← RingBuffer.count_pop]
    split
    next empty =>
      rw [empty]
      exact getLsbD_clearBit hub.activeBits slotIndex small
    next ne =>
      by_cases same : idx = slotIndex
      · rw [if_pos same, decide_eq_true (Nat.pos_of_ne_zero ne), same]
        exact (sound.active slotIndex inRange).trans (decide_eq_true waiting)
      · rw [if_neg same]
        rfl
  · change (releaseEmptySlot _ slotIndex).rrStickyValid = true →
      (releaseEmptySlot _ slotIndex).rrStickySlot < _
    rw [valid_eq, sticky_eq]
    exact useQuota_sticky sound.sticky

theorem tryPop_spec (sound : hub.Sound) :
    (relayDeferredHubTryPop hub).2.2.Sound ∧
      hub.deques.Allows .pop ⟨(relayDeferredHubTryPop hub).1, (relayDeferredHubTryPop hub).2.1⟩
        (relayDeferredHubTryPop hub).2.2.deques := by
  have selects := selectRrSlot_selects sound
  unfold relayDeferredHubTryPop Deques.Allows
  generalize selectRrSlot hub = choice at selects ⊢
  obtain ⟨chosen, selected⟩ := choice
  have same : selected.deques = hub.deques :=
    deques_congr selects.rings.config_eq selects.rings.slots_eq
  cases chosen with
  | none =>
    refine ⟨selects.sound, ?_⟩
    dsimp only
    rw [if_neg (by split <;> exact RelayDeferredStatus.noConfusion)]
    refine ⟨?_, same⟩
    intro flowId
    unfold RelayDeferredHub.deques
    cases search : findSlotIndex hub flowId with
    | none => rfl
    | some idx =>
      have empty := selects.nothing rfl idx (findSlotIndex_some search).1
      exact length_eq_zero_iff.mp ((RingBuffer.length_toList _).trans empty)
  | some slotIndex =>
    have sound' : selected.Sound := selects.sound
    obtain ⟨inside, waitingBefore⟩ := selects.chosen slotIndex rfl
    have inRange : slotIndex < selected.config.maxActiveFlows := selects.rings.config_eq ▸ inside
    have waiting : 0 < (selected.slots slotIndex).ring.count :=
      selects.rings.slots_eq ▸ waitingBefore
    have used : (selected.slots slotIndex).inUse = true := by
      by_contra unused
      have empty := sound'.unused slotIndex inRange (Bool.eq_false_of_not_eq_true unused)
      omega
    have place := SlotOf.of_bound sound' inRange used
    have replaces := popSlot_replaces sound' inRange waiting
    have content := RingBuffer.toList_pop waiting
    have own : (selected.slots slotIndex).ring.front.flowId =
        (selected.slots slotIndex).wireFlowId := by
      refine sound'.owned slotIndex inRange _ ?_
      rw [content]
      exact mem_cons_self
    refine ⟨sound'.replace place replaces, ?_⟩
    rw [if_pos rfl]
    change ∃ rest, hub.deques (selected.slots slotIndex).ring.front.flowId =
      (selected.slots slotIndex).ring.front :: rest ∧ (popSlot selected slotIndex).2.deques =
        update hub.deques (selected.slots slotIndex).ring.front.flowId rest
    rw [own, ← same, replaces.deques_eq sound' place,
      deques_of_bound sound' inRange used rfl, content]
    refine ⟨_, rfl, ?_⟩
    rw [toList_poppedSlot]
    by_cases empty : (selected.slots slotIndex).ring.pop.count = 0
    · have nothing := length_eq_zero_iff.mp ((RingBuffer.length_toList _).trans empty)
      rw [nothing, ite_self]
    have kept : (selected.slots slotIndex).poppedSlot.inUse = true := by
      unfold RelayDeferredSlot.poppedSlot
      rw [if_neg empty]
      exact used
    rw [if_pos kept]

end Popping

theorem hubCall_spec {hub : RelayDeferredHub} (sound : hub.Sound) (call : HubCall) :
    (hubCall hub call).2.Sound ∧
      hub.deques.Allows call (hubCall hub call).1 (hubCall hub call).2.deques := by
  cases call with
  | push pkt => exact tryPush_spec sound pkt
  | pop => exact tryPop_spec sound
  | shutdown => exact ⟨sound.sameRings ⟨rfl, rfl, rfl, rfl⟩ sound.sticky, deques_congr rfl rfl⟩

/-- A hub with the packets it has accepted and handed out so far. -/
structure HubRun where
  hub : RelayDeferredHub
  accepted : List RelayDeferredPacket
  popped : List RelayDeferredPacket

def hubStep (run : HubRun) (call : HubCall) : HubRun :=
  let (answer, hub) := hubCall run.hub call
  { hub
    accepted :=
      match call with
      | .push pkt => if answer.status = .ok then run.accepted ++ [pkt] else run.accepted
      | _ => run.accepted
    popped :=
      match call with
      | .pop => if answer.status = .ok then run.popped ++ [answer.out] else run.popped
      | _ => run.popped }

def runHub (config : RelayDeferredHubConfig) (calls : List HubCall) : HubRun :=
  calls.foldl hubStep ⟨relayDeferredHubInit config, [], []⟩

def packetsOf (packets : List RelayDeferredPacket) (flowId : UInt32) : List RelayDeferredPacket :=
  packets.filter fun pkt => pkt.flowId = flowId

/-- Every accepted packet has been handed out once or is still in its deque. -/
def HubRun.Conserves (run : HubRun) : Prop :=
  ∀ flowId, (packetsOf run.accepted flowId).Perm
    (packetsOf run.popped flowId ++ run.hub.deques flowId)

theorem packetsOf_append_singleton (packets : List RelayDeferredPacket)
    (pkt : RelayDeferredPacket) (flowId : UInt32) :
    packetsOf (packets ++ [pkt]) flowId =
      packetsOf packets flowId ++ if pkt.flowId = flowId then [pkt] else [] := by
  unfold packetsOf
  rw [filter_append]
  by_cases same : pkt.flowId = flowId <;> simp [same]

theorem push_conserves {deques : Deques} {accepted popped : List RelayDeferredPacket}
    (conserved : ∀ flowId, (packetsOf accepted flowId).Perm
      (packetsOf popped flowId ++ deques flowId)) (pkt : RelayDeferredPacket) (flowId : UInt32) :
    (packetsOf (accepted ++ [pkt]) flowId).Perm
      (packetsOf popped flowId ++ deques.push pkt flowId) := by
  rw [packetsOf_append_singleton]
  unfold Deques.push
  by_cases same : pkt.flowId = flowId
  · subst same
    rw [if_pos rfl, update_self]
    have grown := (conserved pkt.flowId).append_right [pkt]
    rw [append_assoc] at grown
    split
    · exact grown.trans (perm_append_singleton _ _ |>.append_left _)
    · exact grown
  · rw [if_neg same, append_nil, update_of_ne (Ne.symm same)]
    exact conserved flowId

theorem pop_conserves {deques : Deques} {accepted popped rest : List RelayDeferredPacket}
    (conserved : ∀ flowId, (packetsOf accepted flowId).Perm
      (packetsOf popped flowId ++ deques flowId)) {out : RelayDeferredPacket}
    (front : deques out.flowId = out :: rest) (flowId : UInt32) :
    (packetsOf accepted flowId).Perm
      (packetsOf (popped ++ [out]) flowId ++ update deques out.flowId rest flowId) := by
  rw [packetsOf_append_singleton]
  by_cases same : out.flowId = flowId
  · subst same
    rw [if_pos rfl, update_self, append_assoc, singleton_append, ← front]
    exact conserved out.flowId
  · rw [if_neg same, append_nil, update_of_ne (Ne.symm same)]
    exact conserved flowId

theorem hubStep_conserves {run : HubRun} (sound : run.hub.Sound) (conserved : run.Conserves)
    (call : HubCall) : (hubStep run call).Conserves := by
  obtain ⟨-, allowed⟩ := hubCall_spec sound call
  unfold hubStep HubRun.Conserves
  generalize hubCall run.hub call = res at allowed ⊢
  obtain ⟨_⟩ := res
  cases call with
  | push pkt =>
    dsimp only
    rw [allowed]
    split
    · exact push_conserves conserved pkt
    · exact conserved
  | pop =>
    dsimp only [Deques.Allows] at allowed ⊢
    split at allowed
    next ok =>
      obtain ⟨_, front, after⟩ := allowed
      rw [if_pos ok, after]
      exact pop_conserves conserved front
    next failed =>
      rw [if_neg failed, allowed.2]
      exact conserved
  | shutdown =>
    rw [allowed]
    exact conserved

theorem runHub_invariant (cfg : RelayDeferredHubConfig) (calls : List HubCall) :
    (runHub cfg calls).hub.Sound ∧ (runHub cfg calls).Conserves := by
  have kept : ∀ run : HubRun, run.hub.Sound → run.Conserves →
      (calls.foldl hubStep run).hub.Sound ∧ (calls.foldl hubStep run).Conserves := by
    induction calls with
    | nil => exact fun run sound conserved => ⟨sound, conserved⟩
    | cons call _ ih =>
      intro run sound conserved
      exact ih (hubStep run call) (hubCall_spec sound call).1
        (hubStep_conserves sound conserved call)
  refine kept _ (relayDeferredHubInit_sound cfg) ?_
  intro flowId
  rw [show (relayDeferredHubInit cfg).deques flowId = [] from
    deques_of_unbound fun _ _ used => nomatch used]
  exact List.Perm.refl _

/-- After any calls the hub answers the next call as a map from flows to deques does, no packet is
lost or duplicated, and the books describe the deques. -/
theorem hub_refines_deques (config : RelayDeferredHubConfig) (calls : List HubCall) :
    (∀ call, (runHub config calls).hub.deques.Allows call (hubCall (runHub config calls).hub call).1
        (hubCall (runHub config calls).hub call).2.deques) ∧
      (∀ flowId, (packetsOf (runHub config calls).accepted flowId).Perm
        (packetsOf (runHub config calls).popped flowId ++
          (runHub config calls).hub.deques flowId)) ∧
      (runHub config calls).hub.totalCount =
        ∑ slotIndex ∈ Finset.range (runHub config calls).hub.config.maxActiveFlows,
          ((runHub config calls).hub.slots slotIndex).ring.count ∧
      ∀ slotIndex < (runHub config calls).hub.config.maxActiveFlows,
        (runHub config calls).hub.activeBits.getLsbD slotIndex =
            decide (0 < ((runHub config calls).hub.slots slotIndex).ring.count) ∧
          ((runHub config calls).hub.slots slotIndex).ring.toList =
            if ((runHub config calls).hub.slots slotIndex).inUse then
              (runHub config calls).hub.deques
                ((runHub config calls).hub.slots slotIndex).wireFlowId else [] := by
  obtain ⟨sound, conserved⟩ := runHub_invariant config calls
  refine ⟨fun call => (hubCall_spec sound call).2, conserved, sound.total, ?_⟩
  intro slotIndex inRange
  refine ⟨sound.active slotIndex inRange, ?_⟩
  split
  next used => exact (deques_of_bound sound inRange used rfl).symm
  next unused =>
    have empty := sound.unused slotIndex inRange (Bool.eq_false_of_not_eq_true unused)
    exact List.length_eq_zero_iff.mp ((RingBuffer.length_toList _).trans empty)

end MultiFlow.Relay
