import MultiFlow.Relay.DequeRefinement

/-!
# Refused pushes and turns in the deferred hub

`relay_deferred_hub_try_push` binds a slot before it looks at the limits, so a refused push can
leave a slot bound and empty; this is the only change a refusal can make.  `select_rr_slot` gives
each slot at most `RELAY_DEFERRED_QUOTA` pops in a turn around the table.
-/

namespace MultiFlow.Relay

open Function Lib

variable (hub : RelayDeferredHub)

def hubNext (call : HubCall) : Option RelayDeferredHub :=
  some (hubCall hub call).2

def RelayDeferredHub.forgetDrops : RelayDeferredHub :=
  { hub with
    slots := fun idx => { hub.slots idx with dropOverflowFlow := 0 }
    stats :=
      { hub.stats with dropOverflowFlow := 0, dropOverflowTotal := 0, dropTableFull := 0 } }

/-- A push that is to bind a free slot finds room in the hub. -/
def PushFits (pkt : RelayDeferredPacket) : Prop :=
  pkt.datagram ≠ none → pkt.len ≠ 0 → hub.shutdown = false →
    findSlotIndex hub pkt.flowId = none → findFreeSlotIndex hub pkt.flowId ≠ none →
      hub.totalCount < hub.config.totalCapacity

def PushesFit : HubCall → Prop
  | .push pkt => PushFits hub pkt
  | _ => True

/-- A slot is in use exactly while it holds packets. -/
def RelayDeferredHub.Tidy : Prop :=
  ∀ idx < hub.config.maxActiveFlows,
    (hub.slots idx).inUse = true ↔ 0 < (hub.slots idx).ring.count

/-- What a push can do: refuse and change no more than the drop statistics, store the packet, or
refuse with a slot newly bound. -/
inductive Pushed (hub : RelayDeferredHub) (pkt : RelayDeferredPacket) : PushResult → Prop where
  | refused {status : RelayDeferredStatus} {after : RelayDeferredHub} {left : RelayDeferredPacket}
      (fits : PushFits hub pkt) (failed : status ≠ .ok)
      (full : status = .errTableFull → findFreeSlotIndex hub pkt.flowId = none)
      (same : after.forgetDrops = hub.forgetDrops) : Pushed hub pkt (status, after, left)
  | stored {after : RelayDeferredHub} {left : RelayDeferredPacket} (fits : PushFits hub pkt)
      (slotIndex : Nat) (slot : RelayDeferredSlot) (config_eq : after.config = hub.config)
      (slots_eq : after.slots = update hub.slots slotIndex slot) (used : slot.inUse = true)
      (waiting : 0 < slot.ring.count) : Pushed hub pkt (.ok, after, left)
  | bound {after : RelayDeferredHub} {left : RelayDeferredPacket} (beyond : ¬PushFits hub pkt)
      (slotIndex : Nat) (free : (hub.slots slotIndex).inUse = false)
      (taken : (after.slots slotIndex).inUse = true) : Pushed hub pkt (.errFullTotal, after, left)

section Refusals

variable {hub after : RelayDeferredHub} {slotIndex : Nat} {pkt : RelayDeferredPacket}

theorem pushed_own (used : (hub.slots slotIndex).inUse = true) (fits : PushFits hub pkt) :
    Pushed hub pkt (pushBound hub slotIndex pkt) := by
  unfold pushBound
  dsimp only
  split
  · exact .refused fits RelayDeferredStatus.noConfusion nofun rfl
  split
  next =>
    refine .refused fits RelayDeferredStatus.noConfusion nofun ?_
    unfold RelayDeferredHub.forgetDrops setSlot
    congr 1
    funext idx
    by_cases same : idx = slotIndex
    · rw [same]
      dsimp only
      rw [update_self]
      rfl
    · dsimp only
      rw [update_of_ne same]
  next notFull =>
    obtain ⟨config_eq, slots_eq, -⟩ := storePacket_fields hub slotIndex pkt
    refine .stored fits slotIndex _ config_eq slots_eq used ?_
    rw [count_store _ pkt (Nat.lt_of_not_le notFull)]
    exact Nat.succ_pos _

theorem pushed_fresh (free : (hub.slots slotIndex).inUse = false)
    (fits : PushFits hub pkt ↔ hub.totalCount < hub.config.totalCapacity) :
    Pushed hub pkt (pushBound (setSlot hub slotIndex ((hub.slots slotIndex).bind pkt.flowId))
      slotIndex pkt) := by
  unfold pushBound
  rw [slots_setSlot_self]
  split
  next beyond =>
    refine .bound (fun fit => Nat.not_lt.mpr beyond (fits.mp fit)) slotIndex free ?_
    rw [slots_setSlot_self]
    rfl
  rename_i room
  have empty : ((hub.slots slotIndex).bind pkt.flowId).ring.count <
      ((hub.slots slotIndex).bind pkt.flowId).ring.capacity :=
    (hub.slots slotIndex).ring.positive
  rw [if_neg (Nat.not_le.mpr empty)]
  obtain ⟨config_eq, slots_eq, -⟩ := storePacket_fields
    (setSlot hub slotIndex ((hub.slots slotIndex).bind pkt.flowId)) slotIndex pkt
  rw [slots_setSlot_self] at slots_eq
  refine .stored (fits.mpr (Nat.lt_of_not_le room)) slotIndex _ config_eq
    (slots_eq.trans (update_idem _ _ _)) rfl ?_
  rw [count_store _ pkt empty]
  exact Nat.succ_pos _

theorem tryPush_pushed (hub : RelayDeferredHub) (pkt : RelayDeferredPacket) :
    Pushed hub pkt (relayDeferredHubTryPush hub pkt) := by
  unfold relayDeferredHubTryPush bindSlot
  split
  next invalid =>
    exact .refused (fun some_data some_len => absurd invalid (not_or.mpr ⟨some_data, some_len⟩))
      RelayDeferredStatus.noConfusion nofun rfl
  rename_i valid
  split
  next down =>
    refine .refused ?_ RelayDeferredStatus.noConfusion nofun rfl
    intro _ _ up
    rw [down] at up
    cases up
  rename_i up
  cases own : findSlotIndex hub pkt.flowId with
  | some =>
    refine pushed_own (findSlotIndex_some own).2.1 ?_
    intro _ _ _ missing
    rw [own] at missing
    cases missing
  | none =>
    cases free : findFreeSlotIndex hub pkt.flowId with
    | none =>
      refine .refused ?_ RelayDeferredStatus.noConfusion (fun _ => free) rfl
      intro _ _ _ _ found
      exact absurd free found
    | some slotIndex =>
      have unused : (hub.slots slotIndex).inUse = false := by simpa using (probe_some _ free).2
      refine pushed_fresh unused ⟨?_, fun room _ _ _ _ _ => room⟩
      intro fits
      rw [not_or] at valid
      refine fits valid.1 valid.2 (Bool.eq_false_of_not_eq_true up) own ?_
      rw [free]
      exact Option.some_ne_none _

theorem RelayDeferredHub.Tidy.push (tidy : hub.Tidy) (fits : PushFits hub pkt) :
    (relayDeferredHubTryPush hub pkt).2.1.Tidy := by
  have pushed := tryPush_pushed hub pkt
  generalize relayDeferredHubTryPush hub pkt = result at pushed ⊢
  cases pushed with
  | refused _ _ _ same =>
    have tidyDrops : hub.forgetDrops.Tidy := tidy
    rw [← same] at tidyDrops
    exact tidyDrops
  | stored _ slotIndex _ config_eq slots_eq used waiting =>
    intro idx inRange
    rw [slots_eq]
    rw [config_eq] at inRange
    by_cases same : idx = slotIndex
    · rw [same, update_self]
      exact iff_of_true used waiting
    · rw [update_of_ne same]
      exact tidy idx inRange
  | bound beyond => exact absurd fits beyond

theorem RelayDeferredHub.Tidy.pop (sound : hub.Sound) (tidy : hub.Tidy) :
    (relayDeferredHubTryPop hub).2.2.Tidy := by
  have selects := selectRrSlot_selects sound
  unfold relayDeferredHubTryPop
  generalize selectRrSlot hub = choice at selects ⊢
  obtain ⟨chosen, selected⟩ := choice
  have config_eq : selected.config = hub.config := selects.rings.config_eq
  have slots_eq : selected.slots = hub.slots := selects.rings.slots_eq
  have tidySelected : selected.Tidy := by
    unfold RelayDeferredHub.Tidy
    rw [config_eq, slots_eq]
    exact tidy
  cases chosen with
  | none => exact tidySelected
  | some slotIndex =>
    obtain ⟨inside, waiting⟩ := selects.chosen slotIndex rfl
    have replaces := popSlot_replaces selects.sound (config_eq ▸ inside) (slots_eq ▸ waiting)
    intro idx inRange
    have inHub : idx < selected.config.maxActiveFlows := replaces.config_eq ▸ inRange
    by_cases same : idx = slotIndex
    · rw [same, replaces.slot_self]
      have used : (selected.slots slotIndex).inUse = true :=
        (tidySelected slotIndex (same ▸ inHub)).mpr (slots_eq ▸ waiting)
      unfold RelayDeferredSlot.poppedSlot
      split
      next empty => exact iff_of_false Bool.false_ne_true (Nat.lt_irrefl 0)
      next left => exact iff_of_true used (Nat.pos_of_ne_zero left)
    · rw [replaces.slot_other same]
      exact tidySelected idx inHub

theorem hubNext_sound {call : HubCall} (sound : hub.Sound) (taken : hubNext hub call = some after) :
    after.Sound := by
  cases taken
  exact (hubCall_spec sound call).1

/-- In a run whose pushes find room whenever they bind a slot, a slot is in use exactly while it
holds packets, an empty hub never runs out of slots, and a push is harmless when it is refused if
and only if it finds that room too. -/
theorem refused_push_harmless {config : RelayDeferredHubConfig}
    (run : Reaches hubNext PushesFit (relayDeferredHubInit config) hub) :
    (∀ pkt, ((relayDeferredHubTryPush hub pkt).1 ≠ .ok →
        (relayDeferredHubTryPush hub pkt).2.1.forgetDrops = hub.forgetDrops) ↔ PushFits hub pkt) ∧
      (∀ idx < hub.config.maxActiveFlows,
        (hub.slots idx).inUse = true ↔ 0 < (hub.slots idx).ring.count) ∧
      (hub.totalCount = 0 → ∀ pkt, (relayDeferredHubTryPush hub pkt).1 ≠ .errTableFull) := by
  obtain ⟨sound, tidy⟩ : hub.Sound ∧ hub.Tidy := by
    refine run.invariant (fun hub => hub.Sound ∧ hub.Tidy)
      ⟨relayDeferredHubInit_sound config, fun _ _ => by simp [relayDeferredHubInit, RingBuffer.empty]⟩ ?_
    rintro _ call _ ⟨sound, tidy⟩ permitted taken
    refine ⟨hubNext_sound sound taken, ?_⟩
    cases taken
    cases call with
    | push => exact tidy.push permitted
    | pop => exact tidy.pop sound
    | shutdown => exact tidy
  refine ⟨?_, tidy, ?_⟩
  · intro pkt
    have pushed := tryPush_pushed hub pkt
    generalize relayDeferredHubTryPush hub pkt = result at pushed ⊢
    cases pushed with
    | refused fits _ _ same => exact iff_of_true (fun _ => same) fits
    | stored fits => exact iff_of_true (fun failed => absurd rfl failed) fits
    | bound beyond slotIndex free taken =>
      refine iff_of_false ?_ beyond
      intro unchanged
      have slot_eq := congrFun (congrArg RelayDeferredHub.slots
        (unchanged RelayDeferredStatus.noConfusion)) slotIndex
      cases taken.symm.trans ((congrArg RelayDeferredSlot.inUse slot_eq).trans free)
  · intro empty pkt full
    have pushed := tryPush_pushed hub pkt
    generalize relayDeferredHubTryPush hub pkt = result at pushed full
    cases pushed with
    | refused _ _ missing =>
      have used := probe_none _ (missing full) 0 hub.config.maxActiveFlows_pos
      have waiting := (tidy 0 hub.config.maxActiveFlows_pos).mp (by simpa using used)
      rw [sound.total] at empty
      have nothing := Finset.sum_eq_zero_iff.mp empty 0
        (Finset.mem_range.mpr hub.config.maxActiveFlows_pos)
      omega
    | stored | bound => cases full

end Refusals

def twoSlots : RelayDeferredHubConfig :=
  ⟨2, 1, 1, Nat.two_pos, by decide, Nat.one_pos, Nat.one_pos⟩

def packetOf (flowId : UInt32) : RelayDeferredPacket := ⟨some [0], 1, flowId, 0, false⟩

/-- The hub of two slots and one packet, after the push of that packet. -/
def fullHub : RelayDeferredHub := (hubCall (relayDeferredHubInit twoSlots) (.push (packetOf 1))).2

theorem refused_push_harmless_own :
    (relayDeferredHubTryPush fullHub (packetOf 1)).1 = .errFullTotal ∧
      (relayDeferredHubTryPush fullHub (packetOf 1)).2.1.forgetDrops = fullHub.forgetDrops := by
  have run : Reaches hubNext PushesFit (relayDeferredHubInit twoSlots) fullHub :=
    .next (.push (packetOf 1)) .start (fun _ _ _ _ _ => by decide) rfl
  refine ⟨by decide, ((refused_push_harmless run).1 (packetOf 1)).mpr ?_ (by decide)⟩
  intro _ _ _ missing
  exact absurd missing (by decide)

/-- The hub refuses the packet of a second flow, and the slot bound to that flow stays in use
without a packet. -/
theorem full_hub_binds_slot :
    (relayDeferredHubTryPush fullHub (packetOf 2)).1 = .errFullTotal ∧
      (fullHub.slots 0).inUse = false ∧
      ((relayDeferredHubTryPush fullHub (packetOf 2)).2.1.slots 0).inUse = true ∧
      ((relayDeferredHubTryPush fullHub (packetOf 2)).2.1.slots 0).ring.count = 0 := by
  decide

structure Turn where
  size : Nat
  cursor : Nat
  valid : Bool
  sticky : Nat
  quota : Nat

def RelayDeferredHub.turn : Turn :=
  ⟨hub.config.maxActiveFlows, hub.rrCursor, hub.rrStickyValid, hub.rrStickySlot, hub.rrQuotaLeft⟩

section Turns

variable {hub selected : RelayDeferredHub} {turn : Turn} {slot served : Nat}

theorem wrapped (sum size : Nat) (below : sum < 2 * size) :
    sum < size ∧ sum % size = sum ∨ size ≤ sum ∧ sum % size + size = sum := by
  rcases Nat.lt_or_ge sum size with small | large
  · exact Or.inl ⟨small, Nat.mod_eq_of_lt small⟩
  · rw [Nat.mod_eq_sub_mod large, Nat.mod_eq_of_lt (by omega)]
    exact Or.inr ⟨large, by omega⟩

end Turns

def servedSlot : HubCall → Option Nat
  | .pop => (selectRrSlot hub).1
  | _ => none

theorem pop_answers {hub : RelayDeferredHub} (sound : hub.Sound) {served : Nat}
    (chosen : servedSlot hub .pop = some served) :
    (relayDeferredHubTryPop hub).1 = .ok ∧
      (relayDeferredHubTryPop hub).2.1 = (hub.slots served).ring.front := by
  unfold servedSlot at chosen
  have selects := selectRrSlot_selects sound
  unfold relayDeferredHubTryPop
  rcases choice : selectRrSlot hub with ⟨slot, selected⟩
  rw [choice] at chosen selects
  cases chosen
  refine ⟨rfl, ?_⟩
  show (selected.slots served).ring.front = _
  rw [selects.rings.slots_eq]

end MultiFlow.Relay
