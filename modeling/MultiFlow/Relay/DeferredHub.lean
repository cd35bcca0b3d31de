import MultiFlow.Lib.Bits
import MultiFlow.Lib.RingBuffer
import MultiFlow.Lib.Search
import MultiFlow.Lib.Transition

/-!
# The deferred hub of the relay

`relay_deferred.c`: datagrams wait between the receiving thread and the processing worker in one
ring for each active flow.  A flow is bound to a slot by its first datagram and loses it when its
ring runs empty.  Each function is one critical section of the hub's mutex.
-/

namespace MultiFlow.Relay

open Lib

def RELAY_DEFERRED_QUOTA : Nat := 8

def RELAY_MAX_ACTIVE_FLOWS_LIMIT : Nat := 64

structure RelayDeferredPacket where
  datagram : Option (List UInt8)
  len : Nat
  flowId : UInt32
  enqueueNs : UInt64
  preferHead : Bool
  deriving DecidableEq, Repr

def clearedPacket : RelayDeferredPacket := ⟨none, 0, 0, 0, false⟩

inductive RelayDeferredStatus where
  | ok
  | errInvalid
  | errFullFlow
  | errFullTotal
  | errTableFull
  | errEmpty
  | errShutdown
  deriving DecidableEq, Repr

/-- A configuration that `config_valid` accepts. -/
structure RelayDeferredHubConfig where
  maxActiveFlows : Nat
  perFlowCapacity : Nat
  totalCapacity : Nat
  maxActiveFlows_pos : 0 < maxActiveFlows
  maxActiveFlows_le : maxActiveFlows ≤ RELAY_MAX_ACTIVE_FLOWS_LIMIT
  perFlow_pos : 0 < perFlowCapacity
  total_pos : 0 < totalCapacity

structure RelayDeferredSlot where
  inUse : Bool
  wireFlowId : UInt32
  ring : RingBuffer RelayDeferredPacket
  dropOverflowFlow : Nat

structure RelayDeferredHubStats where
  dropOverflowFlow : Nat
  dropOverflowTotal : Nat
  dropTableFull : Nat
  enqueueOk : Nat
  dequeueOk : Nat
  highWatermark : Nat
  deriving DecidableEq, Repr

structure RelayDeferredHub where
  config : RelayDeferredHubConfig
  slots : Nat → RelayDeferredSlot
  totalCount : Nat
  activeBits : BitVec 64
  rrCursor : Nat
  rrStickyValid : Bool
  rrStickySlot : Nat
  rrQuotaLeft : Nat
  wakeGen : UInt64
  shutdown : Bool
  stats : RelayDeferredHubStats

def relayDeferredHubInit (config : RelayDeferredHubConfig) : RelayDeferredHub where
  config := config
  slots := fun _ =>
    { inUse := false
      wireFlowId := 0
      ring := RingBuffer.empty clearedPacket config.perFlowCapacity config.perFlow_pos
      dropOverflowFlow := 0 }
  totalCount := 0
  activeBits := 0
  rrCursor := 0
  rrStickyValid := false
  rrStickySlot := 0
  rrQuotaLeft := 0
  wakeGen := 0
  shutdown := false
  stats := ⟨0, 0, 0, 0, 0, 0⟩

variable (hub : RelayDeferredHub)

def relayDeferredHubShutdown : RelayDeferredHub :=
  { hub with shutdown := true, wakeGen := hub.wakeGen + 1 }

def setSlot (slotIndex : Nat) (slot : RelayDeferredSlot) : RelayDeferredHub :=
  { hub with slots := Function.update hub.slots slotIndex slot }

def slotIndexForFlow (flowId : UInt32) : Nat :=
  if hub.config.maxActiveFlows = 0 then 0 else flowId.toNat % hub.config.maxActiveFlows

/-- The test of `find_slot_index`. -/
def boundTo (flowId : UInt32) (idx : Nat) : Bool :=
  (hub.slots idx).inUse && decide ((hub.slots idx).wireFlowId = flowId)

def findSlotIndex (flowId : UInt32) : Option Nat :=
  probe (boundTo hub flowId) (slotIndexForFlow hub flowId) hub.config.maxActiveFlows

def findFreeSlotIndex (flowId : UInt32) : Option Nat :=
  probe (fun idx => !(hub.slots idx).inUse) (slotIndexForFlow hub flowId)
    hub.config.maxActiveFlows

def markActive (slotIndex : Nat) : RelayDeferredHub :=
  { hub with activeBits := hub.activeBits ||| 1#64 <<< slotIndex }

def clearActive (slotIndex : Nat) : RelayDeferredHub :=
  { hub with activeBits := hub.activeBits &&& ~~~(1#64 <<< slotIndex) }

def releaseEmptySlot (slotIndex : Nat) : RelayDeferredHub :=
  let slot := hub.slots slotIndex
  if slot.ring.count ≠ 0 then hub
  else
    setSlot (clearActive hub slotIndex) slotIndex
      { slot with inUse := false, wireFlowId := 0, ring := slot.ring.reset }

def RelayDeferredSlot.bind (slot : RelayDeferredSlot) (flowId : UInt32) : RelayDeferredSlot :=
  { slot with inUse := true, wireFlowId := flowId, ring := slot.ring.reset }

/-- The first part of `relay_deferred_hub_try_push`: the slot of the flow, bound to it if it had
none. -/
def bindSlot (flowId : UInt32) : Option (Nat × RelayDeferredHub) :=
  match findSlotIndex hub flowId with
  | some slotIndex => some (slotIndex, hub)
  | none =>
    match findFreeSlotIndex hub flowId with
    | none => none
    | some slotIndex =>
      some (slotIndex, setSlot hub slotIndex ((hub.slots slotIndex).bind flowId))

/-- Answers the status, the hub and what is left in the caller's packet. -/
abbrev PushResult : Type := RelayDeferredStatus × RelayDeferredHub × RelayDeferredPacket

def RelayDeferredSlot.store (slot : RelayDeferredSlot) (pkt : RelayDeferredPacket) :
    RelayDeferredSlot :=
  { slot with ring := if pkt.preferHead then slot.ring.pushFront pkt else slot.ring.push pkt }

def RelayDeferredSlot.overflow (slot : RelayDeferredSlot) : RelayDeferredSlot :=
  { slot with dropOverflowFlow := slot.dropOverflowFlow + 1 }

/-- The hub with the packet in the ring of its slot and in the books. -/
def storePacket (slotIndex : Nat) (pkt : RelayDeferredPacket) : RelayDeferredHub :=
  let slot := hub.slots slotIndex
  let total := hub.totalCount + 1
  let stored :=
    { setSlot hub slotIndex (slot.store pkt) with
      totalCount := total
      stats :=
        { hub.stats with
          enqueueOk := hub.stats.enqueueOk + 1
          highWatermark :=
            if hub.stats.highWatermark < total then total else hub.stats.highWatermark } }
  if slot.ring.count = 0 then
    { markActive stored slotIndex with wakeGen := hub.wakeGen + 1 }
  else stored

def pushBound (slotIndex : Nat) (pkt : RelayDeferredPacket) : PushResult :=
  let slot := hub.slots slotIndex
  if hub.config.totalCapacity ≤ hub.totalCount then
    (.errFullTotal,
      { hub with stats.dropOverflowTotal := hub.stats.dropOverflowTotal + 1 }, pkt)
  else if slot.ring.capacity ≤ slot.ring.count then
    (.errFullFlow,
      { setSlot hub slotIndex slot.overflow with
        stats.dropOverflowFlow := hub.stats.dropOverflowFlow + 1 }, pkt)
  else (.ok, storePacket hub slotIndex pkt, clearedPacket)

def relayDeferredHubTryPush (pkt : RelayDeferredPacket) : PushResult :=
  if pkt.datagram = none ∨ pkt.len = 0 then (.errInvalid, hub, pkt)
  else if hub.shutdown then (.errShutdown, hub, pkt)
  else
    match bindSlot hub pkt.flowId with
    | none =>
      (.errTableFull, { hub with stats.dropTableFull := hub.stats.dropTableFull + 1 }, pkt)
    | some (slotIndex, bound) => pushBound bound slotIndex pkt

def servable (idx : Nat) : Bool :=
  decide (hub.activeBits &&& 1#64 <<< idx ≠ 0) && decide (0 < (hub.slots idx).ring.count)

def dropSticky : RelayDeferredHub :=
  { hub with rrStickyValid := false, rrQuotaLeft := 0 }

def selectFromCursor : Option Nat × RelayDeferredHub :=
  match probe (servable hub) hub.rrCursor hub.config.maxActiveFlows with
  | some idx =>
    (some idx,
      { hub with
        rrStickyValid := true
        rrStickySlot := idx
        rrQuotaLeft := RELAY_DEFERRED_QUOTA
        rrCursor := (idx + 1) % hub.config.maxActiveFlows })
  | none => (none, dropSticky hub)

def selectRrSlot : Option Nat × RelayDeferredHub :=
  if hub.activeBits = 0 then (none, hub)
  else if hub.rrStickyValid ∧ 0 < hub.rrQuotaLeft then
    if servable hub hub.rrStickySlot then (some hub.rrStickySlot, hub)
    else selectFromCursor (dropSticky hub)
  else selectFromCursor hub

/-- The quota of the sticky slot after a pop that leaves `count` packets. -/
def useQuota (slotIndex count : Nat) : RelayDeferredHub :=
  if hub.rrStickyValid ∧ hub.rrStickySlot = slotIndex ∧ 0 < hub.rrQuotaLeft then
    if hub.rrQuotaLeft - 1 = 0 ∨ count = 0 then dropSticky hub
    else { hub with rrQuotaLeft := hub.rrQuotaLeft - 1 }
  else hub

def popSlot (slotIndex : Nat) : RelayDeferredPacket × RelayDeferredHub :=
  let slot := hub.slots slotIndex
  let popped :=
    { setSlot hub slotIndex { slot with ring := slot.ring.pop } with
      totalCount := hub.totalCount - 1
      stats.dequeueOk := hub.stats.dequeueOk + 1 }
  (slot.ring.front,
    releaseEmptySlot (useQuota popped slotIndex slot.ring.pop.count) slotIndex)

def relayDeferredHubTryPop : RelayDeferredStatus × RelayDeferredPacket × RelayDeferredHub :=
  match selectRrSlot hub with
  | (none, selected) =>
    (if selected.shutdown then .errShutdown else .errEmpty, clearedPacket, selected)
  | (some slotIndex, selected) =>
    let (out, popped) := popSlot selected slotIndex
    (.ok, out, popped)

end MultiFlow.Relay
