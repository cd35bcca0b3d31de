import MultiFlow.Lib.Search
import MultiFlow.Wire.Header

/-!
# The relay of `bats_line`

`relay_on_data` and what it calls: packets of a batch are collected in a slot of a bounded table
and recoded together.  `BATS_M`, defined outside of the repository, and the size of the table are
parameters.  Recoding and sending belong to an environment and may fail.  `trace` is the history
that the statements are about; nothing reads it.  The counters of the final report are left out.
-/

namespace MultiFlow.Bats

open Lib Wire

def BATS_LINE_HDR : Nat := 44

def BATS_LINE_MAX_T : Nat := 4096

def BATS_MAX_FLOWS : Nat := 8

def RELAY_SLOTS : Nat := 256

structure BatchKey where
  flowId : Nat
  gen : Nat
  batch : Nat
  deriving DecidableEq, Repr

structure CodedPacket where
  coeff : List UInt8
  payload : List UInt8
  deriving DecidableEq, Repr

structure LinePacket where
  key : BatchKey
  index : Nat
  symbolSize : Nat
  fileSize : Nat
  kPkts : Nat
  nBatches : Nat
  nGens : Nat
  coded : CodedPacket
  deriving DecidableEq, Repr

def lineFields (batsM : Nat) (buf : List UInt8) : LinePacket where
  key := ⟨field buf 6 2, field buf 8 4, field buf 12 4⟩
  index := field buf 16 2
  symbolSize := field buf 18 2
  fileSize := field buf 20 4
  kPkts := field buf 24 4
  nBatches := field buf 28 4
  nGens := field buf 32 4
  coded := ⟨(buf.drop 36).take batsM, (buf.drop BATS_LINE_HDR).take (field buf 18 2)⟩

/-- A DATA datagram after the checks of `relay_on_data`. -/
def parseData (batsM : Nat) (buf : List UInt8) : Option LinePacket :=
  let pkt := lineFields batsM buf
  if buf.length < BATS_LINE_HDR then none
  else if pkt.symbolSize < 1 ∨ BATS_LINE_MAX_T < pkt.symbolSize ∨ batsM ≤ pkt.index ∨
      buf.length < BATS_LINE_HDR + pkt.symbolSize then none
  else some pkt

structure RelaySlot where
  key : BatchKey
  symbolSize : Nat
  n : Nat
  seen : Nat → Option CodedPacket

structure FlushedGen where
  flowId : Nat
  gen : Nat
  bits : List (BitVec 8)

structure FlowRx where
  flowId : Nat
  endSeen : Bool
  haveMeta : Bool
  fileSize : Nat
  kPkts : Nat
  nBatches : Nat
  nGens : Nat
  recodeState : UInt64
  fullN : Nat

inductive RelayEvent where
  | processed (key : BatchKey) (index : Nat)
  | recoded (key : BatchKey) (inputs : List CodedPacket)
  deriving DecidableEq, Repr

structure RelayState where
  slots : Nat → Option RelaySlot
  flows : List FlowRx
  maps : List FlushedGen
  trace : List RelayEvent

structure RelayEnv where
  recodeSeed : UInt64
  recode : List CodedPacket → Nat → UInt64 → Option (List CodedPacket × UInt64)
  sendCoded : FlowRx → BatchKey → List CodedPacket → Bool

def RelayState.initial : RelayState := ⟨fun _ => none, [], [], []⟩

def newFlow (seed : UInt64) (flowId : Nat) : FlowRx :=
  let state := seed + UInt64.ofNat flowId * 0x9E3779B97F4A7C15
  ⟨flowId, false, false, 0, 0, 0, 0, if state = 0 then 1 else state, 0⟩

def findFlow (flows : List FlowRx) (flowId : Nat) : Option FlowRx :=
  flows.find? fun flow => flow.flowId = flowId

/-- `flow_get` with `create`: the flows afterwards, or `none` when the table is full. -/
def flowGet (env : RelayEnv) (flows : List FlowRx) (flowId : Nat) : Option (List FlowRx) :=
  if (findFlow flows flowId).isSome then some flows
  else if BATS_MAX_FLOWS ≤ flows.length then none
  else some (flows ++ [newFlow env.recodeSeed flowId])

def updateFlow (flows : List FlowRx) (flowId : Nat) (change : FlowRx → FlowRx) : List FlowRx :=
  flows.map fun flow => if flow.flowId = flowId then change flow else flow

def flowNoteMeta (pkt : LinePacket) (flow : FlowRx) : FlowRx :=
  if pkt.kPkts = 0 then flow
  else
    { flow with
      fileSize := pkt.fileSize
      kPkts := pkt.kPkts
      nBatches := pkt.nBatches
      nGens := pkt.nGens
      haveMeta := true }

def flowNoteComplete (flow : FlowRx) : FlowRx :=
  if flow.endSeen ∨ !flow.haveMeta then flow
  else
    let expect := flow.nGens * flow.nBatches
    if 0 < expect ∧ expect ≤ flow.fullN then { flow with endSeen := true } else flow

def FlushedGen.test (map : FlushedGen) (batch : Nat) : Bool :=
  if map.bits.length ≤ batch / 8 then false
  else (map.bits.getD (batch / 8) 0#8).getLsbD (batch % 8)

def batchWasFlushed (maps : List FlushedGen) (key : BatchKey) : Bool :=
  match maps.find? fun map => map.flowId = key.flowId ∧ map.gen = key.gen with
  | none => false
  | some map => map.test key.batch

/-- The bytes are extended with zeros up to the one of the batch. -/
def FlushedGen.mark (map : FlushedGen) (batch : Nat) : FlushedGen :=
  let bits := map.bits ++ List.replicate (batch / 8 + 1 - map.bits.length) 0#8
  { map with
    bits := bits.set (batch / 8) (bits.getD (batch / 8) 0#8 ||| 1#8 <<< (batch % 8)) }

def markFlushed : List FlushedGen → BatchKey → List FlushedGen
  | [], key => [FlushedGen.mark ⟨key.flowId, key.gen, []⟩ key.batch]
  | map :: rest, key =>
    if map.flowId = key.flowId ∧ map.gen = key.gen then map.mark key.batch :: rest
    else map :: markFlushed rest key

def RelaySlot.ready (batsM : Nat) (force : Bool) (slot : RelaySlot) : Bool :=
  decide (0 < slot.n) && (force || decide (slot.n = batsM))

def RelaySlot.inputs (batsM : Nat) (slot : RelaySlot) : List CodedPacket :=
  (List.range batsM).filterMap slot.seen

def setRelaySlot (state : RelayState) (i : Nat) (slot : Option RelaySlot) : RelayState :=
  { state with slots := Function.update state.slots i slot }

def flushSlot (env : RelayEnv) (batsM : Nat) (state : RelayState) (i : Nat) (slot : RelaySlot) :
    Option RelayState :=
  match findFlow state.flows slot.key.flowId with
  | none => none
  | some flow =>
    let inputs := slot.inputs batsM
    if inputs.length = 0 then some (setRelaySlot state i none)
    else
      match env.recode inputs slot.symbolSize flow.recodeState with
      | none => none
      | some (outputs, recodeState) =>
        if outputs.length ≠ batsM then none
        else if !env.sendCoded flow slot.key outputs then none
        else
          let account (flow : FlowRx) : FlowRx :=
            flowNoteComplete
              { flow with
                recodeState
                fullN := if inputs.length < batsM then flow.fullN else flow.fullN + 1 }
          some
            { slots := Function.update state.slots i none
              flows := updateFlow state.flows slot.key.flowId account
              maps := markFlushed state.maps slot.key
              trace := state.trace ++ [.recoded slot.key inputs] }

/-- The order in which ready slots leave; the first of equal ones is kept. -/
def RelaySlot.before (left right : RelaySlot) : Bool :=
  decide (left.key.gen < right.key.gen) ||
    (decide (left.key.gen = right.key.gen) && decide (left.key.batch < right.key.batch))

/-- One turn of the search of `flush_ready`. -/
def readyStep (batsM : Nat) (force : Bool) (slots : Nat → Option RelaySlot)
    (best : Option (Nat × RelaySlot)) (i : Nat) : Option (Nat × RelaySlot) :=
  match slots i with
  | none => best
  | some slot =>
    if !slot.ready batsM force then best
    else
      match best with
      | none => some (i, slot)
      | some (j, old) => if slot.before old then some (i, slot) else some (j, old)

def bestReady (nSlots batsM : Nat) (force : Bool) (slots : Nat → Option RelaySlot) :
    Option (Nat × RelaySlot) :=
  (List.range nSlots).foldl (readyStep batsM force slots) none

/-- Each pass empties a slot, so `fuel` is the number of slots. -/
def flushReadyLoop (env : RelayEnv) (nSlots batsM : Nat) (force : Bool) :
    Nat → RelayState → Option RelayState
  | 0, state => some state
  | fuel + 1, state =>
    match bestReady nSlots batsM force state.slots with
    | none => some state
    | some (i, slot) =>
      (flushSlot env batsM state i slot).bind (flushReadyLoop env nSlots batsM force fuel)

def flushReady (env : RelayEnv) (nSlots batsM : Nat) (force : Bool) (state : RelayState) :
    Option RelayState :=
  flushReadyLoop env nSlots batsM force nSlots state

inductive SlotChoice where
  | slot (i : Nat)
  | full
  deriving DecidableEq, Repr

def slotOfKey (nSlots : Nat) (slots : Nat → Option RelaySlot) (key : BatchKey) : Option Nat :=
  firstIndex (fun i => (slots i).any fun slot => decide (slot.key = key)) nSlots

def freeSlot (nSlots : Nat) (slots : Nat → Option RelaySlot) : Option Nat :=
  firstIndex (fun i => (slots i).isNone) nSlots

def takeSlot (env : RelayEnv) (nSlots batsM : Nat) (state : RelayState) (key : BatchKey) :
    Option (SlotChoice × RelayState) :=
  match slotOfKey nSlots state.slots key with
  | some i => some (.slot i, state)
  | none =>
    match freeSlot nSlots state.slots with
    | some i => some (.slot i, state)
    | none =>
      (flushReady env nSlots batsM false state).map fun flushed =>
        match freeSlot nSlots flushed.slots with
        | some i => (.slot i, flushed)
        | none => (.full, flushed)

def storeInSlot (state : RelayState) (i : Nat) (pkt : LinePacket) : RelayState :=
  let slot := (state.slots i).getD ⟨pkt.key, pkt.symbolSize, 0, fun _ => none⟩
  setRelaySlot state i (some
    { slot with
      n := slot.n + 1
      seen := Function.update slot.seen pkt.index (some pkt.coded) })

inductive RelayVerdict where
  | done
  | noSlot
  deriving DecidableEq, Repr

def noteProcessed (state : RelayState) (pkt : LinePacket) : RelayState :=
  { state with trace := state.trace ++ [.processed pkt.key pkt.index] }

/-- `noSlot` is the answer -3, `none` the answer -1. -/
def relayOnPacket (env : RelayEnv) (nSlots batsM : Nat) (state : RelayState) (pkt : LinePacket) :
    Option (RelayVerdict × RelayState) :=
  (flowGet env state.flows pkt.key.flowId).bind fun flows =>
    let state := { state with flows := updateFlow flows pkt.key.flowId (flowNoteMeta pkt) }
    if batchWasFlushed state.maps pkt.key then some (.done, noteProcessed state pkt)
    else
      (takeSlot env nSlots batsM state pkt.key).map fun
        | (.full, state) => (.noSlot, state)
        | (.slot i, state) =>
          let stale := (state.slots i).any fun slot =>
            decide (slot.symbolSize ≠ pkt.symbolSize ∨ slot.key.flowId ≠ pkt.key.flowId) ||
              (slot.seen pkt.index).isSome
          (.done, noteProcessed (if stale then state else storeInSlot state i pkt) pkt)

def relayOnData (env : RelayEnv) (nSlots batsM : Nat) (state : RelayState) (buf : List UInt8) :
    Option (RelayVerdict × RelayState) :=
  match parseData batsM buf with
  | none => some (.done, state)
  | some pkt => relayOnPacket env nSlots batsM state pkt

end MultiFlow.Bats
