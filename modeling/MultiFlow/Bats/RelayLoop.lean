import MultiFlow.Bats.RelayIntegrity

/-!
# The main loop of the relay

`run_relay` between its receive queue and its exit.  A pass takes a datagram from the queue, or
finds it empty and polls.  A poll reads the clock for the deadline and again in `relay_wait_ms`;
both readings, in milliseconds since the last arrival, belong to the event.  The receiving thread,
its ring and `held_push` succeed.
-/

namespace MultiFlow.Bats

open Lib Wire

def BATS_LINE_MAGIC : Nat := 0x42415453

def BATS_LINE_VERSION : UInt8 := 1

def BATS_LINE_DATA : UInt8 := 1

def BATS_LINE_END : UInt8 := 2

structure RelayConfig where
  idleSec : Nat
  expectFlows : Nat
  deriving DecidableEq, Repr

inductive LoopStatus where
  | running
  | exited
  | failed
  deriving DecidableEq, Repr

/-- `received` is the history of the keys that arrived; nothing reads it. -/
structure LoopState where
  relay : RelayState
  held : List (List UInt8)
  status : LoopStatus
  received : List BatchKey

inductive LoopEvent where
  | packet (buf : List UInt8)
  | poll (elapsedMs waitMs : Nat)

def LoopState.initial : LoopState := ⟨.initial, [], .running, []⟩

def flowsAllEnded (config : RelayConfig) (flows : List FlowRx) : Bool :=
  let expect := if 0 < config.expectFlows then config.expectFlows else 1
  flows.all (fun flow => flow.endSeen) && decide (expect ≤ flows.length)

def idleDeadlineMs (idleSec : Nat) (ended : Bool) : Nat :=
  if ended then idleSec * 1000 else idleSec * 1000 * 3

def relayHasPartial (nSlots batsM : Nat) (slots : Nat → Option RelaySlot) : Bool :=
  (List.range nSlots).any fun i =>
    (slots i).any fun slot => decide (0 < slot.n) && decide (slot.n < batsM)

/-- The pass over the held packets.  Before the deadline each packet that finds a slot is followed
by a flush, in the final sweep it is not. -/
def retryHeld (env : RelayEnv) (nSlots batsM : Nat) (flushing : Bool) :
    List (List UInt8) → RelayState → Option (List (List UInt8) × RelayState)
  | [], relay => some ([], relay)
  | buf :: rest, relay =>
    match relayOnData env nSlots batsM relay buf with
    | none => none
    | some (.noSlot, relay) =>
      (retryHeld env nSlots batsM flushing rest relay).map fun (kept, relay) =>
        (buf :: kept, relay)
    | some (.done, relay) =>
      (if flushing then flushReady env nSlots batsM false relay else some relay).bind
        (retryHeld env nSlots batsM flushing rest)

def onEnd (env : RelayEnv) (batsM : Nat) (relay : RelayState) (buf : List UInt8) :
    Option RelayState :=
  let pkt := lineFields batsM buf
  (flowGet env relay.flows pkt.key.flowId).map fun flows =>
    { relay with
      flows := updateFlow flows pkt.key.flowId fun flow =>
        { flowNoteMeta pkt flow with endSeen := true } }

def LoopState.fail (state : LoopState) : LoopState := { state with status := .failed }

def onPacket (env : RelayEnv) (nSlots batsM : Nat) (state : LoopState) (buf : List UInt8) :
    LoopState :=
  if buf.length < BATS_LINE_HDR ∨ field buf 0 4 ≠ BATS_LINE_MAGIC ∨
      buf.getD 4 0 ≠ BATS_LINE_VERSION then state
  else if buf.getD 5 0 = BATS_LINE_END then
    match onEnd env batsM state.relay buf with
    | none => state.fail
    | some relay => { state with relay }
  else if buf.getD 5 0 ≠ BATS_LINE_DATA then state
  else
    let state :=
      { state with
        received := state.received ++ ((parseData batsM buf).map LinePacket.key).toList }
    match relayOnData env nSlots batsM state.relay buf with
    | none => state.fail
    | some (.noSlot, relay) => { state with relay, held := state.held ++ [buf] }
    | some (.done, relay) =>
      match flushReady env nSlots batsM false relay with
      | none => state.fail
      | some relay => { state with relay }

def finalSweep (env : RelayEnv) (nSlots batsM : Nat) (state : LoopState) : LoopState :=
  let swept := do
    let relay ← flushReady env nSlots batsM true state.relay
    let (held, relay) ← retryHeld env nSlots batsM false state.held relay
    let relay ← flushReady env nSlots batsM true relay
    pure (held, relay)
  match swept with
  | none => state.fail
  | some (held, relay) =>
    { state with relay, held, status := if held.isEmpty then .exited else .failed }

def pollDeadline (env : RelayEnv) (nSlots batsM : Nat) (config : RelayConfig) (state : LoopState)
    (elapsedMs waitMs : Nat) : LoopState :=
  let noted :=
    { state.relay with flows := state.relay.flows.map flowNoteComplete }
  match flushReady env nSlots batsM false noted with
  | none => state.fail
  | some relay =>
    let state := { state with relay }
    let heldSome := !state.held.isEmpty
    let incomplete := relayHasPartial nSlots batsM relay.slots
    let ended := flowsAllEnded config relay.flows
    let deadline := idleDeadlineMs config.idleSec ended
    if heldSome ∧ !incomplete then state
    else if !heldSome ∧ ended ∧ !incomplete then { state with status := .exited }
    else if 0 < config.idleSec ∧ deadline ≤ elapsedMs then
      if !ended then state.fail else finalSweep env nSlots batsM state
    -- `relay_wait_ms` answers -1.
    else if 0 < config.idleSec ∧ deadline ≤ waitMs then state.fail
    else state

def onPoll (env : RelayEnv) (nSlots batsM : Nat) (config : RelayConfig) (state : LoopState)
    (elapsedMs waitMs : Nat) : LoopState :=
  if state.held.isEmpty then pollDeadline env nSlots batsM config state elapsedMs waitMs
  else
    match retryHeld env nSlots batsM true state.held state.relay with
    | none => state.fail
    | some (held, relay) =>
      let state := { state with relay, held }
      if held.isEmpty then state
      else pollDeadline env nSlots batsM config state elapsedMs waitMs

def loopStep (env : RelayEnv) (nSlots batsM : Nat) (config : RelayConfig) (state : LoopState)
    (event : LoopEvent) : Option LoopState :=
  if state.status ≠ .running then none
  else
    match event with
    | .packet buf => some (onPacket env nSlots batsM state buf)
    | .poll elapsedMs waitMs => some (onPoll env nSlots batsM config state elapsedMs waitMs)

end MultiFlow.Bats
