import MultiFlow.Dispatch.FlowManager

/-!
# What a flow worker does with its packets

`flow_worker_thread` takes packets from the queue of its flow and hands each one to a relay queue
or writes it to a sink and frees it.  The log holds the packets that were dequeued, those that the
relay queue took and one entry for each call of `packet_free`.
-/

namespace MultiFlow.Dispatch

inductive FlowWorkerStatus where
  | ok
  | errShutdown
  | errSystem

structure WorkerSinks where
  hasRelayQueue : Bool
  hasEncode : Bool

/-- What the calls for one packet answer.  A full relay queue is waited for, so its enqueue fails
only when the queue is shut down. -/
structure WorkerAnswers where
  relayShutdown : Bool
  outLen : Int
  encodedWritten : Bool
  packetWritten : Bool

def WorkerAnswers.enqueue (answers : WorkerAnswers) : FlowBufferStatus :=
  if answers.relayShutdown then .errShutdown else .ok

/-- Without a relay queue a packet that is not encoded is written as it is. -/
def WorkerAnswers.written (answers : WorkerAnswers) (sinks : WorkerSinks) : Bool :=
  if sinks.hasEncode ∧ 0 < answers.outLen then answers.encodedWritten else answers.packetWritten

structure PacketLog (Packet : Type) where
  dequeued : List Packet
  relayed : List Packet
  freed : List Packet

section Model

variable {Packet : Type} (sinks : WorkerSinks)

def packetFree (log : PacketLog Packet) (pkt : Packet) : PacketLog Packet :=
  { log with freed := log.freed ++ [pkt] }

def emitPacket (log : PacketLog Packet) (pkt : Packet) (answers : WorkerAnswers) :
    FlowWorkerStatus × PacketLog Packet :=
  if sinks.hasRelayQueue then
    match answers.enqueue with
    | .ok => (.ok, { log with relayed := log.relayed ++ [pkt] })
    | .errShutdown => (.errShutdown, packetFree log pkt)
    | .errFull => (.errSystem, packetFree log pkt)
  else (if answers.written sinks then .ok else .errSystem, log)

/-- The result is negative when the worker has to end. -/
def handleOne (log : PacketLog Packet) (pkt : Packet) (answers : WorkerAnswers) :
    Int × PacketLog Packet :=
  match emitPacket sinks log pkt answers with
  | (.errShutdown, log) => (-1, log)
  | (.errSystem, log) => (0, packetFree log pkt)
  | (.ok, log) => if sinks.hasRelayQueue then (0, log) else (0, packetFree log pkt)

def handleBatch (log : PacketLog Packet) : List (Packet × WorkerAnswers) → Int × PacketLog Packet
  | [] => (0, log)
  | (pkt, answers) :: rest =>
    let handled := handleOne sinks log pkt answers
    if handled.1 < 0 then handled else handleBatch handled.2 rest

/-- The turns of the loop, each with the packets that it dequeues.  The run ends with the list or
with the turn that ends the thread. -/
def flowWorkerThread (log : PacketLog Packet) :
    List (List (Packet × WorkerAnswers)) → PacketLog Packet
  | [] => log
  | batch :: turns =>
    let taken := { log with dequeued := log.dequeued ++ batch.map Prod.fst }
    let handled := handleBatch sinks taken batch
    if handled.1 < 0 then handled.2 else flowWorkerThread handled.2 turns

/-- Only the last packet of a batch meets a relay queue that is shut down. -/
def ShutdownLast (batch : List (Packet × WorkerAnswers)) : Prop :=
  sinks.hasRelayQueue = true → ∀ call ∈ batch.dropLast, call.2.relayShutdown = false

end Model

section Conservation

variable {Packet : Type} (sinks : WorkerSinks) (log : PacketLog Packet)

/-- The packets that the worker has handed on or freed. -/
def PacketLog.settled (log : PacketLog Packet) : List Packet := log.relayed ++ log.freed

theorem handleOne_settles (pkt : Packet) (answers : WorkerAnswers) :
    (handleOne sinks log pkt answers).2.settled.Perm (log.settled ++ [pkt]) ∧
      (handleOne sinks log pkt answers).2.dequeued = log.dequeued ∧
      ((handleOne sinks log pkt answers).1 < 0 →
        sinks.hasRelayQueue = true ∧ answers.relayShutdown = true) := by
  unfold handleOne emitPacket WorkerAnswers.enqueue
  cases relay : sinks.hasRelayQueue with
  | true =>
    cases closed : answers.relayShutdown with
    | true => simp [packetFree, PacketLog.settled]
    | false =>
      refine ⟨?_, rfl, by simp⟩
      have moved := (List.perm_append_singleton pkt log.freed).symm.append_left log.relayed
      simpa [PacketLog.settled] using moved
  | false =>
    cases answers.written sinks <;> simp [packetFree, PacketLog.settled]

theorem handleBatch_settles (batch : List (Packet × WorkerAnswers))
    (last : ShutdownLast sinks batch) :
    (handleBatch sinks log batch).2.settled.Perm (log.settled ++ batch.map Prod.fst) ∧
      (handleBatch sinks log batch).2.dequeued = log.dequeued := by
  induction batch generalizing log with
  | nil => simp [handleBatch]
  | cons call rest ih =>
    obtain ⟨pkt, answers⟩ := call
    obtain ⟨settled, dequeued, ends⟩ := handleOne_settles sinks log pkt answers
    rw [handleBatch]
    split
    next ended =>
      -- the batch ends here, so this is its last packet
      obtain ⟨relay, closed⟩ := ends ended
      cases rest with
      | nil => exact ⟨settled, dequeued⟩
      | cons next more =>
        have served := last relay (pkt, answers) (by simp)
        rw [served] at closed
        cases closed
    next =>
      have lastOfRest : ShutdownLast sinks rest := by
        intro relay other mem
        cases rest with
        | nil => cases mem
        | cons next more => exact last relay other (List.mem_cons_of_mem _ mem)
      obtain ⟨restSettled, restDequeued⟩ := ih (handleOne sinks log pkt answers).2 lastOfRest
      refine ⟨restSettled.trans ?_, restDequeued.trans dequeued⟩
      simpa using settled.append_right (rest.map Prod.fst)

/-- With a relay queue, nothing is freed before the last packet. -/
theorem handleOne_settled (pkt : Packet) (answers : WorkerAnswers)
    (kept : sinks.hasRelayQueue = true → log.freed = []) :
    (handleOne sinks log pkt answers).2.settled = log.settled ++ [pkt] ∧
      (¬(handleOne sinks log pkt answers).1 < 0 → sinks.hasRelayQueue = true →
        (handleOne sinks log pkt answers).2.freed = []) := by
  unfold handleOne emitPacket WorkerAnswers.enqueue
  cases relay : sinks.hasRelayQueue with
  | true =>
    cases answers.relayShutdown <;> simp [packetFree, PacketLog.settled, kept relay]
  | false =>
    cases answers.written sinks <;> simp [packetFree, PacketLog.settled]

theorem handleBatch_settled (batch : List (Packet × WorkerAnswers))
    (kept : sinks.hasRelayQueue = true → log.freed = []) :
    let handled := handleBatch sinks log batch
    handled.2.dequeued = log.dequeued ∧
      handled.2.settled <+: log.settled ++ batch.map Prod.fst ∧
      (¬handled.1 < 0 → handled.2.settled = log.settled ++ batch.map Prod.fst ∧
        (sinks.hasRelayQueue = true → handled.2.freed = [])) := by
  induction batch generalizing log with
  | nil => simpa [handleBatch] using kept
  | cons call rest ih =>
    obtain ⟨pkt, answers⟩ := call
    have dequeued := (handleOne_settles sinks log pkt answers).2.1
    obtain ⟨settled, freed⟩ := handleOne_settled sinks log pkt answers kept
    rw [handleBatch]
    split
    next ended =>
      exact ⟨dequeued, by simp [settled], fun goes => absurd ended goes⟩
    next goes => simpa [settled, dequeued] using ih _ (freed goes)

end Conservation

/-- While only last packets of batches meet a relay queue that is shut down, the worker hands on or
frees each packet that it dequeues, and does so once. -/
theorem worker_conserves_packets {Packet : Type} (sinks : WorkerSinks)
    (turns : List (List (Packet × WorkerAnswers)))
    (last : ∀ batch ∈ turns, ShutdownLast sinks batch) :
    let log := flowWorkerThread sinks ⟨[], [], []⟩ turns
    (log.relayed ++ log.freed).Perm log.dequeued := by
  suffices kept : ∀ log : PacketLog Packet, log.settled.Perm log.dequeued →
      (flowWorkerThread sinks log turns).settled.Perm (flowWorkerThread sinks log turns).dequeued
    from kept ⟨[], [], []⟩ .nil
  induction turns with
  | nil => exact fun _ kept => kept
  | cons batch rest ih =>
    intro log kept
    rw [List.forall_mem_cons] at last
    let taken : PacketLog Packet :=
      { log with dequeued := log.dequeued ++ batch.map Prod.fst }
    obtain ⟨settled, dequeued⟩ := handleBatch_settles sinks taken batch last.1
    have balanced : (handleBatch sinks taken batch).2.settled.Perm
        (handleBatch sinks taken batch).2.dequeued := by
      rw [dequeued]
      exact settled.trans (kept.append_right _)
    rw [flowWorkerThread]
    split
    · exact balanced
    · exact ih last.2 _ balanced

def relaySinks : WorkerSinks := ⟨true, false⟩

def relayCall (pkt : Nat) (relayShutdown : Bool) : Nat × WorkerAnswers :=
  (pkt, ⟨relayShutdown, 0, true, true⟩)

theorem worker_conserves_packets_pair :
    let log := flowWorkerThread relaySinks ⟨[], [], []⟩ [[relayCall 0 false, relayCall 1 true]]
    log.freed = [1] ∧ (log.relayed ++ log.freed).Perm log.dequeued :=
  ⟨rfl, worker_conserves_packets relaySinks [[relayCall 0 false, relayCall 1 true]]
    (by simp [ShutdownLast, relayCall])⟩

/-- The relay queue is shut down when the first packet of a batch is handed on: the second one is
neither handed on nor freed. -/
theorem shutdown_leaks_batch :
    flowWorkerThread relaySinks ⟨[], [], []⟩ [[relayCall 0 true, relayCall 1 true]] =
      ⟨[0, 1], [], [0]⟩ := rfl

/-- Whatever the queue and the sinks answer, the worker settles its packets in the order in which it
dequeues them: those it relays first, and only the last ones can be left. -/
theorem worker_settles_in_order {Packet : Type} (sinks : WorkerSinks)
    (turns : List (List (Packet × WorkerAnswers))) :
    let log := flowWorkerThread sinks ⟨[], [], []⟩ turns
    log.relayed ++ log.freed <+: log.dequeued := by
  suffices kept : ∀ log : PacketLog Packet, log.settled = log.dequeued →
      (sinks.hasRelayQueue = true → log.freed = []) →
      (flowWorkerThread sinks log turns).settled <+: (flowWorkerThread sinks log turns).dequeued
    from kept ⟨[], [], []⟩ rfl fun _ => rfl
  induction turns with
  | nil => exact fun _ same _ => same ▸ List.prefix_rfl
  | cons batch rest ih =>
    intro log same kept
    obtain ⟨dequeued, settled, goes⟩ := handleBatch_settled sinks
      { log with dequeued := log.dequeued ++ batch.map Prod.fst } batch kept
    rw [flowWorkerThread]
    split
    next =>
      rw [dequeued]
      exact same ▸ settled
    next running =>
      obtain ⟨all, freed⟩ := goes running
      refine ih _ ?_ freed
      rw [dequeued, all]
      exact congrArg (· ++ _) same

end MultiFlow.Dispatch
