import MultiFlow.Lib.RingBuffer

/-!
# The mixed queue

`mixed_queue.c`: the bounded queue between the producers of all flows and the dispatcher.  Each
function is one critical section and says which condition variables it signals.  A section that
would call `pthread_cond_wait` answers `none`; the caller runs it again after a wake-up.
-/

namespace MultiFlow.Dispatch

open Lib

def fmDispatchBatch : Nat := 32

inductive MixedQueueStatus where
  | ok
  | errShutdown
  deriving DecidableEq, Repr

structure MixedQueue (Packet : Type) where
  ring : RingBuffer Packet
  shutdown : Bool

/-- What a critical section leaves: its answer, the queue and the condition variables it
signals. -/
structure Release (Answer Packet : Type) where
  answer : Answer
  queue : MixedQueue Packet
  notFull : Bool
  notEmpty : Bool

namespace MixedQueue

variable {Packet : Type}

def full (mq : MixedQueue Packet) : Bool := decide (mq.ring.count = mq.ring.capacity)

end MixedQueue

variable {Packet : Type}

def mixedQueueInit (filler : Packet) (capacity : Nat) (positive : 0 < capacity) : MixedQueue Packet where
  ring := RingBuffer.empty filler capacity positive
  shutdown := false

def mixedQueuePush (mq : MixedQueue Packet) (pkt : Packet) :
    Option (Release MixedQueueStatus Packet) :=
  if mq.full && !mq.shutdown then none
  else if mq.shutdown then some ⟨.errShutdown, mq, false, false⟩
  else some ⟨.ok, { mq with ring := mq.ring.push pkt }, false, true⟩

def mixedQueuePop (mq : MixedQueue Packet) :
    Option (Release (MixedQueueStatus × Option Packet) Packet) :=
  if mq.ring.count = 0 then
    if mq.shutdown then some ⟨(.errShutdown, none), mq, false, false⟩ else none
  else some ⟨(.ok, some mq.ring.front), { mq with ring := mq.ring.pop }, true, false⟩

/-- Answers the packets taken out and `saw_shutdown`.  Unlike `mixed_queue_pop`, it signals
`not_full` only when the queue was full, and once however many packets it takes. -/
def mixedQueueTryPopBatch (mq : MixedQueue Packet) (maxN : Nat) :
    Release (List Packet × Bool) Packet :=
  if maxN = 0 then ⟨([], false), mq, false, false⟩
  else if mq.ring.count = 0 then ⟨([], mq.shutdown), mq, false, false⟩
  else
    let popped := mq.ring.popMany maxN
    ⟨(popped.1, false), { mq with ring := popped.2 }, decide (0 < popped.1.length) && mq.full,
      false⟩

def mixedQueueShutdown (mq : MixedQueue Packet) : MixedQueue Packet := { mq with shutdown := true }

variable {mq : MixedQueue Packet}

theorem full_iff : mq.full = true ↔ mq.ring.count = mq.ring.capacity :=
  decide_eq_true_iff

theorem room_of_not_full (room : mq.full = false) : mq.ring.count < mq.ring.capacity := by
  have bound := mq.ring.count_le
  have apart : ¬mq.ring.count = mq.ring.capacity := of_decide_eq_false room
  omega

theorem mixedQueuePush_open (pkt : Packet) (running : mq.shutdown = false) :
    mixedQueuePush mq pkt =
      if mq.full then none else some ⟨.ok, { mq with ring := mq.ring.push pkt }, false, true⟩ := by
  unfold mixedQueuePush
  rw [running]
  simp

theorem mixedQueuePop_cases {release : Release (MixedQueueStatus × Option Packet) Packet}
    (taken : mixedQueuePop mq = some release) :
    mq.shutdown = true ∧ release = ⟨(.errShutdown, none), mq, false, false⟩ ∨
      0 < mq.ring.count ∧
        release = ⟨(.ok, some mq.ring.front), { mq with ring := mq.ring.pop }, true, false⟩ := by
  unfold mixedQueuePop at taken
  split at taken
  next =>
    split at taken
    next down => exact Or.inl ⟨down, (Option.some.inj taken).symm⟩
    next => cases taken
  next ne => exact Or.inr ⟨Nat.pos_of_ne_zero ne, (Option.some.inj taken).symm⟩

theorem mixedQueueTryPopBatch_queue (mq : MixedQueue Packet) (maxN : Nat) :
    (mixedQueueTryPopBatch mq maxN).queue = { mq with ring := (mq.ring.popMany maxN).2 } := by
  unfold mixedQueueTryPopBatch
  split
  next zero => rw [zero]; rfl
  split
  next empty => rw [RingBuffer.popMany_empty maxN empty]
  next => rfl

theorem mixedQueueTryPopBatch_packets (mq : MixedQueue Packet) (maxN : Nat) :
    (mixedQueueTryPopBatch mq maxN).answer.1 = (mq.ring.popMany maxN).1 := by
  unfold mixedQueueTryPopBatch
  split
  next zero => rw [zero]; rfl
  split
  next empty => rw [RingBuffer.popMany_empty maxN empty]
  next => rfl

theorem mixedQueueTryPopBatch_notFull (mq : MixedQueue Packet) {maxN : Nat} (pos : 0 < maxN) :
    (mixedQueueTryPopBatch mq maxN).notFull = mq.full := by
  unfold mixedQueueTryPopBatch
  rw [if_neg pos.ne']
  split
  next empty =>
    have room := mq.ring.positive
    exact (decide_eq_false (by omega)).symm
  next ne =>
    have taken : 0 < (mq.ring.popMany maxN).1.length :=
      List.length_pos_of_ne_nil fun nothing =>
        ne ((RingBuffer.popMany_eq_nil_iff pos).mp nothing)
    simp [taken]

end MultiFlow.Dispatch
