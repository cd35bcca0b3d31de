import MultiFlow.Lib.Transition
import MultiFlow.Dispatch.MixedQueue

/-!
# Producers blocked on the mixed queue

Any number of producers call `mixed_queue_push` while the dispatcher alternates
`mixed_queue_try_pop_batch` and `mixed_queue_pop`.  A step is one critical section, one return
from `pthread_cond_wait` without a signal, or the start of a push; an action names the thread and
the producer that a signal of `not_full` wakes.
-/

namespace MultiFlow.Dispatch

open Function Lib

inductive ProducerState (Packet : Type) where
  | outside
  | calling (pkt : Packet)
  | waiting (pkt : Packet)
  | signalled (pkt : Packet)

namespace ProducerState

variable {Packet : Type}

def waits : ProducerState Packet → Nat
  | waiting _ => 1
  | _ => 0

def woken : ProducerState Packet → Nat
  | signalled _ => 1
  | _ => 0

theorem woken_le (st : ProducerState Packet) : st.woken ≤ 1 := by
  cases st with
  | outside | calling _ | waiting _ => exact Nat.zero_le 1
  | signalled => exact le_rfl

def broadcast : ProducerState Packet → ProducerState Packet
  | waiting pkt => signalled pkt
  | other => other

end ProducerState

/-- Where the dispatcher is in its loop; `sleeping` is the wait on `not_empty` inside
`mixed_queue_pop`. -/
inductive ConsumerState where
  | batching
  | popping
  | sleeping
  | stopped
  deriving DecidableEq, Repr

def ConsumerState.signalled : ConsumerState → ConsumerState
  | sleeping => popping
  | other => other

structure QueueSystem (Producer Packet : Type) where
  mixed : MixedQueue Packet
  producers : Producer → ProducerState Packet
  consumer : ConsumerState

/-- `tryPopBatch` carries whether the dispatcher, after an empty batch, has neither progress nor
deferred packets and so goes on to the blocking pop. -/
inductive QueueAction (Producer Packet : Type) where
  | call (producer : Producer) (pkt : Packet)
  | run (producer : Producer)
  | spurious (producer : Producer)
  | tryPopBatch (woken : Option Producer) (blocks : Bool)
  | pop (woken : Option Producer)
  | spuriousConsumer
  | shutdown

section System

variable {Producer Packet : Type} [Fintype Producer] [DecidableEq Producer]

/-- A signal of `not_full` wakes one of the waiting producers and is lost if there is none. -/
def signalNotFull (signals : Bool) (producers : Producer → ProducerState Packet)
    (woken : Option Producer) : Option (Producer → ProducerState Packet) :=
  if signals then
    match woken with
    | some producer =>
      match producers producer with
      | .waiting pkt => some (update producers producer (.signalled pkt))
      | _ => none
    | none => if ∑ producer, (producers producer).waits = 0 then some producers else none
  else some producers

def pushStep (sys : QueueSystem Producer Packet) (producer : Producer) (pkt : Packet) :
    QueueSystem Producer Packet :=
  match mixedQueuePush sys.mixed pkt with
  | none => { sys with producers := update sys.producers producer (.waiting pkt) }
  | some release =>
    { mixed := release.queue
      producers := update sys.producers producer .outside
      consumer := if release.notEmpty then sys.consumer.signalled else sys.consumer }

def afterBatch (answer : List Packet × Bool) (blocks : Bool) : ConsumerState :=
  if answer.1.isEmpty && answer.2 then .stopped
  else if answer.1.isEmpty && blocks then .popping
  else .batching

def queueStep (sys : QueueSystem Producer Packet) :
    QueueAction Producer Packet → Option (QueueSystem Producer Packet)
  | .call producer pkt =>
    match sys.producers producer with
    | .outside =>
      some { sys with producers := update sys.producers producer (.calling pkt) }
    | _ => none
  | .run producer =>
    match sys.producers producer with
    | .calling pkt => some (pushStep sys producer pkt)
    | .signalled pkt => some (pushStep sys producer pkt)
    | _ => none
  | .spurious producer =>
    match sys.producers producer with
    | .waiting pkt =>
      some { sys with producers := update sys.producers producer (.calling pkt) }
    | _ => none
  | .tryPopBatch woken blocks =>
    if sys.consumer = .batching then
      let release := mixedQueueTryPopBatch sys.mixed fmDispatchBatch
      (signalNotFull release.notFull sys.producers woken).map fun producers =>
        { mixed := release.queue, producers, consumer := afterBatch release.answer blocks }
    else none
  | .pop woken =>
    if sys.consumer = .popping then
      match mixedQueuePop sys.mixed with
      | none => some { sys with consumer := .sleeping }
      | some release =>
        (signalNotFull release.notFull sys.producers woken).map fun producers =>
          { mixed := release.queue
            producers
            consumer := if release.answer.1 = .ok then .batching else .stopped }
    else none
  | .spuriousConsumer =>
    if sys.consumer = .sleeping then some { sys with consumer := .popping } else none
  | .shutdown =>
    some
      { mixed := mixedQueueShutdown sys.mixed
        producers := fun producer => (sys.producers producer).broadcast
        consumer := sys.consumer.signalled }

/-- The queue after `mixed_queue_init`, with the dispatcher about to take its first batch. -/
def QueueSystem.initial (Producer : Type) (filler : Packet) (capacity : Nat)
    (positive : 0 < capacity) : QueueSystem Producer Packet where
  mixed := mixedQueueInit filler capacity positive
  producers := fun _ => .outside
  consumer := .batching

namespace QueueSystem

variable (sys : QueueSystem Producer Packet)

def waiting : Nat :=
  ∑ producer, (sys.producers producer).waits

def signalled : Nat :=
  ∑ producer, (sys.producers producer).woken

/-- A producer waits although there is room, and nobody is about to run because of a signal. -/
def Stranded : Prop :=
  sys.mixed.shutdown = false ∧ 0 < sys.waiting ∧ sys.mixed.full = false ∧ sys.signalled = 0

/-- The signals a batch pop sends: one if the queue is full. -/
def batchSignals : Nat := sys.mixed.full.toNat

/-- A batch pop leaves nobody waiting, or no more room than there are producers woken for it. -/
def Covered : Prop :=
  sys.waiting ≤ sys.batchSignals ∨
    sys.mixed.ring.capacity ≤
      sys.mixed.ring.count - fmDispatchBatch + (sys.signalled + sys.batchSignals)

instance (sys : QueueSystem Producer Packet) : Decidable sys.Stranded :=
  inferInstanceAs (Decidable (_ ∧ _ ∧ _ ∧ _))

instance (sys : QueueSystem Producer Packet) : Decidable sys.Covered :=
  inferInstanceAs (Decidable (_ ∨ _))

end QueueSystem

/-- Runs in which every batch pop is taken in a covered state. -/
def batchesCovered (sys : QueueSystem Producer Packet) : QueueAction Producer Packet → Prop
  | .tryPopBatch _ _ => sys.Covered
  | _ => True

instance (sys : QueueSystem Producer Packet) :
    ∀ action : QueueAction Producer Packet, Decidable (batchesCovered sys action)
  | .tryPopBatch _ _ => inferInstanceAs (Decidable sys.Covered)
  | .call _ _ | .run _ | .spurious _ | .pop _ | .spuriousConsumer | .shutdown =>
    inferInstanceAs (Decidable True)

namespace QueueSystem

variable {sys : QueueSystem Producer Packet} {producer : Producer}

theorem waiting_update (sys : QueueSystem Producer Packet) (producer : Producer)
    (next : ProducerState Packet) :
    ∑ i, (update sys.producers producer next i).waits + (sys.producers producer).waits =
      sys.waiting + next.waits :=
  sum_update ProducerState.waits sys.producers (Finset.mem_univ producer) next

theorem signalled_update (sys : QueueSystem Producer Packet) (producer : Producer)
    (next : ProducerState Packet) :
    ∑ i, (update sys.producers producer next i).woken + (sys.producers producer).woken =
      sys.signalled + next.woken :=
  sum_update ProducerState.woken sys.producers (Finset.mem_univ producer) next

omit [DecidableEq Producer] in
theorem exists_waiting (some_waits : 0 < sys.waiting) :
    ∃ producer pkt, sys.producers producer = .waiting pkt := by
  obtain ⟨producer, _, positive⟩ := Finset.exists_ne_zero_of_sum_ne_zero some_waits.ne'
  cases st : sys.producers producer with
  | waiting pkt => exact ⟨producer, pkt, st⟩
  | outside | calling pkt | signalled pkt =>
    rw [st] at positive
    exact absurd rfl positive

omit [DecidableEq Producer] in
theorem exists_signalled (some_woken : 0 < sys.signalled) :
    ∃ producer pkt, sys.producers producer = .signalled pkt := by
  obtain ⟨producer, _, positive⟩ := Finset.exists_ne_zero_of_sum_ne_zero some_woken.ne'
  cases st : sys.producers producer with
  | signalled pkt => exact ⟨producer, pkt, st⟩
  | outside | calling pkt | waiting pkt =>
    rw [st] at positive
    exact absurd rfl positive

variable {woken : Option Producer} {pkt : Packet} {after : QueueSystem Producer Packet}

theorem signalNotFull_counts {producers : Producer → ProducerState Packet}
    (signalled : signalNotFull true sys.producers woken = some producers) :
    sys.waiting = 0 ∧ producers = sys.producers ∨
      ∑ i, (producers i).waits + 1 = sys.waiting ∧
        ∑ i, (producers i).woken = sys.signalled + 1 := by
  unfold signalNotFull at signalled
  rw [if_pos rfl] at signalled
  cases woken with
  | none =>
    dsimp only at signalled
    split at signalled
    next nobody =>
      cases signalled
      exact Or.inl ⟨nobody, rfl⟩
    next => cases signalled
  | some producer =>
    dsimp only at signalled
    split at signalled
    next pkt st =>
      cases signalled
      have waits := sys.waiting_update producer (.signalled pkt)
      have woken := sys.signalled_update producer (.signalled pkt)
      rw [st] at waits woken
      exact Or.inr ⟨waits, woken⟩
    next => cases signalled

/-- While somebody waits, every free slot has a signalled producer of its own. -/
def Balanced (sys : QueueSystem Producer Packet) : Prop :=
  sys.mixed.shutdown = false → 0 < sys.waiting →
    sys.mixed.ring.capacity ≤ sys.mixed.ring.count + sys.signalled

omit [DecidableEq Producer] in
theorem Balanced.not_stranded (balanced : sys.Balanced) : ¬sys.Stranded := by
  rintro ⟨running, somebody, room, nobody⟩
  have covered := balanced running somebody
  rw [nobody] at covered
  exact absurd (room_of_not_full room) (by omega)

theorem pushStep_room (pkt : Packet) (running : sys.mixed.shutdown = false)
    (room : sys.mixed.full = false) (awake : (sys.producers producer).waits = 0) :
    (pushStep sys producer pkt).mixed = { sys.mixed with ring := sys.mixed.ring.push pkt } ∧
      (pushStep sys producer pkt).waiting = sys.waiting ∧
      (pushStep sys producer pkt).signalled + (sys.producers producer).woken = sys.signalled := by
  have waits := sys.waiting_update producer .outside
  have woken := sys.signalled_update producer .outside
  rw [awake] at waits
  unfold pushStep
  rw [mixedQueuePush_open pkt running, room]
  exact ⟨rfl, waits, woken⟩

omit [Fintype Producer] in
theorem pushStep_full (running : sys.mixed.shutdown = false) (full : sys.mixed.full = true) :
    (pushStep sys producer pkt).mixed = sys.mixed := by
  unfold pushStep
  rw [mixedQueuePush_open pkt running, full]
  rfl

omit [Fintype Producer] in
theorem pushStep_shutdown (down : sys.mixed.shutdown = true) :
    (pushStep sys producer pkt).mixed = sys.mixed := by
  have section_eq : mixedQueuePush sys.mixed pkt = some ⟨.errShutdown, sys.mixed, false, false⟩ := by
    unfold mixedQueuePush
    rw [down]
    simp
  unfold pushStep
  rw [section_eq]

theorem Balanced.pushStep (balanced : sys.Balanced) (awake : (sys.producers producer).waits = 0) :
    (Dispatch.pushStep sys producer pkt).Balanced := by
  intro runningAfter somebody
  cases down : sys.mixed.shutdown with
  | true =>
    rw [pushStep_shutdown down, down] at runningAfter
    cases runningAfter
  | false =>
    cases full : sys.mixed.full with
    | true =>
      rw [pushStep_full down full, full_iff.mp full]
      exact Nat.le_add_right _ _
    | false =>
      obtain ⟨mixed_eq, waiting_eq, _⟩ := pushStep_room pkt down full awake
      have covered := balanced down (waiting_eq ▸ somebody)
      have woken_le := (sys.producers producer).woken_le
      rw [mixed_eq]
      rw [RingBuffer.capacity_push, RingBuffer.count_push pkt (room_of_not_full full)]
      omega

/-- Taking packets out leaves a balanced state if nobody is left waiting or every free slot has
its signal. -/
theorem balanced_of_pops {signals : Bool} (freed : Nat)
    (signalled : signalNotFull signals sys.producers woken = some after.producers)
    (capacity_eq : after.mixed.ring.capacity = sys.mixed.ring.capacity)
    (count_eq : after.mixed.ring.count = sys.mixed.ring.count - freed)
    (covered : sys.waiting ≤ signals.toNat ∨ sys.mixed.ring.capacity ≤
      sys.mixed.ring.count - freed + (sys.signalled + signals.toNat)) : after.Balanced := by
  intro _ somebody
  rw [capacity_eq, count_eq]
  cases signals with
  | false =>
    have same : sys.producers = after.producers := Option.some.inj signalled
    unfold waiting at somebody covered
    unfold QueueSystem.signalled at covered ⊢
    rw [same, Bool.toNat_false] at covered
    omega
  | true =>
    rw [Bool.toNat_true] at covered
    obtain ⟨nobody, same⟩ | ⟨waits, woken⟩ := signalNotFull_counts signalled
    · unfold waiting at somebody nobody
      rw [same] at somebody
      omega
    · change after.waiting + 1 = sys.waiting at waits
      change after.signalled = sys.signalled + 1 at woken
      omega

theorem balanced_of_batch {blocks : Bool} (covered : sys.Covered)
    (taken : queueStep sys (.tryPopBatch woken blocks) = some after) : after.Balanced := by
  dsimp only [queueStep] at taken
  split at taken
  next =>
    obtain ⟨_, signalled, rfl⟩ := Option.map_eq_some_iff.mp taken
    rw [mixedQueueTryPopBatch_notFull _ (by decide)] at signalled
    refine balanced_of_pops fmDispatchBatch signalled ?_ ?_ covered
    · rw [mixedQueueTryPopBatch_queue]
      exact RingBuffer.capacity_popMany _ _
    · rw [mixedQueueTryPopBatch_queue]
      exact RingBuffer.count_popMany _ _
  next => cases taken

theorem Balanced.pop (balanced : sys.Balanced) (taken : queueStep sys (.pop woken) = some after) :
    after.Balanced := by
  dsimp only [queueStep] at taken
  split at taken
  next =>
    split at taken
    next =>
      cases taken
      exact balanced
    rename_i popped
    obtain ⟨_, signalled, rfl⟩ := Option.map_eq_some_iff.mp taken
    intro running
    obtain ⟨down, rfl⟩ | ⟨nonempty, rfl⟩ := mixedQueuePop_cases popped
    · exact absurd running (by rw [down]; exact Bool.noConfusion)
    refine balanced_of_pops 1 signalled (RingBuffer.capacity_pop _)
      (RingBuffer.count_pop _) ?_ running
    rw [Bool.toNat_true]
    have covered := balanced running
    omega
  next => cases taken

theorem Balanced.enters (balanced : sys.Balanced)
    (unsignalled : (sys.producers producer).woken = 0) :
    Balanced { sys with producers := update sys.producers producer (.calling pkt) } := by
  intro running _
  have waits : waiting { sys with producers := update sys.producers producer _ } +
      (sys.producers producer).waits = sys.waiting + 0 := sys.waiting_update producer (.calling pkt)
  have woken : signalled { sys with producers := update sys.producers producer _ } +
      (sys.producers producer).woken = sys.signalled + 0 :=
    sys.signalled_update producer (.calling pkt)
  have covered := balanced running (by omega)
  dsimp only at *
  omega

theorem Balanced.step {action : QueueAction Producer Packet} (balanced : sys.Balanced)
    (covered : batchesCovered sys action) (taken : queueStep sys action = some after) :
    after.Balanced := by
  cases action with
  | call | spurious =>
    dsimp only [queueStep] at taken
    split at taken
    next st =>
      cases taken
      exact balanced.enters (by rw [st]; rfl)
    next => cases taken
  | run =>
    dsimp only [queueStep] at taken
    split at taken
    iterate 2
      next st =>
        cases taken
        exact balanced.pushStep (by rw [st]; rfl)
    next => cases taken
  | tryPopBatch => exact balanced_of_batch covered taken
  | pop => exact balanced.pop taken
  | spuriousConsumer =>
    dsimp only [queueStep] at taken
    split at taken
    next =>
      cases taken
      exact balanced
    next => cases taken
  | shutdown =>
    cases taken
    intro running
    cases running

theorem strands_of_excess (running : sys.mixed.shutdown = false) (somebody : 0 < sys.waiting)
    (excess : sys.mixed.ring.count + sys.signalled < sys.mixed.ring.capacity) :
    ∃ later, Reaches queueStep anyStep sys later ∧ later.Stranded := by
  -- Each signalled producer takes one slot and is then gone, so the excess stays.
  induction count_eq : sys.signalled generalizing sys with
  | zero =>
    refine ⟨sys, .start, running, somebody, decide_eq_false ?_, count_eq⟩
    omega
  | succ _ ih =>
    have signalled : 0 < sys.signalled := by omega
    obtain ⟨producer, pkt, st⟩ := exists_signalled signalled
    have room : sys.mixed.full = false := decide_eq_false (by omega)
    obtain ⟨mixed_eq, _⟩ := pushStep_room pkt running room (by rw [st]; rfl)
    have taken : queueStep sys (.run producer) = some (pushStep sys producer pkt) := by
      dsimp only [queueStep]
      rw [st]
    have woken : (sys.producers producer).woken = 1 := by
      rw [st]
      rfl
    have runningAfter : (pushStep sys producer pkt).mixed.shutdown = false := by
      rw [mixed_eq]
      exact running
    have excessAfter : (pushStep sys producer pkt).mixed.ring.count +
        (pushStep sys producer pkt).signalled <
          (pushStep sys producer pkt).mixed.ring.capacity := by
      have filled := RingBuffer.count_push pkt (room_of_not_full room)
      rw [mixed_eq]
      dsimp only
      rw [RingBuffer.capacity_push]
      omega
    obtain ⟨later, run, stranded⟩ := ih runningAfter (by omega) excessAfter (by omega)
    exact ⟨later, run.prepend (.run producer) trivial taken, stranded⟩

theorem exists_signal (signals : Bool) (somebody : 0 < sys.waiting) :
    ∃ woken producers, signalNotFull signals sys.producers woken = some producers ∧
      ∑ i, (producers i).waits + signals.toNat = sys.waiting ∧
      ∑ i, (producers i).woken = sys.signalled + signals.toNat := by
  cases signals with
  | false => exact ⟨none, sys.producers, rfl, rfl, rfl⟩
  | true =>
    obtain ⟨producer, pkt, st⟩ := exists_waiting somebody
    have signalled : signalNotFull true sys.producers (some producer) =
        some (update sys.producers producer (.signalled pkt)) := by
      unfold signalNotFull
      dsimp only
      rw [if_pos rfl, st]
    obtain ⟨nobody, -⟩ | counts := signalNotFull_counts signalled
    · exact absurd nobody somebody.ne'
    · exact ⟨some producer, _, signalled, counts⟩

theorem strands_of_uncovered (running : sys.mixed.shutdown = false)
    (turn : sys.consumer = .batching) (uncovered : ¬sys.Covered) :
    ∃ later, Reaches queueStep anyStep sys later ∧ later.Stranded := by
  obtain ⟨_⟩ := not_or.mp uncovered
  have somebody : 0 < sys.waiting := by omega
  obtain ⟨woken, producers, signalled, waits, woken_eq⟩ := exists_signal sys.mixed.full somebody
  let after : QueueSystem Producer Packet :=
    { mixed := (mixedQueueTryPopBatch sys.mixed fmDispatchBatch).queue
      producers
      consumer := afterBatch (mixedQueueTryPopBatch sys.mixed fmDispatchBatch).answer false }
  have taken : queueStep sys (.tryPopBatch woken false) = some after := by
    dsimp only [queueStep]
    rw [if_pos turn, mixedQueueTryPopBatch_notFull _ (by decide), signalled]
    rfl
  have mixed_eq : after.mixed = _ := mixedQueueTryPopBatch_queue sys.mixed fmDispatchBatch
  change after.waiting + sys.batchSignals = sys.waiting at waits
  change after.signalled = sys.signalled + sys.batchSignals at woken_eq
  have runningAfter : after.mixed.shutdown = false := by
    rw [mixed_eq]
    exact running
  have excessAfter :
      after.mixed.ring.count + after.signalled < after.mixed.ring.capacity := by
    rw [mixed_eq]
    rw [RingBuffer.capacity_popMany, RingBuffer.count_popMany]
    omega
  obtain ⟨later, run, stranded⟩ := strands_of_excess runningAfter (by omega) excessAfter
  exact ⟨later, run.prepend (.tryPopBatch woken false) trivial taken, stranded⟩

end QueueSystem

/-- No producer is stranded in a run whose batch pops are all covered, for any number of
producers and any capacity; and wherever the dispatcher takes a batch that is not covered, a
producer can be stranded. -/
theorem no_stranded_producer (filler : Packet) (capacity : Nat) (positive : 0 < capacity)
    (sys : QueueSystem Producer Packet) (run : Reaches queueStep batchesCovered
      (QueueSystem.initial Producer filler capacity positive) sys) :
    ¬sys.Stranded ∧
      (sys.mixed.shutdown = false → sys.consumer = .batching → ¬sys.Covered →
        ∃ later, Reaches queueStep anyStep sys later ∧ later.Stranded) := by
  refine ⟨?_, QueueSystem.strands_of_uncovered⟩
  refine QueueSystem.Balanced.not_stranded (run.invariant QueueSystem.Balanced ?_ ?_)
  · intro _ somebody
    exact absurd (Finset.sum_const_zero (s := Finset.univ)) somebody.ne'
  · intro _ _ _ balanced covered taken
    exact balanced.step covered taken

end System

theorem no_stranded_producer_single :
    ∃ sys : QueueSystem (Fin 1) Nat,
      Reaches queueStep batchesCovered (QueueSystem.initial (Fin 1) 0 1 Nat.one_pos) sys ∧
        sys.signalled = 1 ∧ sys.mixed.full = false ∧ ¬sys.Stranded := by
  obtain ⟨sys, run, seen⟩ : ∃ sys : QueueSystem (Fin 1) Nat,
      Reaches queueStep batchesCovered (QueueSystem.initial (Fin 1) 0 1 Nat.one_pos) sys ∧
        decide (sys.signalled = 1 ∧ sys.mixed.full = false) = true :=
    Reaches.exists_of_actions
      [.call 0 10, .run 0, .call 0 11, .run 0, .tryPopBatch (some 0) false] _ (by decide +kernel)
  obtain ⟨woken, room⟩ := of_decide_eq_true seen
  exact ⟨sys, run, woken, room, (no_stranded_producer 0 1 Nat.one_pos sys run).1⟩

/-- Two producers wait on a full queue of two slots.  The batch pop empties it and wakes one of
them; the other stays blocked while the dispatcher goes to sleep on the empty queue. -/
theorem batch_strands_producer :
    ∃ sys : QueueSystem (Fin 2) Nat,
      Reaches queueStep anyStep (QueueSystem.initial (Fin 2) 0 2 Nat.two_pos) sys ∧
        sys.Stranded ∧ sys.mixed.ring.count = 0 ∧ sys.consumer = .sleeping := by
  obtain ⟨sys, run, seen⟩ : ∃ sys : QueueSystem (Fin 2) Nat,
      Reaches queueStep anyStep (QueueSystem.initial (Fin 2) 0 2 Nat.two_pos) sys ∧
        decide (sys.Stranded ∧ sys.mixed.ring.count = 0 ∧ sys.consumer = .sleeping) = true :=
    Reaches.exists_of_actions
      [.call 0 10, .run 0, .call 0 11, .run 0, .call 0 12, .run 0, .call 1 13, .run 1,
        .tryPopBatch (some 0) false, .run 0, .tryPopBatch none false, .tryPopBatch none true,
        .pop none] _ (by decide +kernel)
  exact ⟨sys, run, of_decide_eq_true seen⟩

end MultiFlow.Dispatch
