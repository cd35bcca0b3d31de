import MultiFlow.Lib.RingBuffer
import MultiFlow.Lib.Transition
import Mathlib.Data.List.Infix

/-!
# The fair dequeuer of the relay

`egress_queue.c`: a bounded queue of ACKs and one of DATA, and the dequeuer that prefers ACKs until
`ack_quota` of them went out in a row.  Each critical section is one step, and the steps of
producers may come between any two steps of a call of `egress_fair_dequeue`.
-/

namespace MultiFlow.Relay

open Function Lib

inductive EgressStatus where
  | ok
  | full
  | empty
  | shutdown
  deriving DecidableEq, Repr

inductive EgressKind where
  | ack
  | data
  deriving DecidableEq, Repr

structure EgressQueue (Packet : Type) where
  ring : RingBuffer Packet
  shutdown : Bool

/-- Where a call of `egress_fair_dequeue` stands; `second` knows which queue is left to try and what
the other one answered. -/
inductive EgressPhase where
  | idle
  | start
  | first (observed : UInt64)
  | second (observed : UInt64) (kind : EgressKind) (answer : EgressStatus)
  | wait (observed : UInt64)
  deriving DecidableEq

/-- A call that returned: the queue it served, or none at shutdown, and whether during the whole call
the DATA queue was not empty and the ACK queue was empty. -/
structure EgressReturn where
  kind : Option EgressKind
  stocked : Bool
  bare : Bool
  deriving DecidableEq

/-- `owed` counts the enqueues whose `waiter_notify` is still to come.  Of the running call, `missed`
counts the notifications since it read the generation and `steps` its own steps; `stocked` and
`bare` describe it as in `EgressReturn`, and `returns` has the last call first. -/
structure EgressFair (Packet : Type) where
  queue : EgressKind → EgressQueue Packet
  consecutiveAcks : Nat
  generation : UInt64
  owed : Nat
  missed : Nat
  phase : EgressPhase
  steps : Nat
  stocked : Bool
  bare : Bool
  returns : List EgressReturn

section Model

variable {Packet : Type}

def egressQueueTryEnqueue (q : EgressQueue Packet) (pkt : Packet) (preferHead : Bool) :
    EgressStatus × EgressQueue Packet :=
  if q.shutdown then (.shutdown, q)
  else if q.ring.capacity ≤ q.ring.count then (.full, q)
  else (.ok, { q with ring := if preferHead then q.ring.pushFront pkt else q.ring.push pkt })

def egressQueueTryDequeue (q : EgressQueue Packet) :
    Except EgressStatus (Packet × EgressQueue Packet) :=
  if q.ring.count = 0 then .error (if q.shutdown then .shutdown else .empty)
  else .ok (q.ring.front, { q with ring := q.ring.pop })

/-- The capacities that `egress_queue_init` accepts. -/
structure EgressCapacity where
  slots : EgressKind → Nat
  positive : ∀ kind, 0 < slots kind

def egressFairDequeuerInit (filler : Packet) (capacity : EgressCapacity) : EgressFair Packet where
  queue := fun kind => ⟨.empty filler _ (capacity.positive kind), false⟩
  consecutiveAcks := 0
  generation := 0
  owed := 0
  missed := 0
  phase := .idle
  steps := 0
  stocked := false
  bare := false
  returns := []

def EgressFair.finish (fair : EgressFair Packet) (kind : Option EgressKind) : EgressFair Packet :=
  { fair with phase := .idle, returns := ⟨kind, fair.stocked, fair.bare⟩ :: fair.returns }

def EgressFair.serve (fair : EgressFair Packet) (kind : EgressKind) (q : EgressQueue Packet)
    (consecutiveAcks : Nat) : EgressFair Packet :=
  { fair.finish (some kind) with queue := update fair.queue kind q, consecutiveAcks }

/-- The queue that is tried first depends on the ACKs served in a row. -/
def tryFirst (ackQuota : Nat) (fair : EgressFair Packet) (observed : UInt64) : EgressFair Packet :=
  if ackQuota ≤ fair.consecutiveAcks then
    match egressQueueTryDequeue (fair.queue .data) with
    | .ok (_, q) => fair.serve .data q 0
    | .error answer => { fair with phase := .second observed .ack answer }
  else
    match egressQueueTryDequeue (fair.queue .ack) with
    | .ok (_, q) => fair.serve .ack q (fair.consecutiveAcks + 1)
    | .error answer => { fair with phase := .second observed .data answer }

def trySecond (fair : EgressFair Packet) (observed : UInt64) (kind : EgressKind)
    (answer : EgressStatus) : EgressFair Packet :=
  match egressQueueTryDequeue (fair.queue kind) with
  | .ok (_, q) => fair.serve kind q (if kind = .data then 0 else fair.consecutiveAcks)
  | .error other =>
    if answer = .shutdown ∧ other = .shutdown then fair.finish none
    else { fair with phase := .wait observed }

/-- The record of the running call after a step. -/
def EgressFair.watch (fair : EgressFair Packet) : EgressFair Packet :=
  { fair with
    stocked := fair.stocked && (fair.queue .data).ring.count != 0
    bare := fair.bare && (fair.queue .ack).ring.count == 0 }

inductive EgressAction (Packet : Type) where
  | enqueue (kind : EgressKind) (pkt : Packet) (preferHead : Bool)
  | shutdown (kind : EgressKind)
  | notify
  | call
  | proceed

/-- One step of a call: the waiter's generation is read, a queue is tried, or the wait is over. -/
def egressProceed (ackQuota : Nat) (fair : EgressFair Packet) : Option (EgressFair Packet) :=
  match fair.phase with
  | .idle => none
  | .start => some { fair with phase := .first fair.generation, missed := 0 }
  | .first observed => some (tryFirst ackQuota fair observed)
  | .second observed kind answer => some (trySecond fair observed kind answer)
  | .wait observed =>
    if observed = fair.generation then none else some { fair with phase := .start }

def egressStep (ackQuota : Nat) (fair : EgressFair Packet) :
    EgressAction Packet → Option (EgressFair Packet)
  | .enqueue kind pkt preferHead =>
    let (status, q) := egressQueueTryEnqueue (fair.queue kind) pkt preferHead
    some { fair with
      queue := update fair.queue kind q
      owed := if status = EgressStatus.ok then fair.owed + 1 else fair.owed }.watch
  | .shutdown kind => some { fair with
      queue := update fair.queue kind { fair.queue kind with shutdown := true }
      owed := fair.owed + 1 }.watch
  | .notify =>
    if fair.owed = 0 then none
    else some { fair with
      owed := fair.owed - 1
      generation := fair.generation + 1
      missed := fair.missed + 1 }
  | .call =>
    if fair.phase = .idle then
      some { fair with phase := .start, steps := 0, stocked := true, bare := true }.watch
    else none
  | .proceed => (egressProceed ackQuota { fair with steps := fair.steps + 1 }).map EgressFair.watch

end Model

section Fairness

variable {Packet : Type} {ackQuota : Nat} {fair : EgressFair Packet}

/-- Calls that returned an ACK while DATA was there all the time. -/
def Starved (run : List EgressReturn) : Prop :=
  ∀ ret ∈ run, ret.kind = some .ack ∧ ret.stocked = true

/-- The steps that a call has made which did not have to wait. -/
def EgressPhase.made : EgressPhase → Option Nat
  | .start => some 0
  | .first _ => some 1
  | .second _ _ _ => some 2
  | _ => none

structure EgressOk (ackQuota : Nat) (fair : EgressFair Packet) : Prop where
  quota : fair.consecutiveAcks ≤ ackQuota
  stocked : fair.stocked = true → (fair.queue .data).ring.count ≠ 0
  bare : fair.bare = true → (fair.queue .ack).ring.count = 0
  second : ∀ observed answer, fair.phase = .second observed .ack answer → fair.stocked = false
  wait : ∀ observed, fair.phase = .wait observed → fair.stocked = false
  steps : fair.stocked = true → ∀ n, fair.phase.made = some n → fair.steps = n
  recent : ∀ run, run <+: fair.returns → Starved run → run.length ≤ fair.consecutiveAcks
  starved : ∀ run, run <:+: fair.returns → Starved run → run.length ≤ ackQuota
  served : ∀ ret ∈ fair.returns, ret.stocked = true → ret.bare = true → ret.kind = some .data

theorem watch_now (after : EgressFair Packet) :
    (after.watch.stocked = true → (after.watch.queue .data).ring.count ≠ 0) ∧
      (after.watch.bare = true → (after.watch.queue .ack).ring.count = 0) := by
  simp [EgressFair.watch]

theorem watch_stocked {after : EgressFair Packet} (watched : after.watch.stocked = true) :
    after.stocked = true :=
  (Bool.and_eq_true_iff.mp watched).1

/-- A step with which a call returns a packet, or its first or second one. -/
def Advances (fair after : EgressFair Packet) : Prop :=
  (∃ kind, after.returns = ⟨some kind, true, fair.bare⟩ :: fair.returns) ∨
    after.phase ≠ .idle ∧ after.stocked = true ∧ after.returns = fair.returns ∧
      after.steps = fair.steps + 1 ∧ after.steps < 3

/-- What a step of a call can do. -/
inductive CallStep (ackQuota : Nat) (fair : EgressFair Packet) : EgressFair Packet → Prop
  | read : fair.phase = .start →
      CallStep ackQuota fair { fair with phase := .first fair.generation, missed := 0 }
  | tried {observed : UInt64} {left : EgressKind} {answer : EgressStatus} :
      fair.phase = .first observed → (∀ kind ≠ left, (fair.queue kind).ring.count = 0) →
      CallStep ackQuota fair { fair with phase := .second observed left answer }
  | data {q : EgressQueue Packet} : CallStep ackQuota fair (fair.serve .data q 0)
  | ack {q : EgressQueue Packet} :
      (fair.queue .ack).ring.count ≠ 0 → fair.consecutiveAcks < ackQuota →
      CallStep ackQuota fair (fair.serve .ack q (fair.consecutiveAcks + 1))
  | lastAck {observed : UInt64} {answer : EgressStatus} {q : EgressQueue Packet} :
      fair.phase = .second observed .ack answer →
      CallStep ackQuota fair (fair.serve .ack q fair.consecutiveAcks)
  | closed {observed : UInt64} {left : EgressKind} {answer : EgressStatus} :
      fair.phase = .second observed left answer → (fair.queue left).ring.count = 0 →
      CallStep ackQuota fair (fair.finish none)
  | waits {observed : UInt64} {left : EgressKind} {answer : EgressStatus} :
      fair.phase = .second observed left answer → (fair.queue left).ring.count = 0 →
      CallStep ackQuota fair { fair with phase := .wait observed }
  | woken {observed : UInt64} : fair.phase = .wait observed →
      CallStep ackQuota fair { fair with phase := .start }

variable {after : EgressFair Packet}

theorem egressProceed_callStep (taken : egressProceed ackQuota fair = some after) :
    CallStep ackQuota fair after := by
  unfold egressProceed at taken
  split at taken
  · cases taken
  next start =>
    cases taken
    exact .read start
  next first =>
    cases taken
    unfold tryFirst egressQueueTryDequeue
    split
    · by_cases none : (fair.queue .data).ring.count = 0
      · simp only [if_pos none]
        exact .tried first fun | .ack, other => absurd rfl other | .data, _ => none
      · simp only [if_neg none]
        exact .data
    next below =>
      by_cases none : (fair.queue .ack).ring.count = 0
      · simp only [if_pos none]
        exact .tried first fun | .ack, _ => none | .data, other => absurd rfl other
      · simp only [if_neg none]
        exact .ack none (Nat.not_le.mp below)
  next left _ second =>
    cases taken
    unfold trySecond egressQueueTryDequeue
    by_cases none : (fair.queue left).ring.count = 0
    · simp only [if_pos none]
      generalize (if (fair.queue left).shutdown = true then _ else _) = other
      split
      · exact .closed second none
      · exact .waits second none
    · simp only [if_neg none]
      cases left with
      | ack => exact .lastAck second
      | data => exact .data
  next waiting =>
    simp only [Option.ite_none_left_eq_some, Option.some.injEq] at taken
    obtain ⟨-, rfl⟩ := taken
    exact .woken waiting

variable (ok : EgressOk ackQuota fair)
include ok

theorem EgressOk.watch (acks_eq : after.consecutiveAcks = fair.consecutiveAcks)
    (returns_eq : after.returns = fair.returns)
    (second : ∀ observed answer, after.phase = .second observed .ack answer →
      after.watch.stocked = false)
    (wait : ∀ observed, after.phase = .wait observed → after.watch.stocked = false)
    (steps : after.stocked = true → ∀ n, after.phase.made = some n → after.steps = n) :
    EgressOk ackQuota after.watch where
  quota := acks_eq ▸ ok.quota
  stocked := (watch_now after).1
  bare := (watch_now after).2
  second := second
  wait := wait
  steps := fun watched => steps (watch_stocked watched)
  recent := by
    change ∀ run, run <+: after.returns → _ → _ ≤ after.consecutiveAcks
    rw [returns_eq, acks_eq]
    exact ok.recent
  starved := returns_eq ▸ ok.starved
  served := returns_eq ▸ ok.served

theorem EgressOk.aside (queue : EgressKind → EgressQueue Packet) (owed : Nat) :
    EgressOk ackQuota { fair with queue, owed }.watch :=
  ok.watch rfl rfl
    (fun observed answer busy => by simp [EgressFair.watch, ok.second observed answer busy])
    (fun observed busy => by simp [EgressFair.watch, ok.wait observed busy]) ok.steps

theorem EgressOk.finish {ret : EgressReturn} (phase_eq : after.phase = .idle)
    (returns_eq : after.returns = ret :: fair.returns) (quota : after.consecutiveAcks ≤ ackQuota)
    (counted : Starved [ret] → after.consecutiveAcks = fair.consecutiveAcks + 1)
    (served : ret.stocked = true → ret.bare = true → ret.kind = some .data) :
    EgressOk ackQuota after.watch := by
  have recent : ∀ run, run <+: ret :: fair.returns → Starved run →
      run.length ≤ after.consecutiveAcks := by
    intro run begins starved
    cases run with
    | nil => exact Nat.zero_le _
    | cons _ rest =>
      obtain ⟨rfl, earlier⟩ := List.cons_prefix_cons.mp begins
      rw [counted fun ret mem => starved ret (by simp [List.mem_singleton.mp mem])]
      exact Nat.succ_le_succ
        (ok.recent rest earlier fun ret mem => starved ret (List.mem_cons_of_mem _ mem))
  have idle : ∀ {phase : EgressPhase}, after.phase = phase → phase = .idle :=
    fun busy => busy.symm.trans phase_eq
  refine ⟨quota, (watch_now after).1, (watch_now after).2, ?_, ?_, ?_, ?_, ?_, ?_⟩
  · intro _ _ busy
    cases idle busy
  · intro _ busy
    cases idle busy
  · intro _ n made
    change after.phase.made = some n at made
    rw [phase_eq] at made
    cases made
  · exact returns_eq ▸ recent
  · change ∀ run, run <:+: after.returns → _
    rw [returns_eq]
    intro run inside starved
    rcases List.infix_cons_iff.mp inside with begins | earlier
    · exact (recent run begins starved).trans quota
    · exact ok.starved run earlier starved
  · change ∀ other ∈ after.returns, _
    rw [returns_eq, List.forall_mem_cons]
    exact ⟨served, ok.served⟩

theorem EgressOk.unstocked {observed : UInt64} {left : EgressKind} {answer : EgressStatus}
    (second : fair.phase = .second observed left answer)
    (none : (fair.queue left).ring.count = 0) : fair.stocked = false := by
  cases left with
  | ack => exact ok.second _ _ second
  | data => exact Bool.eq_false_of_not_eq_true fun set => ok.stocked set none

theorem EgressOk.proceed
    (taken : egressProceed ackQuota { fair with steps := fair.steps + 1 } = some after) :
    EgressOk ackQuota after.watch := by
  cases egressProceed_callStep taken with
  | read start =>
    refine ok.watch rfl rfl nofun nofun ?_
    rintro stocked n ⟨⟩
    exact congrArg (· + 1) (ok.steps stocked 0 (congrArg EgressPhase.made start))
  | tried first empty =>
    refine ok.watch rfl rfl ?_ nofun ?_
    · rintro _ _ ⟨⟩
      simp [EgressFair.watch, show (fair.queue .data).ring.count = 0 from empty .data nofun]
    · rintro stocked n ⟨⟩
      exact congrArg (· + 1) (ok.steps stocked 1 (congrArg EgressPhase.made first))
  | data =>
    refine ok.finish rfl rfl (Nat.zero_le _) (fun starved => ?_) fun _ _ => rfl
    cases (starved _ List.mem_cons_self).1
  | ack held below =>
    exact ok.finish rfl rfl below (fun _ => rfl) fun _ bare => absurd (ok.bare bare) held
  | lastAck second =>
    have never := ok.second _ _ second
    refine ok.finish rfl rfl ok.quota (fun starved => ?_) fun set => ?_
    · cases never.symm.trans (starved _ List.mem_cons_self).2
    · cases never.symm.trans set
  | closed second none =>
    refine ok.finish rfl rfl ok.quota (fun starved => ?_) fun set => ?_
    · cases (starved _ List.mem_cons_self).1
    · cases (ok.unstocked second none).symm.trans set
  | waits second none =>
    have never := ok.unstocked second none
    exact ok.watch rfl rfl nofun (fun _ _ => by simp [EgressFair.watch, never]) nofun
  | woken wait =>
    refine ok.watch rfl rfl nofun nofun fun stocked => ?_
    cases (ok.wait _ wait).symm.trans stocked

theorem EgressOk.step {action : EgressAction Packet}
    (taken : egressStep ackQuota fair action = some after) : EgressOk ackQuota after := by
  cases action with
  | enqueue | shutdown =>
    cases taken
    exact ok.aside _ _
  | notify =>
    simp only [egressStep, Option.ite_none_left_eq_some, Option.some.injEq] at taken
    obtain ⟨-, rfl⟩ := taken
    exact { ok with }
  | call =>
    simp only [egressStep, Option.ite_none_right_eq_some, Option.some.injEq] at taken
    obtain ⟨-, rfl⟩ := taken
    refine ok.watch rfl rfl nofun nofun ?_
    rintro _ n ⟨⟩
    rfl
  | proceed =>
    obtain ⟨_, going, rfl⟩ := Option.map_eq_some_iff.mp taken
    exact ok.proceed going

theorem EgressOk.progress (running : fair.phase ≠ .idle) (stocked : fair.stocked = true) :
    ∃ after, egressStep ackQuota fair .proceed = some after ∧ Advances fair after := by
  obtain ⟨after, going⟩ : ∃ after,
      egressProceed ackQuota { fair with steps := fair.steps + 1 } = some after := by
    unfold egressProceed
    cases phase : fair.phase with
    | idle => exact absurd phase running
    | wait => cases (ok.wait _ phase).symm.trans stocked
    | start | first | second => exact ⟨_, rfl⟩
  refine ⟨after.watch, congrArg (Option.map EgressFair.watch) going, ?_⟩
  have goes {n : Nat} (made : fair.phase.made = some n) (few : n < 2) : fair.steps + 1 < 3 := by
    have := ok.steps stocked n made
    omega
  have watched : (fair.stocked && (fair.queue .data).ring.count != 0) = true := by
    simp [stocked, ok.stocked stocked]
  cases egressProceed_callStep going with
  | read start =>
    exact Or.inr ⟨nofun, watched, rfl, rfl, goes (congrArg EgressPhase.made start) (by decide)⟩
  | tried first =>
    exact Or.inr ⟨nofun, watched, rfl, rfl, goes (congrArg EgressPhase.made first) (by decide)⟩
  | data | ack | lastAck => exact Or.inl ⟨_, congrArg (EgressReturn.mk _ · _ :: _) stocked⟩
  | closed second none | waits second none => cases (ok.unstocked second none).symm.trans stocked
  | woken wait => cases (ok.wait _ wait).symm.trans stocked

end Fairness

variable {Packet : Type}

/-- In every interleaving at most `ackQuota` calls in a row return an ACK while the DATA queue is not
empty during each of them; a call during which the ACK queue is empty and the DATA queue is not
returns DATA.  As long as the DATA queue is not empty a call does not wait: it returns with a packet
by its third step, whatever comes between its steps. -/
theorem egress_fairness {ackQuota : Nat} {filler : Packet} {capacity : EgressCapacity}
    {fair : EgressFair Packet}
    (run : Reaches (egressStep ackQuota) anyStep (egressFairDequeuerInit filler capacity) fair) :
    (∀ calls, calls <:+: fair.returns →
        (∀ ret ∈ calls, ret.kind = some .ack ∧ ret.stocked = true) → calls.length ≤ ackQuota) ∧
      (∀ ret ∈ fair.returns, ret.stocked = true → ret.bare = true → ret.kind = some .data) ∧
      (∀ observed, fair.phase = .wait observed → fair.stocked = false) ∧
      (fair.phase ≠ .idle → fair.stocked = true →
        ∃ after, egressStep ackQuota fair .proceed = some after ∧ Advances fair after) := by
  have ok : EgressOk ackQuota fair := by
    refine run.invariant (EgressOk ackQuota) ?_ fun _ _ _ ok _ => ok.step
    refine ⟨Nat.zero_le _, nofun, nofun, nofun, nofun, nofun, ?_, ?_, nofun⟩
    · intro run begins _
      rw [List.prefix_nil.mp begins]
      exact le_refl _
    · intro run inside _
      rw [List.infix_nil.mp inside]
      exact Nat.zero_le _
  exact ⟨ok.starved, ok.served, ok.wait, ok.progress⟩

def singleSlots : EgressCapacity := ⟨fun _ => 1, fun _ => Nat.one_pos⟩

theorem egress_fairness_one :
    ∃ fair : EgressFair Nat,
      Reaches (egressStep 1) anyStep (egressFairDequeuerInit 0 singleSlots) fair ∧
        fair.phase ≠ .idle ∧ fair.stocked = true ∧ fair.steps = 2 ∧
        ∃ after kind, egressStep 1 fair .proceed = some after ∧
          after.returns = [⟨some kind, true, true⟩] := by
  obtain ⟨fair, run, seen⟩ : ∃ fair : EgressFair Nat,
      Reaches (egressStep 1) anyStep (egressFairDequeuerInit 0 singleSlots) fair ∧
        decide (fair.phase ≠ .idle ∧ fair.stocked = true ∧ fair.steps = 2 ∧ fair.bare = true ∧
          fair.returns = []) = true :=
    Reaches.exists_of_actions [.enqueue .data 0 false, .call, .proceed, .proceed] _
      (by decide +kernel)
  obtain ⟨running, stocked, steps, bare, returns⟩ := of_decide_eq_true seen
  obtain ⟨after, taken, result⟩ := (egress_fairness run).2.2.2 running stocked
  rw [Advances, bare, returns] at result
  obtain ⟨kind, returned⟩ := result.resolve_right fun more => by omega
  exact ⟨fair, run, running, stocked, steps, after, kind, taken, returned⟩

section Wakeups

variable {ackQuota : Nat} {fair : EgressFair Packet}

def EgressPhase.observed : EgressPhase → Option UInt64
  | .first observed | .second observed _ _ | .wait observed => some observed
  | _ => none

/-- The queues that a call has found empty since. -/
def EgressPhase.tried : EgressPhase → EgressKind → Prop
  | .second _ left _, kind => kind ≠ left
  | .wait _, _ => True
  | _, _ => False

/-- A queue that is filled after a call has tried it has sent a notification, or is about to. -/
def Notified (fair : EgressFair Packet) : Prop :=
  ∀ observed, fair.phase.observed = some observed →
    fair.generation = observed + UInt64.ofNat fair.missed ∧
    ∀ kind, fair.phase.tried kind → (fair.queue kind).ring.count ≠ 0 →
      0 < fair.missed ∨ 0 < fair.owed

theorem egressQueueTryEnqueue_ok_or_same (q : EgressQueue Packet) (pkt : Packet)
    (preferHead : Bool) : (egressQueueTryEnqueue q pkt preferHead).1 = .ok ∨
      (egressQueueTryEnqueue q pkt preferHead).2 = q := by
  unfold egressQueueTryEnqueue
  split_ifs <;> simp

variable {after : EgressFair Packet}

theorem Notified.enqueue (notified : Notified fair) (kind : EgressKind) (pkt : Packet)
    (preferHead : Bool)
    (taken : egressStep ackQuota fair (.enqueue kind pkt preferHead) = some after) :
    Notified after := by
  have result := egressQueueTryEnqueue_ok_or_same (fair.queue kind) pkt preferHead
  simp only [egressStep] at taken
  generalize egressQueueTryEnqueue _ _ _ = answer at taken result
  obtain ⟨status, q⟩ := answer
  cases taken
  intro observed call
  have seen := notified observed call
  rcases result with ok | same
  · exact ⟨seen.1, fun _ _ _ => Or.inr (by simp [EgressFair.watch, show status = .ok from ok])⟩
  refine ⟨seen.1, fun other tried stocked => ?_⟩
  have before : (fair.queue other).ring.count ≠ 0 := by
    simpa [EgressFair.watch, show q = _ from same] using stocked
  refine (seen.2 other tried before).imp_right fun owes => ?_
  simp only [EgressFair.watch]
  split <;> omega

theorem Notified.proceed (notified : Notified fair)
    (taken : egressProceed ackQuota { fair with steps := fair.steps + 1 } = some after) :
    Notified after.watch := by
  cases egressProceed_callStep taken with
  | read =>
    rintro _ ⟨⟩
    exact ⟨(UInt64.add_zero _).symm, nofun⟩
  | tried first empty =>
    rintro _ ⟨⟩
    refine ⟨(notified _ (congrArg EgressPhase.observed first)).1, fun kind tried stocked => ?_⟩
    exact absurd (empty kind tried) stocked
  | waits second none =>
    rintro _ ⟨⟩
    obtain ⟨read, owes⟩ := notified _ (congrArg EgressPhase.observed second)
    refine ⟨read, fun kind _ stocked => owes kind ?_ stocked⟩
    rw [second]
    rintro rfl
    exact stocked none
  | data | ack | lastAck | closed | woken => nofun

theorem Notified.step (notified : Notified fair) {action : EgressAction Packet}
    (taken : egressStep ackQuota fair action = some after) : Notified after := by
  cases action with
  | enqueue kind pkt preferHead => exact notified.enqueue kind pkt preferHead taken
  | shutdown =>
    cases taken
    exact fun observed call => ⟨(notified observed call).1, fun _ _ _ => Or.inr (Nat.succ_pos _)⟩
  | notify =>
    simp only [egressStep, Option.ite_none_left_eq_some, Option.some.injEq] at taken
    obtain ⟨-, rfl⟩ := taken
    intro observed call
    refine ⟨?_, fun _ _ _ => Or.inl (Nat.succ_pos _)⟩
    rw [(notified observed call).1, UInt64.ofNat_add, ← UInt64.add_assoc]
    rfl
  | call =>
    simp only [egressStep, Option.ite_none_right_eq_some, Option.some.injEq] at taken
    obtain ⟨-, rfl⟩ := taken
    nofun
  | proceed =>
    obtain ⟨_, going, rfl⟩ := Option.map_eq_some_iff.mp taken
    exact notified.proceed going

end Wakeups

/-- While the dequeuer waits and a queue is not empty, the generation it waits on has moved on or a
producer is between its enqueue and its notification, unless 2^64 notifications came since the
generation was read. -/
theorem egress_no_lost_wakeup {ackQuota : Nat} {filler : Packet} {capacity : EgressCapacity}
    {fair : EgressFair Packet}
    (run : Reaches (egressStep ackQuota) anyStep (egressFairDequeuerInit filler capacity) fair)
    {observed : UInt64} (waiting : fair.phase = .wait observed) (few : fair.missed < 2 ^ 64)
    {kind : EgressKind} (stocked : (fair.queue kind).ring.count ≠ 0) :
    observed ≠ fair.generation ∨ 0 < fair.owed := by
  have notified : Notified fair :=
    run.invariant Notified (fun _ call => by cases call) fun _ _ _ holds _ => holds.step
  obtain ⟨read, tried⟩ := notified observed (by rw [waiting]; rfl)
  refine (tried kind (by rw [waiting]; trivial) stocked).imp_left fun missed same => ?_
  have moved := congrArg UInt64.toNat (same.trans read)
  rw [UInt64.toNat_add, UInt64.toNat_ofNat'] at moved
  have bound := observed.toNat_lt
  omega

/-- A packet comes after both queues were tried and before the wait. -/
theorem egress_no_lost_wakeup_late :
    ∃ fair : EgressFair Nat,
      Reaches (egressStep 1) anyStep (egressFairDequeuerInit 0 singleSlots) fair ∧
        fair.phase = .wait 0 ∧ (fair.queue .data).ring.toList = [7] ∧
        (0 ≠ fair.generation ∨ 0 < fair.owed) := by
  obtain ⟨fair, run, seen⟩ : ∃ fair : EgressFair Nat,
      Reaches (egressStep 1) anyStep (egressFairDequeuerInit 0 singleSlots) fair ∧
        decide (fair.phase = .wait 0 ∧ (fair.queue .data).ring.toList = [7] ∧
          fair.missed < 2 ^ 64 ∧ (fair.queue .data).ring.count ≠ 0) = true :=
    Reaches.exists_of_actions [.call, .proceed, .proceed, .proceed, .enqueue .data 7 false] _
      (by decide +kernel)
  obtain ⟨waiting, slots, few, stocked⟩ := of_decide_eq_true seen
  exact ⟨fair, run, waiting, slots, egress_no_lost_wakeup run waiting few stocked⟩

/-- Each call of `egress_queue_shutdown` notifies the waiter once more. -/
theorem shutdowns_notify (n : Nat) {fair : EgressFair Packet}
    (stocked : fair.watch.stocked = fair.stocked) (bare : fair.watch.bare = fair.bare)
    (closed : { fair.queue .data with shutdown := true } = fair.queue .data) :
    Reaches (egressStep 1) anyStep fair { fair with
      generation := fair.generation + UInt64.ofNat n
      missed := fair.missed + n } := by
  induction n with
  | zero =>
    rw [show fair.generation + UInt64.ofNat 0 = fair.generation from UInt64.add_zero _]
    exact .start
  | succ n ih =>
    refine .next .notify (.next (.shutdown .data) ih trivial rfl) trivial ?_
    simp only [EgressFair.watch] at stocked bare
    simp only [egressStep, EgressFair.watch, closed, update_eq_self, stocked, bare,
      UInt64.ofNat_add, ← UInt64.add_assoc]
    rfl

/-- 2^64 notifications bring the generation back to the one that the dequeuer waits on: it waits on
with a packet in the queue. -/
theorem wakeup_lost_after_wrap :
    ∃ fair : EgressFair Nat,
      Reaches (egressStep 1) anyStep (egressFairDequeuerInit 0 singleSlots) fair ∧
        fair.phase = .wait fair.generation ∧ (fair.queue .data).ring.count = 1 ∧
        fair.owed = 0 := by
  obtain ⟨fair, run, seen⟩ : ∃ fair : EgressFair Nat,
      Reaches (egressStep 1) anyStep (egressFairDequeuerInit 0 singleSlots) fair ∧
        decide (fair.phase = .wait 0 ∧ (fair.queue .data).ring.count = 1 ∧ fair.owed = 0 ∧
          fair.generation = 2 ∧ (fair.queue .data).shutdown = true ∧
          fair.stocked = false ∧ fair.bare = true ∧ (fair.queue .ack).ring.count = 0) = true :=
    Reaches.exists_of_actions [.call, .proceed, .proceed, .proceed, .enqueue .data 7 false, .notify,
      .shutdown .data, .notify] _ (by decide +kernel)
  obtain ⟨waiting, held, owed, twice, closed, stocked, bare, none⟩ := of_decide_eq_true seen
  refine ⟨_, run.trans (shutdowns_notify (2 ^ 64 - 2) ?_ ?_ ?_), ?_, held, owed⟩
  · simp [EgressFair.watch, stocked]
  · simp [EgressFair.watch, bare, none]
  · rw [← closed]
  · rw [waiting, twice]
    rfl

end MultiFlow.Relay
