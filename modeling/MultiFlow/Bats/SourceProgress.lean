import Mathlib.Algebra.Order.BigOperators.Group.Finset
import MultiFlow.Bats.Source

/-!
# Progress of the source pipeline

A worker that a broadcast woke can lose its slot to a worker that claimed a generation one window
later.  With one worker, or with at most two windows of generations, that cannot happen, and then
every run sends all generations in order.
-/

namespace MultiFlow.Bats

open Function Lib

inductive SrcMove (nWorkers nGens : Nat) (pipe : SrcPipe) : SrcPipe → Prop where
  | returns (i : Nat) (member : i < nWorkers) (idle : pipe.worker i = .idle)
      (all : nGens ≤ pipe.nextClaim) : SrcMove nWorkers nGens pipe (setWorker pipe i .returned)
  | claims (i : Nat) (member : i < nWorkers) (idle : pipe.worker i = .idle)
      (more : pipe.nextClaim < nGens) :
      SrcMove nWorkers nGens pipe
        (srcAcquire (setWorker { pipe with nextClaim := pipe.nextClaim + 1 } i
          (.waiting pipe.nextClaim false)) i pipe.nextClaim)
  | retries (i gen : Nat) (member : i < nWorkers) (awake : pipe.worker i = .waiting gen false) :
      SrcMove nWorkers nGens pipe (srcAcquire pipe i gen)
  | encodes (i gen : Nat) (member : i < nWorkers) (busy : pipe.worker i = .encoding gen) :
      SrcMove nWorkers nGens pipe (srcEncoded pipe i gen true)
  | finishes (gen : Nat) (here : pipe.sender = .checking gen) (all : nGens ≤ gen) :
      SrcMove nWorkers nGens pipe (broadcast { pipe with sender := .finished })
  | begins (gen : Nat) (here : pipe.sender = .checking gen) (more : gen < nGens)
      (ready : pipe.slot (gen % SRC_WIN) = ⟨.ready, gen⟩) :
      SrcMove nWorkers nGens pipe { pipe with sender := .sending gen }
  | sleeps (gen : Nat) (here : pipe.sender = .checking gen) (more : gen < nGens)
      (missing : pipe.slot (gen % SRC_WIN) ≠ ⟨.ready, gen⟩) :
      SrcMove nWorkers nGens pipe { pipe with sender := .asleep gen }
  | sends (gen : Nat) (here : pipe.sender = .sending gen) :
      SrcMove nWorkers nGens pipe
        { pipe with
          sent := pipe.sent ++ [(pipe.slot (gen % SRC_WIN)).gen], sender := .releasing gen }
  | releases (gen : Nat) (here : pipe.sender = .releasing gen) :
      SrcMove nWorkers nGens pipe (broadcast
        { setSlot pipe (gen % SRC_WIN) { pipe.slot (gen % SRC_WIN) with state := .empty } with
          sender := .checking (gen + 1) })

theorem srcAcquire_setWorker (pipe : SrcPipe) (i gen : Nat) (worker : SrcWorker) :
    srcAcquire (setWorker pipe i worker) i gen = srcAcquire pipe i gen := by
  simp only [srcAcquire, setWorker, setSlot, update_idem]

theorem slot_eq_ready_iff (slot : SrcSlot) (gen : Nat) :
    (slot.state = .ready ∧ slot.gen = gen) ↔ slot = ⟨.ready, gen⟩ := by
  cases slot
  simp

variable {nWorkers nGens : Nat} {pipe after : SrcPipe} {i gen : Nat}

theorem srcStep_move {action : SrcAction} (running : pipe.failed = false)
    (success : succeeds pipe action) (taken : srcStep nWorkers nGens pipe action = some after) :
    SrcMove nWorkers nGens pipe after := by
  have notFailed : ¬ pipe.failed = true := by rw [running]; nofun
  cases action with
  | work i encoded =>
    obtain rfl : encoded = true := success
    dsimp only [srcStep] at taken
    split_ifs at taken with mem
    unfold srcWorkerStep at taken
    split at taken
    next idle =>
      split at taken
      next all =>
        cases taken
        exact .returns i mem idle (all.resolve_left notFailed)
      next more =>
        cases taken
        rw [← srcAcquire_setWorker _ i _ (.waiting pipe.nextClaim false)]
        exact .claims i mem idle (not_le.mp (not_or.mp more).2)
    next gen awake =>
      cases taken
      exact .retries i gen mem awake
    next => cases taken
    next gen busy =>
      cases taken
      exact .encodes i gen mem busy
    next => cases taken
  | send sentOk =>
    obtain rfl : sentOk = true := success
    dsimp only [srcStep] at taken
    unfold srcSenderStep at taken
    split at taken
    next gen here =>
      split at taken
      next all =>
        cases taken
        exact .finishes gen here (all.resolve_right notFailed)
      rename_i more
      have below := not_le.mp (not_or.mp more).1
      split at taken
      next ready =>
        cases taken
        exact .begins gen here below ((slot_eq_ready_iff _ _).mp ready)
      next missing =>
        cases taken
        exact .sleeps gen here below fun ready => missing ((slot_eq_ready_iff _ _).mpr ready)
    next => cases taken
    next gen here =>
      cases taken
      exact .sends gen here
    next gen here =>
      cases taken
      exact .releases gen here
    next => cases taken

theorem Placed.move (placed : Placed nWorkers nGens pipe)
    (move : SrcMove nWorkers nGens pipe after) : Placed nWorkers nGens after := by
  cases move with
  | returns _ _ idle all => exact placed.returns idle all
  | claims i mem idle more => exact (placed.claim mem idle more).acquire mem (update_self ..)
  | retries _ _ mem awake => exact placed.acquire mem awake
  | encodes _ _ _ busy => exact placed.encoded busy
  | finishes gen here all =>
    have floor_eq : gen = nGens := by
      have below := placed.floor_le_next
      rw [here] at below
      exact le_antisymm (below.trans placed.next_le) all
    subst floor_eq
    refine (placed.reply ?_ ?_ ?_).broadcast
    · rw [here]; rfl
    · rw [here]; rfl
    · rintro held (same | same) <;> cases same
  | begins _ here _ ready =>
    refine placed.reply (by rw [here]; rfl) (by rw [here]; rfl) ?_
    rintro held (same | same)
    · cases same
      exact ready
    · cases same
  | sleeps _ here =>
    refine placed.reply (by rw [here]; rfl) (by rw [here]; rfl) ?_
    rintro held (same | same) <;> cases same
  | sends _ here => exact placed.send here
  | releases _ here => exact placed.release here

theorem Rested.broadcast (pipe : SrcPipe) : Rested (Bats.broadcast pipe) where
  worker := by
    intro i gen asleep
    dsimp only [Bats.broadcast] at asleep
    cases here : pipe.worker i <;> simp [here, SrcWorker.woken] at asleep
  sender := by
    intro gen asleep
    dsimp only [Bats.broadcast] at asleep
    cases here : pipe.sender <;> simp [here, SrcSender.woken] at asleep

theorem Rested.setWorker (rested : Rested pipe) {worker : SrcWorker}
    (awake : ∀ gen, worker ≠ .waiting gen true) : Rested (Bats.setWorker pipe i worker) where
  worker := fun j gen asleep => rested.worker j gen
    (update_skip (p := (· = SrcWorker.waiting gen true)) (awake gen) asleep).2
  sender := rested.sender

theorem Rested.acquire (rested : Rested pipe) (running : pipe.failed = false) (i gen : Nat) :
    Rested (srcAcquire pipe i gen) := by
  unfold srcAcquire
  rw [running, if_neg Bool.false_ne_true]
  split_ifs with full
  · refine ⟨?_, rested.sender⟩
    intro j held asleep
    obtain ⟨-, same⟩ | ⟨-, old⟩ := of_update asleep
    · cases same
      exact full
    · exact rested.worker j held old
  refine Rested.setWorker ⟨?_, ?_⟩ (by simp)
  · intro j held asleep
    dsimp only [setSlot]
    by_cases same : held % SRC_WIN = gen % SRC_WIN
    · rw [same, update_self]
      nofun
    · rw [update_of_ne same]
      exact rested.worker j held asleep
  · intro held asleep
    dsimp only [setSlot]
    by_cases same : held % SRC_WIN = gen % SRC_WIN
    · rw [same, update_self]
      nofun
    · rw [update_of_ne same]
      exact rested.sender held asleep

theorem Rested.move (rested : Rested pipe) (running : pipe.failed = false)
    (move : SrcMove nWorkers nGens pipe after) : Rested after := by
  cases move with
  | returns => exact rested.setWorker (by simp)
  | claims i =>
    have claimed : Rested { pipe with nextClaim := pipe.nextClaim + 1 } :=
      ⟨rested.worker, rested.sender⟩
    exact (claimed.setWorker (by simp)).acquire running i _
  | retries i gen => exact rested.acquire running i gen
  | encodes | finishes | releases => exact Rested.broadcast _
  | begins | sends => exact ⟨rested.worker, nofun⟩
  | sleeps _ _ _ missing =>
    refine ⟨rested.worker, ?_⟩
    intro held same
    cases same
    exact missing

theorem Claims.congr (claims : Claims nWorkers pipe) (next_eq : after.nextClaim = pipe.nextClaim)
    (waits : ∀ i gen, (after.worker i).waitsFor gen → (pipe.worker i).waitsFor gen) :
    Claims nWorkers after where
  late := fun i gen waiting => claims.late i gen (waits i gen waiting)
  single := by
    intro alone i mem gen waiting
    rw [next_eq]
    exact claims.single alone i mem gen (waits i gen waiting)

/-- After the test of its slot a worker waits for the generation it holds, and only if the slot
is in use; the others are where they were. -/
theorem waitsFor_srcAcquire (running : pipe.failed = false) {j held : Nat}
    (waiting : ((srcAcquire pipe i gen).worker j).waitsFor held) :
    (j = i ∧ held = gen ∧ (pipe.slot (gen % SRC_WIN)).state ≠ .empty) ∨
      (j ≠ i ∧ (pipe.worker j).waitsFor held) := by
  unfold srcAcquire at waiting
  rw [running, if_neg Bool.false_ne_true] at waiting
  split_ifs at waiting with full
  · refine (update_cases (p := (SrcWorker.waitsFor · held)) waiting).imp_left (And.imp_right ?_)
    exact fun same => ⟨(waitsFor_waiting.mp same).symm, full⟩
  · exact Or.inr
      (update_skip (p := (SrcWorker.waitsFor · held)) (not_waitsFor_encoding gen held) waiting)

theorem nextClaim_srcAcquire (pipe : SrcPipe) (i gen : Nat) :
    (srcAcquire pipe i gen).nextClaim = pipe.nextClaim := by
  unfold srcAcquire
  split_ifs <;> rfl

theorem Placed.window_le_of_full (placed : Placed nWorkers nGens pipe)
    (full : (pipe.slot (pipe.nextClaim % SRC_WIN)).state ≠ .empty) : SRC_WIN ≤ pipe.nextClaim := by
  obtain ⟨home, -, below⟩ := placed.slot_sound _ full
  by_contra early
  have small := not_le.mp early
  rw [Nat.mod_eq_of_lt (below.trans small), Nat.mod_eq_of_lt small] at home
  rw [Nat.mod_eq_of_lt small] at below
  omega

theorem Claims.move (claims : Claims nWorkers pipe) (placed : Placed nWorkers nGens pipe)
    (move : SrcMove nWorkers nGens pipe after) : Claims nWorkers after := by
  cases move with
  | returns =>
    refine claims.congr rfl ?_
    exact fun j gen waiting =>
      (update_skip (p := (SrcWorker.waitsFor · gen)) (not_waitsFor_returned gen) waiting).2
  | claims =>
    rw [srcAcquire_setWorker]
    generalize counted : ({ pipe with nextClaim := pipe.nextClaim + 1 } : SrcPipe) = claimed
    have running : claimed.failed = false := by rw [← counted]; exact placed.running
    refine ⟨?_, ?_⟩
    · intro j gen waiting
      obtain ⟨-, rfl, full⟩ | ⟨-, old⟩ := waitsFor_srcAcquire running waiting
      · rw [← counted] at full
        exact placed.window_le_of_full full
      · rw [← counted] at old
        exact claims.late j gen old
    · intro alone j bound gen waiting
      rw [nextClaim_srcAcquire, ← counted]
      obtain ⟨-, rfl, -⟩ | ⟨other, -⟩ := waitsFor_srcAcquire running waiting
      · rfl
      · omega
  | retries i gen _ awake =>
    refine claims.congr (nextClaim_srcAcquire pipe i gen) ?_
    intro j held waiting
    obtain ⟨rfl, rfl, -⟩ | ⟨-, old⟩ := waitsFor_srcAcquire placed.running waiting
    · rw [awake, waitsFor_waiting]
    · exact old
  | encodes =>
    refine claims.congr rfl ?_
    intro j held waiting
    dsimp only [srcEncoded, broadcast] at waiting
    rw [if_pos rfl] at waiting
    rw [waitsFor_woken] at waiting
    exact (update_skip (p := (SrcWorker.waitsFor · held)) (not_waitsFor_idle held) waiting).2
  | finishes | releases =>
    exact claims.congr rfl fun j held waiting => (waitsFor_woken _ _).mp waiting
  | begins | sleeps | sends => exact claims.congr rfl fun _ _ waiting => waiting

structure Piped (nWorkers nGens : Nat) (pipe : SrcPipe) : Prop where
  placed : Placed nWorkers nGens pipe
  rested : Rested pipe
  claims : Claims nWorkers pipe

theorem Piped.initial (nWorkers nGens : Nat) : Piped nWorkers nGens .initial where
  placed := Placed.initial nWorkers nGens
  rested := ⟨nofun, nofun⟩
  claims := ⟨fun _ gen waiting => absurd waiting (not_waitsFor_idle gen),
    fun _ _ _ gen waiting => absurd waiting (not_waitsFor_idle gen)⟩

theorem Piped.move (piped : Piped nWorkers nGens pipe) (move : SrcMove nWorkers nGens pipe after) :
    Piped nWorkers nGens after where
  placed := piped.placed.move move
  rested := piped.rested.move piped.placed.running move
  claims := piped.claims.move piped.placed move

theorem piped_of_reaches (run : Reaches (srcStep nWorkers nGens) succeeds .initial pipe) :
    Piped nWorkers nGens pipe :=
  run.invariant (Piped nWorkers nGens) (Piped.initial nWorkers nGens)
    fun _ _ _ piped success taken => piped.move (srcStep_move piped.placed.running success taken)

def SrcPipe.AllWait (nWorkers : Nat) (pipe : SrcPipe) : Prop :=
  (∃ gen, pipe.sender = .asleep gen) ∧
    ∀ i < nWorkers, (∃ gen, pipe.worker i = .waiting gen true) ∨ pipe.worker i = .returned

/-- The generation the sender waits for is held by a sleeping worker whose slot went to a
generation at least one window later. -/
theorem Piped.overtaken (piped : Piped nWorkers nGens pipe) (asleep : pipe.sender = .asleep gen)
    (workers : ∀ i < nWorkers,
      (∃ held, pipe.worker i = .waiting held true) ∨ pipe.worker i = .returned)
    (claimed : gen < pipe.nextClaim) :
    ∃ i < nWorkers, (pipe.worker i).waitsFor gen ∧ gen + SRC_WIN < pipe.nextClaim := by
  obtain ⟨placed, rested, -⟩ := piped
  have floor_eq : pipe.sender.floor nGens = gen := by rw [asleep]; rfl
  obtain ⟨full, held⟩ | ⟨i, mem, waiting⟩ := placed.covered gen floor_eq.le claimed
  · -- The slot holds the generation and nobody encodes it, so the sender would not sleep.
    exfalso
    cases st : (pipe.slot (gen % SRC_WIN)).state with
    | empty => exact full st
    | ready => exact rested.sender gen asleep ((slot_eq_ready_iff _ _).mp ⟨st, held⟩)
    | encoding =>
      obtain ⟨i, mem, busy⟩ := placed.encoding_owned _ st
      obtain ⟨_, other⟩ | other := workers i mem
      all_goals
        rw [other] at busy
        cases busy
  · refine ⟨i, mem, waiting, ?_⟩
    obtain ⟨held, rest⟩ | rest := workers i mem
    · rw [rest, waitsFor_waiting] at waiting
      subst waiting
      have full := rested.worker i held rest
      obtain ⟨home, above, below⟩ := placed.slot_sound _ full
      obtain ⟨-, -, absent⟩ := placed.waits_sound i held (by rw [rest, waitsFor_waiting])
      rw [floor_eq] at above
      have other : (pipe.slot (held % SRC_WIN)).gen ≠ held := fun same => absent ⟨full, same⟩
      generalize (pipe.slot (held % SRC_WIN)).gen = later at home above below other
      unfold SRC_WIN at home ⊢
      omega
    · rw [rest] at waiting
      exact absurd waiting (not_waitsFor_returned gen)

theorem Piped.not_allWait (piped : Piped nWorkers nGens pipe) (staffed : 0 < nGens → 0 < nWorkers)
    (safe : nWorkers ≤ 1 ∨ nGens ≤ 2 * SRC_WIN) (unsent : pipe.sent.length < nGens) :
    ¬ pipe.AllWait nWorkers := by
  rintro ⟨⟨gen, asleep⟩, workers⟩
  have count : pipe.sent.length = gen := by
    rw [piped.placed.sent_eq, asleep, List.length_range]
    rfl
  have floor_eq : pipe.sender.floor nGens = gen := by rw [asleep]; rfl
  by_cases claimed : gen < pipe.nextClaim
  · obtain ⟨i, mem, waiting, window⟩ := piped.overtaken asleep workers claimed
    obtain alone | few := safe
    · have next_eq := piped.claims.single alone i mem gen waiting
      unfold SRC_WIN at window
      omega
    · have late := piped.claims.late i gen waiting
      have bound := piped.placed.next_le
      omega
  · -- Nothing is claimed that is not sent: the first worker has neither returned nor a claim.
    have first := staffed (by omega)
    obtain ⟨held, rest⟩ | rest := workers 0 first
    · obtain ⟨_, _, -⟩ :=
        piped.placed.waits_sound 0 held (by rw [rest, waitsFor_waiting])
      omega
    · have all := piped.placed.returned_next 0 rest
      omega

def SrcWorker.weight (nWorkers : Nat) : SrcWorker → Nat
  | idle => 1
  | waiting _ true => nWorkers + 4
  | waiting _ false => nWorkers + 5
  | encoding _ => nWorkers + 3
  | returned => 0

def SrcSender.weight (nWorkers nGens : Nat) : SrcSender → Nat
  | checking gen => (nGens - gen) * (2 * nWorkers + 5) + (nWorkers + 3)
  | asleep gen => (nGens - gen) * (2 * nWorkers + 5) + (nWorkers + 2)
  | sending gen => (nGens - gen) * (2 * nWorkers + 5) + 1
  | releasing gen => (nGens - gen) * (2 * nWorkers + 5)
  | finished => 0

/-- A bound on the steps that are left.  A step that broadcasts pays for every thread it can
wake. -/
def SrcPipe.measure (nWorkers nGens : Nat) (pipe : SrcPipe) : Nat :=
  (nGens - pipe.nextClaim) * (nWorkers + 4) +
    ∑ i ∈ Finset.range nWorkers, (pipe.worker i).weight nWorkers +
    pipe.sender.weight nWorkers nGens

theorem SrcWorker.weight_woken_le (nWorkers : Nat) (worker : SrcWorker) :
    worker.woken.weight nWorkers ≤ worker.weight nWorkers + 1 := by
  cases worker with
  | waiting _ asleep => cases asleep <;> simp [woken, weight]
  | _ => exact Nat.le_succ _

theorem SrcSender.weight_woken_le (nWorkers nGens : Nat) (snd : SrcSender) :
    snd.woken.weight nWorkers nGens ≤ snd.weight nWorkers nGens + 1 := by
  cases snd with
  | asleep => exact le_rfl
  | _ => exact Nat.le_succ _

theorem measure_broadcast_le (nWorkers nGens : Nat) (pipe : SrcPipe) :
    (broadcast pipe).measure nWorkers nGens ≤ pipe.measure nWorkers nGens + (nWorkers + 1) := by
  have workers : ∑ i ∈ Finset.range nWorkers, ((pipe.worker i).woken).weight nWorkers ≤
      ∑ i ∈ Finset.range nWorkers, (pipe.worker i).weight nWorkers + nWorkers := by
    calc ∑ i ∈ Finset.range nWorkers, ((pipe.worker i).woken).weight nWorkers
        ≤ ∑ i ∈ Finset.range nWorkers, ((pipe.worker i).weight nWorkers + 1) :=
          Finset.sum_le_sum fun i _ => SrcWorker.weight_woken_le nWorkers (pipe.worker i)
      _ = ∑ i ∈ Finset.range nWorkers, (pipe.worker i).weight nWorkers + nWorkers := by
          rw [Finset.sum_add_distrib, Finset.sum_const, Finset.card_range, smul_eq_mul, mul_one]
  have snd := SrcSender.weight_woken_le nWorkers nGens pipe.sender
  unfold SrcPipe.measure broadcast
  dsimp only
  omega

theorem measure_setWorker (nWorkers nGens : Nat) (pipe : SrcPipe) (mem : i < nWorkers)
    (worker : SrcWorker) :
    (setWorker pipe i worker).measure nWorkers nGens + (pipe.worker i).weight nWorkers =
      pipe.measure nWorkers nGens + worker.weight nWorkers := by
  have sum := sum_update (SrcWorker.weight nWorkers) pipe.worker (Finset.mem_range.mpr mem) worker
  unfold SrcPipe.measure setWorker
  dsimp only
  omega

theorem measure_setSlot (nWorkers nGens : Nat) (pipe : SrcPipe) (si : Nat) (slot : SrcSlot) :
    (setSlot pipe si slot).measure nWorkers nGens = pipe.measure nWorkers nGens := rfl

theorem measure_sender (nWorkers nGens : Nat) (pipe : SrcPipe) (sender : SrcSender)
    (sent : List Nat) :
    ({ pipe with sender, sent } : SrcPipe).measure nWorkers nGens +
        pipe.sender.weight nWorkers nGens =
      pipe.measure nWorkers nGens + sender.weight nWorkers nGens := by
  unfold SrcPipe.measure
  dsimp only
  omega

theorem measure_srcAcquire_lt (running : pipe.failed = false) (mem : i < nWorkers)
    (awake : pipe.worker i = .waiting gen false) :
    (srcAcquire pipe i gen).measure nWorkers nGens < pipe.measure nWorkers nGens := by
  unfold srcAcquire
  rw [running, if_neg Bool.false_ne_true]
  split_ifs with full
  · have change := measure_setWorker nWorkers nGens pipe mem (.waiting gen true)
    rw [awake] at change
    dsimp only [SrcWorker.weight] at change
    omega
  have change := measure_setWorker nWorkers nGens
    (setSlot pipe (gen % SRC_WIN) ⟨.encoding, gen⟩) mem (.encoding gen)
  have worker_eq : (setSlot pipe (gen % SRC_WIN) ⟨.encoding, gen⟩).worker i =
      .waiting gen false := awake
  rw [worker_eq, measure_setSlot] at change
  dsimp only [SrcWorker.weight] at change
  omega

theorem measure_claim (nWorkers nGens : Nat) (mem : i < nWorkers) (idle : pipe.worker i = .idle)
    (more : pipe.nextClaim < nGens) :
    (setWorker { pipe with nextClaim := pipe.nextClaim + 1 } i
        (.waiting pipe.nextClaim false)).measure nWorkers nGens = pipe.measure nWorkers nGens := by
  have change := measure_setWorker nWorkers nGens
    { pipe with nextClaim := pipe.nextClaim + 1 } mem (.waiting pipe.nextClaim false)
  have open_eq : (nGens - pipe.nextClaim) * (nWorkers + 4) =
      (nGens - (pipe.nextClaim + 1)) * (nWorkers + 4) + (nWorkers + 4) := by
    rw [← Nat.succ_mul]
    congr 1
    omega
  rw [idle] at change
  dsimp only [SrcWorker.weight] at change
  unfold SrcPipe.measure at change ⊢
  dsimp only at change ⊢
  omega

theorem SrcMove.measure_lt (placed : Placed nWorkers nGens pipe)
    (move : SrcMove nWorkers nGens pipe after) :
    after.measure nWorkers nGens < pipe.measure nWorkers nGens := by
  cases move with
  | returns _ mem idle =>
    have change := measure_setWorker nWorkers nGens pipe mem .returned
    rw [idle] at change
    dsimp only [SrcWorker.weight] at change
    omega
  | claims i mem idle more =>
    rw [← measure_claim nWorkers nGens mem idle more]
    exact measure_srcAcquire_lt placed.running mem (update_self ..)
  | retries _ _ mem awake => exact measure_srcAcquire_lt placed.running mem awake
  | encodes i gen mem busy =>
    have slot_eq := placed.encoding_slot i gen busy
    have change := measure_setWorker nWorkers nGens
      (setSlot pipe (gen % SRC_WIN) ⟨.ready, gen⟩) mem .idle
    have worker_eq : (setSlot pipe (gen % SRC_WIN) ⟨.ready, gen⟩).worker i = .encoding gen := busy
    rw [worker_eq, measure_setSlot] at change
    dsimp only [SrcWorker.weight] at change
    unfold srcEncoded
    rw [if_pos rfl, slot_eq]
    have woken := measure_broadcast_le nWorkers nGens
      (setWorker (setSlot pipe (gen % SRC_WIN) ⟨.ready, gen⟩) i .idle)
    dsimp only at woken ⊢
    omega
  | finishes _ here all =>
    have change := measure_sender nWorkers nGens pipe .finished pipe.sent
    have woken := measure_broadcast_le nWorkers nGens { pipe with sender := .finished }
    rw [here] at change
    dsimp only [SrcSender.weight] at change
    rw [Nat.sub_eq_zero_of_le all] at change
    omega
  | begins gen here =>
    have change := measure_sender nWorkers nGens pipe (.sending gen) pipe.sent
    rw [here] at change
    dsimp only [SrcSender.weight] at change
    omega
  | sleeps gen here =>
    have change := measure_sender nWorkers nGens pipe (.asleep gen) pipe.sent
    rw [here] at change
    dsimp only [SrcSender.weight] at change
    omega
  | sends gen here =>
    have change := measure_sender nWorkers nGens pipe (.releasing gen)
      (pipe.sent ++ [(pipe.slot (gen % SRC_WIN)).gen])
    rw [here] at change
    dsimp only [SrcSender.weight] at change
    omega
  | releases gen here =>
    have slot_eq := placed.sender_slot gen (Or.inr here)
    have sound := placed.slot_sound (gen % SRC_WIN) (by rw [slot_eq]; nofun)
    rw [slot_eq] at sound
    have below : gen < nGens := sound.2.2.trans_le placed.next_le
    have open_eq : (nGens - gen) * (2 * nWorkers + 5) =
        (nGens - (gen + 1)) * (2 * nWorkers + 5) + (2 * nWorkers + 5) := by
      rw [← Nat.succ_mul]
      congr 1
      omega
    have change := measure_sender nWorkers nGens pipe (.checking (gen + 1)) pipe.sent
    have woken := measure_broadcast_le nWorkers nGens
      { setSlot pipe (gen % SRC_WIN) { pipe.slot (gen % SRC_WIN) with state := .empty } with
        sender := .checking (gen + 1) }
    have emptied : ({ setSlot pipe (gen % SRC_WIN)
          { pipe.slot (gen % SRC_WIN) with state := .empty } with
        sender := .checking (gen + 1) } : SrcPipe).measure nWorkers nGens =
        ({ pipe with sender := .checking (gen + 1) } : SrcPipe).measure nWorkers nGens := rfl
    rw [here] at change
    dsimp only [SrcSender.weight] at change
    omega

end MultiFlow.Bats
