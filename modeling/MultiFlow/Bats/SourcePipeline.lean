import MultiFlow.Bats.SourceProgress

/-!
# When the source pipeline is correct

With two workers and more than two windows of generations the pipeline can stop for good: one
worker holds generation 8 and was woken but has not run, while the other fills the window and
takes slot 0 for generation 16.
-/

namespace MultiFlow.Bats

open Lib

def SrcNext (nWorkers nGens : Nat) (after before : SrcPipe) : Prop :=
  ∃ action, succeeds before action ∧ srcStep nWorkers nGens before action = some after

/-- What the pipeline is for: the generations leave in order and once each, the threads never all
wait while one is unsent, every run ends, and a run that has ended has sent them all. -/
structure SourceCorrect (nWorkers nGens : Nat) : Prop where
  ordered : ∀ pipe, Reaches (srcStep nWorkers nGens) succeeds .initial pipe →
    pipe.sent = List.range pipe.sent.length
  progress : ∀ pipe, Reaches (srcStep nWorkers nGens) succeeds .initial pipe →
    pipe.sent.length < nGens → ¬ pipe.AllWait nWorkers
  ends : Acc (SrcNext nWorkers nGens) .initial
  complete : ∀ pipe, Reaches (srcStep nWorkers nGens) succeeds .initial pipe →
    (∀ after, ¬ SrcNext nWorkers nGens after pipe) → pipe.sent = List.range nGens

variable {nWorkers nGens : Nat} {pipe : SrcPipe}

theorem acc_of_placed (placed : Placed nWorkers nGens pipe) :
    Acc (SrcNext nWorkers nGens) pipe := by
  induction bound : pipe.measure nWorkers nGens using Nat.strong_induction_on generalizing pipe with
  | _ bound ih =>
    refine ⟨_, ?_⟩
    rintro after ⟨action, success, taken⟩
    have move := srcStep_move placed.running success taken
    exact ih _ (bound ▸ move.measure_lt placed) (placed.move move) rfl

theorem allWait_of_stopped (stopped : ∀ after, ¬ SrcNext nWorkers nGens after pipe) :
    pipe.AllWait nWorkers ∨ pipe.sender = .finished := by
  have snd : ∀ after, srcSenderStep nGens pipe true ≠ some after :=
    fun after taken => stopped after ⟨.send true, rfl, taken⟩
  have worker : ∀ i < nWorkers, ∀ after, srcWorkerStep nGens pipe i true ≠ some after := by
    intro i mem after taken
    refine stopped after ⟨.work i true, rfl, ?_⟩
    dsimp only [srcStep]
    rw [if_pos mem]
    exact taken
  have workers : ∀ i < nWorkers,
      (∃ gen, pipe.worker i = .waiting gen true) ∨ pipe.worker i = .returned := by
    intro i mem
    have blocked := worker i mem
    unfold srcWorkerStep at blocked
    cases here : pipe.worker i with
    | idle =>
      rw [here] at blocked
      split_ifs at blocked
      all_goals exact absurd rfl (blocked _)
    | waiting gen asleep =>
      cases asleep with
      | true => exact Or.inl ⟨gen, rfl⟩
      | false =>
        rw [here] at blocked
        exact absurd rfl (blocked _)
    | encoding =>
      rw [here] at blocked
      exact absurd rfl (blocked _)
    | returned => exact Or.inr rfl
  unfold srcSenderStep at snd
  cases here : pipe.sender with
  | checking =>
    rw [here] at snd
    dsimp only at snd
    split_ifs at snd
    all_goals exact absurd rfl (snd _)
  | asleep gen => exact Or.inl ⟨⟨gen, here⟩, workers⟩
  | sending | releasing =>
    rw [here] at snd
    exact absurd rfl (snd _)
  | finished => exact Or.inr rfl

theorem sourceCorrect_of_safe (staffed : 0 < nGens → 0 < nWorkers)
    (safe : nWorkers ≤ 1 ∨ nGens ≤ 2 * SRC_WIN) : SourceCorrect nWorkers nGens where
  ordered := by
    intro pipe run
    have sent_eq := (piped_of_reaches run).placed.sent_eq
    rw [sent_eq, List.length_range]
  progress := fun pipe run unsent => (piped_of_reaches run).not_allWait staffed safe unsent
  ends := acc_of_placed (Placed.initial nWorkers nGens)
  complete := by
    intro pipe run stopped
    have piped := piped_of_reaches run
    have sent_eq := piped.placed.sent_eq
    obtain waits | done := allWait_of_stopped stopped
    · have all : nGens ≤ pipe.sent.length :=
        not_lt.mp fun unsent => piped.not_allWait staffed safe unsent waits
      obtain ⟨⟨_, asleep⟩, -⟩ := waits
      have below := piped.placed.floor_le_next.trans piped.placed.next_le
      rw [asleep] at sent_eq below
      rw [sent_eq, List.length_range] at all
      rw [sent_eq]
      exact congrArg List.range (le_antisymm below all)
    · rw [done] at sent_eq
      exact sent_eq

/-- Steps that every larger configuration can take as well: no worker returns and the sender does
not finish. -/
def early (pipe : SrcPipe) (action : SrcAction) : Prop :=
  succeeds pipe action ∧
    match action with
    | .work i _ => pipe.worker i = .idle → pipe.nextClaim < 17
    | .send _ => pipe.sender.floor 17 < 17

instance (pipe : SrcPipe) : (action : SrcAction) → Decidable (early pipe action)
  | .work .. | .send _ => by
    unfold early
    dsimp only
    infer_instance

theorem srcStep_of_early (workers : 2 ≤ nWorkers) (gens : 17 ≤ nGens) (before : SrcPipe)
    (action : SrcAction) (after : SrcPipe) (permitted : early before action)
    (taken : srcStep 2 17 before action = some after) :
    succeeds before action ∧ srcStep nWorkers nGens before action = some after := by
  refine ⟨permitted.1, ?_⟩
  obtain ⟨-, permitted⟩ := permitted
  cases action with
  | work i =>
    dsimp only [srcStep] at taken permitted ⊢
    split_ifs at taken with mem
    rw [if_pos (by omega : i < nWorkers)]
    rw [← taken]
    unfold srcWorkerStep
    cases here : before.worker i with
    | idle =>
      have unclaimed := permitted here
      have small : ¬ 17 ≤ before.nextClaim := by omega
      have large : ¬ nGens ≤ before.nextClaim := by omega
      simp only [small, large]
    | waiting _ asleep => cases asleep <;> rfl
    | _ => rfl
  | send =>
    dsimp only [srcStep] at taken permitted ⊢
    rw [← taken]
    unfold srcSenderStep
    cases here : before.sender with
    | checking gen =>
      rw [here] at permitted
      have small : ¬ 17 ≤ gen := not_le.mpr permitted
      have large : ¬ nGens ≤ gen := fun all => small (gens.trans all)
      simp only [small, large]
    | _ => rfl

/-- The second worker encodes the first window; the first claims 8 and sleeps, the second 9. -/
def fillWindow : List SrcAction :=
  (List.replicate 8 [SrcAction.work 1 true, .work 1 true]).flatten ++
    [.work 0 true, .work 1 true]

def sendOne : List SrcAction := [.send true, .send true, .send true]

/-- Generation 0 leaves and both workers are woken; from then on only the second one runs, and
takes the next slot each time. -/
def overtake : List SrcAction :=
  sendOne ++
    (List.replicate 6 (sendOne ++ [.work 1 true, .work 1 true, .work 1 true])).flatten ++
    sendOne ++ [.work 1 true, .work 1 true, .work 1 true, .work 1 true]

def settle : List SrcAction := [.send true, .work 0 true]

/-- Generation 8 is lost: every slot is in use, the sender sleeps, and of the workers below `k`
none will run again.  The others have not started. -/
structure Stuck (k : Nat) (pipe : SrcPipe) : Prop where
  asleep : pipe.sender = .asleep 8
  running : pipe.failed = false
  sent_eq : pipe.sent = List.range 8
  full : ∀ si < SRC_WIN, (pipe.slot si).state ≠ .empty
  resting : ∀ i < k, (∃ gen, pipe.worker i = .waiting gen true) ∨ pipe.worker i = .returned
  idle : ∀ i, k ≤ i → pipe.worker i = .idle

theorem worker_eq_idle_of_reaches {allowed : SrcPipe → SrcAction → Prop}
    (run : Reaches (srcStep nWorkers nGens) allowed .initial pipe) {j : Nat}
    (outside : nWorkers ≤ j) : pipe.worker j = .idle := by
  have update : ∀ (before : SrcPipe) (i : Nat) (worker : SrcWorker), i < nWorkers →
      before.worker j = .idle → (setWorker before i worker).worker j = .idle := by
    intro before i _ mem idle
    have other : j ≠ i := by omega
    dsimp only [setWorker]
    rwa [Function.update_of_ne other]
  have woken : ∀ before : SrcPipe, before.worker j = .idle →
      (broadcast before).worker j = .idle := by
    intro before idle
    dsimp only [broadcast]
    rw [idle]
    rfl
  have acquire : ∀ (before : SrcPipe) (i gen : Nat), i < nWorkers → before.worker j = .idle →
      (srcAcquire before i gen).worker j = .idle := by
    intro before i _ mem idle
    unfold srcAcquire
    split_ifs
    all_goals exact update _ i _ mem idle
  refine run.invariant (fun pipe => pipe.worker j = .idle) rfl ?_
  intro _ action _ idle _ taken
  cases action with
  | work i =>
    dsimp only [srcStep] at taken
    split_ifs at taken with mem
    unfold srcWorkerStep at taken
    split at taken
    next =>
      split at taken
      next =>
        cases taken
        exact update _ i _ mem idle
      next =>
        cases taken
        exact acquire _ i _ mem idle
    next =>
      cases taken
      exact acquire _ i _ mem idle
    next => cases taken
    next =>
      cases taken
      unfold srcEncoded
      split_ifs
      all_goals exact woken _ (update _ i _ mem idle)
    next => cases taken
  | send =>
    dsimp only [srcStep] at taken
    unfold srcSenderStep at taken
    split at taken
    next =>
      split_ifs at taken
      · cases taken
        exact woken _ idle
      all_goals
        cases taken
        exact idle
    next => cases taken
    next =>
      split_ifs at taken
      · cases taken
        exact idle
      · cases taken
        exact woken _ idle
    next =>
      cases taken
      exact woken _ idle
    next => cases taken

theorem stuck_one : ∃ pipe, Reaches (srcStep 2 17) early .initial pipe ∧ Stuck 1 pipe := by
  obtain ⟨pipe, run, seen⟩ : ∃ pipe, Reaches (srcStep 2 17) early .initial pipe ∧
      decide (pipe.sender = .asleep 8 ∧ pipe.failed = false ∧ pipe.sent = List.range 8 ∧
        (∀ si < SRC_WIN, (pipe.slot si).state ≠ .empty) ∧
        pipe.worker 0 = .waiting 8 true ∧ pipe.worker 1 = .idle) = true :=
    Reaches.exists_of_actions (fillWindow ++ overtake ++ settle) _ (by decide +kernel)
  obtain ⟨asleep, running, sent_eq, full, first, second⟩ := of_decide_eq_true seen
  refine ⟨pipe, run, asleep, running, sent_eq, full, ?_, ?_⟩
  · intro i _
    obtain rfl : i = 0 := by omega
    exact Or.inl ⟨8, first⟩
  intro i _
  by_cases same : i = 1
  · subst same
    exact second
  · exact worker_eq_idle_of_reaches run (by omega)

theorem Stuck.next {k : Nat} (stuck : Stuck k pipe) (mem : k < nWorkers) :
    ∃ after, Reaches (srcStep nWorkers nGens) succeeds pipe after ∧ Stuck (k + 1) after := by
  have idle := stuck.idle k le_rfl
  -- Whatever the worker becomes, the others stay as they are.
  have kept : ∀ (claimed : SrcPipe) (worker : SrcWorker), claimed.worker = pipe.worker →
      claimed.slot = pipe.slot → claimed.sender = pipe.sender → claimed.failed = pipe.failed →
      claimed.sent = pipe.sent → ((∃ gen, worker = .waiting gen true) ∨ worker = .returned) →
      Stuck (k + 1) (setWorker claimed k worker) := by
    intro _ _ worker_eq slot_eq sender_eq failed_eq sent_eq rests
    refine ⟨sender_eq.trans stuck.asleep, failed_eq.trans stuck.running,
      sent_eq.trans stuck.sent_eq, ?_, ?_, ?_⟩
    · intro si small
      dsimp only [setWorker]
      rw [slot_eq]
      exact stuck.full si small
    · intro i _
      dsimp only [setWorker]
      by_cases same : i = k
      · subst same
        rw [Function.update_self]
        exact rests
      · rw [Function.update_of_ne same, worker_eq]
        exact stuck.resting i (by omega)
    · intro i _
      dsimp only [setWorker]
      rw [Function.update_of_ne (by omega : i ≠ k), worker_eq]
      exact stuck.idle i (by omega)
  have notFailed : ¬ pipe.failed = true := by rw [stuck.running]; nofun
  by_cases all : nGens ≤ pipe.nextClaim
  · refine ⟨setWorker pipe k .returned, .next (.work k true) .start rfl ?_,
      kept pipe _ rfl rfl rfl rfl rfl (Or.inr rfl)⟩
    dsimp only [srcStep, srcWorkerStep]
    rw [if_pos mem, idle]
    rw [if_pos (Or.inr all)]
  refine ⟨setWorker { pipe with nextClaim := pipe.nextClaim + 1 } k
      (.waiting pipe.nextClaim true), .next (.work k true) .start rfl ?_,
    kept { pipe with nextClaim := pipe.nextClaim + 1 } _ rfl rfl rfl rfl rfl
      (Or.inl ⟨_, rfl⟩)⟩
  dsimp only [srcStep, srcWorkerStep]
  rw [if_pos mem, idle]
  rw [if_neg (not_or.mpr ⟨notFailed, all⟩)]
  unfold srcAcquire
  rw [if_neg notFailed, if_pos (stuck.full _ (Nat.mod_lt _ (by decide)))]

theorem Stuck.all {k : Nat} (stuck : Stuck k pipe) (below : k ≤ nWorkers) :
    ∃ last, Reaches (srcStep nWorkers nGens) succeeds pipe last ∧ Stuck nWorkers last := by
  induction left : nWorkers - k generalizing k pipe with
  | zero =>
    obtain rfl : k = nWorkers := by omega
    exact ⟨pipe, .start, stuck⟩
  | succ _ ih =>
    obtain ⟨_, run, stuckAfter⟩ := stuck.next (by omega : k < nWorkers)
    obtain ⟨last, rest, stuckLast⟩ := ih stuckAfter (by omega) (by omega)
    exact ⟨last, run.trans rest, stuckLast⟩

theorem exists_allWait (workers : 2 ≤ nWorkers) (gens : 17 ≤ nGens) :
    ∃ pipe, Reaches (srcStep nWorkers nGens) succeeds .initial pipe ∧
      pipe.sent = List.range 8 ∧ pipe.AllWait nWorkers := by
  obtain ⟨_, run, stuck⟩ := stuck_one
  have lifted := run.lift (srcStep_of_early workers gens)
  obtain ⟨last, rest, stuckLast⟩ := stuck.all (by omega : 1 ≤ nWorkers)
  exact ⟨last, lifted.trans rest, stuckLast.sent_eq, ⟨8, stuckLast.asleep⟩, stuckLast.resting⟩

theorem sourceWorkers_pos (nproc : Int) (nonempty : 0 < nGens) : 0 < sourceWorkers nproc nGens := by
  have started : 0 < if 1 < nproc then (nproc - 1).toNat else 1 := by split_ifs <;> omega
  have window : 0 < SRC_WIN := by decide
  unfold sourceWorkers
  rw [if_neg nonempty.ne']
  omega

theorem source_pipeline_correct_iff (nproc : Int) (nGens : Nat) :
    SourceCorrect (sourceWorkers nproc nGens) nGens ↔
      sourceWorkers nproc nGens ≤ 1 ∨ nGens ≤ 2 * SRC_WIN := by
  constructor
  · intro correct
    by_contra exposed
    obtain ⟨several, many⟩ := not_or.mp exposed
    have gens : 17 ≤ nGens := not_le.mp many
    obtain ⟨pipe, run, sent_eq, waits⟩ := exists_allWait (not_le.mp several) gens
    refine correct.progress pipe run ?_ waits
    rw [sent_eq, List.length_range]
    omega
  · exact sourceCorrect_of_safe (sourceWorkers_pos nproc)

/-- Three processors and seventeen generations: eight are sent and every thread waits. -/
theorem source_pipeline_deadlocks :
    sourceWorkers 3 17 = 2 ∧
      ∃ pipe, Reaches (srcStep (sourceWorkers 3 17) 17) succeeds .initial pipe ∧
        pipe.sent = List.range 8 ∧ pipe.AllWait (sourceWorkers 3 17) :=
  ⟨by decide, exists_allWait (by decide) (by decide)⟩

end MultiFlow.Bats
