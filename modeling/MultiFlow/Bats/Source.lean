import MultiFlow.Lib.Transition

/-!
# The source pipeline of `bats_line`

`src_worker` and the sending loop of `run_source`: workers claim generations in order, encode each
into the slot `gen % SRC_WIN`, and the sender takes the slots in order.  A step is one critical
section of `mu`; the outcome of encoding and sending is part of the action.  A thread that a
broadcast woke is awake but has not looked at its slot again.
-/

namespace MultiFlow.Bats

open Function Lib

def SRC_WIN : Nat := 8

inductive SlotState where
  | empty
  | encoding
  | ready
  deriving DecidableEq, Repr

structure SrcSlot where
  state : SlotState
  gen : Nat
  deriving DecidableEq, Repr

inductive SrcWorker where
  | idle
  | waiting (gen : Nat) (asleep : Bool)
  | encoding (gen : Nat)
  | returned
  deriving DecidableEq, Repr

inductive SrcSender where
  | checking (gen : Nat)
  | asleep (gen : Nat)
  | sending (gen : Nat)
  | releasing (gen : Nat)
  | finished
  deriving DecidableEq, Repr

structure SrcPipe where
  nextClaim : Nat
  failed : Bool
  slot : Nat → SrcSlot
  worker : Nat → SrcWorker
  sender : SrcSender
  sent : List Nat

def SrcPipe.initial : SrcPipe where
  nextClaim := 0
  failed := false
  slot := fun _ => ⟨.empty, 0⟩
  worker := fun _ => .idle
  sender := .checking 0
  sent := []

def SrcWorker.woken : SrcWorker → SrcWorker
  | waiting gen _ => .waiting gen false
  | worker => worker

def SrcSender.woken : SrcSender → SrcSender
  | asleep gen => .checking gen
  | sender => sender

def broadcast (pipe : SrcPipe) : SrcPipe :=
  { pipe with worker := fun i => (pipe.worker i).woken, sender := pipe.sender.woken }

def setWorker (pipe : SrcPipe) (i : Nat) (worker : SrcWorker) : SrcPipe :=
  { pipe with worker := update pipe.worker i worker }

def setSlot (pipe : SrcPipe) (si : Nat) (slot : SrcSlot) : SrcPipe :=
  { pipe with slot := update pipe.slot si slot }

/-- The end of the first critical section of `src_worker`, from the test of the slot on. -/
def srcAcquire (pipe : SrcPipe) (i gen : Nat) : SrcPipe :=
  if pipe.failed then setWorker pipe i .returned
  else if (pipe.slot (gen % SRC_WIN)).state ≠ .empty then setWorker pipe i (.waiting gen true)
  else setWorker (setSlot pipe (gen % SRC_WIN) ⟨.encoding, gen⟩) i (.encoding gen)

def srcEncoded (pipe : SrcPipe) (i gen : Nat) (encoded : Bool) : SrcPipe :=
  let si := gen % SRC_WIN
  if encoded then
    broadcast (setWorker (setSlot pipe si { pipe.slot si with state := .ready }) i .idle)
  else
    broadcast (setWorker (setSlot { pipe with failed := true } si
      { pipe.slot si with state := .empty }) i .returned)

def srcWorkerStep (nGens : Nat) (pipe : SrcPipe) (i : Nat) (encoded : Bool) : Option SrcPipe :=
  match pipe.worker i with
  | .idle =>
    if pipe.failed ∨ nGens ≤ pipe.nextClaim then some (setWorker pipe i .returned)
    else some (srcAcquire { pipe with nextClaim := pipe.nextClaim + 1 } i pipe.nextClaim)
  | .waiting gen false => some (srcAcquire pipe i gen)
  | .waiting _ true => none
  | .encoding gen => some (srcEncoded pipe i gen encoded)
  | .returned => none

def srcSenderStep (nGens : Nat) (pipe : SrcPipe) (sentOk : Bool) : Option SrcPipe :=
  match pipe.sender with
  | .checking gen =>
    if nGens ≤ gen ∨ pipe.failed then some (broadcast { pipe with sender := .finished })
    else if (pipe.slot (gen % SRC_WIN)).state = .ready ∧ (pipe.slot (gen % SRC_WIN)).gen = gen then
      some { pipe with sender := .sending gen }
    else some { pipe with sender := .asleep gen }
  | .asleep _ => none
  | .sending gen =>
    if sentOk then
      some { pipe with
        sent := pipe.sent ++ [(pipe.slot (gen % SRC_WIN)).gen], sender := .releasing gen }
    else some (broadcast { pipe with failed := true, sender := .releasing gen })
  | .releasing gen =>
    let si := gen % SRC_WIN
    some (broadcast { setSlot pipe si { pipe.slot si with state := .empty } with
      sender := .checking (gen + 1) })
  | .finished => none

inductive SrcAction where
  | work (i : Nat) (encoded : Bool)
  | send (sentOk : Bool)
  deriving DecidableEq, Repr

def srcStep (nWorkers nGens : Nat) (pipe : SrcPipe) : SrcAction → Option SrcPipe
  | .work i encoded => if i < nWorkers then srcWorkerStep nGens pipe i encoded else none
  | .send sentOk => srcSenderStep nGens pipe sentOk

def succeeds (_ : SrcPipe) : SrcAction → Prop
  | .work _ encoded => encoded = true
  | .send sentOk => sentOk = true

instance (pipe : SrcPipe) (action : SrcAction) : Decidable (succeeds pipe action) := by
  unfold succeeds
  split <;> infer_instance

/-- The number of workers that `run_source` starts on a machine with `nproc` processors. -/
def sourceWorkers (nproc : Int) (nGens : Nat) : Nat :=
  let started := if 1 < nproc then (nproc - 1).toNat else 1
  if nGens = 0 then 0 else min (min started SRC_WIN) nGens

/-- The first generation whose slot the sender has not released. -/
def SrcSender.floor (nGens : Nat) : SrcSender → Nat
  | checking gen => gen
  | asleep gen => gen
  | sending gen => gen
  | releasing gen => gen
  | finished => nGens

def SrcSender.sentCount (nGens : Nat) : SrcSender → Nat
  | releasing gen => gen + 1
  | sender => sender.floor nGens

def SrcWorker.waitsFor (worker : SrcWorker) (gen : Nat) : Prop :=
  ∃ asleep, worker = .waiting gen asleep

def SrcSlot.holds (slot : SrcSlot) (gen : Nat) : Prop := slot.state ≠ .empty ∧ slot.gen = gen

@[simp] theorem waitsFor_woken (worker : SrcWorker) (gen : Nat) :
    worker.woken.waitsFor gen ↔ worker.waitsFor gen := by
  cases worker with
  | waiting => simp [SrcWorker.woken, SrcWorker.waitsFor]
  | _ => rfl

@[simp] theorem woken_eq_encoding {worker : SrcWorker} {gen : Nat} :
    worker.woken = .encoding gen ↔ worker = .encoding gen := by
  cases worker <;> simp [SrcWorker.woken]

@[simp] theorem woken_eq_returned {worker : SrcWorker} :
    worker.woken = .returned ↔ worker = .returned := by
  cases worker <;> simp [SrcWorker.woken]

@[simp] theorem floor_woken (nGens : Nat) (snd : SrcSender) :
    snd.woken.floor nGens = snd.floor nGens := by
  cases snd <;> rfl

@[simp] theorem sentCount_woken (nGens : Nat) (snd : SrcSender) :
    snd.woken.sentCount nGens = snd.sentCount nGens := by
  cases snd <;> rfl

/-- Every claimed generation that is not released is in its slot or with one waiting worker. -/
structure Placed (nWorkers nGens : Nat) (pipe : SrcPipe) : Prop where
  running : pipe.failed = false
  next_le : pipe.nextClaim ≤ nGens
  floor_le_next : pipe.sender.floor nGens ≤ pipe.nextClaim
  sent_eq : pipe.sent = List.range (pipe.sender.sentCount nGens)
  slot_sound : ∀ si, (pipe.slot si).state ≠ .empty →
    (pipe.slot si).gen % SRC_WIN = si ∧ pipe.sender.floor nGens ≤ (pipe.slot si).gen ∧
      (pipe.slot si).gen < pipe.nextClaim
  waits_sound : ∀ i gen, (pipe.worker i).waitsFor gen →
    pipe.sender.floor nGens ≤ gen ∧ gen < pipe.nextClaim ∧
      ¬ (pipe.slot (gen % SRC_WIN)).holds gen
  waits_unique : ∀ i j gen, (pipe.worker i).waitsFor gen → (pipe.worker j).waitsFor gen → i = j
  covered : ∀ gen, pipe.sender.floor nGens ≤ gen → gen < pipe.nextClaim →
    (pipe.slot (gen % SRC_WIN)).holds gen ∨ ∃ i < nWorkers, (pipe.worker i).waitsFor gen
  encoding_slot : ∀ i gen, pipe.worker i = .encoding gen →
    pipe.slot (gen % SRC_WIN) = ⟨.encoding, gen⟩
  encoding_unique : ∀ i j gen, pipe.worker i = .encoding gen → pipe.worker j = .encoding gen → i = j
  encoding_owned : ∀ si, (pipe.slot si).state = .encoding →
    ∃ i < nWorkers, pipe.worker i = .encoding (pipe.slot si).gen
  sender_slot : ∀ gen, pipe.sender = .sending gen ∨ pipe.sender = .releasing gen →
    pipe.slot (gen % SRC_WIN) = ⟨.ready, gen⟩
  returned_next : ∀ i, pipe.worker i = .returned → nGens ≤ pipe.nextClaim

/-- A sleeping thread has looked at its slot and nobody has broadcast since. -/
structure Rested (pipe : SrcPipe) : Prop where
  worker : ∀ i gen, pipe.worker i = .waiting gen true →
    (pipe.slot (gen % SRC_WIN)).state ≠ .empty
  sender : ∀ gen, pipe.sender = .asleep gen → pipe.slot (gen % SRC_WIN) ≠ ⟨.ready, gen⟩

/-- The first window of generations never waits, and a single worker waits only for the last
generation that was claimed. -/
structure Claims (nWorkers : Nat) (pipe : SrcPipe) : Prop where
  late : ∀ i gen, (pipe.worker i).waitsFor gen → SRC_WIN ≤ gen
  single : nWorkers ≤ 1 → ∀ i < nWorkers, ∀ gen, (pipe.worker i).waitsFor gen →
    pipe.nextClaim = gen + 1

@[simp] theorem not_waitsFor_idle (gen : Nat) : ¬ SrcWorker.idle.waitsFor gen := by
  rintro ⟨_, same⟩
  cases same

@[simp] theorem not_waitsFor_encoding (held gen : Nat) :
    ¬ (SrcWorker.encoding held).waitsFor gen := by
  rintro ⟨_, same⟩
  cases same

@[simp] theorem not_waitsFor_returned (gen : Nat) : ¬ SrcWorker.returned.waitsFor gen := by
  rintro ⟨_, same⟩
  cases same

@[simp] theorem waitsFor_waiting {held gen : Nat} {asleep : Bool} :
    (SrcWorker.waiting held asleep).waitsFor gen ↔ held = gen := by
  simp [SrcWorker.waitsFor]

namespace Placed

variable {nWorkers nGens : Nat} {pipe : SrcPipe}

theorem initial (nWorkers nGens : Nat) : Placed nWorkers nGens .initial where
  running := rfl
  next_le := Nat.zero_le _
  floor_le_next := Nat.zero_le _
  sent_eq := rfl
  slot_sound := fun _ full => absurd rfl full
  waits_sound := fun _ gen waits => absurd waits (not_waitsFor_idle gen)
  waits_unique := fun _ _ gen waits _ => absurd waits (not_waitsFor_idle gen)
  covered := fun _ _ below => absurd below (Nat.not_lt_zero _)
  encoding_slot := nofun
  encoding_unique := nofun
  encoding_owned := nofun
  sender_slot := nofun
  returned_next := nofun

variable (placed : Placed nWorkers nGens pipe)

include placed

variable {sender : SrcSender} {i gen : Nat} {asleep : Bool}

theorem congr {worker : Nat → SrcWorker}
    (waits : ∀ i gen, (worker i).waitsFor gen ↔ (pipe.worker i).waitsFor gen)
    (encodes : ∀ i gen, worker i = .encoding gen ↔ pipe.worker i = .encoding gen)
    (returned : ∀ i, worker i = .returned → nGens ≤ pipe.nextClaim)
    (floor_eq : sender.floor nGens = pipe.sender.floor nGens)
    (count_eq : sender.sentCount nGens = pipe.sender.sentCount nGens)
    (busy : ∀ gen, sender = .sending gen ∨ sender = .releasing gen →
      pipe.slot (gen % SRC_WIN) = ⟨.ready, gen⟩) :
    Placed nWorkers nGens { pipe with worker, sender } where
  running := placed.running
  next_le := placed.next_le
  floor_le_next := floor_eq ▸ placed.floor_le_next
  sent_eq := by
    rw [count_eq]
    exact placed.sent_eq
  slot_sound := by
    rw [floor_eq]
    exact placed.slot_sound
  waits_sound := by
    intro i gen waiting
    rw [floor_eq]
    exact placed.waits_sound i gen ((waits i gen).mp waiting)
  waits_unique := by
    intro i j gen first second
    exact placed.waits_unique i j gen ((waits i gen).mp first) ((waits j gen).mp second)
  covered := by
    intro gen above below
    rw [floor_eq] at above
    simp only [waits]
    exact placed.covered gen above below
  encoding_slot := fun i gen here => placed.encoding_slot i gen ((encodes i gen).mp here)
  encoding_unique := fun i j gen first second =>
    placed.encoding_unique i j gen ((encodes i gen).mp first) ((encodes j gen).mp second)
  encoding_owned := by
    intro si busy
    simp only [encodes]
    exact placed.encoding_owned si busy
  sender_slot := busy
  returned_next := returned

theorem broadcast : Placed nWorkers nGens (Bats.broadcast pipe) := by
  refine placed.congr (fun _ _ => waitsFor_woken _ _) (fun _ _ => woken_eq_encoding)
    (fun i here => placed.returned_next i (woken_eq_returned.mp here)) (floor_woken _ _)
    (sentCount_woken _ _) ?_
  intro gen busy
  refine placed.sender_slot gen ?_
  cases here : pipe.sender with
  | asleep =>
    rw [here] at busy
    simp [SrcSender.woken] at busy
  | _ =>
    rw [here] at busy
    exact busy

theorem returned_of_update {worker : SrcWorker} {j : Nat}
    (here : update pipe.worker i worker j = .returned) (still : worker ≠ .returned) :
    nGens ≤ pipe.nextClaim :=
  placed.returned_next j (update_skip (p := (· = SrcWorker.returned)) still here).2

theorem returns (idle : pipe.worker i = .idle) (all : nGens ≤ pipe.nextClaim) :
    Placed nWorkers nGens (setWorker pipe i .returned) := by
  refine placed.congr ?_ ?_ (fun _ _ => all) rfl rfl placed.sender_slot
  · exact fun j gen => update_iff (p := (SrcWorker.waitsFor · gen)) (by simp [idle])
  · exact fun j gen => update_iff (p := (· = SrcWorker.encoding gen)) (by simp [idle])

theorem claim (mem : i < nWorkers) (idle : pipe.worker i = .idle) (more : pipe.nextClaim < nGens) :
    Placed nWorkers nGens (setWorker { pipe with nextClaim := pipe.nextClaim + 1 } i
        (.waiting pipe.nextClaim false)) := by
  have waits : ∀ j gen,
      (update pipe.worker i (.waiting pipe.nextClaim false) j).waitsFor gen →
        (j = i ∧ gen = pipe.nextClaim) ∨ (j ≠ i ∧ (pipe.worker j).waitsFor gen) := by
    intro j gen waiting
    refine (update_cases (p := (SrcWorker.waitsFor · gen)) waiting).imp_left (And.imp_right ?_)
    exact fun same => (waitsFor_waiting.mp same).symm
  have encodes : ∀ j gen,
      update pipe.worker i (.waiting pipe.nextClaim false) j = .encoding gen ↔
        pipe.worker j = .encoding gen :=
    fun j gen => update_iff (p := (· = SrcWorker.encoding gen)) (by simp [idle])
  -- The sender never passes the claims: what it has released was in a slot.
  have floor_le : pipe.sender.floor nGens ≤ pipe.nextClaim := placed.floor_le_next
  refine ⟨placed.running, more, floor_le.trans (Nat.le_succ _), placed.sent_eq, ?_, ?_, ?_, ?_, ?_, ?_, ?_,
    placed.sender_slot, ?_⟩
  · intro si full
    obtain ⟨here, above, below⟩ := placed.slot_sound si full
    exact ⟨here, above, Nat.lt_succ_of_lt below⟩
  · intro j gen waiting
    obtain ⟨rfl, rfl⟩ | ⟨other, waiting⟩ := waits j gen waiting
    · refine ⟨floor_le, Nat.lt_succ_self _, ?_⟩
      rintro ⟨full, held⟩
      have below := (placed.slot_sound _ full).2.2
      dsimp only [setWorker] at held
      omega
    · obtain ⟨above, below, absent⟩ := placed.waits_sound j gen waiting
      exact ⟨above, Nat.lt_succ_of_lt below, absent⟩
  · intro j k gen first second
    obtain ⟨rfl, rfl⟩ | ⟨other, waiting⟩ := waits j gen first
    · obtain ⟨rfl, -⟩ | ⟨-, waiting⟩ := waits k _ second
      · rfl
      · exact absurd (placed.waits_sound k _ waiting).2.1 (lt_irrefl _)
    · obtain ⟨rfl, rfl⟩ | ⟨-, waitingToo⟩ := waits k gen second
      · exact absurd (placed.waits_sound j _ waiting).2.1 (lt_irrefl _)
      · exact placed.waits_unique j k gen waiting waitingToo
  · intro gen above below
    obtain old | rfl := Nat.lt_succ_iff_lt_or_eq.mp below
    · obtain held | ⟨j, bound, waiting⟩ := placed.covered gen above old
      · exact Or.inl held
      · refine Or.inr ⟨j, bound, ?_⟩
        exact update_keep (p := (SrcWorker.waitsFor · gen)) (by simp [idle]) waiting
    · refine Or.inr ⟨i, mem, ?_⟩
      dsimp only [setWorker]
      rw [update_self, waitsFor_waiting]
  · exact fun j gen here => placed.encoding_slot j gen ((encodes j gen).mp here)
  · exact fun j k gen first second =>
      placed.encoding_unique j k gen ((encodes j gen).mp first) ((encodes k gen).mp second)
  · intro si busy
    obtain ⟨j, bound, here⟩ := placed.encoding_owned si busy
    exact ⟨j, bound, (encodes j _).mpr here⟩
  · exact fun _ here => absurd (placed.returned_of_update here nofun) (not_le.mpr more)

theorem rest (holding : pipe.worker i = .waiting gen asleep) :
    Placed nWorkers nGens (setWorker pipe i (.waiting gen true)) := by
  refine placed.congr ?_ ?_ ?_ rfl rfl placed.sender_slot
  · exact fun j held => update_iff (p := (SrcWorker.waitsFor · held)) (by simp [holding])
  · exact fun j held => update_iff (p := (· = SrcWorker.encoding held)) (by simp [holding])
  · exact fun _ here => placed.returned_of_update here nofun

theorem take (mem : i < nWorkers) (holding : pipe.worker i = .waiting gen asleep)
    (free : (pipe.slot (gen % SRC_WIN)).state = .empty) :
    Placed nWorkers nGens
      (setWorker (setSlot pipe (gen % SRC_WIN) ⟨.encoding, gen⟩) i (.encoding gen)) := by
  obtain ⟨above, below, -⟩ := placed.waits_sound i gen (by rw [holding, waitsFor_waiting])
  have waits : ∀ j held, (update pipe.worker i (.encoding gen) j).waitsFor held →
      j ≠ i ∧ (pipe.worker j).waitsFor held :=
    fun _ held => update_skip (p := (SrcWorker.waitsFor · held)) (not_waitsFor_encoding gen held)
  have encodes : ∀ j held, update pipe.worker i (.encoding gen) j = .encoding held →
      (j = i ∧ held = gen) ∨ (j ≠ i ∧ pipe.worker j = .encoding held) := by
    intro j held here
    refine (of_update here).imp_left (And.imp_right ?_)
    exact fun same => (SrcWorker.encoding.inj same).symm
  -- A slot in use is another slot, so nothing that was placed moves.
  have elsewhere : ∀ si, (pipe.slot si).state ≠ .empty → si ≠ gen % SRC_WIN := by
    rintro si full rfl
    exact full free
  have elsewhere_encoding : ∀ j held, pipe.worker j = .encoding held →
      held % SRC_WIN ≠ gen % SRC_WIN := by
    intro j held here
    refine elsewhere _ ?_
    rw [placed.encoding_slot j held here]
    nofun
  refine ⟨placed.running, placed.next_le, placed.floor_le_next, placed.sent_eq, ?_, ?_, ?_, ?_, ?_,
    ?_, ?_, ?_, ?_⟩
  · intro si full
    dsimp only [setWorker, setSlot] at full ⊢
    by_cases same : si = gen % SRC_WIN
    · subst same
      rw [update_self]
      exact ⟨rfl, above, below⟩
    · rw [update_of_ne same] at full ⊢
      exact placed.slot_sound si full
  · intro j held waiting
    obtain ⟨other, waiting⟩ := waits j held waiting
    obtain ⟨heldAbove, heldBelow, _⟩ := placed.waits_sound j held waiting
    refine ⟨heldAbove, heldBelow, ?_⟩
    dsimp only [setWorker, setSlot]
    by_cases same : held % SRC_WIN = gen % SRC_WIN
    · rw [same, update_self]
      rintro ⟨-, rfl⟩
      exact other (placed.waits_unique j i _ waiting (by rw [holding, waitsFor_waiting]))
    · rwa [update_of_ne same]
  · intro j k held first second
    exact placed.waits_unique j k held (waits j held first).2 (waits k held second).2
  · intro held heldAbove heldBelow
    dsimp only [setWorker, setSlot]
    obtain full | ⟨j, bound, waiting⟩ := placed.covered held heldAbove heldBelow
    · rw [update_of_ne (elsewhere _ full.1)]
      exact Or.inl full
    by_cases same : j = i
    · subst same
      rw [holding, waitsFor_waiting] at waiting
      subst waiting
      rw [update_self]
      exact Or.inl ⟨nofun, rfl⟩
    · refine Or.inr ⟨j, bound, ?_⟩
      rwa [update_of_ne same]
  · intro j held here
    dsimp only [setWorker, setSlot]
    obtain ⟨rfl, rfl⟩ | ⟨-, here⟩ := encodes j held here
    · rw [update_self]
    · rw [update_of_ne (elsewhere_encoding j held here)]
      exact placed.encoding_slot j held here
  · intro j k held first second
    obtain ⟨rfl, rfl⟩ | ⟨-, here⟩ := encodes j held first
    · obtain ⟨rfl, -⟩ | ⟨-, hereToo⟩ := encodes k _ second
      · rfl
      · exact absurd rfl (elsewhere_encoding k _ hereToo)
    · obtain ⟨rfl, rfl⟩ | ⟨-, hereToo⟩ := encodes k held second
      · exact absurd rfl (elsewhere_encoding j _ here)
      · exact placed.encoding_unique j k held here hereToo
  · intro si busy
    dsimp only [setWorker, setSlot] at busy ⊢
    by_cases same : si = gen % SRC_WIN
    · subst same
      rw [update_self]
      exact ⟨i, mem, update_self ..⟩
    · rw [update_of_ne same] at busy ⊢
      obtain ⟨j, bound, here⟩ := placed.encoding_owned si busy
      exact ⟨j, bound, update_keep (p := (· = SrcWorker.encoding _)) (by simp [holding]) here⟩
  · intro held busy
    have ready := placed.sender_slot held busy
    dsimp only [setWorker, setSlot]
    rw [update_of_ne (elsewhere _ (by rw [ready]; nofun))]
    exact ready
  · exact fun _ here => placed.returned_of_update here nofun

theorem acquire (mem : i < nWorkers) (holding : pipe.worker i = .waiting gen asleep) :
    Placed nWorkers nGens (srcAcquire pipe i gen) := by
  unfold srcAcquire
  rw [placed.running, if_neg Bool.false_ne_true]
  split_ifs with full
  · exact placed.rest holding
  · exact placed.take mem holding (not_not.mp full)

theorem encoded (busy : pipe.worker i = .encoding gen) :
    Placed nWorkers nGens (srcEncoded pipe i gen true) := by
  have slot_eq := placed.encoding_slot i gen busy
  have waits : ∀ j held, (update pipe.worker i .idle j).waitsFor held ↔
      (pipe.worker j).waitsFor held :=
    fun j held => update_iff (p := (SrcWorker.waitsFor · held)) (by simp [busy])
  have encodes : ∀ j held, update pipe.worker i .idle j = .encoding held →
      j ≠ i ∧ pipe.worker j = .encoding held :=
    fun _ held => update_skip (p := (· = SrcWorker.encoding held)) nofun
  -- The slot keeps its generation: only what is read off its state has to be looked at.
  have holds : ∀ si held, (update pipe.slot (gen % SRC_WIN) ⟨.ready, gen⟩ si).holds held ↔
      (pipe.slot si).holds held :=
    fun si held => update_iff (p := (SrcSlot.holds · held)) (by simp [SrcSlot.holds, slot_eq])
  unfold srcEncoded
  rw [if_pos rfl, slot_eq]
  refine Placed.broadcast ⟨placed.running, placed.next_le, placed.floor_le_next, placed.sent_eq,
    ?_, ?_, ?_, ?_, ?_, ?_, ?_, ?_, ?_⟩
  · intro si full
    have old := (holds si _).mp ⟨full, rfl⟩
    dsimp only [setWorker, setSlot] at old ⊢
    rw [← old.2]
    exact placed.slot_sound si old.1
  · intro j held waiting
    obtain ⟨above, below, absent⟩ := placed.waits_sound j held ((waits j held).mp waiting)
    exact ⟨above, below, fun present => absent ((holds _ held).mp present)⟩
  · intro j k held first second
    exact placed.waits_unique j k held ((waits j held).mp first) ((waits k held).mp second)
  · intro held above below
    obtain full | ⟨j, bound, waiting⟩ := placed.covered held above below
    · exact Or.inl ((holds _ held).mpr full)
    · exact Or.inr ⟨j, bound, (waits j held).mpr waiting⟩
  · intro j held here
    obtain ⟨other, here⟩ := encodes j held here
    have old := placed.encoding_slot j held here
    have elsewhere : held % SRC_WIN ≠ gen % SRC_WIN := by
      intro same
      rw [same, slot_eq] at old
      cases old
      exact other (placed.encoding_unique j i gen here busy)
    dsimp only [setWorker, setSlot]
    rwa [update_of_ne elsewhere]
  · intro j k held first second
    exact placed.encoding_unique j k held (encodes j held first).2 (encodes k held second).2
  · intro si still
    dsimp only [setWorker, setSlot] at still ⊢
    by_cases same : si = gen % SRC_WIN
    · subst same
      rw [update_self] at still
      cases still
    rw [update_of_ne same] at still ⊢
    obtain ⟨j, bound, here⟩ := placed.encoding_owned si still
    refine ⟨j, bound, ?_⟩
    have other : j ≠ i := by
      rintro rfl
      rw [busy] at here
      have held := SrcWorker.encoding.inj here
      exact same ((placed.slot_sound si (by rw [still]; nofun)).1.symm.trans (by rw [← held]))
    rwa [update_of_ne other]
  · intro held sending
    have ready := placed.sender_slot held sending
    exact update_keep (p := (· = SrcSlot.mk .ready held)) (by simp [slot_eq]) ready
  · exact fun _ here => placed.returned_of_update here nofun

theorem reply (floor_eq : sender.floor nGens = pipe.sender.floor nGens)
    (count_eq : sender.sentCount nGens = pipe.sender.sentCount nGens)
    (busy : ∀ gen, sender = .sending gen ∨ sender = .releasing gen →
      pipe.slot (gen % SRC_WIN) = ⟨.ready, gen⟩) : Placed nWorkers nGens { pipe with sender } :=
  placed.congr (fun _ _ => Iff.rfl) (fun _ _ => Iff.rfl) placed.returned_next floor_eq count_eq busy

theorem send (here : pipe.sender = .sending gen) :
    Placed nWorkers nGens
      { pipe with
        sent := pipe.sent ++ [(pipe.slot (gen % SRC_WIN)).gen], sender := .releasing gen } := by
  have slot_eq := placed.sender_slot gen (Or.inl here)
  have floor_eq : pipe.sender.floor nGens = gen := by rw [here]; rfl
  have sent_eq := placed.sent_eq
  have sound := placed.slot_sound
  have waits := placed.waits_sound
  have covered := placed.covered
  have before := placed.floor_le_next
  rw [floor_eq] at sound waits covered before
  refine { placed with floor_le_next := before, sent_eq := ?_, slot_sound := sound, waits_sound := waits, covered, sender_slot := ?_ }
  · rw [sent_eq, here, slot_eq]
    exact List.range_succ.symm
  intro held busy
  obtain same | same := busy
  · cases same
  · cases same
    exact slot_eq

theorem release (here : pipe.sender = .releasing gen) :
    Placed nWorkers nGens (Bats.broadcast
      { setSlot pipe (gen % SRC_WIN) { pipe.slot (gen % SRC_WIN) with state := .empty } with
        sender := .checking (gen + 1) }) := by
  have slot_eq := placed.sender_slot gen (Or.inr here)
  have floor_eq : pipe.sender.floor nGens = gen := by rw [here]; rfl
  have sound := placed.slot_sound
  have waits := placed.waits_sound
  have covered := placed.covered
  rw [floor_eq] at sound waits covered
  have here_sound := sound (gen % SRC_WIN) (by rw [slot_eq]; nofun)
  rw [slot_eq] at here_sound
  -- The released generation was in its slot, so no worker waits for it.
  have past : ∀ si, (update pipe.slot (gen % SRC_WIN) ⟨.empty, gen⟩ si).state ≠ .empty →
      si ≠ gen % SRC_WIN ∧ (pipe.slot si).state ≠ .empty :=
    fun _ => update_skip (p := (SrcSlot.state · ≠ .empty)) (not_not.mpr rfl)
  rw [slot_eq]
  refine Placed.broadcast ⟨placed.running, placed.next_le, here_sound.2.2, ?_, ?_, ?_,
    placed.waits_unique, ?_, ?_, placed.encoding_unique, ?_, nofun, placed.returned_next⟩
  · have sent_eq := placed.sent_eq
    rw [here] at sent_eq
    exact sent_eq
  · intro si full
    obtain ⟨other, full⟩ := past si full
    dsimp only [setSlot]
    rw [update_of_ne other]
    obtain ⟨home, above, below⟩ := sound si full
    refine ⟨home, Nat.lt_of_le_of_ne above ?_, below⟩
    rintro same
    exact other (by rw [← home, ← same])
  · intro j held waiting
    obtain ⟨above, below, absent⟩ := waits j held waiting
    refine ⟨Nat.lt_of_le_of_ne above ?_, below, ?_⟩
    · rintro rfl
      rw [slot_eq] at absent
      exact absent ⟨nofun, rfl⟩
    · rintro ⟨full, held_eq⟩
      obtain ⟨other, full⟩ := past _ full
      dsimp only [setSlot] at held_eq
      rw [update_of_ne other] at held_eq
      exact absent ⟨full, held_eq⟩
  · intro held above below
    have later : gen < held := above
    obtain full | waiting := covered held later.le below
    · left
      have other : held % SRC_WIN ≠ gen % SRC_WIN := by
        intro same
        have held_eq := full.2
        rw [same, slot_eq] at held_eq
        exact later.ne held_eq
      dsimp only [setSlot]
      rwa [update_of_ne other]
    · exact Or.inr waiting
  · intro j held busy
    exact update_keep (p := (· = SrcSlot.mk .encoding held)) (by simp [slot_eq])
      (placed.encoding_slot j held busy)
  · intro si still
    dsimp only [setSlot] at still ⊢
    have other := (past si (by rw [still]; nofun)).1
    rw [update_of_ne other] at still ⊢
    exact placed.encoding_owned si still

end Placed

end MultiFlow.Bats
