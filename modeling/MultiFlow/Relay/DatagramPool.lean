import MultiFlow.Lib.Transition
import Mathlib.Data.List.FinRange
import Mathlib.Data.UInt

/-!
# The datagram pool of the relay

`datagram_pool.c`: buffers of one slab with reference counts and a stack of the free ones, and
buffers of the heap when that stack is empty.  A slab buffer is known by its index, so
`datagram_pool_contains` is the constructor.  Each call is one step.  `held` counts the references
that callers have on a slab buffer; nothing reads it.
-/

namespace MultiFlow.Relay

open Function Lib

inductive PoolBuffer (capacity : Nat) where
  | slab (index : Fin capacity)
  | heap (address : Nat)

/-- The top of the free stack comes first. -/
structure DatagramPool (capacity : Nat) where
  freeStack : List (Fin capacity)
  refs : Fin capacity → UInt32
  inUse : Nat
  held : Fin capacity → Nat

inductive PoolAction (capacity : Nat) where
  | acquire (allocated : Option Nat)
  | retain (buf : PoolBuffer capacity)
  | release (buf : PoolBuffer capacity)

section Model

variable {capacity : Nat}

def datagramPoolInit (capacity : Nat) : DatagramPool capacity :=
  ⟨(List.finRange capacity).reverse, fun _ => 0, 0, fun _ => 0⟩

/-- `allocated` is what `malloc` answers. -/
def datagramPoolAcquire (pool : DatagramPool capacity) (allocated : Option Nat) :
    Option (PoolBuffer capacity) × DatagramPool capacity :=
  match pool.freeStack with
  | i :: rest => (some (.slab i),
      { freeStack := rest
        refs := update pool.refs i 1
        inUse := pool.inUse + 1
        held := update pool.held i (pool.held i + 1) })
  | [] => (allocated.map .heap, pool)

def datagramPoolRetain (pool : DatagramPool capacity) : PoolBuffer capacity → DatagramPool capacity
  | .heap _ => pool
  | .slab i =>
    if 0 < pool.refs i then
      { pool with
        refs := update pool.refs i (pool.refs i + 1)
        held := update pool.held i (pool.held i + 1) }
    else pool

def datagramPoolRelease (pool : DatagramPool capacity) : PoolBuffer capacity → DatagramPool capacity
  | .heap _ => pool
  | .slab i =>
    let held := update pool.held i (pool.held i - 1)
    if 1 < pool.refs i then { pool with refs := update pool.refs i (pool.refs i - 1), held }
    else if pool.freeStack.length < capacity then
      { freeStack := i :: pool.freeStack
        refs := update pool.refs i 0
        inUse := pool.inUse - 1
        held }
    else { pool with refs := update pool.refs i 0, held }

def poolStep (pool : DatagramPool capacity) : PoolAction capacity → Option (DatagramPool capacity)
  | .acquire allocated => some (datagramPoolAcquire pool allocated).2
  | .retain buf => some (datagramPoolRetain pool buf)
  | .release buf => some (datagramPoolRelease pool buf)

def byHolders (pool : DatagramPool capacity) : PoolAction capacity → Prop
  | .release (.slab i) => 0 < pool.held i
  | _ => True

/-- Moreover the count of a buffer that is retained does not wrap. -/
def countFits (pool : DatagramPool capacity) (action : PoolAction capacity) : Prop :=
  byHolders pool action ∧ ∀ i, action = .retain (.slab i) → (pool.refs i).toNat + 1 < 2 ^ 32

end Model

section Ownership

variable {capacity : Nat} {pool : DatagramPool capacity}

structure PoolOk (pool : DatagramPool capacity) : Prop where
  nodup : pool.freeStack.Nodup
  free : ∀ i, i ∈ pool.freeStack ↔ pool.refs i = 0
  refs_eq : ∀ i, (pool.refs i).toNat = pool.held i
  inUse_eq : pool.inUse + pool.freeStack.length = capacity

theorem datagramPoolInit_ok (capacity : Nat) : PoolOk (datagramPoolInit capacity) where
  nodup := List.nodup_reverse.mpr (List.nodup_finRange capacity)
  free := by simp [datagramPoolInit]
  refs_eq := fun _ => rfl
  inUse_eq := by simp [datagramPoolInit]

variable (ok : PoolOk pool)
include ok

theorem PoolOk.acquire (allocated : Option Nat) :
    PoolOk (datagramPoolAcquire pool allocated).2 := by
  unfold datagramPoolAcquire
  cases stack : pool.freeStack with
  | nil => exact ok
  | cons i =>
    have nodup := ok.nodup
    have inUse := ok.inUse_eq
    rw [stack] at nodup inUse
    have unused : pool.held i = 0 := by
      rw [← ok.refs_eq, (ok.free i).mp (by simp [stack])]
      rfl
    refine ⟨nodup.of_cons, fun j => ?_, fun j => ?_, ?_⟩
    · by_cases same : j = i
      · subst same
        simpa using nodup.notMem
      · simp [← ok.free j, stack, same]
    · by_cases same : j = i <;> simp [same, unused, ok.refs_eq]
    · simp at inUse ⊢
      omega

variable {i : Fin capacity}

/-- A count that changes between two values that are not 0. -/
theorem PoolOk.recount {count : UInt32} {refs : Nat} (before : pool.refs i ≠ 0) (after : count ≠ 0)
    (count_eq : count.toNat = refs) :
    PoolOk { pool with refs := update pool.refs i count, held := update pool.held i refs } where
  nodup := ok.nodup
  free := fun j => by by_cases same : j = i <;> simp [same, ok.free, before, after]
  refs_eq := fun j => by by_cases same : j = i <;> simp [same, count_eq, ok.refs_eq]
  inUse_eq := ok.inUse_eq

theorem PoolOk.retain (fits : (pool.refs i).toNat + 1 < 2 ^ 32) :
    PoolOk (datagramPoolRetain pool (.slab i)) := by
  unfold datagramPoolRetain
  dsimp only
  split
  · next positive =>
    have next_eq : (pool.refs i + 1).toNat = (pool.refs i).toNat + 1 := by
      rw [UInt32.toNat_add, UInt32.toNat_one, Nat.mod_eq_of_lt fits]
    refine ok.recount (fun zero => by simp [zero] at positive) (fun zero => ?_) (by rw [next_eq, ok.refs_eq])
    rw [zero] at next_eq
    cases next_eq
  · exact ok

theorem PoolOk.release (holds : 0 < pool.held i) : PoolOk (datagramPoolRelease pool (.slab i)) := by
  have refs_eq := ok.refs_eq i
  have used : pool.refs i ≠ 0 := fun zero => by simp [zero] at refs_eq; omega
  have notFree : i ∉ pool.freeStack := fun mem => used ((ok.free i).mp mem)
  unfold datagramPoolRelease
  dsimp only
  split_ifs with shared room
  · rw [UInt32.lt_iff_toNat_lt, UInt32.toNat_one] at shared
    have less : (pool.refs i - 1).toNat = (pool.refs i).toNat - 1 := by
      rw [UInt32.toNat_sub_of_le _ _ (by rw [UInt32.le_iff_toNat_le, UInt32.toNat_one]; omega),
        UInt32.toNat_one]
    refine ok.recount used (fun zero => ?_) (by rw [less, refs_eq])
    rw [zero, UInt32.toNat_zero] at less
    omega
  · rw [UInt32.lt_iff_toNat_lt, UInt32.toNat_one] at shared
    have inUse := ok.inUse_eq
    refine ⟨List.nodup_cons.mpr ⟨notFree, ok.nodup⟩, fun j => ?_, fun j => ?_, ?_⟩
    · by_cases same : j = i <;> simp [same, ok.free]
    · by_cases same : j = i
      · subst same
        simp
        omega
      · simp [update_of_ne same, ok.refs_eq j]
    · simp
      omega
  · -- The stack has no room only when no buffer is in use.
    have most := (List.nodup_cons.mpr ⟨notFree, ok.nodup⟩).length_le_card
    simp at most
    omega

theorem PoolOk.step {action : PoolAction capacity} {after : DatagramPool capacity}
    (fits : countFits pool action) (taken : poolStep pool action = some after) : PoolOk after := by
  cases action with
  | acquire allocated =>
    cases taken
    exact ok.acquire allocated
  | retain buf =>
    cases taken
    cases buf with
    | heap => exact ok
    | slab i => exact ok.retain (fits.2 i rfl)
  | release buf =>
    cases taken
    cases buf with
    | heap => exact ok
    | slab => exact ok.release fits.1

end Ownership

/-- While every reference is released by its holder and no count wraps, the free stack has each
buffer without references once, the others are in use, and a buffer that is acquired from the slab
has no holder. -/
theorem pool_ownership {capacity : Nat} {pool : DatagramPool capacity}
    (run : Reaches poolStep countFits (datagramPoolInit capacity) pool) :
    pool.freeStack.Nodup ∧ (∀ i, i ∈ pool.freeStack ↔ pool.refs i = 0) ∧
      pool.inUse = capacity - pool.freeStack.length ∧
      ∀ allocated i after, datagramPoolAcquire pool allocated = (some (.slab i), after) →
        pool.held i = 0 := by
  have ok : PoolOk pool :=
    run.invariant PoolOk (datagramPoolInit_ok capacity) fun _ _ _ ok fits => ok.step fits
  refine ⟨ok.nodup, ok.free, Nat.eq_sub_of_add_eq ok.inUse_eq, fun allocated i after acquired => ?_⟩
  unfold datagramPoolAcquire at acquired
  cases stack : pool.freeStack with
  | nil =>
    rw [stack] at acquired
    cases allocated <;> cases acquired
  | cons =>
    rw [stack] at acquired
    cases acquired
    rw [← ok.refs_eq, (ok.free i).mp (by simp [stack])]
    rfl

theorem pool_ownership_one :
    ∃ pool : DatagramPool 2, Reaches poolStep countFits (datagramPoolInit 2) pool ∧
      pool.freeStack = [0] ∧ pool.inUse = 2 - pool.freeStack.length ∧ pool.held 1 = 1 ∧
      pool.held 0 = 0 := by
  have run : Reaches poolStep countFits (datagramPoolInit 2) _ :=
    .next (.release (.slab 1)) (.next (.retain (.slab 1)) (.next (.acquire none) .start
      ⟨trivial, nofun⟩ rfl) ⟨trivial, by rintro _ ⟨⟩; decide⟩ rfl)
      ⟨show 0 < DatagramPool.held _ 1 by decide, nofun⟩ rfl
  obtain ⟨-, -, inUse, unowned⟩ := pool_ownership run
  exact ⟨_, run, by decide, inUse, by decide, unowned none 0 _ rfl⟩

def heldPool (n : Nat) : DatagramPool 1 := ⟨[], fun _ => UInt32.ofNat n, 1, fun _ => n⟩

theorem retain_heldPool {n : Nat} (positive : 0 < n) (small : n < 2 ^ 32) :
    datagramPoolRetain (heldPool n) (.slab 0) = heldPool (n + 1) := by
  have counted : 0 < UInt32.ofNat n := by
    rw [UInt32.lt_iff_toNat_lt, UInt32.toNat_ofNat', Nat.mod_eq_of_lt small]
    exact positive
  simp [datagramPoolRetain, heldPool, counted, funext_iff, Fin.forall_fin_one]

/-- The last of 2 ^ 32 - 1 retains makes the count of a buffer 0 while all of its references are
held. -/
theorem pool_count_wraps :
    ∃ pool : DatagramPool 1, Reaches poolStep byHolders (datagramPoolInit 1) pool ∧
      pool.held 0 = 2 ^ 32 ∧ pool.refs 0 = 0 ∧ 0 ∉ pool.freeStack := by
  have retained : ∀ n < 2 ^ 32, Reaches poolStep byHolders (datagramPoolInit 1)
      (heldPool (n + 1)) := by
    intro n
    induction n with
    | zero =>
      intro _
      refine .next (.acquire none) .start trivial ?_
      simp [poolStep, datagramPoolAcquire, datagramPoolInit, heldPool, funext_iff,
        Fin.forall_fin_one, List.finRange_succ]
    | succ n ih =>
      intro small
      refine .next (.retain (.slab 0)) (ih (by omega)) trivial ?_
      rw [poolStep, retain_heldPool (Nat.succ_pos n) small]
  exact ⟨_, retained (2 ^ 32 - 1) (by decide), rfl, by decide +kernel, by simp [heldPool]⟩

end MultiFlow.Relay
