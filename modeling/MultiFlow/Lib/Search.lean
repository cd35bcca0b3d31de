import MultiFlow.Lib.Loop

/-!
# Searching a range of indices

`leastIndex` is the loop that keeps the first index with the least key among those that
pass a test.
-/

namespace MultiFlow.Lib

variable (test : Nat → Bool) (key : Nat → Nat)

/-- One turn of the search: a later index replaces the best one only if its key is smaller. -/
def keepLeast (best : Option Nat) (index : Nat) : Option Nat :=
  if test index = false then best
  else
    match best with
    | none => some index
    | some other => if key index < key other then some index else some other

def leastIndex (count : Nat) : Option Nat := forRange count none (keepLeast test key)

/-- The best index so far passes the test, and no index that passes has a smaller key. -/
def LeastSoFar (count : Nat) : Option Nat → Prop
  | none => ∀ index < count, test index = false
  | some index => index < count ∧ test index = true ∧
      ∀ other < count, test other = true → key index ≤ key other

variable {count : Nat}

theorem keepLeast_leastSoFar {best : Option Nat} (least : LeastSoFar test key count best) :
    LeastSoFar test key (count + 1) (keepLeast test key best count) := by
  unfold keepLeast
  cases best with
  | none =>
    split
    · rename_i fails
      intro idx below
      rcases Nat.lt_succ_iff_lt_or_eq.mp below with earlier | rfl
      · exact least idx earlier
      · exact fails
    · rename_i passes
      refine ⟨by omega, by simpa using passes, ?_⟩
      intro other below otherPasses
      rcases Nat.lt_succ_iff_lt_or_eq.mp below with earlier | rfl
      · rw [least other earlier] at otherPasses
        cases otherPasses
      · exact le_refl _
  | some cur =>
    obtain ⟨inRange, currentPasses, minimal⟩ := least
    have extend : ∀ chosen, key chosen ≤ key cur →
        (test count = true → key chosen ≤ key count) →
        ∀ other < count + 1, test other = true → key chosen ≤ key other := by
      intro chosen below last other otherLt otherPasses
      rcases Nat.lt_succ_iff_lt_or_eq.mp otherLt with earlier | rfl
      · exact below.trans (minimal other earlier otherPasses)
      · exact last otherPasses
    split
    · rename_i fails
      refine ⟨by omega, currentPasses, extend cur (le_refl _) ?_⟩
      intro passes
      rw [fails] at passes
      cases passes
    rename_i passes
    dsimp only
    split
    · rename_i smaller
      exact ⟨by omega, by simpa using passes,
        extend count (Nat.le_of_lt smaller) fun _ => le_refl _⟩
    · rename_i notSmaller
      exact ⟨by omega, currentPasses,
        extend cur (le_refl _) fun _ => Nat.le_of_not_lt notSmaller⟩

theorem leastIndex_leastSoFar (count : Nat) :
    LeastSoFar test key count (leastIndex test key count) := by
  refine forRange_induction count none (keepLeast test key) (LeastSoFar test key) ?_ ?_
  · intro idx below
    omega
  · intro idx _ best least
    exact keepLeast_leastSoFar test key least

variable {idx start : Nat}

theorem leastIndex_some (found : leastIndex test key count = some idx) :
    idx < count ∧ test idx = true ∧
      ∀ other < count, test other = true → key idx ≤ key other := by
  have least := leastIndex_leastSoFar test key count
  rw [found] at least
  exact least

theorem leastIndex_none (missing : leastIndex test key count = none) :
    ∀ idx < count, test idx = false := by
  have least := leastIndex_leastSoFar test key count
  rw [missing] at least
  exact least

def firstIndex (count : Nat) : Option Nat := (List.range count).find? test

theorem firstIndex_some (found : firstIndex test count = some idx) :
    idx < count ∧ test idx = true :=
  ⟨List.mem_range.mp (List.mem_of_find?_eq_some found), List.find?_some found⟩

theorem firstIndex_none (missing : firstIndex test count = none) :
    ∀ idx < count, test idx = false := by
  intro idx below
  exact Bool.eq_false_iff.mpr
    (List.find?_eq_none.mp missing idx (List.mem_range.mpr below))

/-- The first index that passes, in the order `start`, `start + 1`, … around the range. -/
def probe (start count : Nat) : Option Nat :=
  ((List.range count).map fun offset => (start + offset) % count).find? test

theorem probe_some (found : probe test start count = some idx) : idx < count ∧ test idx = true := by
  have passes := List.find?_some found
  obtain ⟨off, inRange, rfl⟩ := List.mem_map.mp (List.mem_of_find?_eq_some found)
  have positive : 0 < count := by
    have below := List.mem_range.mp inRange
    omega
  exact ⟨Nat.mod_lt _ positive, passes⟩

theorem probe_none (missing : probe test start count = none) : ∀ idx < count, test idx = false := by
  intro idx below
  have positive : 0 < count := by omega
  have met : idx ∈ (List.range count).map fun off => (start + off) % count := by
    refine List.mem_map.mpr ⟨(idx + count - start % count) % count,
      List.mem_range.mpr (Nat.mod_lt _ positive), ?_⟩
    have within := Nat.mod_lt start positive
    rw [Nat.add_mod_mod, Nat.add_mod, ← Nat.mod_mod start count, ← Nat.add_mod, Nat.mod_mod]
    have whole : start % count + (idx + count - start % count) = idx + count := by omega
    rw [whole, Nat.add_mod_right, Nat.mod_eq_of_lt below]
  exact Bool.eq_false_iff.mpr (List.find?_eq_none.mp missing idx met)

end MultiFlow.Lib
