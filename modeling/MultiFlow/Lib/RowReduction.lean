import Mathlib.Algebra.BigOperators.Ring.Finset
import Mathlib.Algebra.BigOperators.Group.Finset.Piecewise
import Mathlib.Algebra.Field.Basic
import Mathlib.Tactic

/-!
# Row reduction of an augmented matrix

A `k` by `2k` matrix is a function of row and column.  `RowEquivalent` relates an augmented matrix
`[A | B]` to the matrix `M` it started from: `B * M = A`, and `A` has a trivial kernel.  The row
operations keep it.  Once the first `k` columns of `A` are unit columns, `B` is a left inverse of
`M`.
-/

namespace MultiFlow.Lib.RowReduction

open Function Finset

universe u

variable {F : Type u} [Field F]

structure RowEquivalent (k : Nat) (M aug : Nat → Nat → F) : Prop where
  tracks : ∀ i < k, ∀ j < k,
    ∑ t ∈ Finset.range k, aug i (k + t) * M t j = aug i j
  kernel : ∀ v : Nat → F,
    (∀ i < k, ∑ j ∈ Finset.range k, aug i j * v j = 0) → ∀ j < k, v j = 0

def UnitColumns (k c : Nat) (aug : Nat → Nat → F) : Prop :=
  ∀ j < c, ∀ i < k, aug i j = if i = j then 1 else 0

def augment (k : Nat) (M : Nat → Nat → F) : Nat → Nat → F := fun i j =>
  if j < k then M i j else if j - k = i then 1 else 0

def swapRows (aug : Nat → Nat → F) (p q : Nat) : Nat → Nat → F := fun i =>
  if i = p then aug q else if i = q then aug p else aug i

def scaleRow (aug : Nat → Nat → F) (c : Nat) (s : F) : Nat → Nat → F :=
  update aug c fun j => aug c j * s

def addRow (aug : Nat → Nat → F) (i c : Nat) (t : F) : Nat → Nat → F :=
  update aug i fun j => aug i j + t * aug c j

theorem augment_rowEquivalent (k : Nat) (M : Nat → Nat → F)
    (kernel : ∀ v : Nat → F, (∀ i < k, ∑ j ∈ Finset.range k, M i j * v j = 0) → ∀ j < k, v j = 0) :
    RowEquivalent k M (augment k M) := by
  constructor
  · intro i iLt j jLt
    have right : ∀ t ∈ Finset.range k,
        augment k M i (k + t) * M t j = if t = i then M i j else 0 := by
      intro t _
      by_cases same : t = i
      all_goals simp [augment, same]
    rw [sum_congr rfl right, sum_ite_eq' (Finset.range k) i]
    simp [augment, iLt, jLt]
  · intro v annihilated
    apply kernel v
    intro i iLt
    rw [← annihilated i iLt]
    apply sum_congr rfl
    intro j jMem
    simp [augment, mem_range.mp jMem]

variable {k : Nat} {M aug : Nat → Nat → F} {c : Nat}

variable (equiv : RowEquivalent k M aug)
include equiv

theorem RowEquivalent.swapRows (p q : Nat) (pLt : p < k) (qLt : q < k) :
    RowEquivalent k M (swapRows aug p q) := by
  constructor
  · intro i iLt j jLt
    unfold RowReduction.swapRows
    split_ifs
    · exact equiv.tracks q qLt j jLt
    · exact equiv.tracks p pLt j jLt
    · exact equiv.tracks i iLt j jLt
  intro v annihilated
  apply equiv.kernel v
  intro i iLt
  by_cases isP : i = p
  · have atQ := annihilated q qLt
    by_cases same : q = p
    all_goals simpa [RowReduction.swapRows, isP, same] using atQ
  · by_cases isQ : i = q
    · simpa [RowReduction.swapRows, isQ] using annihilated p pLt
    · simpa [RowReduction.swapRows, isP, isQ] using annihilated i iLt

theorem RowEquivalent.scaleRow (c : Nat) (s : F) (nonzero : s ≠ 0) :
    RowEquivalent k M (scaleRow aug c s) := by
  constructor
  · intro i iLt j jLt
    by_cases isC : i = c
    · subst isC
      have scaled := congrArg (· * s) (equiv.tracks i iLt j jLt)
      simp only [sum_mul] at scaled
      simp only [RowReduction.scaleRow, update_self, ← scaled]
      exact sum_congr rfl fun t _ => by ring
    · simpa [RowReduction.scaleRow, isC] using equiv.tracks i iLt j jLt
  intro v annihilated
  apply equiv.kernel v
  intro i iLt
  have row := annihilated i iLt
  by_cases isC : i = c
  · subst isC
    simp only [RowReduction.scaleRow, update_self] at row
    have factored : (∑ j ∈ Finset.range k, aug i j * v j) * s = 0 := by
      rw [← row, sum_mul]
      exact sum_congr rfl fun t _ => by ring
    exact (mul_eq_zero.mp factored).resolve_right nonzero
  · simpa [RowReduction.scaleRow, isC] using row

theorem RowEquivalent.addRow (i c : Nat) (t : F) (cLt : c < k) (distinct : i ≠ c) :
    RowEquivalent k M (addRow aug i c t) := by
  constructor
  · intro row rowLt j jLt
    by_cases isI : row = i
    · subst isI
      simp only [RowReduction.addRow, update_self, add_mul, sum_add_distrib, mul_assoc, ← mul_sum]
      rw [equiv.tracks row rowLt j jLt, equiv.tracks c cLt j jLt]
    · simpa [RowReduction.addRow, isI] using equiv.tracks row rowLt j jLt
  intro v annihilated
  have pivotRow : ∑ j ∈ Finset.range k, aug c j * v j = 0 := by
    simpa [RowReduction.addRow, distinct.symm] using annihilated c cLt
  apply equiv.kernel v
  intro row rowLt
  have changed := annihilated row rowLt
  by_cases isI : row = i
  · subst isI
    simpa only [RowReduction.addRow, update_self, add_mul,
      sum_add_distrib, mul_assoc, ← mul_sum, pivotRow, mul_zero,
      add_zero] using changed
  · simpa [RowReduction.addRow, isI] using changed

variable (units : UnitColumns k c aug)
include units

/-- A reduced column block leaves a nonzero entry on or below the diagonal of the
next column: otherwise that column would be a combination of the unit columns. -/
theorem exists_pivot (cLt : c < k) : ∃ p, c ≤ p ∧ p < k ∧ aug p c ≠ 0 := by
  by_contra none
  push Not at none
  let v : Nat → F := fun j => if j < c then aug j c else if j = c then -1 else 0
  have annihilated : ∀ i < k, ∑ j ∈ Finset.range k, aug i j * v j = 0 := by
    intro i iLt
    have split : ∀ j ∈ Finset.range k, aug i j * v j =
        (if j = i then (if i < c then aug i c else 0) else 0) +
          (if j = c then -aug i c else 0) := by
      intro j _
      by_cases jLow : j < c
      · have unit := units j jLow i iLt
        by_cases same : j = i
        · subst same
          simp [v, jLow, unit, Nat.ne_of_lt jLow]
        · simp [v, jLow, unit, same, Ne.symm same, Nat.ne_of_lt jLow]
      by_cases atC : j = c
      · subst atC
        by_cases same : j = i
        all_goals simp [v, same]
      · by_cases same : j = i
        · subst same
          simp [v, jLow, atC]
        · simp [v, jLow, atC, same]
    rw [sum_congr rfl split, sum_add_distrib,
      sum_ite_eq' (Finset.range k) i, sum_ite_eq' (Finset.range k) c]
    by_cases iLow : i < c
    · simp [iLt, cLt, iLow]
    · simp [cLt, iLow, none i (by omega) iLt]
  have atC := equiv.kernel v annihilated c cLt
  simp [v] at atC

omit equiv

theorem UnitColumns.swapRows (p q : Nat) (pLow : c ≤ p) (pLt : p < k) (qLow : c ≤ q) (qLt : q < k) :
    UnitColumns k c (swapRows aug p q) := by
  intro j jLt i iLt
  unfold RowReduction.swapRows
  split_ifs with isP isQ same
  · omega
  · rw [units j jLt q qLt, if_neg (by omega)]
  · omega
  · rw [units j jLt p pLt, if_neg (by omega)]
  · rw [units j jLt i iLt, if_pos ‹_›]
  · rw [units j jLt i iLt, if_neg ‹_›]

theorem UnitColumns.scaleRow (row : Nat) (s : F) (low : c ≤ row) :
    UnitColumns k c (scaleRow aug row s) := by
  intro j jLt i iLt
  by_cases isRow : i = row
  · subst isRow
    simp [RowReduction.scaleRow, units j jLt i iLt, show i ≠ j by omega]
  · simpa [RowReduction.scaleRow, isRow] using units j jLt i iLt

theorem UnitColumns.addRow (row pivot : Nat) (t : F) (low : c ≤ pivot) (pivotLt : pivot < k) :
    UnitColumns k c (addRow aug row pivot t) := by
  intro j jLt i iLt
  have pivotZero := units j jLt pivot pivotLt
  rw [if_neg (by omega)] at pivotZero
  by_cases isRow : i = row
  · subst isRow
    simp [RowReduction.addRow, pivotZero, units j jLt i iLt]
  · simpa [RowReduction.addRow, isRow] using units j jLt i iLt

omit units

include equiv

/-- The right half of a fully reduced matrix is a left inverse. -/
theorem leftInverse (units : UnitColumns k k aug) (i j : Nat) (iLt : i < k) (jLt : j < k) :
    ∑ t ∈ Finset.range k, aug i (k + t) * M t j = if i = j then 1 else 0 :=
  (equiv.tracks i iLt j jLt).trans (units j jLt i iLt)

end MultiFlow.Lib.RowReduction
