import Mathlib.LinearAlgebra.Lagrange
import Mathlib.Tactic

/-!
# Systematic codes that survive every erasure pattern

A systematic code over a field has `k` data rows (the identity) and the rows of a parity matrix.
`IsMds` says that no nonzero message is hidden from as many parity rows as it has nonzero entries;
then any `k` rows determine the message (`kernel_of_survivors`).  A Cauchy matrix is of this kind,
by counting the roots of the polynomial that clears its denominators.
-/

namespace MultiFlow.Lib.Mds

universe u

variable {F : Type u} [Field F] [DecidableEq F]

/-- The positions below `k` at which the message is not zero. -/
def support (k : Nat) (message : Nat → F) : Finset Nat :=
  (Finset.range k).filter fun j => message j ≠ 0

def IsMds (k r : Nat) (parity : Nat → Nat → F) : Prop :=
  ∀ (message : Nat → F) (rows : Finset Nat), rows ⊆ Finset.range r →
    (support k message).card ≤ rows.card →
    (∀ i ∈ rows, ∑ j ∈ Finset.range k, parity i j * message j = 0) →
    ∀ j < k, message j = 0

/-- Row `i` of the systematic code: the identity first, then the parity rows. -/
def systematic (k : Nat) (parity : Nat → Nat → F) : Nat → Nat → F := fun i j =>
  if i < k then (if i = j then 1 else 0) else parity (i - k) j

omit [DecidableEq F] in
theorem systematic_data (k : Nat) (parity : Nat → Nat → F) (msg : Nat → F) (i : Nat) (iLt : i < k) :
    ∑ j ∈ Finset.range k, systematic k parity i j * msg j = msg i := by
  have entries : ∀ j ∈ Finset.range k,
      systematic k parity i j * msg j = if j = i then msg i else 0 := by
    intro j _
    by_cases same : j = i
    · simp [systematic, iLt, same]
    · simp [systematic, iLt, same, Ne.symm same]
  rw [Finset.sum_congr rfl entries, Finset.sum_ite_eq' (Finset.range k) i]
  simp [iLt]

/-- Any `k` distinct rows of the systematic code have a trivial common kernel. -/
theorem kernel_of_survivors {k r : Nat} {parity : Nat → Nat → F}
    (mds : IsMds k r parity) (survivors : Finset Nat)
    (inCode : survivors ⊆ Finset.range (k + r)) (enough : k ≤ survivors.card) (msg : Nat → F)
    (annihilated : ∀ i ∈ survivors, ∑ j ∈ Finset.range k, systematic k parity i j * msg j = 0) :
    ∀ j < k, msg j = 0 := by
  let dataRows := survivors.filter (· < k)
  let parityRows := survivors.filter (¬ · < k)
  have partition : dataRows.card + parityRows.card = survivors.card :=
    Finset.card_filter_add_card_filter_not (s := survivors) (· < k)
  -- the message vanishes on the surviving data rows
  have supportBound : (support k msg).card + dataRows.card ≤ k := by
    have disjoint : Disjoint (support k msg) dataRows := by
      rw [Finset.disjoint_left]
      intro j jSupport jData
      obtain ⟨jSurvivor, jLt⟩ := Finset.mem_filter.mp jData
      have isZero := annihilated j jSurvivor
      rw [systematic_data k parity msg j jLt] at isZero
      exact (Finset.mem_filter.mp jSupport).2 isZero
    have inside : support k msg ∪ dataRows ⊆ Finset.range k := by
      intro _ jMem
      rcases Finset.mem_union.mp jMem with inSupport | inData
      · exact (Finset.mem_filter.mp inSupport).1
      · exact Finset.mem_range.mpr (Finset.mem_filter.mp inData).2
    have counted := Finset.card_le_card inside
    rwa [Finset.card_union_of_disjoint disjoint, Finset.card_range] at counted
  let rows := parityRows.image (· - k)
  have rowsCard : rows.card = parityRows.card := by
    apply Finset.card_image_of_injOn
    intro _ aMem _ bMem same
    have aHigh := (Finset.mem_filter.mp aMem).2
    have bHigh := (Finset.mem_filter.mp bMem).2
    dsimp only at same
    omega
  apply mds msg rows
  · intro i iMem
    obtain ⟨row, rowMem, rfl⟩ := Finset.mem_image.mp iMem
    obtain ⟨rowSurvivor, rowHigh⟩ := Finset.mem_filter.mp rowMem
    have rowLt := Finset.mem_range.mp (inCode rowSurvivor)
    exact Finset.mem_range.mpr (by omega)
  · omega
  · intro _ iMem
    obtain ⟨row, rowMem, rfl⟩ := Finset.mem_image.mp iMem
    obtain ⟨rowSurvivor, rowHigh⟩ := Finset.mem_filter.mp rowMem
    simpa [systematic, rowHigh] using annihilated row rowSurvivor

section Cauchy

open Polynomial Finset

variable (x y : Nat → F)

/-- The message's rational function over the common denominator of its support. -/
noncomputable def numerator (message : Nat → F) (D : Finset Nat) : F[X] :=
  ∑ j ∈ D, C (message j) * ∏ l ∈ D.erase j, (X - C (y l))

omit [DecidableEq F] in
theorem numerator_degree_lt (msg : Nat → F) (D : Finset Nat) (ne : D.Nonempty) :
    (numerator y msg D).degree < D.card := by
  apply lt_of_le_of_lt (degree_sum_le _ _)
  rw [Finset.sup_lt_iff (WithBot.bot_lt_coe _)]
  intro _ jMem
  rw [← smul_eq_C_mul]
  apply lt_of_le_of_lt (degree_smul_le _ _)
  rw [degree_prod]
  simp only [degree_X_sub_C, Finset.sum_const, Finset.card_erase_of_mem jMem, nsmul_eq_mul, mul_one]
  have pos := Finset.card_pos.mpr ne
  exact_mod_cast Nat.sub_lt pos Nat.one_pos

omit [DecidableEq F] in
theorem numerator_eval_cauchy (msg : Nat → F) (D : Finset Nat) (i : Nat)
    (apart : ∀ j ∈ D, x i - y j ≠ 0) :
    (numerator y msg D).eval (x i) = (∏ l ∈ D, (x i - y l)) * ∑ j ∈ D, (x i - y j)⁻¹ * msg j := by
  rw [numerator, eval_finsetSum, mul_sum]
  apply sum_congr rfl
  intro j jMem
  rw [eval_mul, eval_C, eval_prod, ← mul_prod_erase D _ jMem]
  simp only [eval_sub, eval_X, eval_C]
  field_simp [apart j jMem]

omit [DecidableEq F] in
theorem numerator_eval_pole (msg : Nat → F) (D : Finset Nat) (j : Nat) (jMem : j ∈ D) :
    (numerator y msg D).eval (y j) = msg j * ∏ l ∈ D.erase j, (y j - y l) := by
  rw [numerator, eval_finsetSum, sum_eq_single_of_mem j jMem]
  · simp [eval_prod]
  intro _ _ apart
  rw [eval_mul, eval_prod, prod_eq_zero (mem_erase.mpr ⟨apart.symm, jMem⟩), mul_zero]
  simp

theorem cauchy_isMds (k r : Nat)
    (xInjective : Set.InjOn x (Finset.range r)) (yInjective : Set.InjOn y (Finset.range k))
    (apart : ∀ i < r, ∀ j < k, x i - y j ≠ 0) : IsMds k r fun i j => (x i - y j)⁻¹ := by
  intro msg rows rowsIn supportSmall annihilated
  by_contra nonzero
  push Not at nonzero
  obtain ⟨j, jLt, jNonzero⟩ := nonzero
  let D := support k msg
  have jMem : j ∈ D := mem_filter.mpr ⟨mem_range.mpr jLt, jNonzero⟩
  have inRange : ∀ l ∈ D, l < k := fun l lMem => mem_range.mp (mem_filter.mp lMem).1
  have rowSum : ∀ i ∈ rows, ∑ l ∈ D, (x i - y l)⁻¹ * msg l = 0 := by
    intro i iMem
    rw [← annihilated i iMem]
    apply sum_subset (filter_subset _ _)
    intro l lRange lZero
    have isZero : msg l = 0 := by
      by_contra lNonzero
      exact lZero (mem_filter.mpr ⟨lRange, lNonzero⟩)
    rw [isZero, mul_zero]
  -- fewer degrees than roots: the numerator is the zero polynomial
  have vanishes : numerator y msg D = 0 := by
    apply eq_zero_of_degree_lt_of_eval_index_eq_zero (v := x) rows
      (xInjective.mono (coe_subset.mpr rowsIn))
    · apply lt_of_lt_of_le (numerator_degree_lt y msg D ⟨j, jMem⟩)
      exact_mod_cast supportSmall
    · intro i iMem
      rw [numerator_eval_cauchy x y msg D i fun l lMem =>
        apart i (mem_range.mp (rowsIn iMem)) l (inRange l lMem), rowSum i iMem, mul_zero]
  have atPole := numerator_eval_pole y msg D j jMem
  rw [vanishes, eval_zero] at atPole
  rcases mul_eq_zero.mp atPole.symm with messageZero | productZero
  · exact jNonzero messageZero
  obtain ⟨l, lMem, same⟩ := prod_eq_zero_iff.mp productZero
  obtain ⟨different, lInD⟩ := mem_erase.mp lMem
  apply different
  apply yInjective (mem_range.mpr (inRange l lInD)) (mem_range.mpr jLt)
  exact (sub_eq_zero.mp same).symm

end Cauchy

/-- With two parity rows it is enough that no entry and no two by two minor is zero. -/
theorem isMds_two_rows (k : Nat) (parity : Nat → Nat → F)
    (entries : ∀ i < 2, ∀ j < k, parity i j ≠ 0)
    (minors : ∀ a < k, ∀ b < k, a ≠ b → parity 0 a * parity 1 b - parity 0 b * parity 1 a ≠ 0) :
    IsMds k 2 parity := by
  intro message rows rowsIn _ annihilated
  have rowSum : ∀ i ∈ rows, ∑ j ∈ support k message, parity i j * message j = 0 := by
    intro i iMem
    rw [← annihilated i iMem]
    apply Finset.sum_subset (Finset.filter_subset _ _)
    intro l lRange lZero
    have isZero : message l = 0 := by
      by_contra lNonzero
      exact lZero (Finset.mem_filter.mpr ⟨lRange, lNonzero⟩)
    rw [isZero, mul_zero]
  have supportMem : ∀ j ∈ support k message, j < k ∧ message j ≠ 0 := fun j jMem =>
    ⟨Finset.mem_range.mp (Finset.mem_filter.mp jMem).1, (Finset.mem_filter.mp jMem).2⟩
  have rowsAtMost : rows.card ≤ 2 := by simpa using Finset.card_le_card rowsIn
  have empty : support k message = ∅ := by
    by_contra ne
    have pos := Finset.card_pos.mpr (Finset.nonempty_iff_ne_empty.mpr ne)
    obtain one | two : (support k message).card = 1 ∨ (support k message).card = 2 := by omega
    · obtain ⟨a, only⟩ := Finset.card_eq_one.mp one
      obtain ⟨aLt, aNonzero⟩ := supportMem a (by simp [only])
      obtain ⟨i, iMem⟩ := Finset.card_pos.mp (by omega : 0 < rows.card)
      have row := rowSum i iMem
      rw [only, Finset.sum_singleton] at row
      rcases mul_eq_zero.mp row with entryZero | messageZero
      · exact entries i (Finset.mem_range.mp (rowsIn iMem)) a aLt entryZero
      · exact aNonzero messageZero
    · obtain ⟨a, b, apart, only⟩ := Finset.card_eq_two.mp two
      obtain ⟨aLt, _⟩ := supportMem a (by simp [only])
      obtain ⟨bLt, bNonzero⟩ := supportMem b (by simp [only])
      have allRows : rows = Finset.range 2 := Finset.eq_of_subset_of_card_le rowsIn (by simp; omega)
      have first := rowSum 0 (by simp [allRows])
      have second := rowSum 1 (by simp [allRows])
      rw [only, Finset.sum_pair apart] at first second
      have eliminated :
          (parity 0 a * parity 1 b - parity 0 b * parity 1 a) * message b = 0 := by
        linear_combination parity 0 a * second - parity 1 a * first
      exact (mul_ne_zero (minors a aLt b bLt apart) bNonzero) eliminated
  intro j jLt
  by_contra jNonzero
  have jMem : j ∈ support k message := Finset.mem_filter.mpr ⟨Finset.mem_range.mpr jLt, jNonzero⟩
  rw [empty] at jMem
  exact absurd jMem (Finset.notMem_empty j)

end MultiFlow.Lib.Mds
