import MultiFlow.Codec.Galois
import MultiFlow.Lib.Loop
import MultiFlow.Lib.RowReduction

/-!
# Matrix inversion of the RS codec

`matrix_inverse_dyn` of `rs_codec.c`: Gauss-Jordan elimination on the input
augmented with the identity, with a search for the pivot in each column.  An input
with a trivial kernel is inverted.
-/

namespace MultiFlow.RsMatrix

open Galois Lib Lib.RowReduction

def RS_ABS_MAX_SHARDS : Nat := 255

/-- The row loop of one column: every other row loses its entry in the column. -/
def clearColumn (k column : Nat) (augmented : Nat → Nat → GF256) : Nat → Nat → GF256 :=
  forRange k augmented fun augmented row =>
    if row = column then augmented
    else
      let factor := augmented row column
      if factor = 0 then augmented else addRow augmented row column factor

/-- One column: find a pivot at or below the diagonal, exchange, normalise, clear. -/
def reduceColumn (k : Nat) (augmented : Nat → Nat → GF256) (column : Nat) :
    Option (Nat → Nat → GF256) :=
  match (List.range' column (k - column)).find? fun pivot => augmented pivot column ≠ 0 with
  | none => none
  | some pivot =>
    let exchanged :=
      if pivot ≠ column then swapRows augmented pivot column else augmented
    let inverse := (exchanged column column)⁻¹
    some (clearColumn k column (scaleRow exchanged column inverse))

def matrixInverseDyn (input : Nat → Nat → GF256) (k : Nat) : Option (Nat → Nat → GF256) :=
  if k = 0 ∨ RS_ABS_MAX_SHARDS ≤ k then none
  else
    match forRangeOption k (augment k input) (reduceColumn k) with
    | none => none
    | some augmented => some fun row column => augmented row (k + column)

theorem self_add_self (element : GF256) : element + element = 0 := by
  apply GF256.ext
  simp

theorem clearColumn_spec (k col : Nat) (input augmented : Nat → Nat → GF256)
    (columnLt : col < k) (equiv : RowEquivalent k input augmented)
    (units : UnitColumns k col augmented) (pivotOne : augmented col col = 1) :
    RowEquivalent k input (clearColumn k col augmented) ∧
      UnitColumns k (col + 1) (clearColumn k col augmented) := by
  -- rows below the loop index are cleared, the pivot row is never touched
  have cleared := forRange_induction k augmented
    (fun augmented row =>
      if row = col then augmented
      else
        let factor := augmented row col
        if factor = 0 then augmented else addRow augmented row col factor)
    (fun done cur => RowEquivalent k input cur ∧ UnitColumns k col cur ∧
      cur col col = 1 ∧
      ∀ row < done, row ≠ col → cur row col = 0)
    ⟨equiv, units, pivotOne, fun row less => by omega⟩
    (by
      intro row rowLt cur ⟨currentEquivalent, currentUnits, currentPivot, below⟩
      by_cases isPivot : row = col
      · rw [if_pos isPivot]
        refine ⟨currentEquivalent, currentUnits, currentPivot, ?_⟩
        intro other otherLt otherNe
        exact below other (by omega) otherNe
      rw [if_neg isPivot]
      by_cases isZero : cur row col = 0
      · simp only [isZero, if_true]
        refine ⟨currentEquivalent, currentUnits, currentPivot, ?_⟩
        intro other otherLt otherNe
        by_cases same : other = row
        · rw [same, isZero]
        · exact below other (by omega) otherNe
      · simp only [isZero, if_false]
        refine ⟨currentEquivalent.addRow row col _ columnLt isPivot,
          currentUnits.addRow row col _ (by omega) columnLt, ?_, ?_⟩
        · simpa [addRow, Ne.symm isPivot] using currentPivot
        · intro other otherLt otherNe
          by_cases same : other = row
          · simp [addRow, same, currentPivot, self_add_self]
          · simpa [addRow, same] using below other (by omega) otherNe)
  obtain ⟨finalEquivalent, finalUnits, finalPivot, finalCleared⟩ := cleared
  refine ⟨finalEquivalent, ?_⟩
  intro j jLt i iLt
  rcases Nat.lt_succ_iff_lt_or_eq.mp jLt with lower | atColumn
  · exact finalUnits j lower i iLt
  subst atColumn
  by_cases diagonal : i = j
  · rw [if_pos diagonal, diagonal]
    exact finalPivot
  · rw [if_neg diagonal]
    exact finalCleared i iLt diagonal

theorem reduceColumn_spec (k column : Nat) (input augmented : Nat → Nat → GF256)
    (columnLt : column < k) (equiv : RowEquivalent k input augmented)
    (units : UnitColumns k column augmented) :
    ∃ next, reduceColumn k augmented column = some next ∧
      RowEquivalent k input next ∧ UnitColumns k (column + 1) next := by
  obtain ⟨p, pLow, pLt, pNonzero⟩ := exists_pivot equiv units columnLt
  cases found : (List.range' column (k - column)).find?
      fun pivot => augmented pivot column ≠ 0 with
  | none =>
    have missing := List.find?_eq_none.mp found p (by
      rw [List.mem_range'_1]
      omega)
    simp [pNonzero] at missing
  | some pivot =>
    have pivotNonzero : augmented pivot column ≠ 0 := by
      simpa using List.find?_some found
    have pivotRange := List.mem_range'_1.mp (List.mem_of_find?_eq_some found)
    let exchanged := if pivot ≠ column then swapRows augmented pivot column else augmented
    have exchangedSpec : RowEquivalent k input exchanged ∧
        UnitColumns k column exchanged ∧ exchanged column column ≠ 0 := by
      by_cases same : pivot = column
      · have unchanged : exchanged = augmented := by simp [exchanged, same]
        rw [unchanged]
        exact ⟨equiv, units, same ▸ pivotNonzero⟩
      have swapped : exchanged = swapRows augmented pivot column := by
        simp [exchanged, same]
      rw [swapped]
      refine ⟨equiv.swapRows pivot column (by omega) columnLt,
        units.swapRows pivot column (by omega) (by omega) (by omega) columnLt, ?_⟩
      simpa [swapRows, Ne.symm same] using pivotNonzero
    obtain ⟨exchangedEquivalent, exchangedUnits, exchangedNonzero⟩ := exchangedSpec
    have scaledOne :
        scaleRow exchanged column (exchanged column column)⁻¹ column column = 1 := by
      simp [scaleRow, mul_inv_cancel₀ exchangedNonzero]
    refine ⟨clearColumn k column
      (scaleRow exchanged column (exchanged column column)⁻¹), ?_, ?_⟩
    · simp only [reduceColumn, found]
      rfl
    · exact clearColumn_spec k column input _ columnLt
        (exchangedEquivalent.scaleRow column _ (inv_ne_zero exchangedNonzero))
        (exchangedUnits.scaleRow column _ (le_refl column)) scaledOne

theorem matrixInverseDyn_spec (k : Nat) (input : Nat → Nat → GF256) (positive : 0 < k)
    (small : k < RS_ABS_MAX_SHARDS) (kernel : ∀ v : Nat → GF256,
      (∀ i < k, ∑ j ∈ Finset.range k, input i j * v j = 0) → ∀ j < k, v j = 0) :
    ∃ out, matrixInverseDyn input k = some out ∧
      ∀ i < k, ∀ j < k, ∑ t ∈ Finset.range k, out i t * input t j = if i = j then 1 else 0 := by
  obtain ⟨augmented, reduced, equiv, units⟩ :=
    forRangeOption_induction k (augment k input) (reduceColumn k)
      (fun col cur => RowEquivalent k input cur ∧ UnitColumns k col cur)
      ⟨augment_rowEquivalent k input kernel, fun j less => by omega⟩
      (by
        intro col columnLt cur ⟨equiv, units⟩
        exact reduceColumn_spec k col input cur columnLt equiv units)
  refine ⟨fun row col => augmented row (k + col), ?_, ?_⟩
  · rw [matrixInverseDyn, if_neg (by omega), reduced]
  · intro i iLt j jLt
    exact leftInverse equiv units i j iLt jLt

end MultiFlow.RsMatrix
