import MultiFlow.Codec.Galois
import MultiFlow.Lib.Loop
import MultiFlow.Lib.Mds

/-!
# The rscode encoder

`encode_data` of `rs.c` runs a linear feedback shift register over the message and appends its
`NPAR = 2` bytes: for the four message bytes used here, two fixed linear forms of the message that
survive every erasure of two symbols.
-/

set_option autoImplicit false
set_option maxRecDepth 100000

namespace MultiFlow.Rscode

open Galois Lib

def NPAR : Nat := 2

def MAXDEG : Nat := NPAR * 2

/-- `mult_polys`: both factors have `MAXDEG` coefficients. -/
def multPolys (p1 p2 : Nat → GF256) : Nat → GF256 := fun j =>
  forRange MAXDEG 0 fun dst i =>
    dst + if i ≤ j ∧ j - i < MAXDEG then p2 (j - i) * p1 i else 0

/-- The product of `x + a^i` for `i = 1 .. nbytes`, lowest coefficient first. -/
def computeGenpoly (nbytes : Nat) : Nat → GF256 :=
  forRange nbytes (fun j => if j = 0 then 1 else 0) fun tp1 i =>
    multPolys (fun j => if j = 0 then ⟨gexp (i + 1)⟩ else if j = 1 then 1 else 0)
      fun j => if j < MAXDEG then tp1 j else 0

def genPoly : Nat → GF256 := computeGenpoly NPAR

def lfsrStep (genPoly : Nat → GF256) (lfsr : Nat → GF256) (byte : GF256) : Nat → GF256 :=
  let dbyte := byte + lfsr (NPAR - 1)
  fun j =>
    if j = 0 then genPoly 0 * dbyte
    else if j < NPAR then lfsr (j - 1) + genPoly j * dbyte
    else lfsr j

def encodeData (msg : Nat → GF256) (nbytes : Nat) : Nat → GF256 :=
  let pBytes := forRange nbytes (fun _ => 0) fun lfsr i => lfsrStep genPoly lfsr (msg i)
  fun i => if i < nbytes then msg i else pBytes (NPAR - 1 - (i - nbytes))

def unitMessage (column : Nat) : Nat → GF256 := fun i => if i = column then 1 else 0

/-- The parity rows read off the codewords of the unit messages. -/
def parityRow (row column : Nat) : GF256 := encodeData (unitMessage column) 4 (4 + row)

theorem encodeData_parity (msg : Nat → GF256) (row : Nat) (isParity : row < 2) :
    encodeData msg 4 (4 + row) = ∑ j ∈ Finset.range 4, parityRow row j * msg j := by
  have highest : NPAR - 1 - (4 + row - 4) = 1 - row := by
    unfold NPAR
    omega
  have rowCases : row = 0 ∨ row = 1 := by omega
  simp only [parityRow, encodeData, if_neg (show ¬ 4 + row < 4 by omega), highest,
    forRange_succ, forRange_zero, Finset.sum_range_succ, Finset.sum_range_zero]
  rcases rowCases with rfl | rfl
  all_goals
    simp [lfsrStep, NPAR, unitMessage]
    ring

theorem parityRow_entries :
    ∀ row < 2, ∀ column < 4, parityRow row column =
      ⟨([[237, 120, 28, 6], [231, 224, 48, 8]].getD row []).getD column 0⟩ := by
  decide +kernel

theorem parityRow_isMds : Mds.IsMds 4 2 parityRow := by
  apply Mds.isMds_two_rows
  · intro row rowLt column columnLt
    rw [parityRow_entries row rowLt column columnLt]
    revert row column
    decide +kernel
  · intro a aLt b bLt different
    rw [parityRow_entries 0 (by omega) a aLt, parityRow_entries 1 (by omega) b bLt,
      parityRow_entries 0 (by omega) b bLt, parityRow_entries 1 (by omega) a aLt]
    revert a b
    decide +kernel

end MultiFlow.Rscode
