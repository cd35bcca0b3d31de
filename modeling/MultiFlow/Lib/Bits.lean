import Mathlib.Tactic

/-!
# Single bits of a word

A word used as a set of small numbers: what setting, clearing and testing one bit does to every
bit of the word.
-/

namespace MultiFlow.Lib

variable {width : Nat}

theorem getLsbD_bit (index : Nat) {i : Nat} (bound : i < width) :
    (BitVec.ofNat width 1 <<< index).getLsbD i = decide (i = index) := by
  rw [BitVec.getLsbD_shiftLeft, BitVec.getLsbD_one]
  grind

theorem getLsbD_setBit (bits : BitVec width) (index : Nat) {i : Nat} (bound : i < width) :
    (bits ||| BitVec.ofNat width 1 <<< index).getLsbD i =
      if i = index then true else bits.getLsbD i := by
  rw [BitVec.getLsbD_or, getLsbD_bit index bound]
  by_cases same : i = index <;> simp [same]

theorem getLsbD_clearBit (bits : BitVec width) (index : Nat) {i : Nat} (bound : i < width) :
    (bits &&& ~~~(BitVec.ofNat width 1 <<< index)).getLsbD i =
      if i = index then false else bits.getLsbD i := by
  rw [BitVec.getLsbD_and, BitVec.getLsbD_not, getLsbD_bit index bound]
  by_cases same : i = index <;> simp [same, bound]

theorem and_bit_eq_zero_iff (bits : BitVec width) {index : Nat} (bound : index < width) :
    bits &&& BitVec.ofNat width 1 <<< index = BitVec.ofNat width 0 ↔
      bits.getLsbD index = false := by
  constructor
  · intro zero
    have bit := congrArg (fun word => word.getLsbD index) zero
    simpa [getLsbD_bit index bound] using bit
  intro clear
  refine BitVec.eq_of_getLsbD_eq ?_
  intro i inside
  rw [BitVec.getLsbD_and, getLsbD_bit index inside, BitVec.getLsbD_zero]
  by_cases same : i = index
  · rw [same, clear, Bool.false_and]
  · rw [decide_eq_false same, Bool.and_false]

end MultiFlow.Lib
