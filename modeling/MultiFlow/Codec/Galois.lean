import Mathlib.Algebra.Field.Basic
import Mathlib.Data.Fintype.Card
import Mathlib.Tactic

/-!
# GF(256) of the vendored rscode library

As in `init_exp_table` of `galois.c`, an eight-bit shift register is stepped 255 times and its
values are stored twice.  `gmult` and `ginv` are table lookups; they are the multiplication and the
inverse of a field whose addition is exclusive or.  Everything rests on two facts: each table entry
is the previous one multiplied by the generator (`xtime`), and `xtime` is linear.
-/

set_option autoImplicit false
set_option maxRecDepth 100000

namespace MultiFlow.Galois

/-- The bits `p1` to `p8` of `init_exp_table`, lowest first. -/
structure ShiftRegister where
  p1 : Bool
  p2 : Bool
  p3 : Bool
  p4 : Bool
  p5 : Bool
  p6 : Bool
  p7 : Bool
  p8 : Bool

def ShiftRegister.init : ShiftRegister :=
  ⟨true, false, false, false, false, false, false, false⟩

/-- One iteration of the table loop; the bit shifted out (`pinit`) is fed back
into `p1`, `p3`, `p4` and `p5`. -/
def ShiftRegister.step (register : ShiftRegister) : ShiftRegister :=
  let pinit := register.p8
  { p8 := register.p7
    p7 := register.p6
    p6 := register.p5
    p5 := register.p4 ^^ pinit
    p4 := register.p3 ^^ pinit
    p3 := register.p2 ^^ pinit
    p2 := register.p1
    p1 := pinit }

def ShiftRegister.value (register : ShiftRegister) : UInt8 :=
  UInt8.ofNat (register.p1.toNat + register.p2.toNat * 2 + register.p3.toNat * 4 +
    register.p4.toNat * 8 + register.p5.toNat * 16 + register.p6.toNat * 32 +
    register.p7.toNat * 64 + register.p8.toNat * 128)

def powersFrom : Nat → ShiftRegister → List UInt8
  | 0, _ => []
  | count + 1, register => register.step.value :: powersFrom count register.step

/-- `gexp[0]`, then the loop's values at `1 .. 255` and again at `256 .. 510`. -/
def initExpTable : List UInt8 :=
  ShiftRegister.init.value ::
    (powersFrom 255 ShiftRegister.init ++ powersFrom 255 ShiftRegister.init)

def gexp (index : Nat) : UInt8 := initExpTable.getD index 0

def glog (element : UInt8) : Nat :=
  if element = 0 then 0
  else ((List.range 256).find? fun position => gexp position == element).getD 0

def gmult (left right : UInt8) : UInt8 :=
  if left = 0 ∨ right = 0 then 0 else gexp (glog left + glog right)

def ginv (element : UInt8) : UInt8 := gexp (255 - glog element)

/-- Multiplication by the generator: shift left, reduce by `PPOLY`. -/
def xtime (byte : UInt8) : UInt8 := (byte <<< 1) ^^^ (if 128 ≤ byte then 0x1d else 0)

theorem initExpTable_isChain : initExpTable.IsChain (fun power next => next = xtime power) := by
  decide +kernel

theorem initExpTable_length : initExpTable.length = 511 := by decide +kernel

theorem gexp_eq_getElem (index : Nat) (inTable : index < initExpTable.length) :
    gexp index = initExpTable[index] := by
  simp [gexp, List.getD, inTable]

theorem gexp_zero : gexp 0 = 1 := by decide +kernel

theorem gexp_full_period : gexp 255 = 1 := by decide +kernel

theorem no_short_period : ∀ power ∈ (initExpTable.drop 1).take 254, power ≠ 1 := by
  decide +kernel

theorem gexp_succ (index : Nat) (inTable : index < 510) :
    gexp (index + 1) = xtime (gexp index) := by
  have chain := List.isChain_iff_getElem.mp initExpTable_isChain index
    (by rw [initExpTable_length]; omega)
  rw [gexp_eq_getElem _ (by rw [initExpTable_length]; omega),
    gexp_eq_getElem _ (by rw [initExpTable_length]; omega)]
  exact chain

theorem gexp_add (index steps : Nat) (inTable : index + steps ≤ 510) :
    gexp (index + steps) = xtime^[steps] (gexp index) := by
  induction steps with
  | zero => rfl
  | succ _ ih =>
    rw [← Nat.add_assoc, gexp_succ _ (by omega), ih (by omega),
      Function.iterate_succ_apply']

theorem xtime_eq_bits (byte : UInt8) :
    (xtime byte).toBitVec =
      (byte.toBitVec <<< 1) ^^^ (if byte.toBitVec.msb then 0x1d#8 else 0#8) := by
  have high : 128 ≤ byte ↔ byte.toBitVec.msb = true := by
    rw [BitVec.msb_eq_decide, decide_eq_true_eq, UInt8.le_iff_toNat_le]
    rfl
  unfold xtime
  by_cases top : 128 ≤ byte
  · rw [if_pos top, if_pos (high.mp top)]
    rfl
  · rw [if_neg top, if_neg (fun msb => top (high.mpr msb))]
    rfl

theorem xtime_xor (left right : UInt8) : xtime (left ^^^ right) = xtime left ^^^ xtime right := by
  apply UInt8.toBitVec_inj.mp
  rw [UInt8.toBitVec_xor, xtime_eq_bits, xtime_eq_bits, xtime_eq_bits,
    UInt8.toBitVec_xor, BitVec.shiftLeft_xor_distrib, BitVec.msb_xor]
  have reduction : (if (left.toBitVec.msb ^^ right.toBitVec.msb) then 0x1d#8 else 0#8) =
      (if left.toBitVec.msb then 0x1d#8 else 0#8) ^^^
        (if right.toBitVec.msb then 0x1d#8 else 0#8) := by
    cases left.toBitVec.msb <;> cases right.toBitVec.msb <;> decide
  rw [reduction]
  ac_rfl

theorem xtime_zero : xtime 0 = 0 := by decide

theorem xtime_eq_zero (byte : UInt8) (isZero : xtime byte = 0) : byte = 0 := by
  have table : ∀ n < 256, xtime (UInt8.ofNat n) = 0 → UInt8.ofNat n = 0 := by decide +kernel
  have checked := table byte.toNat byte.toNat_lt
  rw [UInt8.ofNat_toNat] at checked
  exact checked isZero

theorem xor_eq_zero_iff (left right : UInt8) : left ^^^ right = 0 ↔ left = right := by
  rw [← UInt8.toBitVec_inj, UInt8.toBitVec_xor, ← UInt8.toBitVec_inj]
  exact BitVec.xor_eq_zero_iff

theorem xtime_injective : Function.Injective xtime := by
  intro left right same
  apply (xor_eq_zero_iff left right).mp
  apply xtime_eq_zero
  rw [xtime_xor, same, UInt8.xor_self]

theorem xtime_iterate_xor (steps : Nat) (left right : UInt8) :
    xtime^[steps] (left ^^^ right) = xtime^[steps] left ^^^ xtime^[steps] right := by
  induction steps generalizing left right with
  | zero => rfl
  | succ _ ih => simp only [Function.iterate_succ_apply, xtime_xor, ih]

theorem xtime_iterate_zero (steps : Nat) : xtime^[steps] 0 = 0 :=
  Function.iterate_fixed xtime_zero steps

theorem gexp_ne_zero (index : Nat) (inTable : index ≤ 510) : gexp index ≠ 0 := by
  intro isZero
  have fromOne := gexp_add 0 index (by omega)
  rw [Nat.zero_add, gexp_zero, isZero] at fromOne
  have oneZero : (1 : UInt8) = 0 := by
    apply xtime_injective.iterate index
    rw [← fromOne, xtime_iterate_zero]
  exact absurd oneZero (by decide)

theorem gexp_injOn (first second : Nat) (firstSmall : first < 255)
    (secondSmall : second < 255) (same : gexp first = gexp second) : first = second := by
  -- a coincidence at distance d would make d a period of the generator
  have ordered : ∀ low high : Nat, low < high → high < 255 → gexp low ≠ gexp high := by
    intro low high less small equal
    have shifted := gexp_add 0 low (by omega)
    have shiftedHigh := gexp_add (high - low) low (by omega)
    rw [show high - low + low = high by omega] at shiftedHigh
    rw [Nat.zero_add] at shifted
    have period : gexp (high - low) = gexp 0 :=
      xtime_injective.iterate low (by rw [← shiftedHigh, ← shifted, equal])
    have bound : high - low - 1 < ((initExpTable.drop 1).take 254).length := by
      rw [List.length_take, List.length_drop, initExpTable_length]
      omega
    have entry : ((initExpTable.drop 1).take 254)[high - low - 1] = gexp (high - low) := by
      rw [List.getElem_take, List.getElem_drop,
        gexp_eq_getElem _ (by rw [initExpTable_length]; omega)]
      congr 1
      omega
    apply no_short_period _ (List.getElem_mem bound)
    rw [entry, period, gexp_zero]
  rcases Nat.lt_trichotomy first second with less | equal | greater
  · exact absurd same (ordered first second less secondSmall)
  · exact equal
  · exact absurd same.symm (ordered second first greater firstSmall)

/-- Every nonzero byte is a power of the generator: 255 distinct nonzero bytes
exhaust them. -/
theorem exists_gexp (element : UInt8) (nonzero : element ≠ 0) :
    ∃ index < 255, gexp index = element := by
  let power : Fin 255 → {value : Fin 256 // value ≠ 0} := fun index =>
    ⟨⟨(gexp index.val).toNat, (gexp index.val).toNat_lt⟩, by
      intro isZero
      apply gexp_ne_zero index.val (by omega)
      apply UInt8.toNat_inj.mp
      exact congrArg Fin.val isZero⟩
  have injective : Function.Injective power := by
    intro first second same
    have values : (gexp first.val).toNat = (gexp second.val).toNat :=
      congrArg (fun value => value.val.val) same
    exact Fin.ext (gexp_injOn first.val second.val first.isLt second.isLt
      (UInt8.toNat_inj.mp values))
  have surjective : Function.Surjective power := by
    apply ((Fintype.bijective_iff_injective_and_card power).mpr ⟨injective, ?_⟩).2
    simp
  obtain ⟨index, found⟩ := surjective ⟨⟨element.toNat, element.toNat_lt⟩, by
    intro isZero
    exact nonzero (UInt8.toNat_inj.mp (congrArg Fin.val isZero))⟩
  refine ⟨index.val, index.isLt, ?_⟩
  exact UInt8.toNat_inj.mp (congrArg (fun value => value.val.val) found)

theorem glog_spec (element : UInt8) (nonzero : element ≠ 0) :
    glog element < 255 ∧ gexp (glog element) = element := by
  obtain ⟨index, _, power⟩ := exists_gexp element nonzero
  cases found : (List.range 256).find? fun position => gexp position == element with
  | none =>
    have missing := List.find?_eq_none.mp found index (List.mem_range.mpr (by omega))
    simp [power] at missing
  | some position =>
    obtain ⟨holds, _, first⟩ := List.find?_range_eq_some.mp found
    have noLater : position ≤ index := by
      by_contra later
      have earlier := first index (by omega)
      simp [power] at earlier
    have logEq : glog element = position := by simp [glog, nonzero, found]
    rw [logEq]
    exact ⟨by omega, by simpa using holds⟩

theorem glog_gexp (index : Nat) (small : index < 255) : glog (gexp index) = index := by
  obtain ⟨bound, power⟩ := glog_spec (gexp index) (gexp_ne_zero index (by omega))
  exact gexp_injOn _ _ bound small power

theorem gmult_comm (left right : UInt8) : gmult left right = gmult right left := by
  simp only [gmult, Nat.add_comm (glog left), or_comm (a := left = 0)]

theorem gmult_zero (left : UInt8) : gmult left 0 = 0 := by simp [gmult]

theorem gmult_eq_iterate (left right : UInt8) (nonzero : left ≠ 0) :
    gmult left right = xtime^[glog left] right := by
  by_cases rightZero : right = 0
  · rw [rightZero, gmult_zero, xtime_iterate_zero]
  · obtain ⟨_⟩ := glog_spec left nonzero
    obtain ⟨_, rightPower⟩ := glog_spec right rightZero
    rw [gmult, if_neg (by simp [nonzero, rightZero]), Nat.add_comm,
      gexp_add _ _ (by omega), rightPower]

theorem gmult_xor (left first second : UInt8) :
    gmult left (first ^^^ second) = gmult left first ^^^ gmult left second := by
  by_cases leftZero : left = 0
  · simp [gmult, leftZero]
  · rw [gmult_eq_iterate _ _ leftZero, gmult_eq_iterate _ _ leftZero,
      gmult_eq_iterate _ _ leftZero, xtime_iterate_xor]

theorem gmult_assoc (first second third : UInt8) :
    gmult (gmult first second) third = gmult first (gmult second third) := by
  by_cases firstZero : first = 0
  · simp [gmult, firstZero]
  by_cases secondZero : second = 0
  · simp [gmult, secondZero]
  -- both sides apply the two iterates of xtime in some order to the third factor
  rw [gmult_comm (gmult first second), gmult_comm second third]
  by_cases thirdZero : third = 0
  · simp [gmult, thirdZero]
  rw [gmult_eq_iterate third _ thirdZero, gmult_eq_iterate first _ firstZero,
    gmult_eq_iterate first _ firstZero, gmult_eq_iterate third _ thirdZero,
    ← Function.iterate_add_apply, ← Function.iterate_add_apply, Nat.add_comm]

theorem one_gmult (right : UInt8) : gmult 1 right = right := by
  have logOne : glog 1 = 0 := by
    rw [← gexp_zero]
    exact glog_gexp 0 (by omega)
  rw [gmult_eq_iterate 1 right (by decide), logOne, Function.iterate_zero_apply]

theorem gmult_ginv (element : UInt8) (nonzero : element ≠ 0) :
    gmult element (ginv element) = 1 := by
  obtain ⟨_⟩ := glog_spec element nonzero
  rw [gmult_eq_iterate _ _ nonzero, ginv, ← gexp_add _ _ (by omega),
    show 255 - glog element + glog element = 255 by omega, gexp_full_period]

@[ext]
structure GF256 where
  byte : UInt8
deriving DecidableEq

namespace GF256

instance : Zero GF256 := ⟨⟨0⟩⟩
instance : One GF256 := ⟨⟨1⟩⟩
instance : Add GF256 := ⟨fun left right => ⟨left.byte ^^^ right.byte⟩⟩
instance : Neg GF256 := ⟨fun element => element⟩
instance : Mul GF256 := ⟨fun left right => ⟨gmult left.byte right.byte⟩⟩
instance : Inv GF256 := ⟨fun element => if element.byte = 0 then 0 else ⟨ginv element.byte⟩⟩

@[simp] theorem byte_zero : (0 : GF256).byte = 0 := rfl
@[simp] theorem byte_one : (1 : GF256).byte = 1 := rfl
@[simp] theorem byte_add (left right : GF256) :
    (left + right).byte = left.byte ^^^ right.byte := rfl
@[simp] theorem byte_neg (element : GF256) : (-element).byte = element.byte := rfl
@[simp] theorem byte_mul (left right : GF256) :
    (left * right).byte = gmult left.byte right.byte := rfl

theorem byte_inv (element : GF256) (nonzero : element.byte ≠ 0) :
    (element⁻¹).byte = ginv element.byte := by
  change (if element.byte = 0 then (0 : GF256) else ⟨ginv element.byte⟩).byte = _
  rw [if_neg nonzero]

instance : Field GF256 where
  add_assoc a b c := GF256.ext (UInt8.xor_assoc a.byte b.byte c.byte)
  zero_add a := GF256.ext (by simp)
  add_zero a := GF256.ext (by simp)
  add_comm a b := GF256.ext (UInt8.xor_comm a.byte b.byte)
  neg_add_cancel a := GF256.ext (by simp)
  mul_assoc a b c := GF256.ext (gmult_assoc a.byte b.byte c.byte)
  mul_comm a b := GF256.ext (gmult_comm a.byte b.byte)
  one_mul a := GF256.ext (one_gmult a.byte)
  mul_one a := GF256.ext ((gmult_comm a.byte 1).trans (one_gmult a.byte))
  left_distrib a b c := GF256.ext (gmult_xor a.byte b.byte c.byte)
  right_distrib a b c := GF256.ext (by
    simp only [byte_mul, byte_add, gmult_comm _ c.byte, gmult_xor])
  zero_mul a := GF256.ext (by simp [gmult])
  mul_zero a := GF256.ext (gmult_zero a.byte)
  nsmul := nsmulRec
  zsmul := zsmulRec
  exists_pair_ne := ⟨0, 1, by decide⟩
  mul_inv_cancel a nonzero := by
    have byteNonzero : a.byte ≠ 0 := fun isZero => nonzero (GF256.ext isZero)
    apply GF256.ext
    rw [byte_mul, byte_inv a byteNonzero]
    exact gmult_ginv a.byte byteNonzero
  inv_zero := by decide
  nnqsmul := _
  qsmul := _

end GF256

end MultiFlow.Galois
