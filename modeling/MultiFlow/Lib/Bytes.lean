import Mathlib.Data.UInt
import Mathlib.Tactic

/-!
# Big-endian fields of a byte string

`putBigEndian` writes a number into a fixed number of bytes, most significant first, and
`getBigEndian` reads one back.
-/

namespace MultiFlow.Lib

def putBigEndian : Nat → Nat → List UInt8
  | 0, _ => []
  | width + 1, n => putBigEndian width (n / 256) ++ [UInt8.ofNat n]

def getBigEndian (bytes : List UInt8) : Nat :=
  bytes.foldl (fun value byte => value * 256 + byte.toNat) 0

@[simp] theorem length_putBigEndian (width n : Nat) : (putBigEndian width n).length = width := by
  induction width generalizing n with
  | zero => rfl
  | succ width ih => simp [putBigEndian, ih]

theorem getBigEndian_append (bytes : List UInt8) (byte : UInt8) :
    getBigEndian (bytes ++ [byte]) = getBigEndian bytes * 256 + byte.toNat := by
  simp [getBigEndian]

theorem getBigEndian_putBigEndian (width n : Nat) : getBigEndian (putBigEndian width n) = n % 256 ^ width := by
  induction width generalizing n with
  | zero => simp [putBigEndian, getBigEndian, Nat.mod_one]
  | succ width ih =>
    rw [putBigEndian, getBigEndian_append, ih, UInt8.toNat_ofNat', pow_succ' 256 width, Nat.mod_mul]
    omega

theorem getBigEndian_putBigEndian_of_lt (width n : Nat) (fits : n < 256 ^ width) :
    getBigEndian (putBigEndian width n) = n := by
  rw [getBigEndian_putBigEndian, Nat.mod_eq_of_lt fits]

theorem getBigEndian_lt (bytes : List UInt8) : getBigEndian bytes < 256 ^ bytes.length := by
  induction bytes using List.reverseRecOn with
  | nil => decide
  | append_singleton bytes byte ih =>
    have small := byte.toNat_lt
    rw [getBigEndian_append, List.length_append, List.length_singleton, pow_succ]
    omega

theorem putBigEndian_getBigEndian (bytes : List UInt8) :
    putBigEndian bytes.length (getBigEndian bytes) = bytes := by
  induction bytes using List.reverseRecOn with
  | nil => rfl
  | append_singleton bytes byte ih =>
    have small := byte.toNat_lt
    have high : (getBigEndian bytes * 256 + byte.toNat) / 256 = getBigEndian bytes := by omega
    have low : UInt8.ofNat (getBigEndian bytes * 256 + byte.toNat) = byte := by
      refine UInt8.toNat_inj.mp ?_
      rw [UInt8.toNat_ofNat']
      omega
    rw [getBigEndian_append, List.length_append, List.length_singleton, putBigEndian, high, ih, low]

theorem putBigEndian_add (high low n : Nat) :
    putBigEndian (high + low) n = putBigEndian high (n / 256 ^ low) ++ putBigEndian low n := by
  induction low generalizing n with
  | zero => simp [putBigEndian]
  | succ low ih =>
    rw [← Nat.add_assoc, putBigEndian, ih, putBigEndian, Nat.div_div_eq_div_mul, pow_succ',
      List.append_assoc]

theorem putBigEndian_mod (width n : Nat) :
    putBigEndian width (n % 256 ^ width) = putBigEndian width n := by
  have read := getBigEndian_putBigEndian width n
  rw [← read]
  have written := putBigEndian_getBigEndian (putBigEndian width n)
  rwa [length_putBigEndian] at written

theorem toNat_halves (high low : UInt32) :
    (high.toUInt64 <<< 32 ||| low.toUInt64).toNat = high.toNat * 2 ^ 32 + low.toNat := by
  have highLt := high.toNat_lt
  have lowLt := low.toNat_lt
  have shifted : (high.toUInt64 <<< 32).toNat = high.toNat * 2 ^ 32 := by
    rw [UInt64.toNat_shiftLeft]
    change high.toNat <<< 32 % 2 ^ 64 = _
    rw [Nat.shiftLeft_eq, Nat.mod_eq_of_lt (by omega)]
  rw [UInt64.toNat_or, shifted, UInt32.toNat_toUInt64, ← Nat.shiftLeft_eq,
    Nat.shiftLeft_add_eq_or_of_lt lowLt]

end MultiFlow.Lib
