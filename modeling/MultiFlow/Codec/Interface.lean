import MultiFlow.Lib.Grid
import Mathlib.Data.Finset.Card
import Mathlib.Data.List.GetD

/-!
# The codec interface

A block is addressed by shard and by byte within the shard, as the codecs address
`data[shard * shard_bytes + byte]`.  A presence set is a predicate on shard
indices (`codec_present_get` of a bit array).  `Codec` is the dispatch table of
`codec.h`; a field that the table may leave `NULL` is an `Option`.
-/

namespace MultiFlow.CodecApi

open Lib

def PKG_SIZE : Nat := 1400

def CODEC_MAX_ENCODE_BLOCK : Nat := PKG_SIZE * 255

abbrev Block := Grid UInt8

def zeroBlock : Block := fun _ _ => 0

abbrev Present := Nat → Bool

def presentNone : Present := fun _ => false

def presentSet (present : Present) (index : Nat) : Present := fun i =>
  if i = index then true else present i

def presentSetAll (shardCount : Nat) : Present := fun i => decide (i < shardCount)

def presentCount (present : Present) (shardCount : Nat) : Nat :=
  forRange shardCount 0 fun count shard => if present shard then count + 1 else count

def presentAll (present : Present) (shardCount : Nat) : Bool :=
  (List.range shardCount).all present

def presentShards (present : Present) (shardCount : Nat) : Finset Nat :=
  (Finset.range shardCount).filter fun i => present i = true

variable (present : Present)

variable (shardCount : Nat)

theorem presentCount_succ :
    presentCount present (shardCount + 1) =
      if present shardCount then presentCount present shardCount + 1
      else presentCount present shardCount := by
  rw [presentCount, forRange_succ, ← presentCount]

theorem presentCount_eq_card :
    presentCount present shardCount = (presentShards present shardCount).card := by
  induction shardCount with
  | zero => rfl
  | succ shardCount ih =>
    rw [presentCount_succ, ih, presentShards, presentShards,
      Finset.range_add_one, Finset.filter_insert]
    cases bit : present shardCount with
    | true => simp
    | false => simp

theorem presentAll_iff :
    presentAll present shardCount = true ↔ ∀ i < shardCount, present i = true := by
  simp [presentAll]

theorem presentCount_le : presentCount present shardCount ≤ shardCount := by
  rw [presentCount_eq_card]
  exact (Finset.card_filter_le _ _).trans (Finset.card_range _).le

theorem presentCount_eq_iff :
    presentCount present shardCount = shardCount ↔ ∀ i < shardCount, present i = true := by
  rw [presentCount_eq_card]
  constructor
  · intro full i iLt
    have whole : presentShards present shardCount = Finset.range shardCount :=
      Finset.eq_of_subset_of_card_le (Finset.filter_subset _ _) (by simp [full])
    have member : i ∈ presentShards present shardCount := whole ▸ Finset.mem_range.mpr iLt
    exact (Finset.mem_filter.mp member).2
  · intro everyShard
    have whole : presentShards present shardCount = Finset.range shardCount := by
      rw [presentShards, Finset.filter_true_of_mem]
      intro i iMem
      exact everyShard i (Finset.mem_range.mp iMem)
    rw [whole, Finset.card_range]

inductive CodecRecoverStatus where
  | ok
  | unavailable
  | err
deriving DecidableEq, Repr

structure Codec where
  encode : Block → Nat → Block
  decode : Block → Nat → Block
  inputBlockSize : Nat
  outputBlockSize : Nat
  dataShards : Nat
  parityShards : Nat
  isSystematic : Bool
  allowsBestEffort : Option Bool
  recover : Option (Block → Present → Nat → CodecRecoverStatus × Block)

/-- `Codec_allows_best_effort`: without an entry of its own, a codec allows it
when it is systematic. -/
def codecAllowsBestEffort (codec : Codec) : Bool :=
  codec.allowsBestEffort.getD codec.isSystematic

def codecRecover (codec : Codec) (shards : Block) (present : Present) (shardCount : Nat) :
    CodecRecoverStatus × Block :=
  match codec.recover with
  | none => (.unavailable, shards)
  | some recover =>
    if shardCount = 0 then (.unavailable, shards) else recover shards present shardCount

end MultiFlow.CodecApi
