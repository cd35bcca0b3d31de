import Mathlib.Data.LawfulXor.Basic
import MultiFlow.Codec.RsRecover

/-!
# The codecs and the law they share

What the decoders rely on is the same for all codecs (`LawfulCodec`): a block of `k` data shards
comes back from all of its shards, from its data shards if the codec is systematic, and from any
`k` shards after recovery.
-/

namespace MultiFlow.CodecApi

open Lib RsGenerator

def PACKAGES_PER_DECODE_BLOCK : Nat := 4

def XOR_FEC_PARITY_SHARDS : Nat := 1

def DECODE_BLOCK : Nat := PKG_SIZE * PACKAGES_PER_DECODE_BLOCK

def XOR_FEC_ENCODE_BLOCK : Nat := DECODE_BLOCK + PKG_SIZE * XOR_FEC_PARITY_SHARDS

def XOR_FEC_SHARD_COUNT : Nat := PACKAGES_PER_DECODE_BLOCK + XOR_FEC_PARITY_SHARDS

def noneRecover (shards : Block) (present : Present) (shardCount : Nat) :
    CodecRecoverStatus × Block :=
  if shardCount ≠ 1 then (.unavailable, shards)
  else (if present 0 then .ok else .unavailable, shards)

def noneCodec : Codec where
  encode := fun block _ => block
  decode := fun block _ => block
  inputBlockSize := PKG_SIZE
  outputBlockSize := PKG_SIZE
  dataShards := 1
  parityShards := 0
  isSystematic := true
  allowsBestEffort := none
  recover := some noneRecover

def xorShard (block : Block) (target source : Nat) : Block :=
  Grid.modify (fun s b => s = target ∧ b < PKG_SIZE) (fun _ b value => value ^^^ block source b)
    block

def clearShard (block : Block) (target : Nat) : Block :=
  Grid.modify (fun s b => s = target ∧ b < PKG_SIZE) (fun _ _ _ => 0) block

def xorFecEncode (block : Block) (len : Nat) : Block :=
  if len ≠ XOR_FEC_ENCODE_BLOCK then block
  else
    forRange PACKAGES_PER_DECODE_BLOCK (clearShard block PACKAGES_PER_DECODE_BLOCK)
      fun block shard => xorShard block PACKAGES_PER_DECODE_BLOCK shard

/-- The single absent shard: `none` if two are absent, `XOR_FEC_SHARD_COUNT` if none is. -/
def missingShard (present : Present) : Option Nat :=
  forRangeOption XOR_FEC_SHARD_COUNT XOR_FEC_SHARD_COUNT fun missing shard =>
    if present shard then some missing
    else if missing ≠ XOR_FEC_SHARD_COUNT then none
    else some shard

def xorFecRecover (shards : Block) (present : Present) (shardCount : Nat) :
    CodecRecoverStatus × Block :=
  if shardCount ≠ XOR_FEC_SHARD_COUNT then (.err, shards)
  else
    match missingShard present with
    | none => (.unavailable, shards)
    | some missing =>
      if missing = XOR_FEC_SHARD_COUNT then (.ok, shards)
      else
        (.ok, forRange XOR_FEC_SHARD_COUNT (clearShard shards missing) fun shards shard =>
          if shard = missing then shards else xorShard shards missing shard)

def xorFecCodec : Codec where
  encode := xorFecEncode
  decode := fun block _ => block
  inputBlockSize := DECODE_BLOCK
  outputBlockSize := XOR_FEC_ENCODE_BLOCK
  dataShards := PACKAGES_PER_DECODE_BLOCK
  parityShards := XOR_FEC_PARITY_SHARDS
  isSystematic := true
  allowsBestEffort := none
  recover := some xorFecRecover

/-- Decoding the block yields the data on its data shards. -/
def Decodes (codec : Codec) (block data : Block) : Prop :=
  ∀ s < codec.dataShards, ∀ b < PKG_SIZE,
    codec.decode block codec.outputBlockSize s b = data s b

/-- The shards of the block that are present are those of the encoded data. -/
def Carries (codec : Codec) (data block : Block) (present : Present) : Prop :=
  ∀ s < codec.dataShards + codec.parityShards, present s = true → ∀ b < PKG_SIZE,
    block s b = codec.encode data codec.outputBlockSize s b

structure LawfulCodec (codec : Codec) : Prop where
  dataPositive : 0 < codec.dataShards
  shards_le : codec.dataShards + codec.parityShards ≤ 255
  inputBlockSize_eq : codec.inputBlockSize = codec.dataShards * PKG_SIZE
  outputBlockSize_eq :
    codec.outputBlockSize = (codec.dataShards + codec.parityShards) * PKG_SIZE
  allPresent : ∀ data block present, Carries codec data block present →
    presentAll present (codec.dataShards + codec.parityShards) = true →
    Decodes codec block data
  systematic : codec.isSystematic = true → ∀ data block present,
    Carries codec data block present → presentAll present codec.dataShards = true →
    Decodes codec block data
  recovers : ∀ data block present, Carries codec data block present →
    codec.dataShards ≤ presentCount present (codec.dataShards + codec.parityShards) →
    presentCount present (codec.dataShards + codec.parityShards) <
      codec.dataShards + codec.parityShards →
    ∃ recovered, codecRecover codec block present (codec.dataShards + codec.parityShards) =
      (.ok, recovered) ∧ Decodes codec recovered data

/-- A codec that copies the data into its first shards and hands a block back unchanged
needs no more than those shards. -/
theorem lawful_of_systematic {codec : Codec}
    (unchanged : ∀ block len, codec.decode block len = block)
    (copies : ∀ data : Block, ∀ s < codec.dataShards, ∀ b < PKG_SIZE,
      codec.encode data codec.outputBlockSize s b = data s b) (dataPositive : 0 < codec.dataShards)
    (shards_le : codec.dataShards + codec.parityShards ≤ 255)
    (inputBlockSize_eq : codec.inputBlockSize = codec.dataShards * PKG_SIZE) (outputBlockSize_eq :
      codec.outputBlockSize = (codec.dataShards + codec.parityShards) * PKG_SIZE)
    (recovers : ∀ data block present, Carries codec data block present →
      codec.dataShards ≤ presentCount present (codec.dataShards + codec.parityShards) →
      presentCount present (codec.dataShards + codec.parityShards) <
        codec.dataShards + codec.parityShards →
      ∃ recovered, codecRecover codec block present (codec.dataShards + codec.parityShards) =
        (.ok, recovered) ∧ Decodes codec recovered data) : LawfulCodec codec := by
  have dataPresent : ∀ data block present, Carries codec data block present →
      presentAll present codec.dataShards = true → Decodes codec block data := by
    intro data block present carries every s isData b bLt
    have here := (presentAll_iff _ _).mp every s isData
    rw [unchanged, carries s (Nat.lt_add_right _ isData) here b bLt]
    exact copies data s isData b bLt
  refine ⟨dataPositive, shards_le, inputBlockSize_eq, outputBlockSize_eq, ?_, fun _ => dataPresent,
    recovers⟩
  intro data block present carries every
  refine dataPresent data block present carries ((presentAll_iff _ _).mpr ?_)
  exact fun s isData => (presentAll_iff _ _).mp every s (Nat.lt_add_right _ isData)

theorem noneCodec_lawful : LawfulCodec noneCodec := by
  refine lawful_of_systematic (fun _ _ => rfl) (fun _ _ _ _ _ => rfl) (by decide) (by decide)
    (by decide) (by decide) ?_
  intro _ _ _ _ enough missing
  exact absurd missing (Nat.not_lt.mpr enough)

/-! The XOR codec: one parity shard, so one missing shard comes back. -/

theorem xorFecEncode_parity (data : Block) (b : Nat) (bLt : b < PKG_SIZE) :
    xorFecEncode data XOR_FEC_ENCODE_BLOCK 4 b =
      data 0 b ^^^ data 1 b ^^^ data 2 b ^^^ data 3 b := by
  simp [xorFecEncode, forRange_succ, xorShard, clearShard, Grid.modify,
    PACKAGES_PER_DECODE_BLOCK, bLt]

theorem xorFecEncode_data (data : Block) (s b : Nat) (isData : s < 4) :
    xorFecEncode data XOR_FEC_ENCODE_BLOCK s b = data s b := by
  have notParity : s ≠ 4 := by omega
  simp [xorFecEncode, forRange_succ, xorShard, clearShard, Grid.modify,
    PACKAGES_PER_DECODE_BLOCK, notParity]

theorem exists_missing (present : Present) (n : Nat) (allButOne : presentCount present (n + 1) = n) :
    ∃ m < n + 1, present m = false ∧ ∀ s < n + 1, s ≠ m → present s = true := by
  have absent : (Finset.range (n + 1) \ presentShards present (n + 1)).card = 1 := by
    have inside : presentShards present (n + 1) ⊆ Finset.range (n + 1) := Finset.filter_subset _ _
    rw [Finset.card_sdiff_of_subset inside, ← presentCount_eq_card, allButOne, Finset.card_range,
      Nat.add_sub_cancel_left]
  obtain ⟨m, single⟩ := Finset.card_eq_one.mp absent
  have absent_iff : ∀ s, s < n + 1 ∧ present s = false ↔ s = m := by
    intro s
    rw [← Finset.mem_singleton (a := m), ← single]
    simp +contextual [presentShards]
  obtain ⟨inRange, isAbsent⟩ := (absent_iff m).mpr rfl
  refine ⟨m, inRange, isAbsent, ?_⟩
  intro s sLt differs
  by_contra other
  exact differs ((absent_iff s).mp ⟨sLt, Bool.not_eq_true _ ▸ other⟩)

theorem missingShard_of_unique (present : Present) (m : Nat) (mLt : m < 5)
    (absent : present m = false) (others : ∀ s < 5, s ≠ m → present s = true) :
    missingShard present = some m := by
  have count : XOR_FEC_SHARD_COUNT = 5 := rfl
  unfold missingShard
  interval_cases m <;> simp [count, forRangeOption, List.range_succ, absent, others]

theorem xorFecRecover_spec (data block : Block) (present : Present) (m : Nat) (mLt : m < 5)
    (absent : present m = false) (others : ∀ s < 5, s ≠ m → present s = true)
    (carries : ∀ s < 5, present s = true → ∀ b < PKG_SIZE,
      block s b = xorFecEncode data XOR_FEC_ENCODE_BLOCK s b) :
    ∃ recovered, xorFecRecover block present 5 = (.ok, recovered) ∧
      ∀ s < 4, ∀ b < PKG_SIZE, recovered s b = data s b := by
  rw [xorFecRecover, if_neg (by decide), missingShard_of_unique present m mLt absent others]
  dsimp only
  rw [if_neg (by unfold XOR_FEC_SHARD_COUNT PACKAGES_PER_DECODE_BLOCK XOR_FEC_PARITY_SHARDS; omega)]
  refine ⟨_, rfl, ?_⟩
  intro s sLt b bLt
  have shard : ∀ t < 4, t ≠ m → block t b = data t b := by
    intro t tLt differs
    rw [carries t (by omega) (others t (by omega) differs) b bLt, xorFecEncode_data data t b tLt]
  have parity : 4 ≠ m → block 4 b = data 0 b ^^^ data 1 b ^^^ data 2 b ^^^ data 3 b := by
    intro differs
    rw [carries 4 (by omega) (others 4 (by omega) differs) b bLt,
      xorFecEncode_parity data b bLt]
  have count : XOR_FEC_SHARD_COUNT = 5 := rfl
  simp only [count, forRange_succ, forRange_zero]
  by_cases repaired : s = m
  · subst repaired
    have p := parity (by omega)
    have swap : ∀ x y z : UInt8, x ^^^ (y ^^^ z) = y ^^^ (x ^^^ z) := by
      intros
      ac_rfl
    interval_cases s <;>
      simp [xorShard, clearShard, Grid.modify, bLt, shard, p, UInt8.xor_assoc, UInt8.xor_comm,
        swap, xor_cancel_left]
  · have kept := shard s sLt repaired
    interval_cases m <;> simp [xorShard, clearShard, Grid.modify, repaired, kept]

theorem xorFecCodec_lawful : LawfulCodec xorFecCodec := by
  refine lawful_of_systematic (fun _ _ => rfl) ?_ (by decide) (by decide) (by decide) (by decide)
    ?_
  · exact fun data s isData b _ => xorFecEncode_data data s b isData
  intro data block present carries enough missing
  have four : presentCount present (4 + 1) = 4 := by
    have least : 4 ≤ presentCount present (4 + 1) := enough
    have most : presentCount present (4 + 1) < 4 + 1 := missing
    omega
  obtain ⟨m, mLt, absent, others⟩ := exists_missing present 4 four
  exact xorFecRecover_spec data block present m mLt absent others carries

theorem rsCodec_lawful (st : RsState) (ready : Ready st) (cpu : RsEncode.CpuFeatures)
    (wireSize : st.geo.shardBytes = PKG_SIZE) : LawfulCodec (RsRecover.rsCodec st cpu) := by
  have total := ready.valid.n_eq
  have encodes := RsEncode.rsEncode_spec st ready cpu
  have codeword : ∀ data block present,
      Carries (RsRecover.rsCodec st cpu) data block present →
      RsRecover.CarriesCodeword st data block present := by
    intro data block present carries s sLt isPresent b bLt
    rw [carries s (by rw [total] at sLt; exact sLt) isPresent b (wireSize ▸ bLt)]
    exact congrFun (congrFun (encodes data) s) b
  refine lawful_of_systematic (fun _ _ => rfl) ?_ ready.valid.kPositive ready.valid.inField ?_ ?_ ?_
  · intro data s isData b _
    exact (congrFun (congrFun (encodes data) s) b).trans
      (RsEncode.encodedBlock_data _ _ _ _ _ s b isData)
  · show st.geo.k * st.geo.shardBytes = _
    rw [wireSize]
    rfl
  · show st.geo.n * st.geo.shardBytes = _
    rw [wireSize, total]
    rfl
  intro data block present carries enough _
  obtain ⟨recovered, status, restored, _⟩ := RsRecover.rsRecover_enough st ready data block
    present (codeword data block present carries) (by rw [total]; exact enough)
  refine ⟨recovered, ?_, ?_⟩
  · have pos := ready.valid.kPositive
    show codecRecover _ block present (st.geo.k + st.geo.r) = _
    rw [← total, codecRecover]
    dsimp only [RsRecover.rsCodec]
    rw [if_neg (by omega), status]
  · intro s isData b bLt
    exact restored s isData b (wireSize.symm ▸ bLt)

end MultiFlow.CodecApi
