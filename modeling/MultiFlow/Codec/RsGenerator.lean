import MultiFlow.Codec.Interface
import MultiFlow.Codec.Rscode
import MultiFlow.Codec.RsMatrix

/-!
# Geometry, generator matrix and encode plan of the RS codec

The process-wide state of `rs_codec.c` is the record `RsState`.  `rsInit` is the state that
`rs_init` leaves behind and `rsCodecSetParamsEx` the only function that changes the geometry.  When
the matrix is ready, the generator is the systematic matrix of an MDS code and the published plan
carries its coefficients.  Allocation is taken to succeed.
-/

namespace MultiFlow.RsGenerator

open CodecApi Galois Lib RsMatrix

structure RsGeometry where
  k : Nat
  r : Nat
  n : Nat
  shardBytes : Nat
deriving DecidableEq

inductive RsEncodeImpl where
  | auto
  | general
  | simd
  | fast16x2
  | legacy
  | rscode
deriving DecidableEq

/-- The immutable plan the encoders read.  `mulTable` and `nibbleTable` are flat
arrays; `mulTable` is absent when it would exceed its size cap. -/
structure RsEncodePlan where
  k : Nat
  r : Nat
  n : Nat
  shardBytes : Nat
  coeff : Nat → Nat → GF256
  mulTable : Option (Nat → UInt8)
  nibbleTable : Option (Nat → UInt8)
  initialized : Bool

structure RsState where
  generator : Nat → Nat → GF256
  matrixReady : Bool
  geo : RsGeometry
  plan : RsEncodePlan
  encodeImpl : RsEncodeImpl
  simdEnabled : Bool

def rsGfMulTable (left : GF256) (right : UInt8) : UInt8 := (left * ⟨right⟩).byte

def UINT16_MAX : UInt64 := 65535

/-- The arguments are `size_t`, so the sum and the product wrap. -/
def paramsValid (k r shardBytes : UInt64) : Bool :=
  if k < 1 ∨ r < 1 ∨ shardBytes < 1 ∨ shardBytes > UINT16_MAX then false
  else if k + r > UInt64.ofNat RS_ABS_MAX_SHARDS then false
  else if (k + r) * shardBytes > UInt64.ofNat CODEC_MAX_ENCODE_BLOCK then false
  else true

def fillIdentityDataRows (k : Nat) : Nat → Nat → GF256 := fun row column =>
  if row < k ∧ column < k then (if row = column then 1 else 0) else 0

def buildGeneratorRscode42 : Nat → Nat → GF256 :=
  forRange 4 (fillIdentityDataRows 4) fun generator column =>
    let codeword := Rscode.encodeData (Rscode.unitMessage column) 4
    forRange 2 generator fun generator row =>
      Grid.store generator (4 + row) column (codeword (4 + row))

def buildGeneratorCauchy (k r : Nat) : Option (Nat → Nat → GF256) :=
  forRangeOption r (fillIdentityDataRows k) fun generator row =>
    let x := UInt8.ofNat (row + 1)
    forRangeOption k generator fun generator column =>
      let y := UInt8.ofNat (r + 1 + column)
      let den := x ^^^ y
      if den = 0 then none
      else some (Grid.store generator (k + row) column ⟨ginv den⟩)

def rebuildGenerator (geo : RsGeometry) : Option (Nat → Nat → GF256) :=
  if geo.k = 4 ∧ geo.r = 2 then some buildGeneratorRscode42
  else buildGeneratorCauchy geo.k geo.r

def RS_ENCODE_MUL_TABLE_MAX_BYTES : Nat := 8 * 1024 * 1024

/-- Slot `(row * k + column) * 256 + x` of the expanded table. -/
def fillMulTable (k : Nat) (coeff : Nat → Nat → GF256) : Nat → UInt8 := fun index =>
  rsGfMulTable (coeff (k + index / 256 / k) (index / 256 % k)) (UInt8.ofNat (index % 256))

/-- Slot `(row * k + column) * 32 + x`: products with the low nibbles, then with
the high nibbles. -/
def fillNibbleTable (k : Nat) (coeff : Nat → Nat → GF256) : Nat → UInt8 := fun index =>
  let x := index % 32
  rsGfMulTable (coeff (k + index / 32 / k) (index / 32 % k))
    (if x < 16 then UInt8.ofNat x else UInt8.ofNat (x - 16) <<< 4)

def clearedPlan : RsEncodePlan where
  k := 0
  r := 0
  n := 0
  shardBytes := 0
  coeff := fun _ _ => 0
  mulTable := none
  nibbleTable := none
  initialized := false

/-- `rs_encode_plan_build`; the size check of `rs_encode_mul_table_bytes` cannot fail
here because the parameters were just validated. -/
def rsEncodePlanBuild (generator : Nat → Nat → GF256) (geo : RsGeometry) (k r : UInt64) :
    Option RsEncodePlan :=
  if paramsValid k r (UInt64.ofNat geo.shardBytes) then
    some
      { k := k.toNat
        r := r.toNat
        n := (k + r).toNat
        shardBytes := geo.shardBytes
        coeff := generator
        mulTable :=
          if k.toNat * r.toNat * 256 ≤ RS_ENCODE_MUL_TABLE_MAX_BYTES then
            some (fillMulTable k.toNat generator)
          else none
        nibbleTable := some (fillNibbleTable k.toNat generator)
        initialized := true }
  else none

def defaultGeometry : RsGeometry := ⟨4, 2, 6, PKG_SIZE⟩

def rsInit : RsState :=
  match rsEncodePlanBuild buildGeneratorRscode42 defaultGeometry 4 2 with
  | some plan => ⟨buildGeneratorRscode42, true, defaultGeometry, plan, .auto, true⟩
  | none => ⟨buildGeneratorRscode42, false, defaultGeometry, clearedPlan, .auto, true⟩

/-- `RsCodec_set_params_ex`: the returned status and the state afterwards. -/
def rsCodecSetParamsEx (state : RsState) (dataShards parityShards shardBytes : UInt64) :
    Int × RsState :=
  let shardBytes := if shardBytes = 0 then UInt64.ofNat PKG_SIZE else shardBytes
  if paramsValid dataShards parityShards shardBytes = false then (-1, state)
  else if state.geo.k = dataShards.toNat ∧ state.geo.r = parityShards.toNat ∧
      state.geo.shardBytes = shardBytes.toNat ∧ state.matrixReady = true ∧
      state.plan.initialized = true then (0, state)
  else
    let geo : RsGeometry := ⟨dataShards.toNat, parityShards.toNat,
      (dataShards + parityShards).toNat, shardBytes.toNat⟩
    match rebuildGenerator geo with
    | none => (-1, { state with geo := geo, matrixReady := false, plan := clearedPlan })
    | some generator =>
      match rsEncodePlanBuild generator geo dataShards parityShards with
      | none => (-1, { state with
          geo := geo, generator := generator, matrixReady := false, plan := clearedPlan })
      | some plan => (0, { state with
          geo := geo, generator := generator, matrixReady := true, plan := plan })

def rsCodecSetParams (state : RsState) (dataShards parityShards : UInt64) : Int × RsState :=
  rsCodecSetParamsEx state dataShards parityShards (UInt64.ofNat PKG_SIZE)

def rsCodecSetEncodeImpl (state : RsState) (impl : RsEncodeImpl) : RsState :=
  { state with encodeImpl := impl }

def rsCodecSetSimdEnabledForTests (state : RsState) (enabled : Bool) : RsState :=
  { state with simdEnabled := enabled }

/-- The states a process can be in after initialisation.  A sum `k + r` that wraps sends the
generator loops out of the matrix, so what follows such a call is not described. -/
inductive RsReachable : RsState → Prop where
  | init : RsReachable rsInit
  | setParams {state : RsState} (reached : RsReachable state) (k r shardBytes : UInt64)
      (noWrap : k.toNat + r.toNat < 2 ^ 64) :
      RsReachable (rsCodecSetParamsEx state k r shardBytes).2
  | setEncodeImpl {state : RsState} (reached : RsReachable state) (impl : RsEncodeImpl) :
      RsReachable (rsCodecSetEncodeImpl state impl)
  | setSimdEnabled {state : RsState} (reached : RsReachable state) (enabled : Bool) :
      RsReachable (rsCodecSetSimdEnabledForTests state enabled)

/-- The parity part written so far: the rows before `rows` in full, and the columns
before `columns` of row `rows`. -/
def PartlyFilled (k rows columns : Nat) (parity : Nat → Nat → GF256)
    (generator : Nat → Nat → GF256) : Prop :=
  ∀ i j, generator i j =
    if k ≤ i ∧ j < k ∧ (i < k + rows ∨ (i = k + rows ∧ j < columns)) then parity (i - k) j
    else fillIdentityDataRows k i j

theorem partlyFilled_start (k : Nat) (parity : Nat → Nat → GF256) :
    PartlyFilled k 0 0 parity (fillIdentityDataRows k) := by
  intro i j
  rw [if_neg (by omega)]

theorem PartlyFilled.store {k row col : Nat} {parity mat : Nat → Nat → GF256}
    (filled : PartlyFilled k row col parity mat) (columnLt : col < k) :
    PartlyFilled k row (col + 1) parity (Grid.store mat (k + row) col (parity row col)) := by
  intro i j
  rw [Grid.store]
  by_cases here : i = k + row ∧ j = col
  · obtain ⟨rfl, rfl⟩ := here
    rw [if_pos ⟨rfl, rfl⟩, if_pos ⟨by omega, columnLt, Or.inr ⟨rfl, by omega⟩⟩,
      Nat.add_sub_cancel_left]
  · rw [if_neg here, filled i j]
    congr 1
    apply propext
    omega

theorem PartlyFilled.nextRow {k row : Nat} {parity generator : Nat → Nat → GF256}
    (filled : PartlyFilled k row k parity generator) :
    PartlyFilled k (row + 1) 0 parity generator := by
  intro i j
  rw [filled i j]
  congr 1
  apply propext
  omega

theorem PartlyFilled.systematic {k r : Nat} {parity mat : Nat → Nat → GF256}
    (filled : PartlyFilled k r 0 parity mat) :
    ∀ i < k + r, ∀ j < k, mat i j = Mds.systematic k parity i j := by
  intro i iLt j jLt
  rw [filled i j, Mds.systematic]
  by_cases data : i < k
  · rw [if_neg (by omega), if_pos data, fillIdentityDataRows, if_pos ⟨data, jLt⟩]
  · rw [if_pos ⟨by omega, jLt, Or.inl iLt⟩, if_neg data]

theorem buildGeneratorRscode42_spec :
    ∀ i < 4 + 2, ∀ j < 4, buildGeneratorRscode42 i j = Mds.systematic 4 Rscode.parityRow i j := by
  intro i iLt j jLt
  simp only [buildGeneratorRscode42, forRange_succ, forRange_zero, Grid.store,
    fillIdentityDataRows, Mds.systematic, Rscode.parityRow]
  interval_cases i <;> interval_cases j <;> simp

def cauchyEntry (r row column : Nat) : GF256 :=
  (⟨UInt8.ofNat (row + 1)⟩ - ⟨UInt8.ofNat (r + 1 + column)⟩)⁻¹

theorem byte_sub (left right : GF256) : (left - right).byte = left.byte ^^^ right.byte := by
  rw [sub_eq_add_neg, GF256.byte_add, GF256.byte_neg]

theorem ofNat_injOn (first second : Nat) (firstSmall : first < 256) (secondSmall : second < 256)
    (same : (⟨UInt8.ofNat first⟩ : GF256) = ⟨UInt8.ofNat second⟩) : first = second := by
  have bytes : UInt8.ofNat first = UInt8.ofNat second := congrArg GF256.byte same
  have values := congrArg UInt8.toNat bytes
  rwa [UInt8.toNat_ofNat', UInt8.toNat_ofNat', Nat.mod_eq_of_lt firstSmall,
    Nat.mod_eq_of_lt secondSmall] at values

theorem cauchyEntry_isMds (k r : Nat) (inField : k + r ≤ 255) : Mds.IsMds k r (cauchyEntry r) := by
  refine Mds.cauchy_isMds (fun row => (⟨UInt8.ofNat (row + 1)⟩ : GF256))
    (fun col => ⟨UInt8.ofNat (r + 1 + col)⟩) k r ?_ ?_ ?_
  · intro a aMem b bMem same
    have aLt := Finset.mem_range.mp aMem
    have bLt := Finset.mem_range.mp bMem
    have := ofNat_injOn (a + 1) (b + 1) (by omega) (by omega) same
    omega
  · intro a aMem b bMem same
    have aLt := Finset.mem_range.mp aMem
    have bLt := Finset.mem_range.mp bMem
    have := ofNat_injOn (r + 1 + a) (r + 1 + b) (by omega) (by omega) same
    omega
  · intro i iLt j jLt same
    have := ofNat_injOn (i + 1) (r + 1 + j) (by omega) (by omega) (sub_eq_zero.mp same)
    omega

theorem buildGeneratorCauchy_spec (k r : Nat) (inField : k + r ≤ 255) :
    ∃ generator, buildGeneratorCauchy k r = some generator ∧
      PartlyFilled k r 0 (cauchyEntry r) generator := by
  refine forRangeOption_induction r _ _
    (fun row generator => PartlyFilled k row 0 (cauchyEntry r) generator)
    (partlyFilled_start k _) ?_
  intro row rowLt generator filled
  obtain ⟨next, written, whole⟩ := forRangeOption_induction k generator
    (fun generator column =>
      if UInt8.ofNat (row + 1) ^^^ UInt8.ofNat (r + 1 + column) = 0 then none
      else some (Grid.store generator (k + row) column
        ⟨ginv (UInt8.ofNat (row + 1) ^^^ UInt8.ofNat (r + 1 + column))⟩))
    (fun column generator => PartlyFilled k row column (cauchyEntry r) generator) filled
    (by
      intro column columnLt cur currentFilled
      have apart : UInt8.ofNat (row + 1) ^^^ UInt8.ofNat (r + 1 + column) ≠ 0 := by
        intro isZero
        have same := (xor_eq_zero_iff _ _).mp isZero
        have := ofNat_injOn (row + 1) (r + 1 + column) (by omega) (by omega)
          (congrArg GF256.mk same)
        omega
      have entry : (⟨ginv (UInt8.ofNat (row + 1) ^^^ UInt8.ofNat (r + 1 + column))⟩ : GF256) =
          cauchyEntry r row column := by
        apply GF256.ext
        rw [cauchyEntry, GF256.byte_inv _ (by rwa [byte_sub]), byte_sub]
      refine ⟨_, if_neg apart, ?_⟩
      rw [entry]
      exact currentFilled.store columnLt)
  exact ⟨next, written, whole.nextRow⟩

/-- Every geometry the validation admits has a systematic MDS generator; the 4+2 one
is the code of `encode_data`. -/
theorem rebuildGenerator_spec (geo : RsGeometry) (inField : geo.k + geo.r ≤ 255) :
    ∃ mat parity, rebuildGenerator geo = some mat ∧
      Mds.IsMds geo.k geo.r parity ∧
      (geo.k = 4 → geo.r = 2 → parity = Rscode.parityRow) ∧
      ∀ i < geo.k + geo.r, ∀ j < geo.k, mat i j = Mds.systematic geo.k parity i j := by
  by_cases isDefault : geo.k = 4 ∧ geo.r = 2
  · refine ⟨buildGeneratorRscode42, Rscode.parityRow, if_pos isDefault, ?_, fun _ _ => rfl, ?_⟩
    · rw [isDefault.1, isDefault.2]
      exact Rscode.parityRow_isMds
    · rw [isDefault.1, isDefault.2]
      exact buildGeneratorRscode42_spec
  · obtain ⟨mat, built, filled⟩ := buildGeneratorCauchy_spec geo.k geo.r inField
    refine ⟨mat, cauchyEntry geo.r, ?_, cauchyEntry_isMds _ _ inField, ?_, filled.systematic⟩
    · rw [rebuildGenerator, if_neg isDefault, built]
    · intro kFour rTwo
      exact absurd ⟨kFour, rTwo⟩ isDefault

structure RsGeometry.Valid (geo : RsGeometry) : Prop where
  kPositive : 0 < geo.k
  rPositive : 0 < geo.r
  n_eq : geo.n = geo.k + geo.r
  inField : geo.k + geo.r ≤ 255
  shardPositive : 0 < geo.shardBytes
  shardBound : geo.shardBytes ≤ 65535

def ParamsInRange (k r shardBytes : Nat) : Prop :=
  1 ≤ k ∧ 1 ≤ r ∧ k + r ≤ 255 ∧ 1 ≤ shardBytes ∧ shardBytes ≤ 65535 ∧
    (k + r) * shardBytes ≤ CODEC_MAX_ENCODE_BLOCK

theorem paramsValid_iff {k r shardBytes : UInt64} (noWrap : k.toNat + r.toNat < 2 ^ 64) :
    paramsValid k r shardBytes = true ↔ ParamsInRange k.toNat r.toNat shardBytes.toNat := by
  have sum : (k + r).toNat = k.toNat + r.toNat := by rw [UInt64.toNat_add, Nat.mod_eq_of_lt noWrap]
  have one : (1 : UInt64).toNat = 1 := rfl
  have most : UINT16_MAX.toNat = 65535 := rfl
  have field : (UInt64.ofNat RS_ABS_MAX_SHARDS).toNat = 255 := rfl
  have block : (UInt64.ofNat CODEC_MAX_ENCODE_BLOCK).toNat = CODEC_MAX_ENCODE_BLOCK := rfl
  unfold paramsValid ParamsInRange
  split
  next outside =>
    simp only [gt_iff_lt, UInt64.lt_iff_toNat_lt, one, most] at outside
    exact iff_of_false Bool.false_ne_true (by omega)
  rename_i inside
  simp only [gt_iff_lt, UInt64.lt_iff_toNat_lt, one, most] at inside
  split
  next outside =>
    rw [gt_iff_lt, UInt64.lt_iff_toNat_lt, field, sum] at outside
    exact iff_of_false Bool.false_ne_true (by omega)
  rename_i inField
  rw [gt_iff_lt, UInt64.lt_iff_toNat_lt, field, sum] at inField
  have small : (k.toNat + r.toNat) * shardBytes.toNat ≤ 255 * 65535 :=
    Nat.mul_le_mul (by omega) (by omega)
  have product : ((k + r) * shardBytes).toNat = (k.toNat + r.toNat) * shardBytes.toNat := by
    rw [UInt64.toNat_mul, sum, Nat.mod_eq_of_lt (by omega)]
  simp only [gt_iff_lt, UInt64.lt_iff_toNat_lt, block, product]
  split
  next => exact iff_of_false Bool.false_ne_true (by omega)
  next => exact iff_of_true rfl (by omega)

theorem paramsValid_spec (k r shardBytes : UInt64)
    (valid : paramsValid k r shardBytes = true) (noWrap : k.toNat + r.toNat < 2 ^ 64) :
    RsGeometry.Valid ⟨k.toNat, r.toNat, (k + r).toNat, shardBytes.toNat⟩ := by
  obtain ⟨kPositive, rPositive, inField, shardPositive, shardBound, -⟩ :=
    (paramsValid_iff noWrap).mp valid
  refine ⟨kPositive, rPositive, ?_, inField, shardPositive, shardBound⟩
  exact UInt64.toNat_add k r ▸ Nat.mod_eq_of_lt noWrap

def planOf (geo : RsGeometry) (generator : Nat → Nat → GF256) : RsEncodePlan where
  k := geo.k
  r := geo.r
  n := geo.n
  shardBytes := geo.shardBytes
  coeff := generator
  mulTable :=
    if geo.k * geo.r * 256 ≤ RS_ENCODE_MUL_TABLE_MAX_BYTES then
      some (fillMulTable geo.k generator)
    else none
  nibbleTable := some (fillNibbleTable geo.k generator)
  initialized := true

/-- The matrix is built for a valid geometry and the plan is the plan of that matrix. -/
structure Ready (state : RsState) : Prop where
  matrixReady : state.matrixReady = true
  valid : state.geo.Valid
  plan_eq : state.plan = planOf state.geo state.generator
  generator_eq : ∃ parity, Mds.IsMds state.geo.k state.geo.r parity ∧
    (state.geo.k = 4 → state.geo.r = 2 → parity = Rscode.parityRow) ∧
    ∀ i < state.geo.k + state.geo.r, ∀ j < state.geo.k,
      state.generator i j = Mds.systematic state.geo.k parity i j

theorem rsInit_ready : Ready rsInit := by
  have built : rsEncodePlanBuild buildGeneratorRscode42 defaultGeometry 4 2 =
      some (planOf defaultGeometry buildGeneratorRscode42) := by
    rw [rsEncodePlanBuild, if_pos (by decide)]
    rfl
  have state_eq : rsInit = ⟨buildGeneratorRscode42, true, defaultGeometry,
      planOf defaultGeometry buildGeneratorRscode42, .auto, true⟩ := by
    rw [rsInit, built]
  rw [state_eq]
  refine ⟨rfl, ⟨by decide, by decide, rfl, by decide, by decide, by decide⟩, rfl,
    Rscode.parityRow, Rscode.parityRow_isMds, fun _ _ => rfl, buildGeneratorRscode42_spec⟩

/-- `RsCodec_set_params_ex` either rejects its parameters and changes nothing, or
leaves a ready codec of the requested geometry. -/
theorem rsCodecSetParamsEx_cases (st : RsState) (ready : Ready st)
    (k r shardBytes : UInt64) (noWrap : k.toNat + r.toNat < 2 ^ 64) :
    (paramsValid k r (if shardBytes = 0 then UInt64.ofNat PKG_SIZE else shardBytes) = false ∧
        rsCodecSetParamsEx st k r shardBytes = (-1, st)) ∨
      ∃ next, rsCodecSetParamsEx st k r shardBytes = (0, next) ∧ Ready next ∧
        next.encodeImpl = st.encodeImpl ∧ next.simdEnabled = st.simdEnabled ∧
        next.geo = ⟨k.toNat, r.toNat, k.toNat + r.toNat,
          if shardBytes = 0 then PKG_SIZE else shardBytes.toNat⟩ := by
  have sum : (k + r).toNat = k.toNat + r.toNat := by rw [UInt64.toNat_add, Nat.mod_eq_of_lt noWrap]
  have size : (if shardBytes = 0 then UInt64.ofNat PKG_SIZE else shardBytes).toNat =
      if shardBytes = 0 then PKG_SIZE else shardBytes.toNat := by
    split <;> rfl
  unfold rsCodecSetParamsEx
  generalize (if shardBytes = 0 then UInt64.ofNat PKG_SIZE else shardBytes) = actual at size ⊢
  rw [← size]
  dsimp only
  by_cases rejected : paramsValid k r actual = false
  · exact Or.inl ⟨rejected, if_pos rejected⟩
  rw [if_neg rejected]
  have accepted : paramsValid k r actual = true := by simpa using rejected
  have valid := paramsValid_spec k r actual accepted noWrap
  right
  split
  · rename_i unchanged
    refine ⟨st, rfl, ready, rfl, rfl, ?_⟩
    have total := ready.valid.n_eq
    cases shape : st.geo with
    | mk =>
      rw [shape] at unchanged total
      obtain ⟨rfl, rfl, rfl, _⟩ := unchanged
      exact congrArg (RsGeometry.mk _ _ · _) total
  obtain ⟨mat, parity, rebuilt, mds, isRscode, entries⟩ :=
    rebuildGenerator_spec ⟨k.toNat, r.toNat, (k + r).toNat, actual.toNat⟩ valid.inField
  rw [rebuilt]
  have built : rsEncodePlanBuild mat
      ⟨k.toNat, r.toNat, (k + r).toNat, actual.toNat⟩ k r =
      some (planOf ⟨k.toNat, r.toNat, (k + r).toNat, actual.toNat⟩ mat) := by
    rw [rsEncodePlanBuild, if_pos (by simpa using accepted)]
    rfl
  dsimp only
  rw [built]
  refine ⟨_, rfl, ⟨rfl, valid, rfl, parity, mds, isRscode, entries⟩, rfl, rfl, ?_⟩
  rw [sum]

theorem ready_of_reachable {state : RsState} (reached : RsReachable state) :
    Ready state := by
  induction reached with
  | init => exact rsInit_ready
  | setParams _ k r shardBytes noWrap ih =>
    rcases rsCodecSetParamsEx_cases _ ih k r shardBytes noWrap with
      ⟨_, rejected⟩ | ⟨next, accepted, nextReady, _⟩
    · rw [rejected]
      exact ih
    · rw [accepted]
      exact nextReady
  | setEncodeImpl _ _ ih | setSimdEnabled _ _ ih => exact { ih with }

theorem geo_of_valid {state : RsState} {k r shardBytes : UInt64}
    (valid : paramsValid k r (if shardBytes = 0 then UInt64.ofNat PKG_SIZE else shardBytes) = true)
    (new : ¬(state.geo.k = k.toNat ∧ state.geo.r = r.toNat)) :
    (rsCodecSetParamsEx state k r shardBytes).2.geo.k = k.toNat ∧
      (rsCodecSetParamsEx state k r shardBytes).2.geo.r = r.toNat := by
  unfold rsCodecSetParamsEx
  generalize (if shardBytes = 0 then UInt64.ofNat PKG_SIZE else shardBytes) = actual at valid ⊢
  dsimp only
  rw [if_neg (by rw [valid]; exact Bool.noConfusion), if_neg fun same => new ⟨same.1, same.2.1⟩]
  split
  next => exact ⟨rfl, rfl⟩
  next => split <;> exact ⟨rfl, rfl⟩

/-- The codec accepts exactly the parameters in range and stays ready for the last ones it
accepted, if and only if the sum of the shard counts does not wrap around in an accepted call. -/
theorem set_params_exact_iff {state : RsState} (reached : RsReachable state)
    (k r shardBytes : UInt64) :
    (let size := if shardBytes = 0 then PKG_SIZE else shardBytes.toNat
      let result := rsCodecSetParamsEx state k r shardBytes
      (result.1 = 0 ↔ ParamsInRange k.toNat r.toNat size) ∧
        (result.1 = 0 → result.2.geo = ⟨k.toNat, r.toNat, k.toNat + r.toNat, size⟩) ∧
        (result.1 ≠ 0 → result.2 = state) ∧ Ready result.2) ↔
      (k.toNat + r.toNat < 2 ^ 64 ∨
        paramsValid k r (if shardBytes = 0 then UInt64.ofNat PKG_SIZE else shardBytes) = false) := by
  have ready := ready_of_reachable reached
  have size : (if shardBytes = 0 then PKG_SIZE else shardBytes.toNat) =
      (if shardBytes = 0 then UInt64.ofNat PKG_SIZE else shardBytes).toNat := by
    split <;> rfl
  have rejects : paramsValid k r
      (if shardBytes = 0 then UInt64.ofNat PKG_SIZE else shardBytes) = false →
        rsCodecSetParamsEx state k r shardBytes = (-1, state) :=
    fun rejected => if_pos rejected
  dsimp only
  constructor
  · rintro ⟨status, -, unchanged, -⟩
    by_contra neither
    obtain ⟨_, valid⟩ := not_or.mp neither
    have outside : (rsCodecSetParamsEx state k r shardBytes).1 ≠ 0 := by
      intro accepted
      have inField := (status.mp accepted).2.2.1
      omega
    have small := ready.valid.inField
    obtain ⟨k_eq, r_eq⟩ : (rsCodecSetParamsEx state k r shardBytes).2.geo.k = k.toNat ∧ _ :=
      geo_of_valid (by simpa using valid) (by omega)
    rw [unchanged outside] at k_eq r_eq
    omega
  intro condition
  by_cases noWrap : k.toNat + r.toNat < 2 ^ 64
  · have range : paramsValid k r
        (if shardBytes = 0 then UInt64.ofNat PKG_SIZE else shardBytes) = true ↔ _ :=
      paramsValid_iff noWrap
    rw [← size] at range
    rcases rsCodecSetParamsEx_cases state ready k r shardBytes noWrap with
      ⟨rejected, result⟩ | ⟨next, result, nextReady, -, -, geo_eq⟩
    · rw [result]
      refine ⟨iff_of_false nofun ?_, nofun, fun _ => rfl, ready⟩
      rw [← range, rejected]
      exact Bool.false_ne_true
    · have valid : paramsValid k r
          (if shardBytes = 0 then UInt64.ofNat PKG_SIZE else shardBytes) = true := by
        by_contra invalid
        rw [rejects (by simpa using invalid)] at result
        cases result
      rw [result]
      exact ⟨iff_of_true rfl (range.mp valid), fun _ => geo_eq, nofun, nextReady⟩
  · rw [rejects (condition.resolve_left noWrap)]
    refine ⟨iff_of_false nofun ?_, nofun, fun _ => rfl, ready⟩
    intro inRange
    have inField := inRange.2.2.1
    omega

theorem set_params_exact_small : (rsCodecSetParamsEx rsInit 2 1 0).1 = 0 :=
  ((set_params_exact_iff .init 2 1 0).mpr (Or.inl (by decide))).1.mpr
    (by unfold ParamsInRange; decide)

/-- With one data shard and `2 ^ 64 - 1` parity shards the sum is 0, and the call replaces the
parameters that were in use. -/
theorem set_params_wraps :
    rsInit.geo.r = 2 ∧
      (rsCodecSetParamsEx rsInit 1 18446744073709551615 1).2.geo.r = 18446744073709551615 :=
  ⟨by decide, (geo_of_valid (by decide) (by decide)).2⟩

end MultiFlow.RsGenerator
