import MultiFlow.Codec.RsGenerator

/-!
# Encoding

`rs_encode` picks one of five implementations: the byte-major reference, the table driven general
path, the vector path with its AVX2, SSSE3 and scalar kernels, the unrolled 16+2 path, and rscode's
own encoder for 4+2.  All of them write the same parity bytes (`encodedBlock`).
-/

namespace MultiFlow.RsEncode

open CodecApi Galois Lib RsGenerator

structure CpuFeatures where
  avx2 : Bool
  ssse3 : Bool

def rsGf256SimdAvailable (cpu : CpuFeatures) : Bool := cpu.avx2 || cpu.ssse3

def clearShards (block : Block) (first count shardBytes : Nat) : Block :=
  Grid.modify (fun s b => first ≤ s ∧ s < first + count ∧ b < shardBytes) (fun _ _ _ => 0) block

/-- `srli_epi16(input, 4)` on byte lanes: a 16-bit element is two adjacent lanes. -/
def srliEpi16 (lanes : Nat → UInt8) : Nat → UInt8 := fun lane =>
  if lane % 2 = 0 then (lanes lane >>> 4) ||| (lanes (lane + 1) <<< 4) else lanes lane >>> 4

/-- `shuffle_epi8`: each group of 16 lanes is looked up separately. -/
def shuffleEpi8 (table index : Nat → UInt8) : Nat → UInt8 := fun lane =>
  if index lane &&& 0x80 ≠ 0 then 0
  else table (lane / 16 * 16 + (index lane &&& 0x0f).toNat)

def broadcast (table : Nat → UInt8) : Nat → UInt8 := fun lane => table (lane % 16)

def storeVector (block : Block) (shard offset width : Nat) (lanes : Nat → UInt8) : Block :=
  Grid.modify (fun s b => s = shard ∧ offset ≤ b ∧ b < offset + width)
    (fun _ b _ => lanes (b - offset)) block

/-- The byte-by-byte loop from `first` to `length`, shared by the three kernels. -/
def encodeColumnBytes (block : Block) (k r column first length : Nat)
    (nibbleTable : Nat → UInt8) : Block :=
  let source := block column
  forRange (length - first) block fun block step =>
    let offset := first + step
    let value := source offset
    forRange r block fun block row =>
      let table := fun x => nibbleTable (column * 32 + row * (k * 32) + x)
      Grid.store block (k + row) offset (block (k + row) offset ^^^
        (table (value &&& 0x0f).toNat ^^^ table (16 + (value >>> 4).toNat)))

def encodeColumnScalar (block : Block) (k r column length : Nat)
    (nibbleTable : Nat → UInt8) : Block :=
  encodeColumnBytes block k r column 0 length nibbleTable

/-- The vector kernels: whole groups of `width` bytes, then the rest byte by byte. -/
def encodeColumnVector (width : Nat) (block : Block) (k r column length : Nat)
    (nibbleTable : Nat → UInt8) : Block :=
  let source := block column
  let chunks := forRange (length / width) block fun block chunk =>
    let offset := chunk * width
    let input := fun lane => source (offset + lane)
    let lowIndex := fun lane => input lane &&& 0x0f
    let highIndex := fun lane => srliEpi16 input lane &&& 0x0f
    forRange r block fun block row =>
      let table := fun x => nibbleTable (column * 32 + row * (k * 32) + x)
      let lowTable := broadcast table
      let highTable := broadcast fun x => table (16 + x)
      let product := fun lane =>
        shuffleEpi8 lowTable lowIndex lane ^^^ shuffleEpi8 highTable highIndex lane
      storeVector block (k + row) offset width fun lane =>
        block (k + row) (offset + lane) ^^^ product lane
  encodeColumnBytes chunks k r column (length / width * width) length nibbleTable

def encodeColumnAvx2 := encodeColumnVector 32

def encodeColumnSsse3 := encodeColumnVector 16

def rsGf256EncodeColumn (cpu : CpuFeatures) (block : Block) (k r column length : Nat)
    (nibbleTable : Nat → UInt8) : Block :=
  if cpu.avx2 then encodeColumnAvx2 block k r column length nibbleTable
  else if cpu.ssse3 then encodeColumnSsse3 block k r column length nibbleTable
  else encodeColumnScalar block k r column length nibbleTable

def rsEncodeRscode42 (data : Block) : Block :=
  forRange PKG_SIZE data fun data byte =>
    let codeword := Rscode.encodeData (fun shard => ⟨data shard byte⟩) 4
    forRange 2 data fun data row => Grid.store data (4 + row) byte (codeword (4 + row)).byte

def rsEncodeLegacyGmul (data : Block) (plan : RsEncodePlan) : Block :=
  forRange plan.shardBytes data fun data byte =>
    let msg := fun column => data column byte
    forRange plan.r data fun data shard =>
      let value := forRange plan.k 0 fun value column =>
        value ^^^ gmult (plan.coeff (plan.k + shard) column).byte (msg column)
      Grid.store data (plan.k + shard) byte value

/-- The 256 products of one coefficient, from the plan or from the shared table. -/
def productTable (plan : RsEncodePlan) (k row column : Nat) : Nat → UInt8 :=
  match plan.mulTable with
  | some table => fun x => table ((row * k + column) * 256 + x)
  | none => fun x => rsGfMulTable (plan.coeff (k + row) column) (UInt8.ofNat x)

def rsEncodeGeneralTable (data : Block) (plan : RsEncodePlan) : Block :=
  forRange plan.k (clearShards data plan.k plan.r plan.shardBytes) fun data column =>
    let src := data column
    forRange plan.r data fun data row =>
      let table := productTable plan plan.k row column
      forRange plan.shardBytes data fun data byte =>
        Grid.store data (plan.k + row) byte
          (data (plan.k + row) byte ^^^ table (src byte).toNat)

def rsEncodeGeneralSimd (cpu : CpuFeatures) (data : Block) (plan : RsEncodePlan)
    (nibbleTable : Nat → UInt8) : Block :=
  forRange plan.k (clearShards data plan.k plan.r plan.shardBytes) fun data column =>
    rsGf256EncodeColumn cpu data plan.k plan.r column plan.shardBytes nibbleTable

def RS_FAST_K : Nat := 16

def RS_FAST_R : Nat := 2

def RS_FAST_N : Nat := RS_FAST_K + RS_FAST_R

def rsGeometryIsFast162 (k r len : Nat) : Bool :=
  decide (k = RS_FAST_K ∧ r = RS_FAST_R ∧ len = RS_FAST_N * PKG_SIZE)

def rsEncode162Fast (data : Block) (plan : RsEncodePlan) : Block :=
  let cleared := clearShards (clearShards data RS_FAST_K 1 PKG_SIZE) (RS_FAST_K + 1) 1 PKG_SIZE
  forRange RS_FAST_K cleared fun data column =>
    let src := data column
    let row0 := productTable plan RS_FAST_K 0 column
    let row1 := productTable plan RS_FAST_K 1 column
    forRange PKG_SIZE data fun data byte =>
      let symbol := src byte
      let data := Grid.store data RS_FAST_K byte
        (data RS_FAST_K byte ^^^ row0 symbol.toNat)
      Grid.store data (RS_FAST_K + 1) byte
        (data (RS_FAST_K + 1) byte ^^^ row1 symbol.toNat)

/-- `rs_encode`.  The statistics counters are left out. -/
def rsEncode (state : RsState) (cpu : CpuFeatures) (data : Block) (len : Nat) : Block :=
  let plan := state.plan
  if state.matrixReady = false ∨ plan.initialized = false then data
  else if len ≠ plan.n * plan.shardBytes then data
  else
    let useLegacy := state.encodeImpl = .legacy
    let useRscode42 := state.encodeImpl = .rscode ∧
      (plan.k = 4 ∧ plan.r = 2 ∧ plan.shardBytes = PKG_SIZE)
    let useFast := ¬ useLegacy ∧ ¬ useRscode42 ∧
      rsGeometryIsFast162 plan.k plan.r len = true ∧ state.encodeImpl = .fast16x2
    let simdAllowed := ¬ useLegacy ∧ ¬ useRscode42 ∧ ¬ useFast ∧
      state.simdEnabled = true ∧ rsGf256SimdAvailable cpu = true ∧
      (state.encodeImpl = .auto ∨ state.encodeImpl = .simd)
    if useRscode42 then rsEncodeRscode42 data
    else if useLegacy then rsEncodeLegacyGmul data plan
    else if useFast then rsEncode162Fast data plan
    else
      match plan.nibbleTable with
      | some nibbleTable =>
        if simdAllowed then rsEncodeGeneralSimd cpu data plan nibbleTable
        else rsEncodeGeneralTable data plan
      | none => rsEncodeGeneralTable data plan

/-- The parity cells of a block hold the generator rows applied to its data shards. -/
def encodedBlock (k r shardBytes : Nat) (generator : Nat → Nat → GF256) (block : Block) :
    Block :=
  Grid.modify (fun s b => k ≤ s ∧ s < k + r ∧ b < shardBytes)
    (fun s b _ => (∑ j ∈ Finset.range k, generator s j * ⟨block j b⟩).byte) block

theorem encodedBlock_data (k r shardBytes : Nat) (mat : Nat → Nat → GF256)
    (block : Block) (s b : Nat) (isData : s < k) :
    encodedBlock k r shardBytes mat block s b = block s b :=
  Grid.modify_outside _ _ (by omega)

theorem xorProducts_eq_sum (k : Nat) (coeff : Nat → GF256) (msg : Nat → UInt8) :
    forRange k 0 (fun value col => value ^^^ gmult (coeff col).byte (msg col)) =
      (∑ j ∈ Finset.range k, coeff j * ⟨msg j⟩).byte := by
  induction k with
  | zero => rfl
  | succ k ih => rw [forRange_succ, ih, Finset.sum_range_succ, GF256.byte_add, GF256.byte_mul]

/-- A step that adds the products of one data shard to every parity shard. -/
def AddsColumn (k r shardBytes : Nat) (coeff : Nat → Nat → GF256)
    (step : Block → Nat → Block) : Prop :=
  ∀ block column, column < k → step block column =
    Grid.modify (fun s b => k ≤ s ∧ s < k + r ∧ b < shardBytes)
      (fun s b value => value ^^^ gmult (coeff s column).byte (block column b)) block

theorem addsColumn_encodes {k r shardBytes : Nat} {coeff : Nat → Nat → GF256}
    {step : Block → Nat → Block} (adds : AddsColumn k r shardBytes coeff step)
    (block : Block) :
    forRange k (clearShards block k r shardBytes) step =
      encodedBlock k r shardBytes coeff block := by
  have partialSums := forRange_induction k (clearShards block k r shardBytes) step
    (fun done cur => cur = Grid.modify (fun s b => k ≤ s ∧ s < k + r ∧ b < shardBytes)
      (fun s b _ => forRange done 0 fun value col =>
        value ^^^ gmult (coeff s col).byte (block col b)) block)
    rfl
    (by
      intro col columnLt _ current_eq
      subst current_eq
      rw [adds _ col columnLt]
      funext s b
      by_cases inside : k ≤ s ∧ s < k + r ∧ b < shardBytes
      · have isData : ¬ (k ≤ col ∧ col < k + r ∧ b < shardBytes) := by omega
        rw [Grid.modify_inside _ _ inside, Grid.modify_outside (i := col) _ _ isData,
          Grid.modify_inside _ _ inside, Grid.modify_inside _ _ inside, forRange_succ]
      · rw [Grid.modify_outside _ _ inside, Grid.modify_outside _ _ inside,
          Grid.modify_outside _ _ inside])
  rw [partialSums, encodedBlock]
  simp only [xorProducts_eq_sum]

def KnownTable (geo : RsGeometry) (generator : Nat → Nat → GF256)
    (table : Option (Nat → UInt8)) : Prop :=
  table = none ∨ table = some (fillMulTable geo.k generator)

variable (geo : RsGeometry)

variable (mat : Nat → Nat → GF256)

theorem planOf_knownTable : KnownTable geo mat (planOf geo mat).mulTable := by
  unfold planOf
  split
  · exact Or.inr rfl
  · exact Or.inl rfl

variable {table : Option (Nat → UInt8)}

theorem productTable_spec (known : KnownTable geo mat table) (row column : Nat)
    (columnLt : column < geo.k) (x : UInt8) :
    productTable { planOf geo mat with mulTable := table } geo.k row column x.toNat =
      gmult (mat (geo.k + row) column).byte x := by
  have small : x.toNat < 256 := x.toNat_lt
  have slot : ((row * geo.k + column) * 256 + x.toNat) / 256 = row * geo.k + column := by omega
  have entry : ((row * geo.k + column) * 256 + x.toNat) % 256 = x.toNat := by omega
  have rowOf : (row * geo.k + column) / geo.k = row := by
    rw [Nat.add_comm, Nat.add_mul_div_right _ _ (by omega), Nat.div_eq_of_lt columnLt,
      Nat.zero_add]
  have columnOf : (row * geo.k + column) % geo.k = column := by
    rw [Nat.add_comm, Nat.add_mul_mod_self_right, Nat.mod_eq_of_lt columnLt]
  unfold productTable planOf
  rcases known with rfl | rfl
  · simp only [rsGfMulTable, UInt8.ofNat_toNat, GF256.byte_mul]
  · simp only [fillMulTable, slot, entry, rowOf, columnOf, rsGfMulTable, UInt8.ofNat_toNat,
      GF256.byte_mul]

/-- Byte by byte: the message of a byte is read before any parity byte at that offset is
written, and the other offsets are not touched. -/
theorem bytewise_encodes (k r shardBytes : Nat) (coeff : Nat → Nat → GF256) (block : Block) :
    (forRange shardBytes block fun data byte => forRange r data fun cur row =>
      Grid.store cur (k + row) byte
        (∑ j ∈ Finset.range k, coeff (k + row) j * ⟨data j byte⟩).byte) =
      encodedBlock k r shardBytes coeff block := by
  have oneByte : ∀ (data : Block) (byte : Nat),
      (forRange r data fun cur row => Grid.store cur (k + row) byte
        (∑ j ∈ Finset.range k, coeff (k + row) j * ⟨data j byte⟩).byte) =
      Grid.modify (fun s b => k ≤ s ∧ s < k + r ∧ b = byte)
        (fun s b _ => (∑ j ∈ Finset.range k, coeff s j * ⟨data j byte⟩).byte) data :=
    fun data byte => Grid.forRange_column r k byte data
      fun s _ _ => (∑ j ∈ Finset.range k, coeff s j * ⟨data j byte⟩).byte
  simp only [oneByte]
  refine forRange_induction shardBytes block _
    (fun done cur => cur = encodedBlock k r done coeff block) ?_ ?_
  · funext s b
    rw [encodedBlock, Grid.modify_outside _ _ (by omega)]
  · intro byte _ _ current_eq
    subst current_eq
    funext s b
    by_cases here : k ≤ s ∧ s < k + r ∧ b = byte
    · obtain ⟨low, high, rfl⟩ := here
      rw [Grid.modify_inside _ _ ⟨low, high, rfl⟩]
      conv_rhs => rw [encodedBlock, Grid.modify_inside _ _ ⟨low, high, by omega⟩]
      congr 1
      refine Finset.sum_congr rfl ?_
      intro j jMem
      rw [encodedBlock_data k r b coeff block j b (Finset.mem_range.mp jMem)]
    · rw [Grid.modify_outside _ _ here]
      by_cases inside : k ≤ s ∧ s < k + r ∧ b < byte
      · rw [encodedBlock, encodedBlock, Grid.modify_inside _ _ inside,
          Grid.modify_inside _ _ (by omega)]
      · rw [encodedBlock, encodedBlock, Grid.modify_outside _ _ inside,
          Grid.modify_outside _ _ (by omega)]

theorem rsEncodeLegacyGmul_spec (block : Block) :
    rsEncodeLegacyGmul block (planOf geo mat) =
      encodedBlock geo.k geo.r geo.shardBytes mat block := by
  rw [← bytewise_encodes]
  simp only [rsEncodeLegacyGmul, planOf, xorProducts_eq_sum]

theorem rsEncodeRscode42_spec (block : Block) (isRscode : ∀ row < 2, ∀ col < 4,
      mat (4 + row) col = Rscode.parityRow row col) :
    rsEncodeRscode42 block = encodedBlock 4 2 PKG_SIZE mat block := by
  rw [← bytewise_encodes]
  unfold rsEncodeRscode42
  congr 1
  funext data byte
  have rows : ∀ row < 2,
      Rscode.encodeData (fun shard => ⟨data shard byte⟩) 4 (4 + row) =
        ∑ j ∈ Finset.range 4, mat (4 + row) j * ⟨data j byte⟩ := by
    intro row rowLt
    rw [Rscode.encodeData_parity _ row rowLt]
    refine Finset.sum_congr rfl ?_
    intro j jMem
    rw [isRscode row rowLt j (Finset.mem_range.mp jMem)]
  simp only [forRange_succ, forRange_zero, rows 0 (by omega), rows 1 (by omega)]

theorem rsEncodeGeneralTable_spec (known : KnownTable geo mat table) (block : Block) :
    rsEncodeGeneralTable block { planOf geo mat with mulTable := table } =
      encodedBlock geo.k geo.r geo.shardBytes mat block := by
  refine addsColumn_encodes ?_ block
  intro data col columnLt
  refine Eq.trans ?_ (Grid.forRange_rows_columns geo.r geo.shardBytes geo.k data
    fun s b value => value ^^^ gmult (mat s col).byte (data col b))
  refine congrArg (forRange geo.r data) ?_
  funext cur row
  refine congrArg (forRange geo.shardBytes cur) ?_
  funext cur byte
  exact congrArg (fun product => Grid.store cur (geo.k + row) byte
    (cur (geo.k + row) byte ^^^ product))
    (productTable_spec geo mat known row col columnLt (data col byte))

theorem rsEncode162Fast_spec (known : KnownTable geo mat table) (block : Block) (kFast : geo.k = 16)
    :
    rsEncode162Fast block { planOf geo mat with mulTable := table } =
      encodedBlock 16 2 PKG_SIZE mat block := by
  have cleared : clearShards (clearShards block RS_FAST_K 1 PKG_SIZE) (RS_FAST_K + 1) 1
      PKG_SIZE = clearShards block 16 2 PKG_SIZE := by
    funext s b
    by_cases second : RS_FAST_K + 1 ≤ s ∧ s < RS_FAST_K + 1 + 1 ∧ b < PKG_SIZE
    · have both : 16 ≤ s ∧ s < 16 + 2 ∧ b < PKG_SIZE := by
        unfold RS_FAST_K at second
        omega
      rw [clearShards, Grid.modify_inside _ _ second, clearShards, Grid.modify_inside _ _ both]
    · rw [clearShards, Grid.modify_outside _ _ second]
      unfold RS_FAST_K at second
      refine if_congr ?_ rfl rfl
      unfold RS_FAST_K
      omega
  rw [rsEncode162Fast, cleared]
  refine addsColumn_encodes ?_ block
  intro data col columnLt
  have columnIn : col < geo.k := by
    rw [kFast]
    exact columnLt
  have row0 := productTable_spec geo mat known 0 col columnIn
  have row1 := productTable_spec geo mat known 1 col columnIn
  rw [kFast] at row0 row1
  refine Eq.trans ?_ (Grid.forRange_columns_rows 2 PKG_SIZE 16 data
    fun s b value => value ^^^ gmult (mat s col).byte (data col b))
  refine congrArg (forRange PKG_SIZE data) ?_
  funext cur byte
  simp only [RS_FAST_K, row0, row1, forRange_succ, forRange_zero, Nat.add_zero]

theorem split_nibbles (value : UInt8) :
    (value &&& (0x0f : UInt8)) ^^^ ((value >>> 4) <<< 4) = value := by
  have table : ∀ n < 256,
      (UInt8.ofNat n &&& (0x0f : UInt8)) ^^^ ((UInt8.ofNat n >>> 4) <<< 4) = UInt8.ofNat n := by
    decide +kernel
  have checked := table value.toNat value.toNat_lt
  rwa [UInt8.ofNat_toNat] at checked

theorem nibble_bounds (value : UInt8) : (value &&& 0x0f).toNat < 16 ∧ (value >>> 4).toNat < 16 := by
  have table : ∀ n < 256,
      (UInt8.ofNat n &&& 0x0f).toNat < 16 ∧ (UInt8.ofNat n >>> 4).toNat < 16 := by
    decide +kernel
  have checked := table value.toNat value.toNat_lt
  rwa [UInt8.ofNat_toNat] at checked

theorem fillNibbleTable_spec (k : Nat) (mat : Nat → Nat → GF256) (row column : Nat)
    (columnLt : column < k) (value : UInt8) :
    fillNibbleTable k mat (column * 32 + row * (k * 32) + (value &&& 0x0f).toNat) ^^^
      fillNibbleTable k mat (column * 32 + row * (k * 32) + (16 + (value >>> 4).toNat)) =
      gmult (mat (k + row) column).byte value := by
  obtain ⟨lowSmall, highSmall⟩ := nibble_bounds value
  have start : column * 32 + row * (k * 32) = (row * k + column) * 32 := by ring
  have rowOf : (row * k + column) / k = row := by
    rw [Nat.add_comm, Nat.add_mul_div_right _ _ (by omega), Nat.div_eq_of_lt columnLt,
      Nat.zero_add]
  have columnOf : (row * k + column) % k = column := by
    rw [Nat.add_comm, Nat.add_mul_mod_self_right, Nat.mod_eq_of_lt columnLt]
  have slot : ∀ x < 32, fillNibbleTable k mat ((row * k + column) * 32 + x) =
      gmult (mat (k + row) column).byte
        (if x < 16 then UInt8.ofNat x else UInt8.ofNat (x - 16) <<< 4) := by
    intro x _
    have quotient : ((row * k + column) * 32 + x) / 32 = row * k + column := by omega
    have remainder : ((row * k + column) * 32 + x) % 32 = x := by omega
    simp only [fillNibbleTable, quotient, remainder, rowOf, columnOf, rsGfMulTable, GF256.byte_mul]
  rw [start, slot _ (by omega), slot _ (by omega), if_pos lowSmall, if_neg (by omega),
    UInt8.ofNat_toNat, Nat.add_sub_cancel_left, UInt8.ofNat_toNat, ← gmult_xor,
    split_nibbles]

theorem encodeColumnBytes_spec (k r col first length : Nat)
    (mat : Nat → Nat → GF256) (columnLt : col < k) (block : Block) :
    encodeColumnBytes block k r col first length (fillNibbleTable k mat) =
      Grid.modify (fun s b => k ≤ s ∧ s < k + r ∧ first ≤ b ∧ b < length)
        (fun s b value => value ^^^ gmult (mat s col).byte (block col b)) block := by
  unfold encodeColumnBytes
  simp only [fillNibbleTable_spec k mat _ col columnLt]
  have oneByte : ∀ (current : Block) (off : Nat),
      (forRange r current fun current row => Grid.store current (k + row) off
        (current (k + row) off ^^^ gmult (mat (k + row) col).byte (block col off))) =
      Grid.modify (fun s b => k ≤ s ∧ s < k + r ∧ b = off)
        (fun s b value => value ^^^ gmult (mat s col).byte (block col b)) current :=
    fun current off => Grid.forRange_column r k off current
      fun s b value => value ^^^ gmult (mat s col).byte (block col b)
  simp only [oneByte]
  refine Grid.forRange_modify (length - first) block _ _ _ ?_ ?_
  · intro s b
    constructor
    · rintro ⟨low, high, above, below⟩
      exact ⟨b - first, by omega, low, high, by omega⟩
    · rintro ⟨t, tLt, low, high, same⟩
      exact ⟨low, high, by omega, by omega⟩
  · intro _ _ _ _ _ _ _ _
    omega

theorem shuffleEpi8_broadcast (table idx : Nat → UInt8) (lane : Nat) :
    shuffleEpi8 (broadcast table) (fun lane => idx lane &&& 0x0f) lane =
      table (idx lane &&& 0x0f).toNat := by
  have masks : ∀ n < 256, (UInt8.ofNat n &&& (0x0f : UInt8)) &&& (0x80 : UInt8) = 0 ∧
      ((UInt8.ofNat n &&& (0x0f : UInt8)) &&& (0x0f : UInt8)) =
        UInt8.ofNat n &&& (0x0f : UInt8) := by
    decide +kernel
  have checked := masks (idx lane).toNat (idx lane).toNat_lt
  rw [UInt8.ofNat_toNat] at checked
  have small := (nibble_bounds (idx lane)).1
  have pos : (lane / 16 * 16 + (idx lane &&& 0x0f).toNat) % 16 =
      (idx lane &&& 0x0f).toNat := by omega
  rw [shuffleEpi8, if_neg (not_not.mpr checked.1), checked.2, broadcast, pos]

theorem or_and_distrib (left right mask : UInt8) :
    (left ||| right) &&& mask = (left &&& mask) ||| (right &&& mask) := by
  apply UInt8.toBitVec_inj.mp
  simp only [UInt8.toBitVec_and, UInt8.toBitVec_or]
  ext i iLt
  simp [Bool.and_or_distrib_right]

theorem srliEpi16_masked (input : Nat → UInt8) (lane : Nat) :
    srliEpi16 input lane &&& (0x0f : UInt8) = input lane >>> 4 := by
  have masks : ∀ n < 256, (UInt8.ofNat n >>> 4) &&& (0x0f : UInt8) = UInt8.ofNat n >>> 4 ∧
      (UInt8.ofNat n <<< 4) &&& (0x0f : UInt8) = 0 := by
    decide +kernel
  have here := masks (input lane).toNat (input lane).toNat_lt
  have neighbour := masks (input (lane + 1)).toNat (input (lane + 1)).toNat_lt
  rw [UInt8.ofNat_toNat] at here neighbour
  rw [srliEpi16]
  split
  · rw [or_and_distrib, here.1, neighbour.2, UInt8.or_zero]
  · exact here.1

theorem chunk_product (k row col : Nat) (mat : Nat → Nat → GF256)
    (columnLt : col < k) (input : Nat → UInt8) (lane : Nat) :
    shuffleEpi8 (broadcast fun x => fillNibbleTable k mat (col * 32 + row * (k * 32) + x))
        (fun lane => input lane &&& 0x0f) lane ^^^ shuffleEpi8
        (broadcast fun x => fillNibbleTable k mat (col * 32 + row * (k * 32) + (16 + x)))
        (fun lane => srliEpi16 input lane &&& 0x0f) lane =
      gmult (mat (k + row) col).byte (input lane) := by
  rw [shuffleEpi8_broadcast, shuffleEpi8_broadcast, srliEpi16_masked]
  exact fillNibbleTable_spec k mat row col columnLt (input lane)

theorem encodeColumnVector_spec (width : Nat) (positive : 0 < width) (k r col length : Nat)
    (mat : Nat → Nat → GF256) (columnLt : col < k) (block : Block) :
    encodeColumnVector width block k r col length (fillNibbleTable k mat) =
      Grid.modify (fun s b => k ≤ s ∧ s < k + r ∧ b < length)
        (fun s b value => value ^^^ gmult (mat s col).byte (block col b)) block := by
  unfold encodeColumnVector
  simp only [chunk_product k _ col mat columnLt]
  let update : Nat → Nat → UInt8 → UInt8 := fun s b value =>
    value ^^^ gmult (mat s col).byte (block col b)
  have oneVector : ∀ (current : Block) (row off : Nat),
      (storeVector current (k + row) off width fun lane =>
        current (k + row) (off + lane) ^^^
          gmult (mat (k + row) col).byte (block col (off + lane))) =
      Grid.modify (fun s b => s = k + row ∧ off ≤ b ∧ b < off + width) update
        current := by
    intro current row off
    funext s b
    by_cases inside : s = k + row ∧ off ≤ b ∧ b < off + width
    · have pos : off + (b - off) = b := by omega
      rw [storeVector, Grid.modify_inside _ _ inside, Grid.modify_inside _ _ inside, pos,
        ← inside.1]
    · rw [storeVector, Grid.modify_outside _ _ inside, Grid.modify_outside _ _ inside]
  have oneChunk : ∀ (current : Block) (off : Nat),
      (forRange r current fun current row =>
        Grid.modify (fun s b => s = k + row ∧ off ≤ b ∧ b < off + width) update current) =
      Grid.modify (fun s b => k ≤ s ∧ s < k + r ∧ off ≤ b ∧ b < off + width) update
        current := by
    intro current _
    refine Grid.forRange_modify r current update _ _ ?_ ?_
    · intro s b
      constructor
      · rintro ⟨low, high, within⟩
        exact ⟨s - k, by omega, by omega, within⟩
      · rintro ⟨t, tLt, same, within⟩
        exact ⟨by omega, by omega, within⟩
    · intro s b t _ u _ one two
      omega
  have chunks : (forRange (length / width) block fun current chunk =>
        Grid.modify (fun s b => k ≤ s ∧ s < k + r ∧ chunk * width ≤ b ∧
          b < chunk * width + width) update current) =
      Grid.modify (fun s b => k ≤ s ∧ s < k + r ∧ b < length / width * width) update block := by
    refine Grid.forRange_modify (length / width) block update _ _ ?_ ?_
    · intro s b
      constructor
      · rintro ⟨low, high, below⟩
        exact ⟨b / width, Nat.div_lt_of_lt_mul (by rwa [Nat.mul_comm]), low, high,
          Nat.div_mul_le_self b width, Nat.lt_div_mul_add positive⟩
      rintro ⟨t, tLt, low, high, above, below⟩
      refine ⟨low, high, ?_⟩
      calc b < (t + 1) * width := by rwa [Nat.succ_mul]
        _ ≤ length / width * width := Nat.mul_le_mul_right width tLt
    · intro s b t _ u _ one two
      have first : b / width = t := Nat.div_eq_of_lt_le one.2.2.1 (by
        rw [Nat.succ_mul]
        exact one.2.2.2)
      have second : b / width = u := Nat.div_eq_of_lt_le two.2.2.1 (by
        rw [Nat.succ_mul]
        exact two.2.2.2)
      rw [← first, second]
  simp only [oneVector, oneChunk, chunks]
  rw [encodeColumnBytes_spec k r col _ length mat columnLt]
  have wholeChunks : length / width * width ≤ length := Nat.div_mul_le_self length width
  funext s b
  by_cases inTail : k ≤ s ∧ s < k + r ∧ length / width * width ≤ b ∧ b < length
  · rw [Grid.modify_inside _ _ inTail, Grid.modify_outside (i := col) _ _ (by omega),
      Grid.modify_outside _ _ (by omega), Grid.modify_inside _ _ (by omega)]
  rw [Grid.modify_outside _ _ inTail]
  by_cases inChunks : k ≤ s ∧ s < k + r ∧ b < length / width * width
  · rw [Grid.modify_inside _ _ inChunks, Grid.modify_inside _ _ (by omega)]
  · rw [Grid.modify_outside _ _ inChunks, Grid.modify_outside _ _ (by omega)]

theorem rsGf256EncodeColumn_spec (cpu : CpuFeatures) (k r col length : Nat)
    (mat : Nat → Nat → GF256) (columnLt : col < k) (block : Block) :
    rsGf256EncodeColumn cpu block k r col length (fillNibbleTable k mat) =
      Grid.modify (fun s b => k ≤ s ∧ s < k + r ∧ b < length)
        (fun s b value => value ^^^ gmult (mat s col).byte (block col b)) block := by
  unfold rsGf256EncodeColumn
  split
  · exact encodeColumnVector_spec 32 (by decide) k r col length mat columnLt block
  split
  · exact encodeColumnVector_spec 16 (by decide) k r col length mat columnLt block
  · rw [encodeColumnScalar, encodeColumnBytes_spec k r col 0 length mat columnLt]
    funext s b
    simp only [Grid.modify, Nat.zero_le, true_and]

theorem rsEncodeGeneralSimd_spec (cpu : CpuFeatures) (geo : RsGeometry)
    (mat : Nat → Nat → GF256) (block : Block) :
    rsEncodeGeneralSimd cpu block (planOf geo mat) (fillNibbleTable geo.k mat) =
      encodedBlock geo.k geo.r geo.shardBytes mat block := by
  refine addsColumn_encodes ?_ block
  intro data col columnLt
  exact rsGf256EncodeColumn_spec cpu geo.k geo.r col geo.shardBytes mat columnLt data

/-- Whichever implementation runs, on whichever processor, a block of the right length
gets the parity shards of the generator. -/
theorem rsEncode_spec (st : RsState) (ready : Ready st) (cpu : CpuFeatures) (block : Block) :
    rsEncode st cpu block (st.geo.n * st.geo.shardBytes) =
      encodedBlock st.geo.k st.geo.r st.geo.shardBytes st.generator block := by
  obtain ⟨parity, _, isRscode, entries⟩ := ready.generator_eq
  unfold rsEncode
  rw [ready.plan_eq, ready.matrixReady]
  dsimp only
  rw [if_neg (by simp [planOf]), if_neg (by simp [planOf])]
  split
  · rename_i useRscode
    obtain ⟨_, kFour, rTwo, wholePackage⟩ := useRscode
    have kEq : st.geo.k = 4 := kFour
    have rEq : st.geo.r = 2 := rTwo
    have sizeEq : st.geo.shardBytes = PKG_SIZE := wholePackage
    rw [kEq, rEq, sizeEq]
    refine rsEncodeRscode42_spec st.generator block ?_
    intro row _ col _
    have entry := entries (4 + row) (by omega) col (by omega)
    rw [entry, isRscode kEq rEq, kEq, Mds.systematic, if_neg (by omega),
      Nat.add_sub_cancel_left]
  split
  · exact rsEncodeLegacyGmul_spec st.geo st.generator block
  · split
    · rename_i useFast
      have shape := of_decide_eq_true useFast.2.2.1
      have kEq : st.geo.k = 16 := shape.1
      have rEq : st.geo.r = 2 := shape.2.1
      have total : st.geo.n * st.geo.shardBytes = RS_FAST_N * PKG_SIZE := shape.2.2
      have sizeEq : st.geo.shardBytes = PKG_SIZE := by
        rw [ready.valid.n_eq, kEq, rEq] at total
        exact Nat.eq_of_mul_eq_mul_left (by decide : 0 < 16 + 2) total
      rw [kEq, rEq, sizeEq]
      exact rsEncode162Fast_spec st.geo st.generator (planOf_knownTable _ _) block kEq
    · show (if _ then _ else _) = _
      split
      · exact rsEncodeGeneralSimd_spec cpu st.geo st.generator block
      · exact rsEncodeGeneralTable_spec st.geo st.generator (planOf_knownTable _ _) block

/-- All implementations of the encoder give the same parity shards for a geometry that
`RsCodec_set_params_ex` accepts, and change nothing but the parity shards. -/
theorem encode_paths_agree (state : RsState) (reached : RsReachable state)
    (k r shardBytes : UInt64) (inField : k.toNat + r.toNat ≤ 255)
    (accepted : (rsCodecSetParamsEx state k r shardBytes).1 = 0) (block : Block) :
    let next := (rsCodecSetParamsEx state k r shardBytes).2
    let size := if shardBytes = 0 then PKG_SIZE else shardBytes.toNat
    let parity := rsEncodeLegacyGmul block next.plan
    rsEncodeGeneralTable block next.plan = parity ∧
      rsEncodeGeneralTable block { next.plan with mulTable := none } = parity ∧
      (∃ nibbleTable, next.plan.nibbleTable = some nibbleTable ∧
        ∀ cpu, rsEncodeGeneralSimd cpu block next.plan nibbleTable = parity) ∧
      (k = 16 → r = 2 → size = PKG_SIZE →
        rsEncode162Fast block next.plan = parity ∧
          rsEncode162Fast block { next.plan with mulTable := none } = parity) ∧
      (∀ impl simdEnabled cpu, rsEncode (rsCodecSetSimdEnabledForTests
        (rsCodecSetEncodeImpl next impl) simdEnabled) cpu block
          ((k.toNat + r.toNat) * size) = parity) ∧
      ∀ s b, ¬ (k.toNat ≤ s ∧ s < k.toNat + r.toNat ∧ b < size) → parity s b = block s b := by
  intro next size parity
  rcases rsCodecSetParamsEx_cases state (ready_of_reachable reached) k r shardBytes (by omega)
    with ⟨_, rejected⟩ | ⟨set, set_eq, ready, _, _, geometry⟩
  · rw [rejected] at accepted
    cases accepted
  have next_eq : next = set := congrArg Prod.snd set_eq
  have plan_eq : next.plan = planOf set.geo set.generator := by rw [next_eq, ready.plan_eq]
  have kEq : set.geo.k = k.toNat := by rw [geometry]
  have rEq : set.geo.r = r.toNat := by rw [geometry]
  have sizeEq : set.geo.shardBytes = size := by rw [geometry]
  have parity_eq : parity =
      encodedBlock set.geo.k set.geo.r set.geo.shardBytes set.generator block := by
    rw [show parity = rsEncodeLegacyGmul block next.plan from rfl, plan_eq]
    exact rsEncodeLegacyGmul_spec set.geo set.generator block
  rw [parity_eq, plan_eq]
  refine ⟨rsEncodeGeneralTable_spec set.geo set.generator (planOf_knownTable _ _) block,
    rsEncodeGeneralTable_spec set.geo set.generator (Or.inl rfl) block,
    ⟨_, rfl, fun cpu => rsEncodeGeneralSimd_spec cpu set.geo set.generator block⟩, ?_, ?_, ?_⟩
  · intro kFast rFast wholePackage
    rw [rEq, sizeEq, wholePackage, rFast, kEq, kFast]
    have isFast : set.geo.k = 16 := by
      rw [kEq, kFast]
      rfl
    exact ⟨rsEncode162Fast_spec set.geo set.generator (planOf_knownTable _ _) block isFast,
      rsEncode162Fast_spec set.geo set.generator (Or.inl rfl) block isFast⟩
  · intro impl simdEnabled cpu
    have configured : Ready (rsCodecSetSimdEnabledForTests
        (rsCodecSetEncodeImpl next impl) simdEnabled) := by
      rw [next_eq]
      exact { ready with }
    have encodes := rsEncode_spec _ configured cpu block
    have geo_eq : (rsCodecSetSimdEnabledForTests (rsCodecSetEncodeImpl next impl)
        simdEnabled).geo = set.geo := by
      rw [next_eq]
      rfl
    rw [geo_eq, ready.valid.n_eq, kEq, rEq, sizeEq] at encodes
    rw [encodes, kEq, rEq, sizeEq, next_eq]
    rfl
  · intro _ _ outside
    rw [kEq, rEq, sizeEq]
    exact Grid.modify_outside _ _ outside

theorem encode_paths_agree_fast :
    rsEncode162Fast (fun _ _ => 7) (rsCodecSetParamsEx rsInit 16 2 0).2.plan =
      rsEncodeLegacyGmul (fun _ _ => 7) (rsCodecSetParamsEx rsInit 16 2 0).2.plan := by
  have accepted : (rsCodecSetParamsEx rsInit 16 2 0).1 = 0 := by
    rcases rsCodecSetParamsEx_cases rsInit rsInit_ready 16 2 0 (by decide) with
      ⟨invalid, _⟩ | ⟨next, set, _⟩
    · revert invalid
      decide
    · rw [set]
  exact ((encode_paths_agree rsInit .init 16 2 0 (by decide) accepted _).2.2.2.1 rfl rfl rfl).1

end MultiFlow.RsEncode
