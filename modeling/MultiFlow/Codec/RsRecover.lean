import MultiFlow.Codec.RsEncode

/-!
# Recovery

`rs_recover` takes the first `k` present shards, inverts their rows of the generator and recomputes
every absent shard.  On a block whose present shards are those of a codeword this restores the
codeword.
-/

namespace MultiFlow.RsRecover

open CodecApi Galois Lib RsEncode RsGenerator RsMatrix List

/-- The counting loop: shards received and the first `k` of them. -/
def collectSurvivors (present : Present) (n k : Nat) : Nat × List Nat :=
  forRange n (0, []) fun (received, survivors) shard =>
    if present shard then
      (received + 1, if survivors.length < k then survivors ++ [shard] else survivors)
    else (received, survivors)

/-- The row that expresses an absent shard through the survivors. -/
def repairRow (generator inverse : Nat → Nat → GF256) (k shard column : Nat) : GF256 :=
  forRange k 0 fun value term => value + generator shard term * inverse term column

def repairShards (geo : RsGeometry) (generator inverse : Nat → Nat → GF256)
    (survivors : List Nat) (shards : Block) (present : Present) : Block :=
  forRange geo.n shards fun shards shard =>
    if present shard then shards
    else
      forRange geo.shardBytes shards fun shards byte =>
        Grid.store shards shard byte
          (forRange geo.k (0 : GF256) fun value term =>
            value + repairRow generator inverse geo.k shard term *
              ⟨shards (survivors.getD term 0) byte⟩).byte

def rsRecover (state : RsState) (shards : Block) (present : Present) (shardCount : Nat) :
    CodecRecoverStatus × Block :=
  let geo := state.geo
  if shardCount ≠ geo.n ∨ state.matrixReady = false then (.err, shards)
  else
    let (received, survivors) := collectSurvivors present geo.n geo.k
    if received < geo.k then (.unavailable, shards)
    else if received = geo.n then (.ok, shards)
    else if presentAll present geo.k = true then (.ok, shards)
    else if survivors.length ≠ geo.k then (.err, shards)
    else
      let submatrix := fun row column => state.generator (survivors.getD row 0) column
      match matrixInverseDyn submatrix geo.k with
      | none => (.err, shards)
      | some inverse =>
        (.ok, repairShards geo state.generator inverse survivors shards present)

def rsCodec (state : RsState) (cpu : CpuFeatures) : Codec where
  encode := rsEncode state cpu
  decode := fun block _ => block
  inputBlockSize := state.geo.k * state.geo.shardBytes
  outputBlockSize := state.geo.n * state.geo.shardBytes
  dataShards := state.geo.k
  parityShards := state.geo.r
  isSystematic := true
  allowsBestEffort := none
  recover := some (rsRecover state)

theorem collectSurvivors_spec (present : Present) (n k : Nat) :
    collectSurvivors present n k =
      (presentCount present n, ((List.range n).filter present).take k) := by
  induction n with
  | zero => simp [collectSurvivors, presentCount]
  | succ n ih =>
    rw [collectSurvivors, forRange_succ, ← collectSurvivors, ih, presentCount_succ,
      range_succ, filter_append]
    cases bit : present n with
    | false => simp [bit]
    | true =>
      simp only [bit, if_true, filter_cons_of_pos, filter_nil, take_append, length_take]
      by_cases room : ((List.range n).filter present).length < k
      · have fits : ([n] : List Nat).length ≤
            k - ((List.range n).filter present).length := by
          rw [length_singleton]
          omega
        rw [if_pos (by omega), take_of_length_le room.le, take_of_length_le fits]
      · rw [if_neg (by omega), show k - ((List.range n).filter present).length = 0 by omega,
          take_zero, append_nil]

theorem length_filter_range (present : Present) (n : Nat) :
    ((List.range n).filter present).length = presentCount present n := by
  rw [presentCount_eq_card, presentShards, ← toFinset_card_of_nodup]
  · congr 1
    ext i
    simp
  · exact nodup_range.filter _

structure Survivors (present : Present) (n k : Nat) (survivors : List Nat) : Prop where
  length_eq : survivors.length = k
  nodup : survivors.Nodup
  member : ∀ t < k, survivors.getD t 0 < n ∧ present (survivors.getD t 0) = true

theorem survivors_of_enough (present : Present) (n k : Nat) (enough : k ≤ presentCount present n) :
    Survivors present n k (((List.range n).filter present).take k) := by
  have len_eq : (((List.range n).filter present).take k).length = k := by
    rw [length_take, length_filter_range]
    omega
  refine ⟨len_eq, ?_, ?_⟩
  · exact (nodup_range.filter _).sublist (take_sublist _ _)
  intro t tLt
  have inList : t < (((List.range n).filter present).take k).length := by omega
  have mem := mem_of_mem_take (getElem_mem inList)
  rw [mem_filter, mem_range] at mem
  rwa [getD_eq_getElem _ _ inList]

theorem forRange_sum (k : Nat) (term : Nat → GF256) :
    forRange k 0 (fun value t => value + term t) = ∑ t ∈ Finset.range k, term t := by
  induction k with
  | zero => rfl
  | succ k ih => rw [forRange_succ, ih, Finset.sum_range_succ]

theorem repairRow_apply (k : Nat) (mat inverse : Nat → Nat → GF256) (shard : Nat)
    (codeword : Nat → GF256) :
    ∑ t ∈ Finset.range k, repairRow mat inverse k shard t * codeword t =
      ∑ m ∈ Finset.range k, mat shard m * ∑ t ∈ Finset.range k, inverse m t * codeword t := by
  simp only [repairRow, forRange_sum, Finset.sum_mul, Finset.mul_sum, ← mul_assoc]
  exact Finset.sum_comm

/-- Repair rows applied to the survivors give back the generator row applied to the
message. -/
theorem repair_eq_codeword (k : Nat) (mat inverse : Nat → Nat → GF256)
    (survivor : Nat → Nat) (msg : Nat → GF256) (shard : Nat) (leftInverse : ∀ i < k, ∀ j < k,
      ∑ t ∈ Finset.range k, inverse i t * mat (survivor t) j = if i = j then 1 else 0) :
    ∑ t ∈ Finset.range k, repairRow mat inverse k shard t *
        ∑ j ∈ Finset.range k, mat (survivor t) j * msg j =
      ∑ j ∈ Finset.range k, mat shard j * msg j := by
  have decoded : ∀ m < k, ∑ t ∈ Finset.range k,
      inverse m t * ∑ j ∈ Finset.range k, mat (survivor t) j * msg j =
        msg m := by
    intro m mLt
    calc ∑ t ∈ Finset.range k,
          inverse m t * ∑ j ∈ Finset.range k, mat (survivor t) j * msg j
        = ∑ j ∈ Finset.range k, (∑ t ∈ Finset.range k,
            inverse m t * mat (survivor t) j) * msg j := by
          simp only [Finset.mul_sum, Finset.sum_mul, ← mul_assoc]
          exact Finset.sum_comm
      _ = ∑ j ∈ Finset.range k, if j = m then msg m else 0 := by
          refine Finset.sum_congr rfl ?_
          intro j jMem
          rw [leftInverse m mLt j (Finset.mem_range.mp jMem)]
          by_cases same : j = m
          · simp [same]
          · simp [same, Ne.symm same]
      _ = msg m := by rw [Finset.sum_ite_eq' (Finset.range k) m, if_pos (Finset.mem_range.mpr mLt)]
  rw [repairRow_apply]
  refine Finset.sum_congr rfl ?_
  intro m mMem
  rw [decoded m (Finset.mem_range.mp mMem)]

/-- The repair loop rewrites exactly the absent shards, each with the combination of
survivors that its repair row prescribes. -/
theorem repairShards_spec (geo : RsGeometry) (mat inverse : Nat → Nat → GF256)
    (survivors : List Nat) (shards : Block) (present : Present)
    (survive : Survivors present geo.n geo.k survivors) :
    repairShards geo mat inverse survivors shards present =
      Grid.modify (fun s b => s < geo.n ∧ present s = false ∧ b < geo.shardBytes)
        (fun s b _ => (∑ t ∈ Finset.range geo.k, repairRow mat inverse geo.k s t *
          ⟨shards (survivors.getD t 0) b⟩).byte) shards := by
  let repaired : Nat → Nat → UInt8 → UInt8 := fun s b _ =>
    (∑ t ∈ Finset.range geo.k, repairRow mat inverse geo.k s t *
      ⟨shards (survivors.getD t 0) b⟩).byte
  -- a survivor is present, so no store of the loop reaches it
  have oneShard : ∀ (current : Block) (shard : Nat), present shard = false →
      (∀ s b, present s = true → current s b = shards s b) →
      (forRange geo.shardBytes current fun current byte =>
        Grid.store current shard byte (∑ t ∈ Finset.range geo.k,
          repairRow mat inverse geo.k shard t * ⟨current (survivors.getD t 0) byte⟩).byte) =
      Grid.modify (fun s b => s = shard ∧ b < geo.shardBytes) repaired current := by
    intro current shard absent intact
    refine forRange_induction geo.shardBytes current _
      (fun done next => next = Grid.modify (fun s b => s = shard ∧ b < done) repaired current)
      ?_ ?_
    · funext s b
      rw [Grid.modify_outside _ _ (by omega)]
    · intro byte byteLt next next_eq
      have sources : ∀ t ∈ Finset.range geo.k,
          repairRow mat inverse geo.k shard t * ⟨next (survivors.getD t 0) byte⟩ =
          repairRow mat inverse geo.k shard t * ⟨shards (survivors.getD t 0) byte⟩ := by
        intro t tMem
        obtain ⟨_, isPresent⟩ := survive.member t (Finset.mem_range.mp tMem)
        have differs : survivors.getD t 0 ≠ shard := by
          intro same
          rw [same, absent] at isPresent
          cases isPresent
        rw [next_eq, Grid.modify_outside _ _ (by omega), intact _ _ isPresent]
      rw [Finset.sum_congr rfl sources]
      funext s b
      by_cases here : s = shard ∧ b = byte
      · obtain ⟨rfl, rfl⟩ := here
        rw [Grid.store, if_pos ⟨rfl, rfl⟩, Grid.modify_inside _ _ ⟨rfl, by omega⟩]
      · rw [Grid.store, if_neg here, next_eq]
        exact if_congr (by omega) rfl rfl
  unfold repairShards
  simp only [forRange_sum]
  refine forRange_induction geo.n shards _
    (fun done current => current =
      Grid.modify (fun s b => s < done ∧ present s = false ∧ b < geo.shardBytes) repaired
        shards) ?_ ?_
  · funext s b
    rw [Grid.modify_outside _ _ (by omega)]
  · intro shard shardLt current current_eq
    cases bit : present shard with
    | true =>
      rw [if_pos rfl, current_eq]
      funext s b
      refine if_congr ?_ rfl rfl
      refine and_congr_left ?_
      rintro ⟨absent, _⟩
      have differs : s ≠ shard := by
        rintro rfl
        rw [bit] at absent
        cases absent
      omega
    | false =>
      have intact : ∀ s b, present s = true → current s b = shards s b := by
        intro s b isPresent
        rw [current_eq, Grid.modify_outside _ _ (by simp [isPresent])]
      rw [if_neg (by decide), oneShard current shard bit intact]
      funext s b
      by_cases here : s = shard ∧ b < geo.shardBytes
      · obtain ⟨rfl, bLt⟩ := here
        rw [Grid.modify_inside _ _ ⟨rfl, bLt⟩, Grid.modify_inside _ _ ⟨by omega, bit, bLt⟩]
      rw [Grid.modify_outside _ _ here, current_eq]
      refine if_congr ?_ rfl rfl
      refine and_congr_left ?_
      rintro ⟨_, bLt⟩
      have differs : s ≠ shard := fun same => here ⟨same, bLt⟩
      omega

def CarriesCodeword (state : RsState) (data received : Block) (present : Present) : Prop :=
  ∀ s < state.geo.n, present s = true → ∀ b < state.geo.shardBytes,
    received s b =
      encodedBlock state.geo.k state.geo.r state.geo.shardBytes state.generator data s b

theorem encodedBlock_eq_row (st : RsState) (ready : Ready st) (data : Block)
    (s b : Nat) (sLt : s < st.geo.n) (bLt : b < st.geo.shardBytes) :
    encodedBlock st.geo.k st.geo.r st.geo.shardBytes st.generator data s b =
      (∑ j ∈ Finset.range st.geo.k, st.generator s j * ⟨data j b⟩).byte := by
  obtain ⟨parity, _, _, entries⟩ := ready.generator_eq
  have total := ready.valid.n_eq
  by_cases isData : s < st.geo.k
  · rw [encodedBlock_data _ _ _ _ _ s b isData]
    have row : ∑ j ∈ Finset.range st.geo.k, st.generator s j * ⟨data j b⟩ =
        ∑ j ∈ Finset.range st.geo.k,
          Mds.systematic st.geo.k parity s j * (⟨data j b⟩ : GF256) := by
      refine Finset.sum_congr rfl ?_
      intro j jMem
      rw [entries s (by omega) j (Finset.mem_range.mp jMem)]
    rw [row, Mds.systematic_data st.geo.k parity (fun j => ⟨data j b⟩) s isData]
  · exact Grid.modify_inside _ _ ⟨by omega, by omega, bLt⟩

theorem survivors_invertible (st : RsState) (ready : Ready st) (present : Present)
    (survivors : List Nat) (survive : Survivors present st.geo.n st.geo.k survivors) :
    ∃ inverse, matrixInverseDyn (fun row col => st.generator (survivors.getD row 0) col)
        st.geo.k = some inverse ∧
      ∀ i < st.geo.k, ∀ j < st.geo.k,
        ∑ t ∈ Finset.range st.geo.k, inverse i t * st.generator (survivors.getD t 0) j =
          if i = j then 1 else 0 := by
  obtain ⟨parity, mds, _, entries⟩ := ready.generator_eq
  have total := ready.valid.n_eq
  have inField := ready.valid.inField
  have rPositive := ready.valid.rPositive
  refine matrixInverseDyn_spec st.geo.k _ ready.valid.kPositive
    (by unfold RS_ABS_MAX_SHARDS; omega) ?_
  intro msg annihilated
  refine Mds.kernel_of_survivors mds survivors.toFinset ?_ ?_ msg ?_
  · intro s sMem
    obtain ⟨t, tLt, rfl⟩ := getElem_of_mem (mem_toFinset.mp sMem)
    have mem := (survive.member t (by rw [← survive.length_eq]; exact tLt)).1
    rw [getD_eq_getElem _ _ tLt] at mem
    exact Finset.mem_range.mpr (by omega)
  · rw [toFinset_card_of_nodup survive.nodup, survive.length_eq]
  intro s sMem
  obtain ⟨t, tLt, rfl⟩ := getElem_of_mem (mem_toFinset.mp sMem)
  have tBound : t < st.geo.k := by
    rw [← survive.length_eq]
    exact tLt
  have mem := (survive.member t tBound).1
  have vanishes := annihilated t tBound
  rw [getD_eq_getElem _ _ tLt] at mem vanishes
  rw [← vanishes]
  refine Finset.sum_congr rfl ?_
  intro j jMem
  rw [entries _ (by omega) j (Finset.mem_range.mp jMem)]

/-- With at least `k` shards of a codeword present, recovery succeeds, restores the data
shards and leaves the present shards and everything outside the block as they were. -/
theorem rsRecover_enough (st : RsState) (ready : Ready st) (data received : Block)
    (present : Present) (carries : CarriesCodeword st data received present)
    (enough : st.geo.k ≤ presentCount present st.geo.n) :
    ∃ recovered, rsRecover st received present st.geo.n = (.ok, recovered) ∧
      (∀ s < st.geo.k, ∀ b < st.geo.shardBytes, recovered s b = data s b) ∧
      ∀ s b, present s = true → recovered s b = received s b := by
  have dataRow : ∀ s < st.geo.k, present s = true → ∀ b < st.geo.shardBytes,
      received s b = data s b := by
    intro s isData isPresent b bLt
    have total := ready.valid.n_eq
    rw [carries s (by omega) isPresent b bLt, encodedBlock_data _ _ _ _ _ s b isData]
  have total := ready.valid.n_eq
  unfold rsRecover
  dsimp only
  rw [if_neg (by simp [ready.matrixReady]), collectSurvivors_spec]
  dsimp only
  rw [if_neg (by omega)]
  by_cases everyShard : presentCount present st.geo.n = st.geo.n
  · rw [if_pos everyShard]
    have all := (presentCount_eq_iff present st.geo.n).mp everyShard
    refine ⟨received, rfl, ?_, fun _ _ _ => rfl⟩
    intro s isData
    exact dataRow s isData (all s (by omega))
  rw [if_neg everyShard]
  by_cases everyData : presentAll present st.geo.k = true
  · rw [if_pos everyData]
    have all := (presentAll_iff present st.geo.k).mp everyData
    refine ⟨received, rfl, ?_, fun _ _ _ => rfl⟩
    intro s isData
    exact dataRow s isData (all s isData)
  have survive := survivors_of_enough present st.geo.n st.geo.k enough
  obtain ⟨inverse, inverted, leftInverse⟩ := survivors_invertible st ready present _ survive
  rw [if_neg everyData, if_neg (not_not.mpr survive.length_eq), inverted]
  dsimp only
  rw [repairShards_spec st.geo st.generator inverse _ received present survive]
  refine ⟨_, rfl, ?_, ?_⟩
  · intro s isData b bLt
    cases bit : present s with
    | true =>
      rw [Grid.modify_outside _ _ (by simp [bit])]
      exact dataRow s isData bit b bLt
    | false =>
      have codeword : ∀ t ∈ Finset.range st.geo.k,
          repairRow st.generator inverse st.geo.k s t *
            (⟨received ((((List.range st.geo.n).filter present).take
              st.geo.k).getD t 0) b⟩ : GF256) =
          repairRow st.generator inverse st.geo.k s t *
            ∑ j ∈ Finset.range st.geo.k,
              st.generator ((((List.range st.geo.n).filter present).take
                st.geo.k).getD t 0) j * ⟨data j b⟩ := by
        intro t tMem
        obtain ⟨inBlock, isPresent⟩ := survive.member t (Finset.mem_range.mp tMem)
        rw [carries _ inBlock isPresent b bLt,
          encodedBlock_eq_row st ready data _ b inBlock bLt]
      rw [Grid.modify_inside _ _ ⟨by omega, bit, bLt⟩, Finset.sum_congr rfl codeword,
        repair_eq_codeword st.geo.k st.generator inverse _ (fun j => ⟨data j b⟩) s
          leftInverse,
        ← encodedBlock_eq_row st ready data s b (by omega) bLt,
        encodedBlock_data _ _ _ _ _ s b isData]
  · intro s b isPresent
    rw [Grid.modify_outside _ _ (by simp [isPresent])]

theorem rsRecover_tooFew (st : RsState) (ready : Ready st) (received : Block)
    (present : Present) (tooFew : presentCount present st.geo.n < st.geo.k) :
    rsRecover st received present st.geo.n = (.unavailable, received) := by
  unfold rsRecover
  dsimp only
  rw [if_neg (by simp [ready.matrixReady]), collectSurvivors_spec]
  dsimp only
  rw [if_pos tooFew]

/-- For every geometry the setter accepts, every encoder and processor, all data and every presence
set: `k` present shards bring the data back, whatever the absent ones hold, and fewer leave the
block alone. -/
theorem encode_erase_recover (state : RsState) (reached : RsReachable state)
    (k r shardBytes : UInt64) (inField : k.toNat + r.toNat ≤ 255)
    (accepted : (rsCodecSetParamsEx state k r shardBytes).1 = 0)
    (impl : RsEncodeImpl) (simdEnabled : Bool) (cpu : CpuFeatures)
    (data received : Block) (present : Present)
    (arrived : ∀ s < k.toNat + r.toNat, present s = true →
      ∀ b < (if shardBytes = 0 then PKG_SIZE else shardBytes.toNat), received s b =
          rsEncode (rsCodecSetSimdEnabledForTests (rsCodecSetEncodeImpl
              (rsCodecSetParamsEx state k r shardBytes).2 impl) simdEnabled) cpu data
            ((k.toNat + r.toNat) * if shardBytes = 0 then PKG_SIZE else shardBytes.toNat) s b) :
    (k.toNat ≤ presentCount present (k.toNat + r.toNat) →
      ∃ recovered, rsRecover (rsCodecSetParamsEx state k r shardBytes).2 received present
          (k.toNat + r.toNat) = (.ok, recovered) ∧
        (∀ s < k.toNat, ∀ b < (if shardBytes = 0 then PKG_SIZE else shardBytes.toNat),
          recovered s b = data s b) ∧
        ∀ s b, present s = true → recovered s b = received s b) ∧
    (presentCount present (k.toNat + r.toNat) < k.toNat →
      rsRecover (rsCodecSetParamsEx state k r shardBytes).2 received present
        (k.toNat + r.toNat) = (.unavailable, received)) := by
  rcases rsCodecSetParamsEx_cases state (ready_of_reachable reached) k r shardBytes (by omega)
    with ⟨_, rejected⟩ | ⟨next, set, ready, _, _, geometry⟩
  · rw [rejected] at accepted
    cases accepted
  · rw [set] at arrived ⊢
    generalize (if shardBytes = 0 then PKG_SIZE else shardBytes.toNat) = size
      at arrived geometry ⊢
    have kEq : next.geo.k = k.toNat := by rw [geometry]
    have nEq : next.geo.n = k.toNat + r.toNat := by rw [geometry]
    have sizeEq : next.geo.shardBytes = size := by rw [geometry]
    rw [← nEq, ← sizeEq] at arrived
    rw [← nEq, ← kEq, ← sizeEq]
    have encodes := rsEncode_spec
      (rsCodecSetSimdEnabledForTests (rsCodecSetEncodeImpl next impl) simdEnabled)
      { ready with } cpu data
    have carries : CarriesCodeword next data received present := by
      intro s sLt isPresent b bLt
      rw [arrived s sLt isPresent b bLt]
      exact congrFun (congrFun encodes s) b
    exact ⟨rsRecover_enough next ready data received present carries,
      rsRecover_tooFew next ready received present⟩

theorem encode_erase_recover_oneOfTwo :
    ∃ recovered, rsRecover (rsCodecSetParamsEx rsInit 1 1 1).2 (fun s b => if s = 0 then 255 else
          rsEncode (rsCodecSetSimdEnabledForTests (rsCodecSetEncodeImpl
            (rsCodecSetParamsEx rsInit 1 1 1).2 .auto) true) ⟨true, true⟩
            (fun _ _ => 7) ((1 + 1) * 1) s b)
        (fun s => decide (s = 1)) (1 + 1) = (.ok, recovered) ∧ recovered 0 0 = 7 := by
  obtain ⟨recovered, status, restored, _⟩ := (encode_erase_recover rsInit .init 1 1 1 (by decide)
    (by decide) .auto true ⟨true, true⟩ (fun _ _ => 7)
    (fun s b => if s = 0 then 255 else
      rsEncode (rsCodecSetSimdEnabledForTests (rsCodecSetEncodeImpl
        (rsCodecSetParamsEx rsInit 1 1 1).2 .auto) true) ⟨true, true⟩
        (fun _ _ => 7) ((1 + 1) * 1) s b)
    (fun s => decide (s = 1))
    (by
      intro s _ isPresent b _
      rw [if_neg (by simp at isPresent; omega)]
      rfl)).1 (by decide)
  exact ⟨recovered, status, restored 0 (by decide) 0 (by decide)⟩

end MultiFlow.RsRecover
