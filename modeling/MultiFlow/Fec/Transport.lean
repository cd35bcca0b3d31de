import MultiFlow.Codec.RsRecover
import MultiFlow.Wire.Header

/-!
# FEC transports in RS mode

`fec_transport.c`: what `fec_encoder_create` and `fec_decoder_create` have in common.
A configuration is completed by `config_complete` and bound to the process-wide RS codec
by `bind_rs`; the result carries the bounds that were checked.  Allocation is taken to
succeed.
-/

namespace MultiFlow.Fec

open CodecApi Lib RsGenerator Wire

inductive FecStatus where
  | ok
  | inval
  | nomem
  | queueFull
  | wireHeader
  | metadata
  | codec
  | downstream
  | stale
  | notFec
  | exhausted
  | busy
deriving DecidableEq

inductive FecOutputStatus where
  | ok
  | blocked
  | error
deriving DecidableEq

def FEC_TRANSPORT_MAX_SHARDS : Nat := 255

def FEC_DEFAULT_WINDOW : UInt64 := 64

def FEC_DEFAULT_QUEUE_PKTS : UInt64 := 256

structure FecTransportConfig where
  dataShards : UInt16
  parityShards : UInt16
  shardSize : UInt16 := 0
  flushTimeoutNs : UInt64 := 0
  groupWindow : UInt64 := 0
  outputQueuePackets : UInt64 := 0
  outputQueueBytes : UInt64 := 0
  wireRateBps : UInt64 := 0
  wireBurstBytes : UInt64 := 0

/-- A configuration that `config_complete` has filled in and accepted. -/
structure ResolvedConfig where
  k : Nat
  r : Nat
  shardSize : Nat
  flushTimeoutNs : UInt64
  groupWindow : Nat
  outputQueuePackets : Nat
  outputQueueBytes : Nat
  wireRateBps : UInt64
  wireBurstBytes : UInt64
  two_le : 2 ≤ k
  one_le : 1 ≤ r
  total_le : k + r ≤ FEC_TRANSPORT_MAX_SHARDS
  size_ge : 32 ≤ shardSize
  span_le : k * shardSize ≤ 65535
  window_pos : 0 < groupWindow
  queue_ge : r + 1 ≤ outputQueuePackets

def ResolvedConfig.n (config : ResolvedConfig) : Nat := config.k + config.r

def ResolvedConfig.messageShards (config : ResolvedConfig) : Nat := config.k - 1

def orDefault (value default : UInt64) : UInt64 := if value = 0 then default else value

theorem orDefault_pos (value default : UInt64) (positive : 0 < default.toNat) :
    0 < (orDefault value default).toNat := by
  unfold orDefault
  split
  · exact positive
  · rename_i nonzero
    exact Nat.pos_of_ne_zero fun zero => nonzero (UInt64.toNat_inj.mp zero)

/-- `config_complete` for the RS codec. -/
def configComplete (config : FecTransportConfig) : Option ResolvedConfig :=
  let k := config.dataShards.toNat
  let r := config.parityShards.toNat
  let shardSize := if config.shardSize = 0 then PKG_SIZE else config.shardSize.toNat
  let packets := orDefault config.outputQueuePackets FEC_DEFAULT_QUEUE_PKTS
  if few : k < 2 ∨ r < 1 then none
  else if many : k + r > FEC_TRANSPORT_MAX_SHARDS then none
  else if small : shardSize < 32 then none
  else if long : k * shardSize = 0 ∨ k * shardSize > 65535 then none
  else if short : packets.toNat < r + 1 then none
  else
    some
      { k := k
        r := r
        shardSize := shardSize
        flushTimeoutNs := config.flushTimeoutNs
        groupWindow := (orDefault config.groupWindow FEC_DEFAULT_WINDOW).toNat
        outputQueuePackets := packets.toNat
        -- the product is a `size_t`
        outputQueueBytes := (orDefault config.outputQueueBytes
          (packets * UInt64.ofNat (WIRE_HEADER_SIZE + shardSize))).toNat
        wireRateBps := config.wireRateBps
        wireBurstBytes := config.wireBurstBytes
        two_le := by omega
        one_le := by omega
        total_le := by omega
        size_ge := by omega
        span_le := by omega
        window_pos := orDefault_pos _ _ (by decide)
        queue_ge := by omega }

structure FecBackend where
  users : Nat
  k : Nat
  r : Nat
  shard : Nat
  rs : RsState

def bindRs (backend : FecBackend) (config : ResolvedConfig) : Option FecBackend :=
  if backend.users > 0 ∧ (backend.k ≠ config.k ∨ backend.r ≠ config.r ∨
      backend.shard ≠ config.shardSize) then none
  else
    let (status, rs) := rsCodecSetParamsEx backend.rs (UInt64.ofNat config.k)
      (UInt64.ofNat config.r) (UInt64.ofNat config.shardSize)
    if status ≠ 0 then none
    else if rs.geo.k = config.k ∧ rs.geo.r = config.r ∧
        rs.geo.n * rs.geo.shardBytes = config.n * config.shardSize then
      some ⟨backend.users + 1, config.k, config.r, config.shardSize, rs⟩
    else none

/-- What an encoder and a decoder of one configuration share. -/
structure FecTransport extends ResolvedConfig where
  codec : Codec

/-- `fec_encoder_create` and `fec_decoder_create` up to the allocation of their state. -/
def fecTransportCreate (backend : FecBackend) (cpu : RsEncode.CpuFeatures)
    (config : FecTransportConfig) : Option (FecTransport × FecBackend) :=
  match configComplete config with
  | none => none
  | some resolved =>
    match bindRs backend resolved with
    | none => none
    | some bound => some (⟨resolved, RsRecover.rsCodec bound.rs cpu⟩, bound)

/-- Shards of `size` bytes: the data shards are the block's own and determine the others,
and any `k` shards of a codeword give the data back. -/
structure ShardCodec (codec : Codec) (k r size : Nat) : Prop where
  keeps : ∀ data s b, s < k → codec.encode data ((k + r) * size) s b = data s b
  agrees : ∀ data other, (∀ s < k, ∀ b < size, data s b = other s b) →
    ∀ s < k + r, ∀ b < size,
      codec.encode data ((k + r) * size) s b = codec.encode other ((k + r) * size) s b
  recovers : ∀ data block present,
    (∀ s < k + r, present s = true → ∀ b < size,
      block s b = codec.encode data ((k + r) * size) s b) →
    k ≤ presentCount present (k + r) →
    ∃ recovered, codecRecover codec block present (k + r) = (.ok, recovered) ∧
      (∀ s < k, ∀ b < size, recovered s b = data s b) ∧
      ∀ s b, present s = true → recovered s b = block s b

theorem rsCodec_shardCodec {st : RsState} (ready : Ready st) (cpu : RsEncode.CpuFeatures) :
    ShardCodec (RsRecover.rsCodec st cpu) st.geo.k st.geo.r st.geo.shardBytes := by
  have total := ready.valid.n_eq
  have encodes : ∀ data, (RsRecover.rsCodec st cpu).encode data
      ((st.geo.k + st.geo.r) * st.geo.shardBytes) =
        RsEncode.encodedBlock st.geo.k st.geo.r st.geo.shardBytes st.generator data := by
    intro data
    rw [← total]
    exact RsEncode.rsEncode_spec st ready cpu data
  constructor
  · intro data s b isData
    rw [encodes]
    exact RsEncode.encodedBlock_data _ _ _ _ _ s b isData
  · intro data other same s isShard b inShard
    rw [encodes, encodes]
    by_cases isData : s < st.geo.k
    · rw [RsEncode.encodedBlock_data _ _ _ _ _ s b isData,
        RsEncode.encodedBlock_data _ _ _ _ _ s b isData]
      exact same s isData b inShard
    have parity : st.geo.k ≤ s ∧ s < st.geo.k + st.geo.r ∧
        b < st.geo.shardBytes := ⟨Nat.le_of_not_lt isData, isShard, inShard⟩
    unfold RsEncode.encodedBlock
    rw [Grid.modify_inside _ _ parity, Grid.modify_inside _ _ parity]
    refine congrArg _ (Finset.sum_congr rfl ?_)
    intro col mem
    rw [same col (Finset.mem_range.mp mem) b inShard]
  · intro data block present carries enough
    have positive := ready.valid.kPositive
    rw [← total] at enough carries ⊢
    have dispatch : codecRecover (RsRecover.rsCodec st cpu) block present st.geo.n =
        RsRecover.rsRecover st block present st.geo.n := by
      unfold codecRecover RsRecover.rsCodec
      dsimp only
      rw [if_neg (by omega)]
    rw [dispatch]
    refine RsRecover.rsRecover_enough st ready data block present ?_ enough
    intro s isShard isPresent b inShard
    rw [carries s isShard isPresent b inShard, total, encodes]

theorem fecTransportCreate_shardCodec {backend bound : FecBackend}
    (reached : RsReachable backend.rs) {cpu : RsEncode.CpuFeatures} {cfg : FecTransportConfig}
    {tp : FecTransport} (created : fecTransportCreate backend cpu cfg = some (tp, bound)) :
    ShardCodec tp.codec tp.k tp.r tp.shardSize ∧
      RsReachable bound.rs := by
  unfold fecTransportCreate at created
  split at created
  · cases created
  rename_i resolved _
  split at created
  · cases created
  rename_i next binds
  obtain ⟨rfl, rfl⟩ := Prod.mk.inj (Option.some.inj created)
  have total := resolved.total_le
  have span := resolved.span_le
  have two := resolved.two_le
  have size := resolved.size_ge
  have sizeLe : resolved.shardSize ≤ 65535 := by
    refine le_trans ?_ span
    exact Nat.le_mul_of_pos_left _ (by omega)
  have fits : ∀ value ≤ 65535, (UInt64.ofNat value).toNat = value := by
    intro value small
    rw [UInt64.toNat_ofNat', Nat.mod_eq_of_lt (by omega)]
  have limit : FEC_TRANSPORT_MAX_SHARDS = 255 := rfl
  have k_eq := fits resolved.k (by omega)
  have r_eq := fits resolved.r (by omega)
  have size_eq := fits resolved.shardSize sizeLe
  have noWrap : (UInt64.ofNat resolved.k).toNat + (UInt64.ofNat resolved.r).toNat < 2 ^ 64 := by
    rw [k_eq, r_eq]
    omega
  have sizeNe : UInt64.ofNat resolved.shardSize ≠ 0 := by
    intro zero
    rw [zero] at size_eq
    have contrary : 0 = resolved.shardSize := size_eq
    omega
  unfold bindRs at binds
  split at binds
  · cases binds
  dsimp only at binds
  split at binds
  · cases binds
  rename_i accepted
  split at binds
  · have bound_eq := Option.some.inj binds
    rcases rsCodecSetParamsEx_cases backend.rs (ready_of_reachable reached)
      (UInt64.ofNat resolved.k) (UInt64.ofNat resolved.r) (UInt64.ofNat resolved.shardSize) noWrap
      with ⟨_, rejected⟩ | ⟨next, set, ready, _, _, geometry⟩
    · rw [rejected] at accepted
      have contrary : (-1 : Int) = 0 := not_not.mp accepted
      cases contrary
    · rw [k_eq, r_eq, if_neg sizeNe, size_eq] at geometry
      have codec := rsCodec_shardCodec ready cpu
      rw [geometry] at codec
      rw [← bound_eq]
      refine ⟨?_, RsReachable.setParams reached _ _ _ noWrap⟩
      dsimp only
      rw [set]
      exact codec
  · cases binds

def freshBackend : FecBackend := ⟨0, 0, 0, 0, rsInit⟩

/-- Two records a group and one parity shard, one group at a time. -/
def smallConfig (flushTimeoutNs : UInt64) : FecTransportConfig where
  dataShards := 3
  parityShards := 1
  shardSize := 32
  flushTimeoutNs := flushTimeoutNs
  groupWindow := 1

def smallResolved (flushTimeoutNs : UInt64) : ResolvedConfig where
  k := 3
  r := 1
  shardSize := 32
  flushTimeoutNs := flushTimeoutNs
  groupWindow := 1
  outputQueuePackets := 256
  outputQueueBytes := 256 * 76
  wireRateBps := 0
  wireBurstBytes := 0
  two_le := by decide
  one_le := by decide
  total_le := by decide
  size_ge := by decide
  span_le := by decide
  window_pos := Nat.one_pos
  queue_ge := by decide

def smallTransport (flushTimeoutNs : UInt64) : FecTransport where
  toResolvedConfig := smallResolved flushTimeoutNs
  codec := RsRecover.rsCodec (rsCodecSetParamsEx rsInit 3 1 32).2 ⟨true, true⟩

theorem configComplete_small (flushTimeoutNs : UInt64) :
    configComplete (smallConfig flushTimeoutNs) = some (smallResolved flushTimeoutNs) := by
  have packets : orDefault 0 FEC_DEFAULT_QUEUE_PKTS = 256 := by decide
  unfold configComplete smallConfig
  simp only [packets]
  rfl

theorem fecTransportCreate_three {cfg : FecTransportConfig} {resolved : ResolvedConfig}
    (accepted : configComplete cfg = some resolved) (k_eq : resolved.k = 3)
    (r_eq : resolved.r = 1) (size_eq : resolved.shardSize = 32) :
    ∃ bound, fecTransportCreate freshBackend ⟨true, true⟩ cfg =
      some (⟨resolved, RsRecover.rsCodec (rsCodecSetParamsEx rsInit 3 1 32).2 ⟨true, true⟩⟩,
        bound) := by
  rcases rsCodecSetParamsEx_cases rsInit rsInit_ready 3 1 32 (by decide) with
    ⟨invalid, _⟩ | ⟨next, set, _, _, _, geometry⟩
  · have valid : paramsValid 3 1 32 = true := by decide
    exact absurd invalid (by simpa using valid)
  · have binds : bindRs freshBackend resolved = some ⟨1, 3, 1, 32, next⟩ := by
      unfold bindRs
      rw [if_neg (by simp [freshBackend]), k_eq, r_eq, size_eq]
      have set' : rsCodecSetParamsEx freshBackend.rs (UInt64.ofNat 3) (UInt64.ofNat 1)
          (UInt64.ofNat 32) = (0, next) := set
      rw [set']
      dsimp only
      rw [if_neg (by simp), geometry, if_pos]
      · rfl
      refine ⟨rfl, rfl, ?_⟩
      unfold ResolvedConfig.n
      rw [k_eq, r_eq]
      rfl
    refine ⟨⟨1, 3, 1, 32, next⟩, ?_⟩
    unfold fecTransportCreate
    rw [accepted]
    dsimp only
    rw [binds, set]

theorem fecTransportCreate_small (flushTimeoutNs : UInt64) :
    ∃ bound, fecTransportCreate freshBackend ⟨true, true⟩ (smallConfig flushTimeoutNs) =
      some (smallTransport flushTimeoutNs, bound) :=
  fecTransportCreate_three (configComplete_small flushTimeoutNs) rfl rfl rfl

end MultiFlow.Fec
