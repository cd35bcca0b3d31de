import MultiFlow.Relay.CacheInvariant

/-!
# Expiry and the poll timeout

`generation_cache_expire` as the relay calls it for an END, and the two queries that tell the relay
how long it may sleep.
-/

namespace MultiFlow.Relay

open Lib Wire

variable (cache : GenerationCache)

/-- The cached entries, from the most recently used one on. -/
def GenerationCache.listed : List Nat :=
  follow cache.lru.next cache.heap cache.lru.head

def deadlineNs (entry : Nat) : UInt64 :=
  (cache.entries entry).lastUpdateNs + cache.cfg.genTimeoutMs.toUInt64 * 1000000

def earlierDeadline (earliest : UInt64) (cur : Nat) : UInt64 :=
  if earliest = 0 ∨ deadlineNs cache cur < earliest then deadlineNs cache cur else earliest

def generationCacheEarliestDeadlineNs : UInt64 :=
  if cache.count = 0 ∨ cache.cfg.genTimeoutMs = 0 then 0
  else cache.listed.foldl (earlierDeadline cache) 0

def generationCachePollTimeoutMs (nowNs : UInt64) (emptyPollMs : Int) : Int :=
  let emptyPollMs := if emptyPollMs < 1 then 1 else emptyPollMs
  if cache.count = 0 then emptyPollMs
  else
    let deadline := generationCacheEarliestDeadlineNs cache
    if deadline = 0 then emptyPollMs
    else if deadline ≤ nowNs then 0
    else
      let ms := (deadline - nowNs + 999999) / 1000000
      if ms = 0 then 0
      else if emptyPollMs < ms.toNat then emptyPollMs
      else ms.toNat

/-- What the relay does to its cache when it forwards an END: the filter is `(int32_t)flow_id`. -/
def expireForEnd (nowNs : UInt64) (flowId : UInt32) : GenerationCache :=
  (generationCacheExpire cache nowNs flowId.toInt32).1

section Deadlines

variable {cache : GenerationCache} {nowNs : UInt64}

/-- No time that is computed for a cached entry wraps, also where it is rounded up. -/
def TimesFit (cache : GenerationCache) : Prop :=
  ∀ node ∈ cache.listed, (cache.entries node).lastUpdateNs.toNat +
    cache.cfg.genTimeoutMs.toNat * 1000000 + 999999 < 2 ^ 64

theorem deadlineNs_toNat {node : Nat} (fits : TimesFit cache) (mem : node ∈ cache.listed) :
    (deadlineNs cache node).toNat =
      (cache.entries node).lastUpdateNs.toNat + cache.cfg.genTimeoutMs.toNat * 1000000 := by
  have bound := fits node mem
  have million : (1000000 : UInt64).toNat = 1000000 := rfl
  unfold deadlineNs
  rw [UInt64.toNat_add, UInt64.toNat_mul, UInt32.toNat_toUInt64, million]
  omega

theorem foldl_earlierDeadline (nodes : List Nat) (start : UInt64) :
    nodes.foldl (earlierDeadline cache) start = start ∨
      ∃ node ∈ nodes, nodes.foldl (earlierDeadline cache) start = deadlineNs cache node := by
  induction nodes generalizing start with
  | nil => exact Or.inl rfl
  | cons node rest ih =>
    rw [List.foldl_cons]
    rcases ih (earlierDeadline cache start node) with same | ⟨other, mem, found⟩
    · rw [same]
      unfold earlierDeadline
      split
      · exact Or.inr ⟨node, List.mem_cons_self, rfl⟩
      · exact Or.inl rfl
    · exact Or.inr ⟨other, List.mem_cons_of_mem _ mem, found⟩

theorem earliestDeadline_mem {nodes : List Nat} (cached : Cached cache nodes)
    (fits : TimesFit cache) (ne : cache.count ≠ 0) :
    ∃ node ∈ cache.listed, generationCacheEarliestDeadlineNs cache = deadlineNs cache node ∧
      0 < (deadlineNs cache node).toNat := by
  have pos : 0 < cache.cfg.genTimeoutMs.toNat := by
    refine Nat.pos_of_ne_zero fun none => cached.timed ?_
    exact UInt32.toNat_inj.mp none
  have set : ∀ node ∈ cache.listed, 0 < (deadlineNs cache node).toNat := by
    intro node mem
    rw [deadlineNs_toNat fits mem]
    omega
  unfold generationCacheEarliestDeadlineNs
  rw [if_neg (not_or.mpr ⟨ne, cached.timed⟩)]
  have listed_eq : cache.listed = nodes := cached.walk_next
  rw [listed_eq] at set ⊢
  cases nodes with
  | nil => exact absurd cached.counted ne
  | cons first rest =>
    have start : earlierDeadline cache 0 first = deadlineNs cache first := if_pos (Or.inl rfl)
    rw [List.foldl_cons, start]
    rcases foldl_earlierDeadline rest (deadlineNs cache first) with same | ⟨node, mem, found⟩
    · exact ⟨first, List.mem_cons_self, same, set first List.mem_cons_self⟩
    · exact ⟨node, List.mem_cons_of_mem _ mem, found, set node (List.mem_cons_of_mem _ mem)⟩

theorem lt_deadlineNs {node : Nat} (timeout : cache.cfg.genTimeoutMs ≠ 0) (fits : TimesFit cache)
    (mem : node ∈ cache.listed) (running : entryTimedOut cache node nowNs = false) :
    nowNs < deadlineNs cache node := by
  rw [UInt64.lt_iff_toNat_lt, deadlineNs_toNat fits mem]
  unfold entryTimedOut at running
  rw [if_neg timeout] at running
  split at running
  next earlier =>
    rw [UInt64.lt_iff_toNat_lt] at earlier
    omega
  next later =>
    rw [UInt64.not_lt] at later
    have short := of_decide_eq_false running
    rw [UInt64.toNat_sub_of_le _ _ later] at short
    omega

theorem pollTimeout_spec (ne : cache.count ≠ 0)
    (set : 0 < (generationCacheEarliestDeadlineNs cache).toNat)
    (fits : (generationCacheEarliestDeadlineNs cache).toNat + 999999 < 2 ^ 64) (emptyPollMs : Int) :
    (generationCachePollTimeoutMs cache nowNs emptyPollMs = 0 ↔
        generationCacheEarliestDeadlineNs cache ≤ nowNs) ∧
      (nowNs < generationCacheEarliestDeadlineNs cache →
        nowNs.toNat + generationCachePollTimeoutMs cache nowNs emptyPollMs * 1000000 <
          (generationCacheEarliestDeadlineNs cache).toNat + 1000000) := by
  unfold generationCachePollTimeoutMs
  generalize generationCacheEarliestDeadlineNs cache = deadline at set fits ⊢
  have nonzero : deadline ≠ 0 := by
    rintro rfl
    cases set
  rw [if_neg ne, if_neg nonzero]
  split
  next due => exact ⟨⟨fun _ => due, fun _ => rfl⟩, fun early => absurd early (UInt64.not_lt.mpr due)⟩
  rename_i early
  rw [UInt64.not_le] at early
  have below := UInt64.lt_iff_toNat_lt.mp early
  have ms_eq : ((deadline - nowNs + 999999) / 1000000).toNat =
      (deadline.toNat - nowNs.toNat + 999999) / 1000000 := by
    rw [UInt64.toNat_div, UInt64.toNat_add, UInt64.toNat_sub_of_le _ _ (UInt64.le_of_lt early)]
    rw [Nat.mod_eq_of_lt (by change _ + 999999 < _; omega)]
    rfl
  have pos : (deadline - nowNs + 999999) / 1000000 ≠ 0 := by
    intro zero
    rw [zero] at ms_eq
    change 0 = _ at ms_eq
    omega
  rw [if_neg pos, ms_eq]
  have notDue : ¬deadline ≤ nowNs := UInt64.not_le.mpr early
  constructor
  · refine ⟨fun zero => ?_, fun due => absurd due notDue⟩
    split_ifs at zero <;> omega
  · intro _
    split_ifs <;> omega

end Deadlines

section Exact

variable {cache : GenerationCache} {nodes : List Nat} {nowNs : UInt64}

def ExpiresExactly (cache after : GenerationCache) (nowNs : UInt64) (flowId : UInt32) : Prop :=
  after.entries = cache.entries ∧ after.listed = cache.listed.filter fun node =>
    !(entryTimedOut cache node nowNs && decide ((cache.entries node).key.flowId = flowId))

theorem toInt32_neg_iff (flowId : UInt32) : flowId.toInt32 < 0 ↔ 2 ^ 31 ≤ flowId.toNat := by
  rw [Int32.lt_iff_toInt_lt]
  change flowId.toBitVec.toInt < 0 ↔ 2 ^ 31 ≤ flowId.toBitVec.toNat
  rw [BitVec.toInt_eq_toNat_cond]
  have bound := flowId.toBitVec.isLt
  split <;> omega

theorem filter_eq_iff {test other : Nat → Bool} :
    nodes.filter test = nodes.filter other ↔ ∀ node ∈ nodes, test node = other node := by
  refine ⟨fun same node mem => ?_, List.filter_congr⟩
  have either : node ∈ nodes.filter test ↔ node ∈ nodes.filter other := by rw [same]
  rw [List.mem_filter, List.mem_filter, and_iff_right mem, and_iff_right mem] at either
  exact Bool.eq_iff_iff.mpr either

theorem expiresExactly_iff (cached : Cached cache nodes) (nowNs : UInt64) (flowId : UInt32) :
    ExpiresExactly cache (expireForEnd cache nowNs flowId) nowNs flowId ↔
      flowId.toNat < 2 ^ 31 ∨ ∀ node ∈ cache.listed, entryTimedOut cache node nowNs = true →
        (cache.entries node).key.flowId = flowId := by
  have shrinks := expireOnePass_shrinks cached nowNs flowId.toInt32
  have before : cache.listed = nodes := cached.walk_next
  have after : (expireForEnd cache nowNs flowId).listed = _ := shrinks.cached.walk_next
  have entries : (expireForEnd cache nowNs flowId).entries = cache.entries :=
    shrinks.removes.entries_eq
  have back : flowId.toInt32.toUInt32 = flowId := rfl
  unfold ExpiresExactly
  rw [after, before, and_iff_right entries]
  unfold unexpired
  rw [filter_eq_iff]
  unfold expires
  rw [back]
  rcases Nat.lt_or_ge flowId.toNat (2 ^ 31) with small | large
  · have filtered : ¬flowId.toInt32 < 0 := fun negative =>
      Nat.not_le.mpr small ((toInt32_neg_iff flowId).mp negative)
    refine ⟨fun _ => Or.inl small, fun _ node _ => ?_⟩
    rw [decide_eq_false filtered, Bool.false_or, Bool.and_comm]
    simp [eq_comm]
  · rw [or_iff_right (Nat.not_lt.mpr large), decide_eq_true ((toInt32_neg_iff flowId).mpr large)]
    refine forall₂_congr fun node _ => ?_
    cases entryTimedOut cache node nowNs <;> simp

end Exact

/-- For an END of a flow the relay removes exactly the entries of that flow that timed out if and
only if the flow id is below `2 ^ 31` or no other flow has such an entry: a larger id is a negative
filter, which stands for all flows.  After an expiry over all flows the earliest deadline is ahead,
and the poll timeout is zero exactly when it has come and else less than a millisecond too long. -/
theorem end_expiry_exact_iff (cfg : Option GenerationCacheConfig) (calls : List CacheCall)
    (nowNs : UInt64) (flowId : UInt32) :
    (ExpiresExactly (runCache cfg calls) (expireForEnd (runCache cfg calls) nowNs flowId) nowNs
        flowId ↔
      flowId.toNat < 2 ^ 31 ∨ ∀ node ∈ (runCache cfg calls).listed,
        entryTimedOut (runCache cfg calls) node nowNs = true →
          ((runCache cfg calls).entries node).key.flowId = flowId) ∧
    (TimesFit (runCache cfg calls) →
      ((generationCacheExpire (runCache cfg calls) nowNs (-1)).1.count ≠ 0 →
        nowNs < generationCacheEarliestDeadlineNs
          (generationCacheExpire (runCache cfg calls) nowNs (-1)).1) ∧
      ((runCache cfg calls).count ≠ 0 → ∀ emptyPollMs : Int,
        (generationCachePollTimeoutMs (runCache cfg calls) nowNs emptyPollMs = 0 ↔
          generationCacheEarliestDeadlineNs (runCache cfg calls) ≤ nowNs) ∧
        (nowNs < generationCacheEarliestDeadlineNs (runCache cfg calls) →
          nowNs.toNat + generationCachePollTimeoutMs (runCache cfg calls) nowNs emptyPollMs *
              1000000 <
            (generationCacheEarliestDeadlineNs (runCache cfg calls)).toNat + 1000000))) := by
  obtain ⟨nodes, cached⟩ := runCache_cached cfg calls
  generalize runCache cfg calls = cache at cached ⊢
  refine ⟨expiresExactly_iff cached nowNs flowId, fun fits => ⟨fun nonempty => ?_, ?_⟩⟩
  · have shrinks := expireOnePass_shrinks cached nowNs (-1)
    change Shrinks cache (generationCacheExpire cache nowNs (-1)).1 nodes _ at shrinks
    generalize (generationCacheExpire cache nowNs (-1)).1 = expired at shrinks nonempty ⊢
    have listed_eq : cache.listed = nodes := cached.walk_next
    have expired_eq : expired.listed = _ := shrinks.cached.walk_next
    have fits' : TimesFit expired := by
      intro node mem
      rw [shrinks.removes.cfg_eq, shrinks.removes.entries_eq]
      exact fits node (listed_eq ▸ shrinks.sublist.subset (expired_eq ▸ mem))
    obtain ⟨node, mem, earliest, -⟩ := earliestDeadline_mem shrinks.cached fits' nonempty
    rw [earliest]
    refine lt_deadlineNs shrinks.cached.timed fits' mem ?_
    have same : entryTimedOut expired node nowNs = entryTimedOut cache node nowNs := by
      unfold entryTimedOut
      rw [shrinks.removes.cfg_eq, shrinks.removes.entries_eq]
    rw [expired_eq] at mem
    have fresh := (List.mem_filter.mp mem).2
    rw [same]
    simpa [expires] using fresh
  · intro nonempty emptyPollMs
    obtain ⟨node, mem, earliest, set⟩ := earliestDeadline_mem cached fits nonempty
    have bound := fits node mem
    rw [← deadlineNs_toNat fits mem, ← earliest] at bound
    exact pollTimeout_spec nonempty (earliest ▸ set) bound emptyPollMs

def smallCache : GenerationCacheConfig := ⟨1, 2, 2, 4096⟩

def oneShard : List CacheCall :=
  [.insert
    { type := WIRE_TYPE_DATA, finalDst := 0, ttl := 1, flowId := 1, blockId := 0, shardCount := 1 }
    (List.replicate WIRE_HEADER_SIZE 0) 0 ⟨true, true⟩]

def twoShards : List CacheCall :=
  oneShard ++ [.insert
    { type := WIRE_TYPE_DATA, finalDst := 0, ttl := 1, flowId := 2, blockId := 0, shardCount := 1 }
    (List.replicate WIRE_HEADER_SIZE 0) 500000 ⟨true, true⟩]

theorem end_expiry_exact_small :
    ExpiresExactly (runCache smallCache twoShards)
        (expireForEnd (runCache smallCache twoShards) 1000000 1) 1000000 1 ∧
      1000000 < generationCacheEarliestDeadlineNs
        (generationCacheExpire (runCache smallCache twoShards) 1000000 (-1)).1 ∧
      (generationCachePollTimeoutMs (runCache smallCache twoShards) 1000000 5 = 0 ↔
        generationCacheEarliestDeadlineNs (runCache smallCache twoShards) ≤ 1000000) := by
  obtain ⟨exactly, times⟩ := end_expiry_exact_iff smallCache twoShards 1000000 1
  have fits : TimesFit (runCache smallCache twoShards) := by
    unfold TimesFit
    decide +kernel
  exact ⟨exactly.mpr (Or.inl (by decide)), (times fits).1 (by decide +kernel),
    ((times fits).2 (by decide +kernel) 5).1⟩

/-- The END of a flow with a large id removes the generation of flow 1. -/
theorem large_id_expires_others :
    ¬ExpiresExactly (runCache smallCache oneShard)
      (expireForEnd (runCache smallCache oneShard) 1000000 0x80000000) 1000000 0x80000000 := by
  intro exactly
  exact absurd exactly.2 (by decide +kernel)

end MultiFlow.Relay
