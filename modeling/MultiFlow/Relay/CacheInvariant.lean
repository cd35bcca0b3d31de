import MultiFlow.Relay.GenerationCache
import MultiFlow.Lib.Transition

/-!
# What the generation cache always satisfies

The cache holds a list of entries with distinct keys.  The counters, the flow accounts and the
byte total are functions of that list, and every limit of the configuration is kept.
-/

namespace MultiFlow.Relay

open Function Lib Wire List

def GenerationEntry.presentSlots (entry : GenerationEntry) : Nat :=
  ∑ i ∈ Finset.range entry.shardCount.toNat, if (entry.slots i).present then 1 else 0

def GenerationEntry.storedBytes (entry : GenerationEntry) : Nat :=
  ∑ i ∈ Finset.range entry.shardCount.toNat,
    if (entry.slots i).present then (entry.slots i).len else 0

structure GenerationEntry.Sound (entry : GenerationEntry) : Prop where
  counted : entry.presentCount = entry.presentSlots
  sized : entry.bytes = entry.storedBytes
  ready : entry.state = .ready ↔ ∀ i < entry.shardCount.toNat, (entry.slots i).present = true

theorem presentSlots_eq_iff (entry : GenerationEntry) :
    entry.shardCount.toNat ≤ entry.presentSlots ↔
      ∀ i < entry.shardCount.toNat, (entry.slots i).present = true := by
  have counted : entry.presentSlots =
      ((Finset.range entry.shardCount.toNat).filter fun i => (entry.slots i).present = true).card := by
    rw [Finset.card_filter]
    rfl
  have bound := Finset.card_filter_le (Finset.range entry.shardCount.toNat)
    (fun i => (entry.slots i).present = true)
  rw [Finset.card_range] at bound
  constructor
  · intro _ i inside
    have all := Finset.card_filter_eq_iff.mp
      (le_antisymm (Finset.card_filter_le (Finset.range entry.shardCount.toNat)
        (fun i => (entry.slots i).present = true)) (by rw [Finset.card_range]; omega))
    exact all i (Finset.mem_range.mpr inside)
  · intro all
    rw [counted, Finset.filter_true_of_mem fun i inside => all i (Finset.mem_range.mp inside),
      Finset.card_range]

theorem newEntry_sound (hdr : WireHeader) (nowNs : UInt64) (fields : shardFieldsOk hdr = true) :
    (newEntry hdr nowNs).Sound := by
  have some_slot : 0 < hdr.shardCount.toNat := by
    have below := UInt16.lt_iff_toNat_lt.mp (of_decide_eq_true fields).2.2
    omega
  refine ⟨?_, ?_, ?_⟩
  · simp [newEntry, GenerationEntry.presentSlots]
  · simp [newEntry, GenerationEntry.storedBytes]
  constructor
  · intro ready
    cases ready
  · intro all
    exact absurd (all 0 some_slot) (by simp [newEntry])

theorem sum_fill (entry : GenerationEntry) (hdr : WireHeader) (dgram : List UInt8)
    (nowNs : UInt64) (weight : GenerationSlot → Nat)
    (inside : hdr.shardIndex.toNat < entry.shardCount.toNat)
    (nothing : weight (entry.slots hdr.shardIndex.toNat) = 0) :
    ∑ i ∈ Finset.range entry.shardCount.toNat, weight ((entry.fill hdr dgram nowNs).slots i) =
      ∑ i ∈ Finset.range entry.shardCount.toNat, weight (entry.slots i) +
        weight ⟨dgram, dgram.length, true⟩ := by
  have moved := sum_update weight entry.slots (Finset.mem_range.mpr inside)
    ⟨dgram, dgram.length, true⟩
  rw [nothing, Nat.add_zero] at moved
  exact moved

theorem fill_sound {entry : GenerationEntry} (sound : entry.Sound) (hdr : WireHeader)
    (dgram : List UInt8) (nowNs : UInt64) (inside : hdr.shardIndex.toNat < entry.shardCount.toNat)
    (absent : (entry.slots hdr.shardIndex.toNat).present = false) :
    (if (entry.fill hdr dgram nowNs).complete then
        { entry.fill hdr dgram nowNs with state := .ready }
      else entry.fill hdr dgram nowNs).Sound := by
  have counted : (entry.fill hdr dgram nowNs).presentCount =
      (entry.fill hdr dgram nowNs).presentSlots := by
    have grown := sum_fill entry hdr dgram nowNs (fun slot => if slot.present then 1 else 0)
      inside (by simp [absent])
    exact (congrArg (· + 1) sound.counted).trans grown.symm
  have sized : (entry.fill hdr dgram nowNs).bytes =
      (entry.fill hdr dgram nowNs).storedBytes := by
    have grown := sum_fill entry hdr dgram nowNs
      (fun slot => if slot.present then slot.len else 0) inside (by simp [absent])
    exact (congrArg (· + dgram.length) sound.sized).trans grown.symm
  have all_iff := presentSlots_eq_iff (entry.fill hdr dgram nowNs)
  rw [← counted] at all_iff
  split
  next complete =>
    exact ⟨counted, sized, iff_of_true rfl (all_iff.mp (of_decide_eq_true complete).1)⟩
  rename_i incomplete
  refine ⟨counted, sized, ?_⟩
  -- An entry that lacks a slot is not ready, and only the last slot makes it so.
  have not_ready : entry.state ≠ .ready := by
    intro ready
    have present := sound.ready.mp ready hdr.shardIndex.toNat inside
    rw [absent] at present
    cases present
  refine iff_of_false not_ready ?_
  intro all
  exact incomplete (decide_eq_true ⟨all_iff.mpr all, not_ready⟩)

/-- The active accounts are those of the flows that hold something, and count it. -/
structure Accounts (cache : GenerationCache) (held : UInt32 → Nat) : Prop where
  exact_ : ∀ i < cache.flowAccountCap, (cache.flowAccounts i).active = true →
    (cache.flowAccounts i).generationCount = held (cache.flowAccounts i).flowId ∧
      0 < held (cache.flowAccounts i).flowId
  distinct : ∀ i < cache.flowAccountCap, ∀ j < cache.flowAccountCap,
    (cache.flowAccounts i).active = true → (cache.flowAccounts j).active = true →
      (cache.flowAccounts i).flowId = (cache.flowAccounts j).flowId → i = j
  covered : ∀ flowId, 0 < held flowId → ∃ i < cache.flowAccountCap,
    (cache.flowAccounts i).active = true ∧ (cache.flowAccounts i).flowId = flowId

section AccountFacts

variable {cache : GenerationCache} {held : UInt32 → Nat} {flowId : UInt32} {i : Nat}

theorem findFlowAccount_some (found : findFlowAccount cache flowId = some i) :
    i < cache.flowAccountCap ∧ (cache.flowAccounts i).active = true ∧
      (cache.flowAccounts i).flowId = flowId := by
  obtain ⟨inRange, passes⟩ := firstIndex_some _ found
  simpa using And.intro inRange passes

theorem findFlowAccount_none (missing : findFlowAccount cache flowId = none) :
    ∀ j < cache.flowAccountCap, (cache.flowAccounts j).active = true →
      (cache.flowAccounts j).flowId ≠ flowId := by
  intro j inRange active same
  have fails := firstIndex_none _ missing j inRange
  simp [active, same] at fails

variable (accounts : Accounts cache held)
include accounts

theorem Accounts.none_held (missing : findFlowAccount cache flowId = none) : held flowId = 0 := by
  by_contra holds
  obtain ⟨j, inRange, active, same⟩ := accounts.covered flowId (Nat.pos_of_ne_zero holds)
  exact findFlowAccount_none missing j inRange active same

theorem flowGenerationCount_eq : flowGenerationCount cache flowId = held flowId := by
  unfold flowGenerationCount
  cases search : findFlowAccount cache flowId with
  | none => exact (accounts.none_held search).symm
  | some i =>
    obtain ⟨inRange, active, rfl⟩ := findFlowAccount_some search
    exact (accounts.exact_ i inRange active).1

theorem Accounts.replace {account : GenerationCacheFlowAccount} {number : Nat}
    (inRange : i < cache.flowAccountCap)
    (others : ∀ j < cache.flowAccountCap, j ≠ i → (cache.flowAccounts j).active = true →
      (cache.flowAccounts j).flowId ≠ flowId)
    (own : (cache.flowAccounts i).active = true → (cache.flowAccounts i).flowId = flowId)
    (closed : account.active = false → number = 0) (opened : account.active = true →
      account.flowId = flowId ∧ account.generationCount = number ∧ 0 < number) :
    Accounts (setAccount cache i account) (update held flowId number) := by
  have at_i : (setAccount cache i account).flowAccounts i = account := update_self _ _ _
  have elsewhere : ∀ j, j ≠ i →
      (setAccount cache i account).flowAccounts j = cache.flowAccounts j :=
    fun j other => update_of_ne other _ _
  constructor
  · intro j inside active
    by_cases same : j = i
    · rw [same, at_i] at active ⊢
      obtain ⟨flow_eq, count_eq, pos⟩ := opened active
      rw [flow_eq, update_self]
      exact ⟨count_eq, pos⟩
    · rw [elsewhere j same] at active ⊢
      rw [update_of_ne (others j inside same active)]
      exact accounts.exact_ j inside active
  · refine update_distinct (·.active = true) GenerationCacheFlowAccount.flowId accounts.distinct ?_
    intro other otherIn apart active new same
    exact others other otherIn apart active (same.trans (opened new).1)
  intro other holds
  by_cases same : other = flowId
  · subst same
    rw [update_self] at holds
    refine ⟨i, inRange, ?_⟩
    rw [at_i]
    cases active : account.active with
    | false => exact absurd (closed active) holds.ne'
    | true => exact ⟨rfl, (opened active).1⟩
  · rw [update_of_ne same] at holds
    obtain ⟨j, inside, active, rfl⟩ := accounts.covered other holds
    have apart : j ≠ i := by
      rintro rfl
      exact same (own active)
    exact ⟨j, inside, by rw [elsewhere j apart]; exact active,
      by rw [elsewhere j apart]⟩

theorem accountRemoveGeneration_accounts :
    Accounts (accountRemoveGeneration cache flowId) (update held flowId (held flowId - 1)) := by
  unfold accountRemoveGeneration
  cases search : findFlowAccount cache flowId with
  | none =>
    rw [accounts.none_held search, update_eq_self_iff.mpr (accounts.none_held search).symm]
    exact accounts
  | some i =>
    obtain ⟨inRange, active, own⟩ := findFlowAccount_some search
    obtain ⟨count_eq, pos⟩ := accounts.exact_ i inRange active
    rw [own] at count_eq pos
    refine accounts.replace inRange ?_ (fun _ => own) ?_ ?_
    · intro j inside other activeToo same
      exact other (accounts.distinct j inside i inRange activeToo active (same.trans own.symm))
    · unfold releaseEmptyFlowAccount
      split
      next empty =>
        intro _
        have zero : (cache.flowAccounts i).generationCount - 1 = 0 := empty
        omega
      next =>
        intro closed
        have active' : (cache.flowAccounts i).active = false := closed
        rw [active] at active'
        cases active'
    · unfold releaseEmptyFlowAccount
      split
      next =>
        intro opened
        cases opened
      next ne =>
        intro _
        have positive' : ¬(cache.flowAccounts i).generationCount - 1 = 0 := ne
        exact ⟨own, congrArg (· - 1) count_eq, by omega⟩

theorem accountAddGeneration_accounts {added : GenerationCache}
    (ok : accountAddGeneration cache flowId = some added) :
    Accounts added (update held flowId (held flowId + 1)) := by
  unfold accountAddGeneration getOrCreateFlowAccount at ok
  cases search : findFlowAccount cache flowId with
  | some i =>
    obtain ⟨inRange, active, own⟩ := findFlowAccount_some search
    obtain ⟨count_eq, -⟩ := accounts.exact_ i inRange active
    rw [search] at ok
    obtain rfl := Option.some.inj ok
    refine accounts.replace inRange ?_ (fun _ => own) ?_ ?_
    · intro j inside other activeToo same
      exact other (accounts.distinct j inside i inRange activeToo active (same.trans own.symm))
    · intro closed
      have active' : (cache.flowAccounts i).active = false := closed
      rw [active] at active'
      cases active'
    · intro _
      refine ⟨own, ?_, Nat.succ_pos _⟩
      rw [own] at count_eq
      exact congrArg (· + 1) count_eq
  | none =>
    rw [search] at ok
    cases free : findFreeFlowAccount cache with
    | none =>
      rw [free] at ok
      cases ok
    | some i =>
      rw [free] at ok
      obtain rfl := Option.some.inj ok
      obtain ⟨inRange, passes⟩ := firstIndex_some _ free
      have unused : (cache.flowAccounts i).active = false := by simpa using passes
      have written : setAccount (setAccount cache i ⟨true, flowId, 0⟩) i
          { (setAccount cache i ⟨true, flowId, 0⟩).flowAccounts i with
            generationCount :=
              ((setAccount cache i ⟨true, flowId, 0⟩).flowAccounts i).generationCount + 1 } =
          setAccount cache i ⟨true, flowId, 1⟩ := by
        simp [setAccount]
      change Accounts (setAccount (setAccount cache i ⟨true, flowId, 0⟩) i _) _
      rw [written, accounts.none_held search]
      refine accounts.replace inRange ?_ ?_ ?_ ?_
      · intro j inside _ active
        exact findFlowAccount_none search j inside active
      · intro active
        rw [unused] at active
        cases active
      · intro closed
        cases closed
      · exact fun _ => ⟨rfl, rfl, Nat.one_pos⟩

end AccountFacts

def heldBy (cache : GenerationCache) (nodes : List Nat) (flowId : UInt32) : Nat :=
  nodes.countP fun node => (cache.entries node).key.flowId = flowId

/-- The cache holds exactly these entries, and everything it keeps beside them agrees. -/
structure Cached (cache : GenerationCache) (nodes : List Nat) : Prop where
  spells : cache.lru.Spells nodes
  capacity : cache.flowAccountCap = cache.cfg.maxGensGlobal
  allocated : ∀ node ∈ nodes, node < cache.heap
  keys : (nodes.map fun node => (cache.entries node).key).Nodup
  sound : ∀ node ∈ nodes, (cache.entries node).Sound
  counted : cache.count = nodes.length
  bytes : cache.stats.genCachedBytesCurrent =
    (nodes.map fun node => (cache.entries node).bytes).sum
  accounts : Accounts cache (heldBy cache nodes)
  countLimit : nodes.length ≤ cache.cfg.maxGensGlobal
  flowLimit : ∀ flowId, heldBy cache nodes flowId ≤ cache.cfg.maxGensPerFlow
  byteLimit : cache.stats.genCachedBytesCurrent ≤ cache.cfg.maxCacheBytes
  timed : cache.cfg.genTimeoutMs ≠ 0

theorem Accounts.congr {cache after : GenerationCache} {held heldAfter : UInt32 → Nat}
    (accounts : Accounts cache held) (table_eq : after.flowAccounts = cache.flowAccounts)
    (cap_eq : after.flowAccountCap = cache.flowAccountCap) (held_eq : heldAfter = held) :
    Accounts after heldAfter := by
  obtain ⟨_⟩ := accounts
  subst held_eq
  constructor
  all_goals rwa [table_eq, cap_eq]

theorem Cached.restat {cache : GenerationCache} {nodes : List Nat} (cached : Cached cache nodes)
    (stats : GenerationCacheStats)
    (same : stats.genCachedBytesCurrent = cache.stats.genCachedBytesCurrent) :
    Cached { cache with stats } nodes :=
  { cached with
    bytes := same.trans cached.bytes
    accounts := cached.accounts.congr rfl rfl rfl
    byteLimit := same.trans_le cached.byteLimit }

theorem accountRemoveGeneration_eq (cache : GenerationCache) (flowId : UInt32) :
    ∃ table, accountRemoveGeneration cache flowId = { cache with flowAccounts := table } := by
  unfold accountRemoveGeneration
  split
  · exact ⟨cache.flowAccounts, rfl⟩
  · exact ⟨_, rfl⟩

theorem accountAddGeneration_eq {cache added : GenerationCache} {flowId : UInt32}
    (ok : accountAddGeneration cache flowId = some added) :
    ∃ table, added = { cache with flowAccounts := table } := by
  unfold accountAddGeneration getOrCreateFlowAccount at ok
  cases search : findFlowAccount cache flowId with
  | some =>
    rw [search] at ok
    obtain rfl := Option.some.inj ok
    exact ⟨_, rfl⟩
  | none =>
    rw [search] at ok
    cases free : findFreeFlowAccount cache with
    | none =>
      rw [free] at ok
      cases ok
    | some =>
      rw [free] at ok
      obtain rfl := Option.some.inj ok
      exact ⟨_, rfl⟩

section Removal

variable {cache : GenerationCache} {before after : List Nat} {entry : Nat}

theorem heldBy_insert (cache : GenerationCache) (before after : List Nat) (entry : Nat) :
    heldBy cache (before ++ entry :: after) =
      update (heldBy cache (before ++ after)) (cache.entries entry).key.flowId
        (heldBy cache (before ++ after) (cache.entries entry).key.flowId + 1) := by
  funext flowId
  unfold heldBy
  by_cases same : flowId = (cache.entries entry).key.flowId
  · subst same
    simp only [countP_append, countP_cons, decide_true, if_true, update_self]
    omega
  · have other : ¬(cache.entries entry).key.flowId = flowId := fun agree => same agree.symm
    simp [countP_append, update_of_ne same, other]

structure Removes (cache after : GenerationCache) : Prop where
  cfg_eq : after.cfg = cache.cfg
  entries_eq : after.entries = cache.entries
  heap_eq : after.heap = cache.heap

theorem cacheRemoveEntry_removes (cache : GenerationCache) (entry : Nat)
    (reason : CacheRemoveReason) : Removes cache (cacheRemoveEntry cache entry reason) := by
  obtain ⟨_, table_eq⟩ :=
    accountRemoveGeneration_eq (unlinkEntry cache entry) (cache.entries entry).key.flowId
  unfold cacheRemoveEntry
  rw [table_eq]
  exact ⟨rfl, rfl, rfl⟩

theorem countRemoval_bytes (stats : GenerationCacheStats) (reason : CacheRemoveReason) :
    (countRemoval stats reason).genCachedBytesCurrent = stats.genCachedBytesCurrent := by
  cases reason <;> rfl

theorem cacheRemoveEntry_cached (cached : Cached cache (before ++ entry :: after))
    (reason : CacheRemoveReason) :
    Cached (cacheRemoveEntry cache entry reason) (before ++ after) := by
  have smaller : (before ++ after).Sublist (before ++ entry :: after) := by simp
  have total : cache.stats.genCachedBytesCurrent =
      ((before ++ after).map fun node => (cache.entries node).bytes).sum +
        (cache.entries entry).bytes := by
    rw [cached.bytes]
    simp only [map_append, map_cons, sum_append, sum_cons]
    omega
  have left : (unlinkEntry cache entry).stats.genCachedBytesCurrent =
      ((before ++ after).map fun node => (cache.entries node).bytes).sum := by
    change (if (cache.entries entry).bytes ≤ cache.stats.genCachedBytesCurrent then _ else 0) = _
    rw [if_pos (by omega)]
    omega
  have held_eq := heldBy_insert cache before after entry
  have unlinked : Accounts (unlinkEntry cache entry) (heldBy cache (before ++ entry :: after)) :=
    cached.accounts.congr rfl rfl rfl
  have accounts : Accounts
      (accountRemoveGeneration (unlinkEntry cache entry) (cache.entries entry).key.flowId)
      (heldBy cache (before ++ after)) := by
    have removed : Accounts
        (accountRemoveGeneration (unlinkEntry cache entry) (cache.entries entry).key.flowId) _ :=
      accountRemoveGeneration_accounts unlinked
    rw [held_eq] at removed
    simpa using removed
  obtain ⟨_, table_eq⟩ :=
    accountRemoveGeneration_eq (unlinkEntry cache entry) (cache.entries entry).key.flowId
  unfold cacheRemoveEntry
  rw [table_eq] at accounts ⊢
  constructor
  · exact cached.spells.unlink
  · exact cached.capacity
  · exact fun node mem => cached.allocated node (smaller.subset mem)
  · exact cached.keys.sublist (smaller.map _)
  · exact fun node mem => cached.sound node (smaller.subset mem)
  · change cache.count - 1 = _
    rw [cached.counted]
    simp
  · rw [countRemoval_bytes]
    exact left
  · exact accounts.congr rfl rfl rfl
  · exact (smaller.length_le).trans cached.countLimit
  · intro flowId
    exact (smaller.countP_le).trans (cached.flowLimit flowId)
  · rw [countRemoval_bytes]
    have limit := cached.byteLimit
    rw [left]
    exact (by omega : _ ≤ cache.stats.genCachedBytesCurrent).trans limit
  · exact cached.timed

end Removal

structure Shrinks (cache after : GenerationCache) (nodes left : List Nat) : Prop where
  removes : Removes cache after
  cached : Cached after left
  sublist : left.Sublist nodes

theorem Shrinks.refl {cache : GenerationCache} {nodes : List Nat} (cached : Cached cache nodes) :
    Shrinks cache cache nodes nodes :=
  ⟨⟨rfl, rfl, rfl⟩, cached, List.Sublist.refl _⟩

theorem Shrinks.trans {cache mid after : GenerationCache} {nodes between left : List Nat}
    (first : Shrinks cache mid nodes between) (second : Shrinks mid after between left) :
    Shrinks cache after nodes left where
  removes :=
    ⟨second.removes.cfg_eq.trans first.removes.cfg_eq,
      second.removes.entries_eq.trans first.removes.entries_eq,
      second.removes.heap_eq.trans first.removes.heap_eq⟩
  cached := second.cached
  sublist := second.sublist.trans first.sublist

section Eviction

variable {cache : GenerationCache} {nodes before after : List Nat} {entry : Nat}

theorem cacheRemoveEntry_shrinks (cached : Cached cache (before ++ entry :: after))
    (reason : CacheRemoveReason) :
    Shrinks cache (cacheRemoveEntry cache entry reason) (before ++ entry :: after)
      (before ++ after) :=
  ⟨cacheRemoveEntry_removes cache entry reason, cacheRemoveEntry_cached cached reason, by simp⟩

variable (cached : Cached cache nodes)
include cached

theorem Cached.length_le_heap : nodes.length ≤ cache.heap := by
  have inside : nodes.toFinset ⊆ Finset.range cache.heap := by
    intro node mem
    exact Finset.mem_range.mpr (cached.allocated node (mem_toFinset.mp mem))
  have bound := Finset.card_le_card inside
  rwa [toFinset_card_of_nodup cached.spells.nodup, Finset.card_range] at bound

omit cached

def unexpired (cache : GenerationCache) (nowNs : UInt64) (flowIdFilter : Int32) : List Nat → List Nat :=
  List.filter fun node => !expires cache nowNs flowIdFilter node

theorem Removes.unexpired_eq {later : GenerationCache} (removes : Removes cache later) :
    unexpired later = unexpired cache := by
  unfold unexpired expires entryTimedOut
  rw [removes.cfg_eq, removes.entries_eq]

theorem expireFrom_shrinks (nowNs : UInt64) (flowIdFilter : Int32) (steps : Nat)
    (cached : Cached cache (before ++ after)) (removed : Nat) (enough : before.length ≤ steps) :
    Shrinks cache (expireFrom nowNs flowIdFilter steps before.getLast? cache removed).1
      (before ++ after) (unexpired cache nowNs flowIdFilter before ++ after) := by
  induction steps generalizing cache before after removed with
  | zero =>
    obtain rfl := length_eq_zero_iff.mp (Nat.le_zero.mp enough)
    exact .refl cached
  | succ _ ih =>
    rcases eq_nil_or_concat before with rfl | ⟨earlier, cur, rfl⟩
    · exact .refl cached
    rw [concat_eq_append] at cached enough ⊢
    have cached' : Cached cache (earlier ++ cur :: after) := by simpa using cached
    have prev_cur := (cached'.spells.around earlier cur after rfl).1
    rw [length_append, length_singleton] at enough
    rw [List.getLast?_append_cons, List.getLast?_singleton, append_assoc, singleton_append]
    unfold expireFrom
    rw [prev_cur]
    split
    next due =>
      have first := cacheRemoveEntry_shrinks cached' .timeout
      have rest := ih first.cached (removed + 1) (by omega)
      rw [first.removes.unexpired_eq] at rest
      simpa [unexpired, due] using first.trans rest
    next fresh =>
      have rest := ih cached' removed (by omega)
      simpa [unexpired, fresh] using rest

include cached

theorem expireOnePass_shrinks (nowNs : UInt64) (flowIdFilter : Int32) :
    Shrinks cache (expireOnePass cache nowNs flowIdFilter).1 nodes
      (unexpired cache nowNs flowIdFilter nodes) := by
  have whole : Cached cache (nodes ++ []) := by simpa using cached
  have shrinks := expireFrom_shrinks nowNs flowIdFilter cache.heap whole 0 cached.length_le_heap
  rw [append_nil, append_nil, ← cached.spells.tail_eq] at shrinks
  exact shrinks

theorem Cached.walk_next : follow cache.lru.next cache.heap cache.lru.head = nodes := by
  have whole : cache.lru.Spells ([] ++ nodes) := cached.spells
  rw [cached.spells.head_eq]
  exact whole.follow_next cached.length_le_heap

theorem Cached.walk_prev : follow cache.lru.prev cache.heap cache.lru.tail = nodes.reverse := by
  have whole : cache.lru.Spells (nodes ++ []) := by simpa using cached.spells
  rw [cached.spells.tail_eq]
  exact whole.follow_prev cached.length_le_heap

variable {found victim : Nat}

theorem Cached.findFromTail_some {test : Nat → Bool} (search : findFromTail cache test = some found) :
    found ∈ nodes ∧ test found = true := by
  unfold findFromTail at search
  rw [cached.walk_prev] at search
  exact ⟨mem_reverse.mp (mem_of_find?_eq_some search), List.find?_some search⟩

theorem Cached.tail_mem (last : cache.lru.tail = some found) : found ∈ nodes :=
  mem_of_getLast? (cached.spells.tail_eq ▸ last)

theorem Cached.roomVictim_mem {flowId : UInt32} (chosen : roomVictim cache flowId = some victim) :
    victim ∈ nodes := by
  unfold roomVictim at chosen
  rw [Option.or_eq_some_iff] at chosen
  rcases chosen with own | ⟨-, last⟩
  · split at own
    · exact (cached.findFromTail_some own).1
    · cases own
  · exact cached.tail_mem last

theorem remove_member (mem : entry ∈ nodes) (reason : CacheRemoveReason) :
    ∃ left, Shrinks cache (cacheRemoveEntry cache entry reason) nodes left ∧
      ∀ other ∈ nodes, other ≠ entry → other ∈ left := by
  obtain ⟨before, after, rfl⟩ := append_of_mem mem
  refine ⟨before ++ after, cacheRemoveEntry_shrinks cached reason, ?_⟩
  intro _ present apart
  simpa [apart] using present

omit cached in
theorem evictForRoom_shrinks (flowId : UInt32) (addBytes : Nat) (rounds : Nat)
    (cached : Cached cache nodes) :
    ∃ left, Shrinks cache (evictForRoom flowId addBytes rounds cache) nodes left := by
  induction rounds generalizing cache nodes with
  | zero => exact ⟨nodes, .refl cached⟩
  | succ _ ih =>
    unfold evictForRoom
    split
    · cases chosen : roomVictim cache flowId with
      | none => exact ⟨nodes, .refl cached⟩
      | some =>
        obtain ⟨_, first, -⟩ := remove_member cached (cached.roomVictim_mem chosen) .evict
        obtain ⟨left, rest⟩ := ih first.cached
        exact ⟨left, first.trans rest⟩
    · exact ⟨nodes, .refl cached⟩

theorem makeRoom_shrinks (flowId : UInt32) (addBytes : Nat) (nowNs : UInt64) :
    ∃ left, Shrinks cache (makeRoom cache flowId addBytes nowNs).1 nodes left := by
  have first := expireOnePass_shrinks cached nowNs (-1)
  obtain ⟨left, rest⟩ := evictForRoom_shrinks flowId addBytes
    ((expireOnePass cache nowNs (-1)).1.cfg.maxGensGlobal + 8) first.cached
  exact ⟨left, first.trans rest⟩

theorem Cached.growVictim_mem (chosen : growVictim cache entry = some victim) : victim ∈ nodes := by
  unfold growVictim at chosen
  split at chosen
  next last =>
    split at chosen
    · exact (cached.findFromTail_some chosen).1
    · obtain rfl := Option.some.inj chosen
      exact cached.tail_mem last
  next => cases chosen

omit cached

theorem evictToGrow_shrinks (len rounds : Nat) (cached : Cached cache nodes) (mem : entry ∈ nodes) :
    ∃ left, Shrinks cache (evictToGrow entry len rounds cache).1 nodes left ∧ entry ∈ left := by
  induction rounds generalizing cache nodes with
  | zero => exact ⟨nodes, .refl cached, mem⟩
  | succ _ ih =>
    unfold evictToGrow
    split
    · cases chosen : growVictim cache entry with
      | none => exact ⟨nodes, .refl cached, mem⟩
      | some =>
        dsimp only
        split
        · exact ⟨nodes, .refl cached, mem⟩
        rename_i apart
        obtain ⟨_, first, others⟩ :=
          remove_member cached (cached.growVictim_mem chosen) .evict
        have stays := others entry mem (Ne.symm apart)
        obtain ⟨left, rest, kept⟩ := ih first.cached stays
        exact ⟨left, first.trans rest, kept⟩
    · exact ⟨nodes, .refl cached, mem⟩

end Eviction

section Storing

variable {cache : GenerationCache} {nodes : List Nat} {address : Nat}

theorem lruTouch_cached (cached : Cached cache nodes) (mem : address ∈ nodes) :
    ∃ left, Cached (lruTouch cache address) left ∧ address ∈ left := by
  unfold lruTouch
  split
  · exact ⟨nodes, cached, mem⟩
  obtain ⟨before, after, rfl⟩ := append_of_mem mem
  have unlinked := cached.spells.unlink
  obtain ⟨notBefore, notAfter, -⟩ := cached.spells.sides
  have moved : (before ++ address :: after).Perm (address :: (before ++ after)) := perm_middle
  have held_eq : heldBy cache (address :: (before ++ after)) =
      heldBy cache (before ++ address :: after) :=
    funext fun _ => (moved.countP_eq _).symm
  refine ⟨address :: (before ++ after), ⟨?_, cached.capacity, ?_, ?_, ?_, ?_, ?_, ?_, ?_, ?_,
    cached.byteLimit, cached.timed⟩, mem_cons_self⟩
  · exact unlinked.pushFront (by simp [notBefore, notAfter])
  · exact fun node present => cached.allocated node (moved.mem_iff.mpr present)
  · exact (moved.map _).nodup_iff.mp cached.keys
  · exact fun node present => cached.sound node (moved.mem_iff.mpr present)
  · exact cached.counted.trans moved.length_eq
  · exact cached.bytes.trans (moved.map _).sum_eq
  · exact cached.accounts.congr rfl rfl held_eq
  · exact moved.length_eq ▸ cached.countLimit
  · intro flowId
    change heldBy cache (address :: (before ++ after)) flowId ≤ _
    rw [held_eq]
    exact cached.flowLimit flowId

theorem setEntry_key {entry : GenerationEntry} (same : entry.key = (cache.entries address).key)
    (node : Nat) : ((setEntry cache address entry).entries node).key = (cache.entries node).key := by
  by_cases at_address : node = address
  · rw [at_address, ← same]
    exact congrArg GenerationEntry.key (update_self _ _ _)
  · exact congrArg GenerationEntry.key (update_of_ne at_address _ _)

theorem sum_bytes_setEntry {entry : GenerationEntry} {len : Nat} (nodup : nodes.Nodup)
    (mem : address ∈ nodes) (grown : entry.bytes = (cache.entries address).bytes + len) :
    (nodes.map fun node => ((setEntry cache address entry).entries node).bytes).sum =
      (nodes.map fun node => (cache.entries node).bytes).sum + len := by
  obtain ⟨before, after, rfl⟩ := append_of_mem mem
  have others : ∀ part : List Nat, address ∉ part →
      (part.map fun node => ((setEntry cache address entry).entries node).bytes) =
        part.map fun node => (cache.entries node).bytes := by
    intro _ missing
    refine map_congr_left ?_
    intro node present
    have apart : node ≠ address := by
      rintro rfl
      exact missing present
    exact congrArg GenerationEntry.bytes (update_of_ne apart _ _)
  have self : ((setEntry cache address entry).entries address).bytes = entry.bytes :=
    congrArg GenerationEntry.bytes (update_self _ _ _)
  rw [nodup_append, nodup_cons] at nodup
  have notBefore : address ∉ before := fun present =>
    nodup.2.2 address present address mem_cons_self rfl
  simp only [map_append, map_cons, sum_append, sum_cons, others before notBefore,
    others after nodup.2.1.1, self, grown]
  omega

theorem commitSlot_cached (cached : Cached cache nodes) (mem : address ∈ nodes)
    (hdr : WireHeader) (dgram : List UInt8) (nowNs : UInt64)
    (inside : hdr.shardIndex.toNat < (cache.entries address).shardCount.toNat)
    (absent : ((cache.entries address).slots hdr.shardIndex.toNat).present = false)
    (fits : cache.stats.genCachedBytesCurrent + dgram.length ≤ cache.cfg.maxCacheBytes) :
    ∃ left, Cached (commitSlot cache address hdr dgram nowNs) left ∧ address ∈ left := by
  have filled := fill_sound (cached.sound address mem) hdr dgram nowNs inside absent
  unfold commitSlot
  dsimp only
  generalize entry_eq : (if ((cache.entries address).fill hdr dgram nowNs).complete then
      { (cache.entries address).fill hdr dgram nowNs with state := .ready }
    else (cache.entries address).fill hdr dgram nowNs) = entry at filled ⊢
  have key_eq : entry.key = (cache.entries address).key := by
    rw [← entry_eq]
    split <;> rfl
  have bytes_eq : entry.bytes = (cache.entries address).bytes + dgram.length := by
    rw [← entry_eq]
    split <;> rfl
  have keys_eq := setEntry_key key_eq
  have held_eq : heldBy (setEntry cache address entry) nodes = heldBy cache nodes := by
    funext flowId
    unfold heldBy
    simp only [keys_eq]
  refine lruTouch_cached ?_ mem
  refine { cached with keys := ?_, sound := ?_, bytes := ?_, accounts := ?_, flowLimit := ?_, byteLimit := fits }
  · simp only [keys_eq]
    exact cached.keys
  · intro node present
    by_cases at_address : node = address
    · rw [at_address, show (setEntry cache address entry).entries address = entry from
        update_self _ _ _]
      exact filled
    · rw [show (setEntry cache address entry).entries node = cache.entries node from
        update_of_ne at_address _ _]
      exact cached.sound node present
  · rw [sum_bytes_setEntry cached.spells.nodup mem bytes_eq, cached.bytes]
  · exact cached.accounts.congr rfl rfl held_eq
  · intro flowId
    change heldBy (setEntry cache address entry) nodes flowId ≤ _
    rw [held_eq]
    exact cached.flowLimit flowId

theorem storeSlot_cached (cached : Cached cache nodes) (mem : address ∈ nodes)
    (hdr : WireHeader) (dgram : List UInt8) (nowNs : UInt64) (copied : Bool) :
    ∃ left, Cached (storeSlot cache address hdr dgram nowNs copied).1 left ∧
      address ∈ left := by
  unfold storeSlot
  dsimp only
  split
  · exact ⟨nodes, cached.restat _ rfl, mem⟩
  rename_i inside
  split
  · exact ⟨nodes, cached.restat _ rfl, mem⟩
  rename_i absent
  obtain ⟨left, shrinks, stays⟩ := evictToGrow_shrinks dgram.length cache.count cached mem
  generalize evictToGrow address dgram.length cache.count cache = grown at shrinks ⊢
  obtain ⟨roomy, _⟩ := grown
  split
  · exact ⟨left, shrinks.cached.restat _ rfl, stays⟩
  rename_i fits
  have entries_eq : roomy.entries = cache.entries := shrinks.removes.entries_eq
  refine commitSlot_cached shrinks.cached stays hdr dgram nowNs ?_ ?_ ?_
  · rw [entries_eq]
    exact UInt16.lt_iff_toNat_lt.mp (UInt16.not_le.mp inside)
  · rw [entries_eq]
    exact Bool.eq_false_of_not_eq_true absent
  · exact Nat.le_of_not_lt fun exceeds => fits (Or.inr (Or.inl exceeds))

end Storing

section Insertion

variable {cache : GenerationCache} {nodes : List Nat}

variable (cached : Cached cache nodes)
include cached

theorem needsEviction_false {flowId : UInt32} {addBytes : Nat}
    (enough : needsEviction cache flowId addBytes = false) :
    heldBy cache nodes flowId < cache.cfg.maxGensPerFlow ∧
      nodes.length < cache.cfg.maxGensGlobal ∧
      cache.stats.genCachedBytesCurrent + addBytes ≤ cache.cfg.maxCacheBytes := by
  have limits := of_decide_eq_false enough
  rw [flowGenerationCount_eq cached.accounts, cached.counted] at limits
  omega

theorem findFreeFlowAccount_isSome (room : nodes.length < cache.cfg.maxGensGlobal) :
    (findFreeFlowAccount cache).isSome := by
  rw [Option.isSome_iff_ne_none]
  intro missing
  have active : ∀ i < cache.flowAccountCap, (cache.flowAccounts i).active = true := by
    intro i inRange
    simpa using firstIndex_none _ missing i inRange
  have injective : Set.InjOn (fun i => (cache.flowAccounts i).flowId)
      (Finset.range cache.flowAccountCap) := by
    intro i inside j insideToo same
    rw [Finset.mem_coe, Finset.mem_range] at inside insideToo
    exact cached.accounts.distinct i inside j insideToo (active i inside) (active j insideToo) same
  have held : Set.MapsTo (fun i => (cache.flowAccounts i).flowId)
      (Finset.range cache.flowAccountCap)
      (nodes.map fun node => (cache.entries node).key.flowId).toFinset := by
    intro i inside
    rw [Finset.mem_coe, Finset.mem_range] at inside
    have pos := (cached.accounts.exact_ i inside (active i inside)).2
    obtain ⟨node, mem, owns⟩ := countP_pos_iff.mp pos
    rw [Finset.mem_coe, mem_toFinset]
    exact mem_map.mpr ⟨node, mem, of_decide_eq_true owns⟩
  have bound := Finset.card_le_card_of_injOn _ held injective
  have few := toFinset_card_le (nodes.map fun node => (cache.entries node).key.flowId)
  rw [Finset.card_range, cached.capacity] at bound
  rw [length_map] at few
  omega

theorem accountAddGeneration_isSome (flowId : UInt32)
    (room : nodes.length < cache.cfg.maxGensGlobal) :
    (accountAddGeneration cache flowId).isSome := by
  unfold accountAddGeneration getOrCreateFlowAccount
  rw [Option.isSome_map]
  split
  · rfl
  · rw [Option.isSome_map]
    exact findFreeFlowAccount_isSome cached room

theorem linkEntry_cached {hdr : WireHeader} {accounted : GenerationCache}
    (ok : accountAddGeneration cache hdr.flowId = some accounted)
    (fields : shardFieldsOk hdr = true) (nowNs : UInt64) {addBytes : Nat}
    (enough : needsEviction cache hdr.flowId addBytes = false)
    (fresh : ∀ node ∈ nodes, (cache.entries node).key ≠ ⟨hdr.flowId, hdr.blockId⟩) :
    Cached (linkEntry accounted hdr nowNs) (cache.heap :: nodes) := by
  have accounts := accountAddGeneration_accounts cached.accounts ok
  obtain ⟨table, rfl⟩ := accountAddGeneration_eq ok
  obtain ⟨flowRoom, countRoom, -⟩ := needsEviction_false cached enough
  have notIn : cache.heap ∉ nodes := fun present => (cached.allocated _ present).false
  have self : (linkEntry { cache with flowAccounts := table } hdr nowNs).entries cache.heap =
      newEntry hdr nowNs := update_self _ _ _
  have others : ∀ node ∈ nodes,
      (linkEntry { cache with flowAccounts := table } hdr nowNs).entries node =
        cache.entries node := by
    intro node present
    have apart : node ≠ cache.heap := by
      rintro rfl
      exact notIn present
    exact update_of_ne apart _ _
  have held_eq : heldBy (linkEntry { cache with flowAccounts := table } hdr nowNs)
      (cache.heap :: nodes) =
        update (heldBy cache nodes) hdr.flowId (heldBy cache nodes hdr.flowId + 1) := by
    funext flowId
    have rest : (nodes.countP fun node => decide
        (((linkEntry { cache with flowAccounts := table } hdr nowNs).entries node).key.flowId =
          flowId)) = heldBy cache nodes flowId := by
      refine countP_congr ?_
      intro node present
      rw [others node present]
    unfold heldBy
    rw [countP_cons, self, rest]
    by_cases same : flowId = hdr.flowId
    · subst same
      rw [update_self]
      simp [newEntry, heldBy]
    · have apart : ¬hdr.flowId = flowId := fun agree => same agree.symm
      rw [update_of_ne same]
      simp [newEntry, heldBy, apart]
  constructor
  · exact cached.spells.pushFront notIn
  · exact cached.capacity
  · intro node present
    rcases mem_cons.mp present with rfl | earlier
    · exact Nat.lt_succ_self _
    · exact Nat.lt_succ_of_lt (cached.allocated node earlier)
  · rw [map_cons, nodup_cons, self,
      map_congr_left fun node present => congrArg GenerationEntry.key (others node present)]
    refine ⟨?_, cached.keys⟩
    intro present
    obtain ⟨node, mem, same⟩ := mem_map.mp present
    exact fresh node mem same
  · intro node present
    rcases mem_cons.mp present with rfl | earlier
    · rw [self]
      exact newEntry_sound hdr nowNs fields
    · rw [others node earlier]
      exact cached.sound node earlier
  · exact congrArg (· + 1) cached.counted
  · rw [map_cons, sum_cons, self,
      map_congr_left fun node present => congrArg GenerationEntry.bytes (others node present)]
    change cache.stats.genCachedBytesCurrent = 0 + _
    rw [cached.bytes, Nat.zero_add]
  · exact accounts.congr rfl rfl held_eq
  · exact countRoom
  · intro flowId
    rw [held_eq]
    by_cases same : flowId = hdr.flowId
    · rw [same, update_self]
      exact flowRoom
    · rw [update_of_ne same]
      exact cached.flowLimit flowId
  · exact cached.byteLimit
  · exact cached.timed

theorem rollbackEntry_cached {address : Nat} (mem : address ∈ nodes) (flowId : UInt32) :
    ∃ left, Cached (rollbackEntry cache address flowId) left := by
  have uncounted := cached.restat
    { cache.stats with
      genCreated := cache.stats.genCreated - 1
      perFlowCreated := update cache.stats.perFlowCreated (telemetryStatIndex flowId)
        (cache.stats.perFlowCreated (telemetryStatIndex flowId) - 1) } rfl
  obtain ⟨left, removed, -⟩ := remove_member uncounted mem .silent
  exact ⟨left, removed.cached⟩

theorem insertNew_cached (hdr : WireHeader) (dgram : List UInt8) (nowNs : UInt64)
    (memory : InsertMemory)
    (fresh : ∀ node ∈ nodes, (cache.entries node).key ≠ ⟨hdr.flowId, hdr.blockId⟩) :
    ∃ left, Cached (insertNew cache hdr dgram nowNs memory).1 left := by
  obtain ⟨between, shrinks⟩ := makeRoom_shrinks cached hdr.flowId dgram.length nowNs
  have answer : (makeRoom cache hdr.flowId dgram.length nowNs).2 =
      !needsEviction (makeRoom cache hdr.flowId dgram.length nowNs).1 hdr.flowId
        dgram.length := rfl
  unfold insertNew
  generalize makeRoom cache hdr.flowId dgram.length nowNs = res at shrinks answer ⊢
  obtain ⟨roomy, _⟩ := res
  dsimp only at shrinks answer ⊢
  split
  · exact ⟨between, shrinks.cached.restat _ rfl⟩
  rename_i allowed
  simp only [Bool.not_eq_true', not_or, Bool.not_eq_false] at allowed
  obtain ⟨roomFound, fields, -⟩ := allowed
  cases ok : accountAddGeneration roomy hdr.flowId with
  | none => exact ⟨between, shrinks.cached.restat _ rfl⟩
  | some accounted =>
    have heap_eq : accounted.heap = roomy.heap := by
      obtain ⟨_, rfl⟩ := accountAddGeneration_eq ok
      rfl
    have enough : needsEviction roomy hdr.flowId dgram.length = false := by
      rw [roomFound] at answer
      simpa using answer.symm
    have freshLeft : ∀ node ∈ between, (roomy.entries node).key ≠ ⟨hdr.flowId, hdr.blockId⟩ := by
      intro node present
      have entries_eq : roomy.entries = cache.entries := shrinks.removes.entries_eq
      rw [entries_eq]
      exact fresh node (shrinks.sublist.subset present)
    have linked := linkEntry_cached shrinks.cached ok fields nowNs enough freshLeft
    rw [← heap_eq] at linked
    obtain ⟨left, stored, mem⟩ :=
      storeSlot_cached linked mem_cons_self hdr dgram nowNs memory.copy
    dsimp only
    split
    · exact ⟨left, stored⟩
    · exact rollbackEntry_cached stored mem hdr.flowId

theorem generationCacheInsert_cached (hdr : WireHeader) (dgram : List UInt8) (nowNs : UInt64)
    (memory : InsertMemory) :
    ∃ left, Cached (generationCacheInsert cache hdr dgram nowNs memory).1 left := by
  unfold generationCacheInsert
  split
  · exact ⟨nodes, cached⟩
  split
  · exact ⟨nodes, cached.restat _ rfl⟩
  have shrinks := expireOnePass_shrinks cached nowNs (-1)
  dsimp only
  cases search : findEntry (expireOnePass cache nowNs (-1)).1 hdr.flowId hdr.blockId with
  | some =>
    unfold findEntry at search
    rw [shrinks.cached.walk_next] at search
    have mem := mem_of_find?_eq_some search
    dsimp only
    split
    · exact ⟨_, shrinks.cached.restat _ rfl⟩
    obtain ⟨left, stored, -⟩ :=
      storeSlot_cached shrinks.cached mem hdr dgram nowNs memory.copy
    exact ⟨left, stored⟩
  | none =>
    unfold findEntry at search
    rw [shrinks.cached.walk_next, List.find?_eq_none] at search
    refine insertNew_cached shrinks.cached hdr dgram nowNs memory ?_
    intro node present same
    exact search node present (by simp [same])

end Insertion

inductive CacheCall where
  | insert (hdr : WireHeader) (datagram : List UInt8) (nowNs : UInt64) (memory : InsertMemory)
  | expire (nowNs : UInt64) (flowIdFilter : Int32)

def cacheCall (cache : GenerationCache) : CacheCall → GenerationCache
  | .insert hdr datagram nowNs memory => (generationCacheInsert cache hdr datagram nowNs memory).1
  | .expire nowNs flowIdFilter => (generationCacheExpire cache nowNs flowIdFilter).1

def runCache (cfg : Option GenerationCacheConfig) (calls : List CacheCall) : GenerationCache :=
  calls.foldl cacheCall (generationCacheInit cfg)

theorem generationCacheInit_cached (cfg : Option GenerationCacheConfig) :
    Cached (generationCacheInit cfg) [] where
  spells := Links.spells_empty
  capacity := rfl
  allocated := by simp
  keys := nodup_nil
  sound := by simp
  counted := rfl
  bytes := rfl
  accounts := by
    refine ⟨?_, ?_, ?_⟩
    · intro _ _ active
      cases active
    · intro _ _ _ _ active
      cases active
    · intro _ holds
      cases holds
  countLimit := Nat.zero_le _
  flowLimit := fun _ => Nat.zero_le _
  byteLimit := Nat.zero_le _
  timed := by
    unfold generationCacheInit
    dsimp only
    split
    · decide
    · assumption

theorem runCache_cached (cfg : Option GenerationCacheConfig) (calls : List CacheCall) :
    ∃ nodes, Cached (runCache cfg calls) nodes := by
  have kept : ∀ cache nodes, Cached cache nodes → ∃ left, Cached (calls.foldl cacheCall cache) left := by
    induction calls with
    | nil => exact fun cache nodes cached => ⟨nodes, cached⟩
    | cons call _ ih =>
      intro _ _ cached
      cases call with
      | insert hdr dgram nowNs memory =>
        obtain ⟨left, after⟩ := generationCacheInsert_cached cached hdr dgram nowNs memory
        exact ih _ left after
      | expire nowNs flowIdFilter =>
        exact ih _ _ (expireOnePass_shrinks cached nowNs flowIdFilter).cached
  exact kept _ [] (generationCacheInit_cached cfg)

/-- After any calls the cache holds a list of entries with distinct keys, every counter and account
is what that list says, every limit is kept, and an account can be had whenever there is room. -/
theorem generation_cache_invariant (cfg : Option GenerationCacheConfig) (calls : List CacheCall) :
    ∃ nodes : List Nat, (runCache cfg calls).lru.Spells nodes ∧
      (nodes.map fun node => ((runCache cfg calls).entries node).key).Nodup ∧
      (runCache cfg calls).count = nodes.length ∧
      (runCache cfg calls).count ≤ (runCache cfg calls).cfg.maxGensGlobal ∧
      (∀ i < (runCache cfg calls).flowAccountCap,
        ((runCache cfg calls).flowAccounts i).active = true →
          ((runCache cfg calls).flowAccounts i).generationCount =
            heldBy (runCache cfg calls) nodes ((runCache cfg calls).flowAccounts i).flowId) ∧
      (∀ flowId, flowGenerationCount (runCache cfg calls) flowId =
          heldBy (runCache cfg calls) nodes flowId ∧
        flowGenerationCount (runCache cfg calls) flowId ≤ (runCache cfg calls).cfg.maxGensPerFlow) ∧
      (∀ flowId addBytes nowNs, (makeRoom (runCache cfg calls) flowId addBytes nowNs).2 = true →
          (accountAddGeneration (makeRoom (runCache cfg calls) flowId addBytes nowNs).1
            flowId).isSome) ∧
      (runCache cfg calls).stats.genCachedBytesCurrent =
        (nodes.map fun node => ((runCache cfg calls).entries node).storedBytes).sum ∧
      (runCache cfg calls).stats.genCachedBytesCurrent ≤ (runCache cfg calls).cfg.maxCacheBytes ∧
      ∀ node ∈ nodes, ((runCache cfg calls).entries node).presentCount =
            ((runCache cfg calls).entries node).presentSlots ∧
          (((runCache cfg calls).entries node).state = .ready ↔
            ∀ i < ((runCache cfg calls).entries node).shardCount.toNat,
              (((runCache cfg calls).entries node).slots i).present = true) := by
  obtain ⟨nodes, cached⟩ := runCache_cached cfg calls
  refine ⟨nodes, cached.spells, cached.keys, cached.counted, cached.counted ▸ cached.countLimit,
    ?_, ?_, ?_, ?_, cached.byteLimit, ?_⟩
  · exact fun i inRange active => (cached.accounts.exact_ i inRange active).1
  · intro flowId
    have counted : flowGenerationCount (runCache cfg calls) flowId =
        heldBy (runCache cfg calls) nodes flowId := flowGenerationCount_eq cached.accounts
    exact ⟨counted, counted ▸ cached.flowLimit flowId⟩
  · intro flowId addBytes nowNs fits
    obtain ⟨_, shrinks⟩ := makeRoom_shrinks cached flowId addBytes nowNs
    have enough : needsEviction (makeRoom (runCache cfg calls) flowId addBytes nowNs).1 flowId
        addBytes = false := by
      have answer : (!needsEviction (makeRoom (runCache cfg calls) flowId addBytes nowNs).1 flowId
        addBytes) = true := fits
      simpa using answer
    exact accountAddGeneration_isSome shrinks.cached flowId
      (needsEviction_false shrinks.cached enough).2.1
  · rw [cached.bytes]
    exact congrArg List.sum
      (List.map_congr_left fun node member => (cached.sound node member).sized)
  · exact fun node member => ⟨(cached.sound node member).counted, (cached.sound node member).ready⟩

end MultiFlow.Relay
