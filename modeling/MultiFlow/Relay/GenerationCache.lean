import MultiFlow.Lib.LinkedList
import MultiFlow.Lib.Search
import MultiFlow.Wire.Header

/-!
# The generation cache of the relay

`generation_cache.c`: shards of recent generations, kept in a doubly linked list from the most to
the least recently used one, with an account for each flow that has a generation in the cache.
An entry is named by its address; the address of a new entry is one that was never used.  An
allocation may fail: whether it does is part of the call.
-/

namespace MultiFlow.Relay

open Function Lib Wire

def GEN_CACHE_DEFAULT_TIMEOUT_MS : UInt32 := 500

def GEN_CACHE_DEFAULT_MAX_GENS_GLOBAL : Nat := 256

def GEN_CACHE_DEFAULT_MAX_GENS_PER_FLOW : Nat := 32

def GEN_CACHE_DEFAULT_MAX_BYTES : Nat := 32 * 1024 * 1024

def GEN_CACHE_MAX_SHARD_COUNT : Nat := 256

def GEN_CACHE_STAT_FLOWS : Nat := 8

structure GenerationKey where
  flowId : UInt32
  blockId : UInt64
  deriving DecidableEq, Repr

inductive GenerationState where
  | collecting
  | ready
  deriving DecidableEq, Repr

inductive GenerationInsertStatus where
  | ok
  | duplicate
  | mismatch
  | admissionFailed
  | invalid
  deriving DecidableEq, Repr

structure GenerationSlot where
  datagramCopy : List UInt8
  len : Nat
  present : Bool
  deriving DecidableEq, Repr

structure GenerationEntry where
  key : GenerationKey
  finalDst : UInt8
  type : UInt8
  shardCount : UInt16
  validLen : UInt16
  payloadLen : UInt16
  minTtl : UInt8
  state : GenerationState
  presentCount : Nat
  createdNs : UInt64
  lastUpdateNs : UInt64
  bytes : Nat
  slots : Nat → GenerationSlot

structure GenerationCacheStats where
  genCreated : Nat := 0
  genReady : Nat := 0
  genTimeout : Nat := 0
  genEvicted : Nat := 0
  genAdmissionFailed : Nat := 0
  genMetadataMismatch : Nat := 0
  genDuplicate : Nat := 0
  genCachedBytesCurrent : Nat := 0
  genCachedBytesPeak : Nat := 0
  perFlowCreated : Nat → Nat := fun _ => 0

structure GenerationCacheConfig where
  genTimeoutMs : UInt32
  maxGensGlobal : Nat
  maxGensPerFlow : Nat
  maxCacheBytes : Nat
  deriving DecidableEq, Repr

structure GenerationCacheFlowAccount where
  active : Bool
  flowId : UInt32
  generationCount : Nat
  deriving DecidableEq, Repr

/-- `heap` is the first address that was never used. -/
structure GenerationCache where
  cfg : GenerationCacheConfig
  lru : Links Nat
  entries : Nat → GenerationEntry
  heap : Nat
  count : Nat
  flowAccounts : Nat → GenerationCacheFlowAccount
  flowAccountCap : Nat
  stats : GenerationCacheStats

def generationCacheConfigDefaults : GenerationCacheConfig where
  genTimeoutMs := GEN_CACHE_DEFAULT_TIMEOUT_MS
  maxGensGlobal := GEN_CACHE_DEFAULT_MAX_GENS_GLOBAL
  maxGensPerFlow := GEN_CACHE_DEFAULT_MAX_GENS_PER_FLOW
  maxCacheBytes := GEN_CACHE_DEFAULT_MAX_BYTES

def noEntry : GenerationEntry where
  key := ⟨0, 0⟩
  finalDst := 0
  type := 0
  shardCount := 0
  validLen := 0
  payloadLen := 0
  minTtl := 0
  state := .collecting
  presentCount := 0
  createdNs := 0
  lastUpdateNs := 0
  bytes := 0
  slots := fun _ => ⟨[], 0, false⟩

def generationCacheInit (cfg : Option GenerationCacheConfig) : GenerationCache :=
  let given := cfg.getD generationCacheConfigDefaults
  let cfg : GenerationCacheConfig :=
    { genTimeoutMs :=
        if given.genTimeoutMs = 0 then GEN_CACHE_DEFAULT_TIMEOUT_MS else given.genTimeoutMs
      maxGensGlobal :=
        if given.maxGensGlobal = 0 then GEN_CACHE_DEFAULT_MAX_GENS_GLOBAL
        else given.maxGensGlobal
      maxGensPerFlow :=
        if given.maxGensPerFlow = 0 then GEN_CACHE_DEFAULT_MAX_GENS_PER_FLOW
        else given.maxGensPerFlow
      maxCacheBytes :=
        if given.maxCacheBytes = 0 then GEN_CACHE_DEFAULT_MAX_BYTES else given.maxCacheBytes }
  { cfg
    lru := Links.empty
    entries := fun _ => noEntry
    heap := 0
    count := 0
    flowAccounts := fun _ => ⟨false, 0, 0⟩
    flowAccountCap := cfg.maxGensGlobal
    stats := {} }

/-- Clipped telemetry bucket only, never used for admission. -/
def telemetryStatIndex (flowId : UInt32) : Nat :=
  if GEN_CACHE_STAT_FLOWS ≤ flowId.toNat then GEN_CACHE_STAT_FLOWS - 1 else flowId.toNat

variable (cache : GenerationCache)

def findFlowAccount (flowId : UInt32) : Option Nat :=
  firstIndex
    (fun i => (cache.flowAccounts i).active && decide ((cache.flowAccounts i).flowId = flowId))
    cache.flowAccountCap

def findFreeFlowAccount : Option Nat :=
  firstIndex (fun i => !(cache.flowAccounts i).active) cache.flowAccountCap

def setAccount (i : Nat) (account : GenerationCacheFlowAccount) : GenerationCache :=
  { cache with flowAccounts := update cache.flowAccounts i account }

def getOrCreateFlowAccount (flowId : UInt32) : Option (Nat × GenerationCache) :=
  match findFlowAccount cache flowId with
  | some i => some (i, cache)
  | none => (findFreeFlowAccount cache).map fun i => (i, setAccount cache i ⟨true, flowId, 0⟩)

def accountAddGeneration (flowId : UInt32) : Option GenerationCache :=
  (getOrCreateFlowAccount cache flowId).map fun (i, cache) =>
    setAccount cache i
      { cache.flowAccounts i with
        generationCount := (cache.flowAccounts i).generationCount + 1 }

def releaseEmptyFlowAccount (account : GenerationCacheFlowAccount) : GenerationCacheFlowAccount :=
  if account.generationCount = 0 then { account with active := false, flowId := 0 } else account

def accountRemoveGeneration (flowId : UInt32) : GenerationCache :=
  match findFlowAccount cache flowId with
  | none => cache
  | some i =>
    let account := cache.flowAccounts i
    setAccount cache i
      (releaseEmptyFlowAccount { account with generationCount := account.generationCount - 1 })

def flowGenerationCount (flowId : UInt32) : Nat :=
  match findFlowAccount cache flowId with
  | none => 0
  | some i => (cache.flowAccounts i).generationCount

def lruTouch (entry : Nat) : GenerationCache :=
  if cache.lru.head = some entry then cache
  else { cache with lru := (cache.lru.unlink entry).pushFront entry }

inductive CacheRemoveReason where
  | evict
  | timeout
  | silent
  deriving DecidableEq, Repr

def countRemoval (stats : GenerationCacheStats) : CacheRemoveReason → GenerationCacheStats
  | .timeout => { stats with genTimeout := stats.genTimeout + 1 }
  | .evict => { stats with genEvicted := stats.genEvicted + 1 }
  | .silent => stats

/-- The first part of `cache_remove_entry`: the entry leaves the list and the byte total. -/
def unlinkEntry (entry : Nat) : GenerationCache :=
  let bytes := (cache.entries entry).bytes
  { cache with
    lru := cache.lru.unlink entry
    stats.genCachedBytesCurrent :=
      if bytes ≤ cache.stats.genCachedBytesCurrent then
        cache.stats.genCachedBytesCurrent - bytes
      else 0 }

def cacheRemoveEntry (entry : Nat) (reason : CacheRemoveReason) : GenerationCache :=
  let unaccounted :=
    accountRemoveGeneration (unlinkEntry cache entry) (cache.entries entry).key.flowId
  { unaccounted with
    count := unaccounted.count - 1
    stats := countRemoval unaccounted.stats reason }

def entryTimedOut (entry : Nat) (nowNs : UInt64) : Bool :=
  let last := (cache.entries entry).lastUpdateNs
  if cache.cfg.genTimeoutMs = 0 then false
  else if nowNs < last then false
  else decide (cache.cfg.genTimeoutMs.toNat * 1000000 ≤ (nowNs - last).toNat)

/-- The test of `expire_one_pass`; a negative filter takes every flow. -/
def expires (nowNs : UInt64) (flowIdFilter : Int32) (entry : Nat) : Bool :=
  (decide (flowIdFilter < 0) || decide (flowIdFilter.toUInt32 = (cache.entries entry).key.flowId)) &&
    entryTimedOut cache entry nowNs

/-- The loop of `expire_one_pass`, with the entries removed so far.  A list has fewer entries
than addresses were ever used, so the steps suffice. -/
def expireFrom (nowNs : UInt64) (flowIdFilter : Int32) :
    Nat → Option Nat → GenerationCache → Nat → GenerationCache × Nat
  | 0, _, cache, removed => (cache, removed)
  | _ + 1, none, cache, removed => (cache, removed)
  | steps + 1, some cur, cache, removed =>
    let next := cache.lru.prev cur
    if expires cache nowNs flowIdFilter cur then
      expireFrom nowNs flowIdFilter steps next (cacheRemoveEntry cache cur .timeout) (removed + 1)
    else expireFrom nowNs flowIdFilter steps next cache removed

def expireOnePass (nowNs : UInt64) (flowIdFilter : Int32) : GenerationCache × Nat :=
  expireFrom nowNs flowIdFilter cache.heap cache.lru.tail cache 0

def generationCacheExpire (nowNs : UInt64) (flowIdFilter : Int32) : GenerationCache × Nat :=
  expireOnePass cache nowNs flowIdFilter

def findEntry (flowId : UInt32) (blockId : UInt64) : Option Nat :=
  (follow cache.lru.next cache.heap cache.lru.head).find? fun cur =>
    decide ((cache.entries cur).key.flowId = flowId) &&
      decide ((cache.entries cur).key.blockId = blockId)

def metaMatches (entry : GenerationEntry) (hdr : WireHeader) : Bool :=
  decide (entry.finalDst = hdr.finalDst ∧ entry.type = hdr.type ∧
    entry.shardCount = hdr.shardCount ∧ entry.validLen = hdr.validLen ∧
    entry.payloadLen = hdr.payloadLen)

def needsEviction (flowId : UInt32) (addBytes : Nat) : Bool :=
  decide (cache.cfg.maxGensPerFlow ≤ flowGenerationCount cache flowId ∨
    cache.cfg.maxGensGlobal ≤ cache.count ∨
    cache.cfg.maxCacheBytes < cache.stats.genCachedBytesCurrent + addBytes)

/-- The least recently used entry that passes. -/
def findFromTail (test : Nat → Bool) : Option Nat :=
  (follow cache.lru.prev cache.heap cache.lru.tail).find? test

def roomVictim (flowId : UInt32) : Option Nat :=
  let own :=
    if cache.cfg.maxGensPerFlow ≤ flowGenerationCount cache flowId then
      findFromTail cache fun cur => decide ((cache.entries cur).key.flowId = flowId)
    else none
  own.or cache.lru.tail

/-- The loop of `make_room`; `guard` counts down. -/
def evictForRoom (flowId : UInt32) (addBytes : Nat) : Nat → GenerationCache → GenerationCache
  | 0, cache => cache
  | guard + 1, cache =>
    if needsEviction cache flowId addBytes && decide (0 < cache.count) then
      match roomVictim cache flowId with
      | none => cache
      | some victim => evictForRoom flowId addBytes guard (cacheRemoveEntry cache victim .evict)
    else cache

def makeRoom (flowId : UInt32) (addBytes : Nat) (nowNs : UInt64) : GenerationCache × Bool :=
  let expired := (expireOnePass cache nowNs (-1)).1
  let roomy := evictForRoom flowId addBytes (expired.cfg.maxGensGlobal + 8) expired
  (roomy, !needsEviction roomy flowId addBytes)

def shardFieldsOk (hdr : WireHeader) : Bool :=
  decide (hdr.shardCount ≠ 0 ∧ hdr.shardCount.toNat ≤ GEN_CACHE_MAX_SHARD_COUNT ∧
    hdr.shardIndex < hdr.shardCount)

/-- What `entry_create` writes into the new entry. -/
def newEntry (hdr : WireHeader) (nowNs : UInt64) : GenerationEntry where
  key := ⟨hdr.flowId, hdr.blockId⟩
  finalDst := hdr.finalDst
  type := hdr.type
  shardCount := hdr.shardCount
  validLen := hdr.validLen
  payloadLen := hdr.payloadLen
  minTtl := hdr.ttl
  state := .collecting
  presentCount := 0
  createdNs := nowNs
  lastUpdateNs := nowNs
  bytes := 0
  slots := fun _ => ⟨[], 0, false⟩

def growVictim (entry : Nat) : Option Nat :=
  match cache.lru.tail with
  | some victim =>
    if victim = entry then findFromTail cache fun other => decide (other ≠ entry)
    else some victim
  | none => none

/-- The loop of `store_slot`, once for each entry at most; answers false where the source returns
from it. -/
def evictToGrow (entry len : Nat) : Nat → GenerationCache → GenerationCache × Bool
  | 0, cache => (cache, true)
  | rounds + 1, cache =>
    if cache.cfg.maxCacheBytes < cache.stats.genCachedBytesCurrent + len ∧ 0 < cache.count then
      match growVictim cache entry with
      | none => (cache, false)
      | some victim =>
        if victim = entry then (cache, false)
        else evictToGrow entry len rounds (cacheRemoveEntry cache victim .evict)
    else (cache, true)

def GenerationEntry.fill (entry : GenerationEntry) (hdr : WireHeader) (datagram : List UInt8)
    (nowNs : UInt64) : GenerationEntry :=
  { entry with
    slots := update entry.slots hdr.shardIndex.toNat ⟨datagram, datagram.length, true⟩
    presentCount := entry.presentCount + 1
    bytes := entry.bytes + datagram.length
    lastUpdateNs := nowNs
    minTtl := if hdr.ttl < entry.minTtl then hdr.ttl else entry.minTtl }

def GenerationEntry.complete (entry : GenerationEntry) : Bool :=
  decide (entry.shardCount.toNat ≤ entry.presentCount ∧ entry.state ≠ .ready)

def setEntry (address : Nat) (entry : GenerationEntry) : GenerationCache :=
  { cache with entries := update cache.entries address entry }

def admissionFailed : GenerationCache :=
  { cache with stats.genAdmissionFailed := cache.stats.genAdmissionFailed + 1 }

def metadataMismatch : GenerationCache :=
  { cache with stats.genMetadataMismatch := cache.stats.genMetadataMismatch + 1 }

/-- The end of `store_slot`, after the datagram was copied or retained. -/
def commitSlot (address : Nat) (hdr : WireHeader) (datagram : List UInt8) (nowNs : UInt64) :
    GenerationCache :=
  let filled := (cache.entries address).fill hdr datagram nowNs
  let current := cache.stats.genCachedBytesCurrent + datagram.length
  let stored :=
    { setEntry cache address
        (if filled.complete then { filled with state := .ready } else filled) with
      stats :=
        { cache.stats with
          genCachedBytesCurrent := current
          genCachedBytesPeak :=
            if cache.stats.genCachedBytesPeak < current then current
            else cache.stats.genCachedBytesPeak
          genReady := if filled.complete then cache.stats.genReady + 1 else cache.stats.genReady } }
  lruTouch stored address

/-- `copied` says whether the buffer for the datagram could be had. -/
def storeSlot (address : Nat) (hdr : WireHeader) (datagram : List UInt8) (nowNs : UInt64)
    (copied : Bool) : GenerationCache × GenerationInsertStatus :=
  let entry := cache.entries address
  if entry.shardCount ≤ hdr.shardIndex then (metadataMismatch cache, .mismatch)
  else if (entry.slots hdr.shardIndex.toNat).present then
    ({ cache with stats.genDuplicate := cache.stats.genDuplicate + 1 }, .duplicate)
  else
    let (roomy, found) := evictToGrow address datagram.length cache.count cache
    if !found ∨ roomy.cfg.maxCacheBytes <
        roomy.stats.genCachedBytesCurrent + datagram.length ∨ !copied then
      (admissionFailed roomy, .admissionFailed)
    else (commitSlot roomy address hdr datagram nowNs, .ok)

/-- Whether the entry and the copy of the datagram can be allocated. -/
structure InsertMemory where
  entry : Bool
  copy : Bool
  deriving DecidableEq, Repr

/-- The new entry in front of the list, with its account and its place in the counters. -/
def linkEntry (hdr : WireHeader) (nowNs : UInt64) : GenerationCache :=
  let created := setEntry cache cache.heap (newEntry hdr nowNs)
  let bucket := telemetryStatIndex hdr.flowId
  { created with
    lru := cache.lru.pushFront cache.heap
    heap := cache.heap + 1
    count := cache.count + 1
    stats.genCreated := cache.stats.genCreated + 1
    stats.perFlowCreated :=
      update cache.stats.perFlowCreated bucket (cache.stats.perFlowCreated bucket + 1) }

/-- The rollback of a new entry whose first shard could not be stored. -/
def rollbackEntry (address : Nat) (flowId : UInt32) : GenerationCache :=
  let bucket := telemetryStatIndex flowId
  let uncounted :=
    { cache with
      stats.genCreated := cache.stats.genCreated - 1
      stats.perFlowCreated :=
        update cache.stats.perFlowCreated bucket
          (cache.stats.perFlowCreated bucket - 1) }
  cacheRemoveEntry uncounted address .silent

/-- The part of `generation_cache_insert` for a generation that is not cached. -/
def insertNew (hdr : WireHeader) (datagram : List UInt8) (nowNs : UInt64) (memory : InsertMemory) :
    GenerationCache × GenerationInsertStatus × Option Nat :=
  let (roomy, fits) := makeRoom cache hdr.flowId datagram.length nowNs
  if !fits ∨ !shardFieldsOk hdr ∨ !memory.entry then
    (admissionFailed roomy, .admissionFailed, none)
  else
    match accountAddGeneration roomy hdr.flowId with
    | none => (admissionFailed roomy, .admissionFailed, none)
    | some accounted =>
      let address := accounted.heap
      let (stored, status) :=
        storeSlot (linkEntry accounted hdr nowNs) address hdr datagram nowNs memory.copy
      if status = .ok then (stored, .ok, some address)
      else (rollbackEntry stored address hdr.flowId, status, none)

/-- Answers the cache, the status and `out_entry`. -/
def generationCacheInsert (hdr : WireHeader) (datagram : List UInt8) (nowNs : UInt64)
    (memory : InsertMemory) : GenerationCache × GenerationInsertStatus × Option Nat :=
  if datagram.length < WIRE_HEADER_SIZE ∨ hdr.type ≠ WIRE_TYPE_DATA then (cache, .invalid, none)
  else if !shardFieldsOk hdr then (metadataMismatch cache, .mismatch, none)
  else
    let expired := (expireOnePass cache nowNs (-1)).1
    match findEntry expired hdr.flowId hdr.blockId with
    | some address =>
      if !metaMatches (expired.entries address) hdr then
        (metadataMismatch expired, .mismatch, some address)
      else
        let (stored, status) := storeSlot expired address hdr datagram nowNs memory.copy
        (stored, status, if status = .ok ∨ status = .duplicate then some address else none)
    | none => insertNew expired hdr datagram nowNs memory

end MultiFlow.Relay
