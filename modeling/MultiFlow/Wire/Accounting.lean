import MultiFlow.Wire.InOrder

/-!
# Counting heads and recovered groups

Every head that moves is counted once, as emitted or as skipped, and a recovered group is
counted until it is emitted: it is never skipped.  The block ids that are emitted increase
as long as the 64-bit counter of the head has not wrapped.
-/

namespace MultiFlow.FlowDecoder

open CodecApi Lib Wire List

theorem ofNat_succ (count : Nat) : UInt64.ofNat (count + 1) = UInt64.ofNat count + 1 := by
  rw [UInt64.ofNat_add]
  rfl

structure Accounts (dec : WireFlowDecoder) : Prop where
  next_eq : dec.nextEmitBlock = dec.stats.groupsEmitted + dec.stats.skippedGroups
  recovered_eq : dec.stats.groupsRecovered =
    dec.stats.groupsEmitted + UInt64.ofNat (recoveredSlots dec.groups).card

theorem freshDecoder_accounts : Accounts freshDecoder := by
  have none_ready : recoveredSlots freshDecoder.groups = ∅ := by
    ext slot
    simp [mem_recoveredSlots, freshDecoder, releasedGroup]
  refine ⟨rfl, ?_⟩
  rw [none_ready]
  rfl

variable {cfg : WireFlowDecoderConfig} {dec later : WireFlowDecoder}

theorem Accounts.head {head : Option Slot} {flag : Bool} (inv : Accounts dec)
    (moved : HeadMoved cfg dec head flag later) : Accounts later := by
  have slots := moved.recoveredSlots_card
  have next_eq := moved.next_eq
  rw [inv.next_eq] at next_eq
  cases moved with
  | emitted _ ready =>
    rw [headRecovered, decide_eq_true ready, if_pos rfl] at slots
    refine ⟨next_eq.trans (by simp only [afterWrite]; ac_rfl), ?_⟩
    show dec.stats.groupsRecovered = dec.stats.groupsEmitted + 1 + _
    rw [inv.recovered_eq, ← slots, ofNat_succ]
    ac_rfl
  | rescued _ mid _ active attempt _ _ rec_eq =>
    rw [headRecovered, active, decide_eq_false (by decide), if_neg (by decide), Nat.add_zero] at slots
    constructor
    · refine next_eq.trans ?_
      show _ = mid.stats.groupsEmitted + 1 + mid.stats.skippedGroups
      rw [attempt.emitted_eq, attempt.skipped_eq]
      ac_rfl
    · show mid.stats.groupsRecovered = mid.stats.groupsEmitted + 1 + _
      rw [rec_eq, attempt.emitted_eq, inv.recovered_eq, ← slots]
      ac_rfl
  | abandoned _ _ _ _ active attempt _ rec_eq skipped =>
    rw [headRecovered, active, decide_eq_false (by decide), if_neg (by decide), Nat.add_zero] at slots
    constructor
    · rw [next_eq, skipped.emitted_eq, skipped.skipped_eq, attempt.emitted_eq, attempt.skipped_eq]
      ac_rfl
    · rw [skipped.recovered_eq, skipped.emitted_eq, rec_eq, attempt.emitted_eq, slots,
        inv.recovered_eq]
  | skipped _ _ notReady skipped =>
    have waiting : headRecovered dec head = false := by
      cases head with
      | none => rfl
      | some slot => exact decide_eq_false (notReady slot rfl).1
    rw [waiting, if_neg (by decide), Nat.add_zero] at slots
    constructor
    · rw [next_eq, skipped.emitted_eq, skipped.skipped_eq]
      ac_rfl
    · rw [skipped.recovered_eq, skipped.emitted_eq, slots, inv.recovered_eq]

theorem Accounts.attempt {slot : Slot} {finalizeAtEnd : Bool} {res : WireRecoverResult}
    (inv : Accounts dec) (active : (dec.groups slot).state = .active)
    (attempted : Attempted cfg dec slot finalizeAtEnd (res, later)) : Accounts later := by
  have notReady : (dec.groups slot).state ≠ .recovered := by simp [active]
  cases attempted with
  | ready _ grp attempt state_eq _ rec_eq =>
    constructor
    · rw [attempt.next_eq, attempt.emitted_eq, attempt.skipped_eq, inv.next_eq]
    · rw [rec_eq, attempt.emitted_eq, inv.recovered_eq, attempt.groups_eq,
        recoveredSlots_update_ready dec.groups slot grp notReady state_eq, ofNat_succ]
      ac_rfl
  | missed _ _ grp attempt _ state_eq _ _ _ _ rec_eq =>
    have stillNot : grp.state ≠ .recovered := by
      rw [state_eq]
      split <;> exact (nofun)
    constructor
    · rw [attempt.next_eq, attempt.emitted_eq, attempt.skipped_eq, inv.next_eq]
    · rw [rec_eq, attempt.emitted_eq, inv.recovered_eq, attempt.groups_eq,
        recoveredSlots_update dec.groups slot grp notReady stillNot]

theorem Move.accounts {dgram : Datagram} (move : Move cfg dgram dec later)
    (inv : Accounts dec) : Accounts later := by
  cases move with
  | head _ _ _ moved => exact inv.head moved
  | attempt _ _ _ _ active attempted => exact inv.attempt active attempted
  | opened slot _ _ _ _ _ allocated stats_eq =>
    obtain ⟨free, _, rfl⟩ := allocateGroup_some allocated
    subst stats_eq
    refine ⟨inv.next_eq, ?_⟩
    show dec.stats.groupsRecovered = dec.stats.groupsEmitted +
      UInt64.ofNat (recoveredSlots (Function.update dec.groups slot _)).card
    rw [recoveredSlots_update dec.groups slot _ (by simp [free]) (by simp [newGroup])]
    exact inv.recovered_eq
  | stored slot _ active =>
    refine ⟨inv.next_eq, ?_⟩
    show dec.stats.groupsRecovered = dec.stats.groupsEmitted +
      UInt64.ofNat (recoveredSlots (Function.update dec.groups slot _)).card
    rw [recoveredSlots_update dec.groups slot _ (by simp [active]) (by simp [active])]
    exact inv.recovered_eq
  | counted stats emitted_eq skipped_eq rec_eq =>
    refine ⟨?_, ?_⟩
    · show dec.nextEmitBlock = stats.groupsEmitted + stats.skippedGroups
      rw [emitted_eq, skipped_eq, inv.next_eq]
    · show stats.groupsRecovered = stats.groupsEmitted + _
      rw [emitted_eq, rec_eq, inv.recovered_eq]
  | announced | finished => exact ⟨inv.next_eq, inv.recovered_eq⟩

theorem ingestAll_accounts (good : GoodConfig cfg) (datagrams : List Datagram) :
    Accounts (ingestAll cfg freshDecoder datagrams) :=
  ingestAll_induction good Accounts freshDecoder_accounts datagrams
    (fun _ _ _ _ _ inv move => move.accounts inv)

def emittedIds (dec : WireFlowDecoder) : List UInt64 :=
  (dec.heads.filter Head.isEmitted).map Head.blockId

theorem ofNat_range_increasing (count : Nat) (noWrap : count ≤ 2 ^ 64) :
    ((List.range count).map UInt64.ofNat).Pairwise (· < ·) := by
  refine pairwise_map.mpr (pairwise_lt_range.imp_of_mem ?_)
  intro first second _ isSecond less
  have below := mem_range.mp isSecond
  rw [UInt64.lt_iff_toNat_lt, UInt64.toNat_ofNat', UInt64.toNat_ofNat',
    Nat.mod_eq_of_lt (by omega), Nat.mod_eq_of_lt (by omega)]
  exact less

theorem HeadsInv.emittedIds_increasing (inv : HeadsInv dec) (noWrap : dec.heads.length ≤ 2 ^ 64) :
    (emittedIds dec).Pairwise (· < ·) := by
  have increasing := ofNat_range_increasing dec.heads.length noWrap
  rw [← inv.ids_eq] at increasing
  exact increasing.sublist (filter_sublist.map _)

theorem ingestAll_accepted_end (good : GoodConfig cfg) (bestEffort : cfg.bestEffort = true)
    (earlier rest : List Datagram) (dgram : Datagram) (isEnd : dgram.1.type = WIRE_TYPE_END)
    (running : (ingestAll cfg freshDecoder earlier).complete = false)
    (accepted : ¬ EndRejected cfg (ingestAll cfg freshDecoder earlier) dgram.1) :
    let dec := ingestAll cfg freshDecoder (earlier ++ dgram :: rest)
    dec.complete = true ∧ dgram.1.blockId ≤ dec.nextEmitBlock := by
  intro dec
  have window := ingestAll_windowInv good earlier freshDecoder (freshDecoder_windowInv cfg)
  obtain ⟨later, done, _, _, count_eq, finishes⟩ :=
    ingestEnd_accepted good dgram _ window isEnd accepted
  obtain ⟨complete, reached⟩ := finishes bestEffort
  have dec_eq : dec = later := by
    show ingestAll cfg freshDecoder (earlier ++ dgram :: rest) = later
    rw [ingestAll, foldl_append, foldl_cons]
    show ingestAll cfg (wireFlowDecoderIngest cfg (ingestAll cfg freshDecoder earlier)
      dgram.1 dgram.2).2 rest = later
    rw [wireFlowDecoderIngest, if_neg (by simp [running]), if_pos isEnd, done]
    exact Stream.ingestAll_complete complete rest
  rw [dec_eq]
  exact ⟨complete, count_eq ▸ reached⟩

/-- The books of a best-effort decoder, after any datagrams. -/
theorem bestEffort_accounts (config : WireFlowDecoderConfig) (good : GoodConfig config)
    (bestEffort : config.bestEffort = true) (datagrams : List Datagram) :
    let dec := ingestAll config freshDecoder datagrams
    dec.nextEmitBlock = dec.stats.groupsEmitted + dec.stats.skippedGroups ∧
      dec.stats.groupsRecovered =
        dec.stats.groupsEmitted + UInt64.ofNat (recoveredSlots dec.groups).card ∧
      (dec.heads.length ≤ 2 ^ 64 → (emittedIds dec).Pairwise (· < ·)) ∧
      ∀ earlier rest datagram, datagrams = earlier ++ datagram :: rest →
        datagram.1.type = WIRE_TYPE_END →
        (ingestAll config freshDecoder earlier).complete = false →
        ¬ EndRejected config (ingestAll config freshDecoder earlier) datagram.1 →
        dec.complete = true ∧ datagram.1.blockId ≤ dec.nextEmitBlock := by
  intro dec
  obtain ⟨next_eq, recovered_eq⟩ := ingestAll_accounts good datagrams
  refine ⟨next_eq, recovered_eq, (ingestAll_headsInv good datagrams).emittedIds_increasing, ?_⟩
  rintro earlier rest datagram rfl isEnd running accepted
  exact ingestAll_accepted_end good bestEffort earlier rest datagram isEnd running accepted

theorem bestEffort_accounts_plain :
    let dec := ingestAll (plainConfig true) freshDecoder [(plainEnd 7, [])]
    dec.nextEmitBlock = dec.stats.groupsEmitted + dec.stats.skippedGroups ∧
      dec.complete = true := by
  obtain ⟨next_eq, _, _, ended⟩ := bestEffort_accounts (plainConfig true) (plainConfig_good true)
    rfl [(plainEnd 7, [])]
  exact ⟨next_eq, (ended [] [] (plainEnd 7, []) rfl rfl rfl (by decide)).1⟩

end MultiFlow.FlowDecoder

namespace MultiFlow.Stream

open CodecApi FlowDecoder Sender Wire

/-- A stream of `count` full blocks of one shard. -/
def sevens (count : Nat) : List UInt8 := List.replicate (count * PKG_SIZE) 7

theorem chunk_sevens (count i : Nat) :
    chunk noneCodec (sevens count) i =
      List.replicate (min PKG_SIZE (count * PKG_SIZE - i * PKG_SIZE)) 7 := by
  show ((sevens count).drop (i * PKG_SIZE)).take PKG_SIZE = _
  rw [sevens, List.drop_replicate, List.take_replicate]

def sevensFraming (count : Nat) : Framing noneCodec (sevens count) where
  data := fun _ _ _ => 7
  times := fun _ => (0, 0)
  holds := by
    intro i
    rw [chunk_sevens, List.length_replicate, blockBytes, List.map_const', List.length_range]

theorem chunkCount_sevens (count : Nat) : chunkCount noneCodec (sevens count) = count := by
  have len_eq : (sevens count).length = count * PKG_SIZE := List.length_replicate
  show ((sevens count).length + PKG_SIZE - 1) / PKG_SIZE = count
  rw [len_eq]
  show (count * 1400 + 1400 - 1) / 1400 = count
  omega

theorem sevens_emitted (bestEffort : Bool) (total count : Nat) (areBlocks : count ≤ total) :
    let dec := ingestAll (plainConfig bestEffort) freshDecoder
      ((List.range count).map fun i => shardDatagram plainTx (sevensFraming total) i 0)
    Clean count dec ∧ dec.heads = (List.range count).map fun i => .emitted (UInt64.ofNat i) := by
  induction count with
  | zero => exact ⟨freshDecoder_clean, rfl⟩
  | succ count ih =>
    obtain ⟨clean, heads_eq⟩ := ih (by omega)
    have window := ingestAll_windowInv (plainConfig_good bestEffort)
      ((List.range count).map fun i => shardDatagram plainTx (sevensFraming total) i 0)
      freshDecoder (freshDecoder_windowInv _)
    dsimp only
    rw [List.range_succ, List.map_append, List.map_singleton, ingestAll_append_singleton]
    have isBlock : count < chunkCount (plainConfig bestEffort).codec (sevens total) := by
      show count < chunkCount noneCodec (sevens total)
      rw [chunkCount_sevens]
      omega
    have announced : (chunk (plainConfig bestEffort).codec (sevens total) count).length % 2 ^ 16 ≠
        0 := by
      show (chunk noneCodec (sevens total) count).length % 2 ^ 16 ≠ 0
      rw [chunk_sevens, List.length_replicate]
      show min 1400 (total * 1400 - count * 1400) % 2 ^ 16 ≠ 0
      omega
    have next := ingest_windowInv (plainConfig_good bestEffort)
      (shardDatagram plainTx (sevensFraming total) count 0) _ window
    cases clean.ingest (plainConfig_good bestEffort) noneCodec_lawful plainTx window isBlock
      announced with
    | filling slot filling output_eq heads_same =>
      exact absurd filling (Filling.incomplete (plainConfig_good bestEffort) next)
    | written after output_eq heads_more =>
      refine ⟨after, heads_more.trans ?_⟩
      rw [heads_eq, List.map_append, List.map_singleton]

theorem sevens_emittedIds (bestEffort : Bool) (total count : Nat) (areBlocks : count ≤ total) :
    emittedIds (ingestAll (plainConfig bestEffort) freshDecoder
      ((List.range count).map fun i => shardDatagram plainTx (sevensFraming total) i 0)) =
        (List.range count).map UInt64.ofNat := by
  have heads_eq := (sevens_emitted bestEffort total count areBlocks).2
  have every : ((List.range count).map fun i => Head.emitted (UInt64.ofNat i)).filter
      Head.isEmitted = (List.range count).map fun i => Head.emitted (UInt64.ofNat i) := by
    refine List.filter_eq_self.mpr ?_
    intro head mem
    obtain ⟨i, _, rfl⟩ := List.mem_map.mp mem
    rfl
  rw [emittedIds, heads_eq, every, List.map_map]
  rfl

/-- After `2 ^ 64` blocks the next one is emitted as block 0 again. -/
theorem emittedIds_wrap :
    ¬ (emittedIds (ingestAll (plainConfig true) freshDecoder ((List.range (2 ^ 64 + 1)).map fun i =>
        shardDatagram plainTx (sevensFraming (2 ^ 64 + 1)) i 0))).Pairwise (· < ·) := by
  rw [sevens_emittedIds true _ _ (le_refl _), List.range_succ, List.map_append,
    List.pairwise_append]
  intro increasing
  have less := increasing.2.2 (UInt64.ofNat 0)
    (List.mem_map_of_mem (List.mem_range.mpr (by norm_num))) (UInt64.ofNat (2 ^ 64))
    (List.mem_singleton.mpr rfl)
  exact absurd less (by decide)

end MultiFlow.Stream
