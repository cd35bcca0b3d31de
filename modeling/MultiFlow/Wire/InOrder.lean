import MultiFlow.Wire.Complete

/-!
# Blocks that arrive in order

A decoder with an empty window that gets the shards of the block at its head in order gathers them
in a single group, writes the block with the `k`-th shard and takes the rest for late, in both modes
and for every block that is announced with a nonzero length.
-/

namespace MultiFlow.Stream

open Function CodecApi FlowDecoder Lib Sender Wire List

/-- An empty window with block `i` at its head. -/
structure Clean (i : Nat) (dec : WireFlowDecoder) : Prop where
  next_eq : dec.nextEmitBlock = UInt64.ofNat i
  notEnded : dec.endSeen = false
  running : dec.complete = false
  empty : ∀ slot, (dec.groups slot).state = .empty

/-- A window whose only group has the first `s` shards of the block at the head. -/
structure Filling {codec : Codec} {source : List UInt8} (framing : Framing codec source)
    (i s : Nat) (slot : Slot) (dec : WireFlowDecoder) : Prop where
  next_eq : dec.nextEmitBlock = UInt64.ofNat i
  notEnded : dec.endSeen = false
  running : dec.complete = false
  others : ∀ other, other ≠ slot → (dec.groups other).state = .empty
  frame : Frame framing i (dec.groups slot)
  active : (dec.groups slot).state = .active
  bits_eq : ∀ t, (dec.groups slot).receivedBits t = decide (t < s)
  few : groupReceivedCount (dec.groups slot) < codec.dataShards
  untried : (dec.groups slot).lastRecoveryCount = 0

theorem freshDecoder_clean : Clean 0 freshDecoder := ⟨rfl, rfl, rfl, fun _ => rfl⟩

variable {dec : WireFlowDecoder}

theorem Clean.restat {i : Nat} (clean : Clean i dec) (stats : WireFlowDecoderStats) :
    Clean i { dec with stats := stats } :=
  { clean with }

theorem Filling.restat {codec : Codec} {src : List UInt8} {fr : Framing codec src}
    {i s : Nat} {slot : Slot} (filling : Filling fr i s slot dec)
    (stats : WireFlowDecoderStats) : Filling fr i s slot { dec with stats := stats } :=
  { filling with }

theorem Clean.noGroup {i : Nat} (clean : Clean i dec) (blockId : UInt64) :
    findGroup dec.groups blockId = none :=
  List.find?_eq_none.mpr fun slot _ => by simp [clean.empty slot]

section Head

variable {cfg : WireFlowDecoderConfig}

theorem makeRoomForBlock_head (dec : WireFlowDecoder) :
    makeRoomForBlock cfg dec dec.nextEmitBlock = (0, dec) := by
  unfold makeRoomForBlock
  split
  · rfl
  refine loop_done ?_
  unfold makeRoomStep
  dsimp only
  split
  · rfl
  · rw [if_pos (UInt64.le_refl _)]

theorem blockInReorderWindow_head (blockId : UInt64) :
    blockInReorderWindow blockId blockId = true := by
  rw [blockInReorderWindow_iff]
  exact ⟨le_refl _, Nat.lt_add_of_pos_right (by decide)⟩

theorem tryEmitFromHead_still {dec : WireFlowDecoder} (notEnded : dec.endSeen = false)
    (waiting : ∀ slot, (dec.groups slot).state ≠ .recovered) :
    tryEmitFromHead cfg dec = (0, dec) := by
  have headWaits : headRecovered dec (findGroup dec.groups dec.nextEmitBlock) = false := by
    cases findGroup dec.groups dec.nextEmitBlock with
    | none => rfl
    | some slot => exact decide_eq_false (waiting slot)
  have noneLater : laterRecoveredWaiting dec = false := by simp [laterRecoveredWaiting, waiting]
  refine loop_done ?_
  rw [tryEmitStep, if_neg (by simp [notEnded]), if_neg]
  simp [headMovable, headWaits, notEnded, noneLater]

theorem tryEmitFromHead_alone (good : GoodConfig cfg) {dec : WireFlowDecoder}
    (window : WindowInv cfg dec) {slot : Slot} (notEnded : dec.endSeen = false)
    (atHead : (dec.groups slot).blockId = dec.nextEmitBlock)
    (ready : (dec.groups slot).state = .recovered)
    (others : ∀ other, other ≠ slot → (dec.groups other).state = .empty) :
    tryEmitFromHead cfg dec =
      (0, { afterWrite cfg dec slot with nextEmitBlock := dec.nextEmitBlock + 1 }) := by
  have found : findGroup dec.groups dec.nextEmitBlock = some slot := by
    cases first : findGroup dec.groups dec.nextEmitBlock with
    | none => exact absurd atHead (findGroup_none first slot (by simp [ready]))
    | some other =>
      have occ := (findGroup_some first).1
      by_contra differs
      exact occ (others other fun same => differs (congrArg some same))
  obtain ⟨_, later, moved⟩ := moveHead_succeeds good window
  have headReady : headRecovered dec (findGroup dec.groups dec.nextEmitBlock) = true := by
    rw [found]
    exact decide_eq_true ready
  obtain ⟨headSlot, head_eq, _, later_eq⟩ := HeadMoved.of_recovered (moveHead_ok moved) headReady
  have slot_eq : headSlot = slot := Option.some.inj (head_eq.symm.trans found)
  subst slot_eq
  have steps : tryEmitStep cfg dec = .next later := by
    have movable : headMovable cfg dec (findGroup dec.groups dec.nextEmitBlock) = true := by
      simp [headMovable, headReady]
    unfold tryEmitStep
    rw [if_neg (by simp [notEnded])]
    rw [if_pos movable, moved]
    rfl
  rw [tryEmitFromHead, loop_next steps, ← later_eq]
  refine tryEmitFromHead_still ?_ ?_
  · rw [later_eq]
    exact notEnded
  intro other
  rw [later_eq]
  show (update dec.groups headSlot releasedGroup other).state ≠ .recovered
  by_cases same : other = headSlot
  · rw [same, update_self]
    decide
  · rw [update_of_ne same, others other same]
    decide

end Head

/-- What the shards before `s` make of a decoder with block `i` at its head. -/
inductive Advanced {codec : Codec} {source : List UInt8} (framing : Framing codec source)
    (i s : Nat) (dec later : WireFlowDecoder) : Prop where
  | filling (slot : Slot) (filling : Filling framing i s slot later)
      (output_eq : later.output = dec.output) (heads_eq : later.heads = dec.heads)
  | written (clean : Clean (i + 1) later)
      (output_eq : later.output = dec.output ++ [announcedBytes codec source i])
      (heads_eq : later.heads = dec.heads ++ [.emitted (UInt64.ofNat i)])

section Shard

variable {cfg : WireFlowDecoderConfig} (good : GoodConfig cfg)
  (lawful : LawfulCodec cfg.codec) {src : List UInt8}
  {fr : Framing cfg.codec src} (tx : TxConfig)

variable {dec : WireFlowDecoder} {slot : Slot} {i s : Nat}

include good lawful in
theorem Filling.ingestShard (window : WindowInv cfg dec) (filling : Filling fr i s slot dec)
    (announced : (chunk cfg.codec src i).length % 2 ^ 16 ≠ 0)
    (isShard : s < cfg.codec.dataShards + cfg.codec.parityShards) :
    ∃ later, ingestShard cfg dec slot (shardDatagram tx fr i s).1
        (shardDatagram tx fr i s).2 = (0, later) ∧
      Advanced fr i (s + 1) dec later := by
  have occ : (dec.groups slot).state ≠ .empty := by simp [filling.active]
  have groupInv := window.group slot occ
  have index_eq : (shardDatagram tx fr i s).1.shardIndex.toNat = s :=
    shardIndex_toNat lawful i isShard
  have matching : groupMismatch (dec.groups slot) (shardDatagram tx fr i s).1 = false :=
    shard_matches good lawful groupInv filling.frame isShard
  have absent : (dec.groups slot).receivedBits s = false := by simp [filling.bits_eq]
  have wellFormed : dataMalformed cfg (shardDatagram tx fr i s).1
      (shardDatagram tx fr i s).2 = false := shard_wellFormed good lawful announced isShard
  obtain ⟨group, stored⟩ := tryRecoverGroup_stored good lawful tx s groupInv filling.frame
    filling.active filling.untried
  have storedWindow : WindowInv cfg (tryRecoverGroup cfg
      (storeShard dec slot s (shardDatagram tx fr i s).2) slot false).2 := by
    have moves := storedAttempt_moves (shardDatagram tx fr i s) wellFormed filling.active
      filling.frame.blockId_eq matching (by rw [index_eq, absent])
    rw [index_eq] at moves
    exact moves.windowInv window
  have before : ¬ ((dec.groups slot).state = .recovered ∨ (dec.groups slot).state = .failed ∨
      (dec.groups slot).state = .emitted) := by simp [filling.active]
  unfold FlowDecoder.ingestShard
  dsimp only
  rw [if_neg before, if_neg (by rw [matching]; decide), index_eq, if_neg (by rw [absent]; decide)]
  generalize (tryRecoverGroup cfg
    (storeShard dec slot s (shardDatagram tx fr i s).2) slot false).2 = mid at *
  have notEnded : mid.endSeen = false := stored.endSeen_eq.trans filling.notEnded
  have group_eq : mid.groups slot = group := by rw [stored.groups_eq, update_self]
  have others : ∀ other, other ≠ slot → (mid.groups other).state = .empty := by
    intro other differs
    rw [stored.groups_eq, update_of_ne differs]
    exact filling.others other differs
  rcases stored.outcome with recovered | ⟨stays, bits_eq, few, untried⟩
  · have atHead : (mid.groups slot).blockId = mid.nextEmitBlock := by
      rw [group_eq, stored.frame.blockId_eq, stored.next_eq, filling.next_eq]
    have ready : (mid.groups slot).state = .recovered := by rw [group_eq, recovered]
    have written := stored.frame.bytes good lawful
      (group_eq ▸ storedWindow.group slot (by simp [ready])) recovered
    rw [tryEmitFromHead_alone good storedWindow notEnded atHead ready others]
    dsimp only
    rw [if_neg (by decide)]
    refine ⟨_, rfl, ?_⟩
    have unended : ({ afterWrite cfg mid slot with
        nextEmitBlock := mid.nextEmitBlock + 1 } : WireFlowDecoder).endSeen = false := notEnded
    show Advanced fr i (s + 1) dec (afterEmission _)
    rw [afterEmission_unended unended]
    refine .written ⟨?_, notEnded, stored.complete_eq.trans filling.running, ?_⟩ ?_ ?_
    · rw [stored.next_eq, filling.next_eq, UInt64.ofNat_add]
      rfl
    · intro other
      show (update mid.groups slot releasedGroup other).state = .empty
      by_cases same : other = slot
      · rw [same, update_self]
        rfl
      · rw [update_of_ne same, others other same]
    · show mid.output ++ [blockBytes _ _] = _
      rw [group_eq, written, stored.output_eq]
    · show mid.heads ++ [.emitted (mid.groups slot).blockId] = _
      rw [group_eq, stored.frame.blockId_eq, stored.heads_eq]
  · have waiting : ∀ other, (mid.groups other).state ≠ .recovered := by
      intro other
      by_cases same : other = slot
      · rw [same, group_eq, stays]
        exact (nofun)
      · rw [others other same]
        exact (nofun)
    rw [tryEmitFromHead_still notEnded waiting]
    dsimp only
    rw [if_neg (by decide)]
    refine ⟨_, rfl, ?_⟩
    show Advanced fr i (s + 1) dec (afterEmission _)
    rw [afterEmission_unended notEnded]
    have moreBits : ∀ t, group.receivedBits t = decide (t < s + 1) := by
      intro t
      rw [bits_eq, presentSet, filling.bits_eq]
      by_cases here : t = s
      · simp [here]
      · simp [here]
        omega
    refine .filling slot (Filling.restat ⟨stored.next_eq.trans filling.next_eq, notEnded,
      stored.complete_eq.trans filling.running, others, ?_, ?_, ?_, ?_, ?_⟩ _) stored.output_eq
      stored.heads_eq
    all_goals rw [group_eq]
    · exact stored.frame
    · exact stays
    · exact moreBits
    · exact few
    · exact untried

omit good lawful in
theorem ingest_shard_eq (running : dec.complete = false)
    (wellFormed : dataMalformed cfg (shardDatagram tx fr i s).1
      (shardDatagram tx fr i s).2 = false) :
    wireFlowDecoderIngest cfg dec (shardDatagram tx fr i s).1 (shardDatagram tx fr i s).2 =
        placeDatagram cfg (seenDatagram dec) (shardDatagram tx fr i s).1
          (shardDatagram tx fr i s).2 := by
  have differ : ¬ (shardDatagram tx fr i s).1.type = WIRE_TYPE_END := by
    show ¬ WIRE_TYPE_DATA = WIRE_TYPE_END
    decide
  rw [wireFlowDecoderIngest, if_neg (by simp [running]), if_neg differ, ingestData, wellFormed,
    if_neg (by decide)]

omit good lawful in
theorem placeDatagram_head {opened : WireFlowDecoder} {hdr : WireHeader} {payload : List UInt8}
    (atHead : hdr.blockId = dec.nextEmitBlock) (found : openGroup dec hdr = some (slot, opened)) :
    placeDatagram cfg dec hdr payload = FlowDecoder.ingestShard cfg opened slot hdr payload := by
  have notLate : ¬ dec.nextEmitBlock < dec.nextEmitBlock := UInt64.lt_irrefl _
  unfold placeDatagram
  rw [atHead, if_neg notLate, makeRoomForBlock_head]
  dsimp only
  rw [if_neg (by decide), if_neg notLate, blockInReorderWindow_head, if_neg (by decide), found]

include good in
theorem Clean.opened (clean : Clean i dec) (isBlock : i < chunkCount cfg.codec src) (s : Nat)
    {opened : WireFlowDecoder}
    (found : openGroup dec (shardDatagram tx fr i s).1 = some (slot, opened)) :
    Filling fr i 0 slot opened ∧ opened.output = dec.output ∧ opened.heads = dec.heads := by
  rcases openGroup_cases found with ⟨present, _⟩ | ⟨_, _, rfl⟩
  · rw [clean.noGroup] at present
    cases present
  refine ⟨⟨clean.next_eq, clean.notEnded, clean.running, ?_, ?_, ?_, ?_, ?_, ?_⟩, rfl, rfl⟩
  · intro other differs
    show (update dec.groups slot _ other).state = .empty
    rw [update_of_ne differs, clean.empty]
  all_goals
    dsimp only [WireFlowDecoder.setGroup]
    rw [update_self]
  · exact Frame.opened fr tx s isBlock
  · rfl
  · intro t
    simp [newGroup, presentNone]
  · exact groupReceivedCount_newGroup good _ _ _ _ _
  · rfl

include good lawful in
theorem Clean.ingest (window : WindowInv cfg dec) (clean : Clean i dec)
    (isBlock : i < chunkCount cfg.codec src)
    (announced : (chunk cfg.codec src i).length % 2 ^ 16 ≠ 0) :
    Advanced fr i 1 dec (wireFlowDecoderIngest cfg dec (shardDatagram tx fr i 0).1
      (shardDatagram tx fr i 0).2).2 := by
  have isShard : 0 < cfg.codec.dataShards + cfg.codec.parityShards :=
    Nat.add_pos_left good.dataPositive _
  have wellFormed : dataMalformed cfg (shardDatagram tx fr i 0).1
      (shardDatagram tx fr i 0).2 = false := shard_wellFormed good lawful announced isShard
  have seenWindow : WindowInv cfg (seenDatagram dec) := window.of_same rfl rfl
  have atHead : (shardDatagram tx fr i 0).1.blockId = (seenDatagram dec).nextEmitBlock :=
    clean.next_eq.symm
  have inWin : blockInReorderWindow (shardDatagram tx fr i 0).1.blockId
      (seenDatagram dec).nextEmitBlock = true := by rw [atHead, blockInReorderWindow_head]
  obtain ⟨⟨slot, _⟩, found⟩ := Option.ne_none_iff_exists'.mp
    (openGroup_ne_none lawful seenWindow inWin)
  have openedWindow := (openGroup_moves _ wellFormed inWin found).1.windowInv seenWindow
  obtain ⟨filling, output_eq, heads_eq⟩ := (clean.restat _).opened good tx isBlock 0 found
  obtain ⟨_, done, advanced⟩ :=
    filling.ingestShard good lawful tx openedWindow announced isShard
  rw [ingest_shard_eq tx clean.running wellFormed, placeDatagram_head atHead found, done]
  cases advanced with
  | filling slot filling output_same heads_same =>
    exact .filling slot filling (output_same.trans output_eq) (heads_same.trans heads_eq)
  | written after output_more heads_more =>
    exact .written after (by rw [output_more, output_eq]) (by rw [heads_more, heads_eq])

include good lawful in
theorem Filling.ingest (window : WindowInv cfg dec) (filling : Filling fr i s slot dec)
    (announced : (chunk cfg.codec src i).length % 2 ^ 16 ≠ 0)
    (isShard : s < cfg.codec.dataShards + cfg.codec.parityShards) :
    Advanced fr i (s + 1) dec (wireFlowDecoderIngest cfg dec
      (shardDatagram tx fr i s).1 (shardDatagram tx fr i s).2).2 := by
  have wellFormed : dataMalformed cfg (shardDatagram tx fr i s).1
      (shardDatagram tx fr i s).2 = false := shard_wellFormed good lawful announced isShard
  have atHead := filling.next_eq.symm
  have found : findGroup (seenDatagram dec).groups (shardDatagram tx fr i s).1.blockId =
      some slot := by
    cases first : findGroup (seenDatagram dec).groups (shardDatagram tx fr i s).1.blockId with
    | none =>
      exact absurd filling.frame.blockId_eq
        (findGroup_none first slot (by simp [seenDatagram, filling.active]))
    | some other =>
      have occ := (findGroup_some first).1
      by_contra differs
      exact occ (filling.others other fun same => differs (congrArg some same))
  have opened : openGroup (seenDatagram dec) (shardDatagram tx fr i s).1 =
      some (slot, seenDatagram dec) := by rw [openGroup, found]
  have seenFilling : Filling fr i s slot (seenDatagram dec) := filling.restat _
  have seenWindow : WindowInv cfg (seenDatagram dec) := window.of_same rfl rfl
  obtain ⟨_, done, advanced⟩ :=
    seenFilling.ingestShard good lawful tx seenWindow announced isShard
  rw [ingest_shard_eq tx filling.running wellFormed, placeDatagram_head atHead opened, done]
  cases advanced with
  | filling slot filling output_same heads_same => exact .filling slot filling output_same heads_same
  | written after output_more heads_more => exact .written after output_more heads_more

include good lawful in
theorem Clean.late (clean : Clean (i + 1) dec) (fits : i + 1 < 2 ^ 64)
    (announced : (chunk cfg.codec src i).length % 2 ^ 16 ≠ 0)
    (isShard : s < cfg.codec.dataShards + cfg.codec.parityShards) :
    ∃ stats, (wireFlowDecoderIngest cfg dec (shardDatagram tx fr i s).1
      (shardDatagram tx fr i s).2).2 = { dec with stats := stats } := by
  have wellFormed : dataMalformed cfg (shardDatagram tx fr i s).1
      (shardDatagram tx fr i s).2 = false := shard_wellFormed good lawful announced isShard
  have passed : (shardDatagram tx fr i s).1.blockId < (seenDatagram dec).nextEmitBlock := by
    show UInt64.ofNat i < dec.nextEmitBlock
    rw [clean.next_eq, UInt64.lt_iff_toNat_lt, UInt64.toNat_ofNat', UInt64.toNat_ofNat',
      Nat.mod_eq_of_lt (by omega), Nat.mod_eq_of_lt fits]
    exact Nat.lt_succ_self i
  rw [ingest_shard_eq tx clean.running wellFormed, placeDatagram, if_pos passed]
  exact ⟨_, rfl⟩

theorem ingestAll_append_singleton (dec : WireFlowDecoder) (datagrams : List Datagram)
    (dgram : Datagram) :
    ingestAll cfg dec (datagrams ++ [dgram]) =
      (wireFlowDecoderIngest cfg (ingestAll cfg dec datagrams) dgram.1 dgram.2).2 := by
  rw [ingestAll, foldl_append]
  rfl

include good lawful in
theorem ingestAll_shards (window : WindowInv cfg dec) (clean : Clean i dec)
    (isBlock : i < chunkCount cfg.codec src) (fits : i + 1 < 2 ^ 64)
    (announced : (chunk cfg.codec src i).length % 2 ^ 16 ≠ 0) (s : Nat)
    (isShard : s < cfg.codec.dataShards + cfg.codec.parityShards) :
    Advanced fr i (s + 1) dec
      (ingestAll cfg dec ((List.range (s + 1)).map (shardDatagram tx fr i))) := by
  induction s with
  | zero => exact clean.ingest good lawful tx window isBlock announced
  | succ s ih =>
    have reached := ingestAll_windowInv good
      ((List.range (s + 1)).map (shardDatagram tx fr i)) dec window
    rw [range_succ, map_append, map_singleton, ingestAll_append_singleton]
    cases ih (by omega) with
    | filling slot filling output_eq heads_eq =>
      cases filling.ingest good lawful tx reached announced isShard with
      | filling slot filling output_same heads_same =>
        exact .filling slot filling (output_same.trans output_eq) (heads_same.trans heads_eq)
      | written after output_more heads_more =>
        exact .written after (output_more.trans (by rw [output_eq]))
          (heads_more.trans (by rw [heads_eq]))
    | written after output_eq heads_eq =>
      obtain ⟨stats, later_eq⟩ := after.late good lawful tx fits announced isShard
      rw [later_eq]
      exact .written (after.restat stats) output_eq heads_eq

include good in
theorem Filling.incomplete (window : WindowInv cfg dec) :
    ¬ Filling fr i (cfg.codec.dataShards + cfg.codec.parityShards) slot dec := by
  intro filling
  have total := groupTotal good (window.group slot (by simp [filling.active]))
  have few := filling.few
  have every : presentShards (dec.groups slot).receivedBits
      (cfg.codec.dataShards + cfg.codec.parityShards) =
        Finset.range (cfg.codec.dataShards + cfg.codec.parityShards) := by
    refine Finset.filter_true_of_mem ?_
    intro t mem
    rw [filling.bits_eq]
    exact decide_eq_true (Finset.mem_range.mp mem)
  rw [groupReceivedCount, presentCount_eq_card, total, every, Finset.card_range] at few
  omega

include good lawful in
theorem ingestAll_block (window : WindowInv cfg dec) (clean : Clean i dec)
    (isBlock : i < chunkCount cfg.codec src) (fits : i + 1 < 2 ^ 64)
    (announced : (chunk cfg.codec src i).length % 2 ^ 16 ≠ 0) :
    let later := ingestAll cfg dec (arrivedBlock tx fr i)
    Clean (i + 1) later ∧ later.output = dec.output ++ [announcedBytes cfg.codec src i] := by
  intro later
  have pos := good.dataPositive
  obtain ⟨last, last_eq⟩ : ∃ last, cfg.codec.dataShards + cfg.codec.parityShards = last + 1 :=
    Nat.exists_eq_succ_of_ne_zero (by omega)
  have advanced : Advanced fr i (last + 1) dec _ :=
    ingestAll_shards good lawful tx window clean isBlock fits announced last (by omega)
  rw [← last_eq] at advanced
  cases advanced with
  | filling _ filling =>
    exact absurd filling (Filling.incomplete good (ingestAll_windowInv good _ dec window))
  | written after output_eq => exact ⟨after, output_eq⟩

omit lawful in
theorem ingestAll_unannounced (dec : WireFlowDecoder) (i : Nat) (running : dec.complete = false)
    (unannounced : (chunk cfg.codec src i).length % 2 ^ 16 = 0) (shards : List Nat) :
    ∃ stats, ingestAll cfg dec (shards.map (shardDatagram tx fr i)) =
      { dec with stats := stats } := by
  induction shards generalizing dec with
  | nil => exact ⟨dec.stats, rfl⟩
  | cons s _ ih =>
    have differ : ¬ (shardDatagram tx fr i s).1.type = WIRE_TYPE_END := by
      show ¬ WIRE_TYPE_DATA = WIRE_TYPE_END
      decide
    have noLength : (shardDatagram tx fr i s).1.validLen = 0 := by
      apply UInt16.toNat_inj.mp
      exact UInt16.toNat_ofNat'.trans unannounced
    have malformed : dataMalformed cfg (shardDatagram tx fr i s).1
        (shardDatagram tx fr i s).2 = true :=
      decide_eq_true (.inr (.inr (.inr (.inl noLength))))
    obtain ⟨stats, later_eq⟩ := ih (malformedDatagram dec) running
    refine ⟨stats, ?_⟩
    rw [map_cons, ingestAll, foldl_cons, wireFlowDecoderIngest,
      if_neg (by simp [running]), if_neg differ, ingestData, malformed, if_pos rfl]
    exact later_eq

end Shard

section Run

variable {cfg : WireFlowDecoderConfig} (good : GoodConfig cfg)
  (lawful : LawfulCodec cfg.codec) {src : List UInt8}
  {fr : Framing cfg.codec src} (tx : TxConfig)

include good lawful in
theorem ingestAll_blocks (fits : chunkCount cfg.codec src < 2 ^ 64) (count : Nat)
    (areBlocks : count ≤ chunkCount cfg.codec src)
    (announced : ∀ i < count, (chunk cfg.codec src i).length % 2 ^ 16 ≠ 0) :
    let later := ingestAll cfg freshDecoder ((List.range count).flatMap (arrivedBlock tx fr))
    Clean count later ∧
      later.output.flatten = (List.range count).flatMap (announcedBytes cfg.codec src) := by
  induction count with
  | zero => exact ⟨freshDecoder_clean, rfl⟩
  | succ count ih =>
    obtain ⟨clean, output_eq⟩ := ih (by omega) fun i less => announced i (by omega)
    have window := ingestAll_windowInv good
      ((List.range count).flatMap (arrivedBlock tx fr)) freshDecoder
      (freshDecoder_windowInv cfg)
    obtain ⟨after, output_more⟩ := ingestAll_block good lawful tx window clean (by omega)
      (by omega) (announced count (by omega))
    have later_eq : ingestAll cfg freshDecoder
        ((List.range (count + 1)).flatMap (arrivedBlock tx fr)) =
        ingestAll cfg (ingestAll cfg freshDecoder ((List.range count).flatMap (arrivedBlock tx fr)))
          (arrivedBlock tx fr count) := by
      rw [range_succ, flatMap_append, flatMap_singleton, ingestAll, foldl_append]
      rfl
    rw [later_eq]
    refine ⟨after, ?_⟩
    rw [output_more, flatten_append, flatten_singleton, output_eq, range_succ,
      flatMap_append, flatMap_singleton]

include good in
theorem ingest_last_output {dec : WireFlowDecoder} (window : WindowInv cfg dec)
    (empty : ∀ slot, (dec.groups slot).state = .empty) :
    (wireFlowDecoderIngest cfg dec (endDatagram tx cfg.codec src).1
      (endDatagram tx cfg.codec src).2).2.output.flatten = dec.output.flatten := by
  obtain ⟨later, done, moves⟩ := ingest_moves good (endDatagram tx cfg.codec src) dec window
  rw [done]
  refine (Moves.induction (fun later => (∀ slot, (later.groups slot).state = .empty) ∧
    later.output.flatten = dec.output.flatten) ?_ window ⟨empty, rfl⟩ moves).2
  have noData : dataMalformed cfg (endDatagram tx cfg.codec src).1
      (endDatagram tx cfg.codec src).2 ≠ false := by
    have differ : WIRE_TYPE_END ≠ WIRE_TYPE_DATA := by decide
    simp [dataMalformed, endDatagram, endHeader, differ]
  rintro dec later _ ⟨empty, output_eq⟩ move
  cases move with
  | head _ _ _ moved =>
    have missing : findGroup dec.groups dec.nextEmitBlock = none :=
      List.find?_eq_none.mpr fun slot _ => by simp [empty slot]
    rw [missing] at moved
    cases moved with
    | skipped _ _ _ skipped =>
      obtain ⟨_, more, nothing⟩ := skipped.output_eq
      refine ⟨?_, ?_⟩
      · rw [skipped.groups_eq]
        exact empty
      · rw [more, flatten_append, length_eq_zero_iff.mp (Nat.le_zero.mp nothing),
          append_nil, output_eq]
  | attempt slot _ _ _ active =>
    rw [empty slot] at active
    cases active
  | opened _ _ _ wellFormed | stored _ wellFormed => exact absurd wellFormed noData
  | counted | announced | finished => exact ⟨empty, output_eq⟩

end Run

end MultiFlow.Stream
