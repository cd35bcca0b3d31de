import MultiFlow.Wire.Stream
import MultiFlow.Wire.Work

/-!
# A strict decoder completes

No shard that arrives inside the window is lost: it is in its group until the head has
passed its block (`Gathered`), a group is recovered by its `k`-th shard, and the head never
waits at a recovered group.  With `k` shards of every block the head is therefore at the
end when the END arrives.
-/

namespace MultiFlow.Stream

open CodecApi FlowDecoder Lib Sender Wire Function

def Gathered (dec : WireFlowDecoder) (i s : Nat) : Prop :=
  i < dec.nextEmitBlock.toNat ∨ ∃ slot, (dec.groups slot).state ≠ .empty ∧
    (dec.groups slot).blockId.toNat = i ∧
    ((dec.groups slot).state = .recovered ∨ (dec.groups slot).receivedBits s = true)

/-- A strict decoder before the END: groups are either short of shards or recovered. -/
structure LiveInv {config : WireFlowDecoderConfig} {source : List UInt8}
    (framing : Framing config.codec source) (dec : WireFlowDecoder) : Prop where
  strictInv : StrictInv framing dec
  notFailed : ∀ slot, (dec.groups slot).state ≠ .failed
  short : ∀ slot, (dec.groups slot).state = .active →
    groupReceivedCount (dec.groups slot) < config.codec.dataShards ∧
      (dec.groups slot).lastRecoveryCount = 0
  endSeen_eq : dec.endSeen = false
  complete_eq : dec.complete = false

def HeadWaits (dec : WireFlowDecoder) : Prop :=
  headRecovered dec (findGroup dec.groups dec.nextEmitBlock) = false

theorem freshDecoder_liveInv {cfg : WireFlowDecoderConfig} {src : List UInt8}
    {fr : Framing cfg.codec src} : LiveInv fr freshDecoder :=
  ⟨freshDecoder_strictInv, fun _ => (nofun), fun _ => (nofun), rfl, rfl⟩

theorem freshDecoder_headWaits : HeadWaits freshDecoder := by
  have missing : findGroup freshDecoder.groups freshDecoder.nextEmitBlock = none :=
    List.find?_eq_none.mpr fun slot _ => (by simp [freshDecoder, releasedGroup])
  rw [HeadWaits, missing]
  rfl

section Live

variable {config : WireFlowDecoderConfig} (good : GoodConfig config)
  (lawful : LawfulCodec config.codec) {source : List UInt8}
  {framing : Framing config.codec source} {tx : TxConfig}
  (small : config.codec.inputBlockSize ≤ 65535)
  (fits : chunkCount config.codec source < 2 ^ 64)

variable {dec : WireFlowDecoder} {slot : Slot} {i s : Nat} {later : WireFlowDecoder}
  {group : WireGroup}

theorem LiveInv.restat (inv : LiveInv framing dec) (stats : WireFlowDecoderStats) :
    LiveInv framing { dec with stats := stats } :=
  ⟨⟨inv.strictInv.groups, inv.strictInv.next_le, inv.strictInv.output_eq,
    inv.strictInv.endCount_eq, inv.strictInv.complete_eq⟩, inv.notFailed, inv.short,
    inv.endSeen_eq, inv.complete_eq⟩

theorem LiveInv.update (inv : LiveInv framing dec) (strictInv : StrictInv framing later)
    (groups_eq : later.groups = Function.update dec.groups slot group)
    (endSeen_eq : later.endSeen = dec.endSeen) (complete_eq : later.complete = dec.complete)
    (notFailed : group.state ≠ .failed)
    (short : group.state = .active →
      groupReceivedCount group < config.codec.dataShards ∧ group.lastRecoveryCount = 0) :
    LiveInv framing later := by
  refine ⟨strictInv, ?_, ?_, endSeen_eq.trans inv.endSeen_eq, complete_eq.trans inv.complete_eq⟩
  · intro other
    by_cases same : other = slot
    · rw [groups_eq, same, update_self]
      exact notFailed
    · rw [groups_eq, update_of_ne same]
      exact inv.notFailed other
  · intro other
    by_cases same : other = slot
    · rw [groups_eq, same, update_self]
      exact short
    · rw [groups_eq, update_of_ne same]
      exact inv.short other

theorem Gathered.update (groups_eq : later.groups = Function.update dec.groups slot group)
    (next_eq : later.nextEmitBlock = dec.nextEmitBlock)
    (more : (dec.groups slot).state ≠ .empty → group.state ≠ .empty ∧
      group.blockId = (dec.groups slot).blockId ∧
      ((dec.groups slot).state = .recovered → group.state = .recovered) ∧
      ∀ s, (dec.groups slot).receivedBits s = true →
        group.state = .recovered ∨ group.receivedBits s = true) (gathered : Gathered dec i s) :
    Gathered later i s := by
  rcases gathered with before | ⟨other, occ, blockId_eq, inGroup⟩
  · left
    rw [next_eq]
    exact before
  right
  refine ⟨other, ?_⟩
  by_cases same : other = slot
  · subst same
    obtain ⟨stillOccupied, sameBlock, ready, bits⟩ := more occ
    rw [groups_eq, update_self]
    refine ⟨stillOccupied, by rw [sameBlock, blockId_eq], ?_⟩
    rcases inGroup with recovered | received
    · exact Or.inl (ready recovered)
    · exact bits s received
  · rw [groups_eq, update_of_ne same]
    exact ⟨occ, blockId_eq, inGroup⟩

theorem HeadWaits.opened {opened : WireFlowDecoder} {hdr : WireHeader}
    (window : WindowInv config dec) (waits : HeadWaits dec)
    (found : openGroup dec hdr = some (slot, opened)) : HeadWaits opened := by
  rcases openGroup_cases found with ⟨_, rfl⟩ | ⟨_, _, opened_eq⟩
  · exact waits
  have groups_eq : opened.groups = Function.update dec.groups slot
      (newGroup hdr.blockId hdr.shardCount hdr.validLen hdr.encodeBeginNs hdr.encodeEndNs) := by
    rw [opened_eq]
    rfl
  have next_eq : opened.nextEmitBlock = dec.nextEmitBlock := by
    rw [opened_eq]
    rfl
  rw [HeadWaits, next_eq]
  cases head : findGroup opened.groups dec.nextEmitBlock with
  | none => rfl
  | some other =>
    obtain ⟨occ, atHead⟩ := findGroup_some head
    refine decide_eq_false ?_
    rw [groups_eq] at occ atHead ⊢
    by_cases same : other = slot
    · rw [same, update_self]
      exact (nofun)
    rw [update_of_ne same] at occ atHead ⊢
    rw [HeadWaits] at waits
    cases before : findGroup dec.groups dec.nextEmitBlock with
    | none => exact absurd atHead (findGroup_none before other occ)
    | some first =>
      obtain ⟨firstOccupied, firstAtHead⟩ := findGroup_some before
      have unique := window.distinct other first occ firstOccupied
        (atHead.trans firstAtHead.symm)
      rw [before] at waits
      rw [unique]
      exact of_decide_eq_false waits

/-- A decoder that has stored shard `s` of block `i` in a group and tried to recover it:
the group is recovered, or it is still short of `k` shards. -/
structure StoredShard (framing : Framing config.codec source) (i s : Nat)
    (opened later : WireFlowDecoder) (slot : Slot) (group : WireGroup) : Prop where
  groups_eq : later.groups = Function.update opened.groups slot group
  frame : Frame framing i group
  next_eq : later.nextEmitBlock = opened.nextEmitBlock
  endSeen_eq : later.endSeen = opened.endSeen
  complete_eq : later.complete = opened.complete
  output_eq : later.output = opened.output
  heads_eq : later.heads = opened.heads
  outcome : group.state = .recovered ∨
    group.state = .active ∧
      group.receivedBits = presentSet (opened.groups slot).receivedBits s ∧
      groupReceivedCount group < config.codec.dataShards ∧ group.lastRecoveryCount = 0

theorem Gathered.emitted (fits : chunkCount config.codec source < 2 ^ 64)
    (inv : StrictInv framing dec)
    (found : findGroup dec.groups dec.nextEmitBlock = some slot) (gathered : Gathered dec i s) :
    Gathered { afterWrite config dec slot with nextEmitBlock := dec.nextEmitBlock + 1 } i s := by
  obtain ⟨j, frame, _⟩ := inv.atHead fits found
  have passed : ∀ t, t ≤ j → Gathered
      { afterWrite config dec slot with nextEmitBlock := dec.nextEmitBlock + 1 } t s := by
    intro t _
    left
    show t < (dec.nextEmitBlock + 1).toNat
    omega
  rcases gathered with _ | ⟨other, occ, blockId_eq, inGroup⟩
  · exact passed i (by omega)
  by_cases same : other = slot
  · refine passed i ?_
    rw [same, frame.blockId_eq, toNat_blockId fits (le_of_lt frame.isBlock)] at blockId_eq
    omega
  right
  refine ⟨other, ?_⟩
  show (Function.update dec.groups slot releasedGroup other).state ≠ .empty ∧
    (Function.update dec.groups slot releasedGroup other).blockId.toNat = i ∧
    ((Function.update dec.groups slot releasedGroup other).state = .recovered ∨
      (Function.update dec.groups slot releasedGroup other).receivedBits s = true)
  rw [update_of_ne same]
  exact ⟨occ, blockId_eq, inGroup⟩

theorem openGroup_ne_none (lawful : LawfulCodec config.codec) (window : WindowInv config dec)
    (inWin : blockInReorderWindow (UInt64.ofNat i) dec.nextEmitBlock = true) :
    openGroup dec (shardDatagram tx framing i s).1 ≠ none := by
  intro full
  obtain ⟨_, _, _, _, shards⟩ := lawful_sizes lawful
  unfold openGroup at full
  split at full
  · cases full
  rename_i missing
  have allocated := allocateGroup_of_missing window (UInt64.ofNat i) (wireShardCount config.codec)
    (shardDatagram tx framing i s).1.validLen (framing.times i).1 (framing.times i).2
    (wireShardCount_ne_zero lawful) (by rw [shards]; exact lawful.shards_le) inWin missing
  split at full
  · rename_i noSlot
    have refused : allocateGroup dec.groups (UInt64.ofNat i) (wireShardCount config.codec)
        (shardDatagram tx framing i s).1.validLen (framing.times i).1 (framing.times i).2 =
          none := noSlot
    rw [refused] at allocated
    cases allocated
  · cases full

theorem chunk_announced (lawful : LawfulCodec config.codec) (small : config.codec.inputBlockSize ≤ 65535)
    (isBlock : i < chunkCount config.codec source) :
    (chunk config.codec source i).length % 2 ^ 16 ≠ 0 := by
  have pos := (lawful_sizes lawful).1
  have ne := chunk_ne_nil config.codec source pos isBlock
  have most := length_chunk_le config.codec source i
  rw [Nat.mod_eq_of_lt (by omega)]
  omega

section Good

include good

theorem groupReceivedCount_newGroup (blockId : UInt64) (validLen : UInt16)
    (encodeBeginNs encodeEndNs : UInt64) (shardCount : UInt16) :
    groupReceivedCount (newGroup blockId shardCount validLen encodeBeginNs encodeEndNs) <
      config.codec.dataShards := by
  have none_present : presentShards presentNone shardCount.toNat = ∅ := by
    simp [presentShards, presentNone]
  have empty : groupReceivedCount
      (newGroup blockId shardCount validLen encodeBeginNs encodeEndNs) = 0 := by
    rw [groupReceivedCount, presentCount_eq_card]
    exact Finset.card_eq_zero.mpr none_present
  rw [empty]
  exact good.dataPositive

theorem LiveInv.opened {opened : WireFlowDecoder} {hdr : WireHeader} (inv : LiveInv framing dec)
    (strictInv : StrictInv framing opened) (found : openGroup dec hdr = some (slot, opened)) :
    LiveInv framing opened ∧ ∀ i s, Gathered dec i s → Gathered opened i s := by
  rcases openGroup_cases found with ⟨_, rfl⟩ | ⟨_, allocated, rfl⟩
  · exact ⟨inv, fun _ _ gathered => gathered⟩
  obtain ⟨free, _⟩ := allocateGroup_some allocated
  refine ⟨inv.update strictInv rfl rfl rfl (nofun) fun _ =>
    ⟨groupReceivedCount_newGroup good _ _ _ _ _, rfl⟩, ?_⟩
  intro _ _ gathered
  have groups_eq : ∀ group, (dec.setGroup slot group).groups =
      Function.update dec.groups slot group := fun _ => rfl
  exact gathered.update (groups_eq _) rfl fun occ => absurd free occ

end Good

section Lawful

include good lawful

theorem attempt_short {res : WireRecoverResult}
    (groupInv : GroupInv config dec.nextEmitBlock (dec.groups slot))
    (frame : Frame framing i (dec.groups slot)) (active : (dec.groups slot).state = .active)
    (untried : (dec.groups slot).lastRecoveryCount = 0)
    (attempted : Attempted config dec slot false (res, later)) :
    (later.groups slot).state = .recovered ∨
      (later.groups slot).state = .active ∧
        (later.groups slot).receivedBits = (dec.groups slot).receivedBits ∧
        groupReceivedCount (later.groups slot) < config.codec.dataShards ∧
        (later.groups slot).lastRecoveryCount = 0 := by
  have pos := good.dataPositive
  cases attempted with
  | ready _ _ attempt state_eq =>
    left
    rw [attempt.groups_eq, update_self]
    exact state_eq
  | missed _ _ group attempt _ state_eq bits_eq incomplete _ cause =>
    right
    have count_eq : groupReceivedCount group = groupReceivedCount (dec.groups slot) := by
      rw [groupReceivedCount, groupReceivedCount, bits_eq, attempt.same.shardCount_eq]
    rw [attempt.groups_eq, update_self, count_eq]
    rcases cause with ⟨_, last_eq, few | few | ⟨_, _⟩⟩ | ⟨enough, _, failed, outcome⟩
    · omega
    · exact ⟨state_eq, bits_eq, few, last_eq.trans untried⟩
    · exact ⟨state_eq, bits_eq, by omega, last_eq.trans untried⟩
    obtain ⟨_, recovered, _⟩ := codecRecover_honest good lawful groupInv
      (frame.carries active) incomplete enough
    exact absurd (congrArg Prod.fst (outcome.symm.trans recovered)) failed

theorem tryRecoverGroup_stored (tx : TxConfig) {opened : WireFlowDecoder} (s : Nat)
    (groupInv : GroupInv config opened.nextEmitBlock (opened.groups slot))
    (frame : Frame framing i (opened.groups slot)) (active : (opened.groups slot).state = .active)
    (untried : (opened.groups slot).lastRecoveryCount = 0) :
    ∃ group, StoredShard framing i s opened (tryRecoverGroup config
      (storeShard opened slot s (shardDatagram tx framing i s).2) slot false).2 slot group := by
  have stored_eq : (storeShard opened slot s (shardDatagram tx framing i s).2).groups slot =
      { opened.groups slot with
        data := Grid.modify (fun t b => t = s ∧ b < PKG_SIZE)
          (fun _ b _ => (shardDatagram tx framing i s).2.getD b 0) (opened.groups slot).data
        receivedBits := presentSet (opened.groups slot).receivedBits s } := by
    simp [storeShard, WireFlowDecoder.setGroup]
  have replaced : ∀ group, Function.update
      (storeShard opened slot s (shardDatagram tx framing i s).2).groups slot group =
        Function.update opened.groups slot group := by
    intro group
    simp [storeShard, WireFlowDecoder.setGroup]
  generalize stored : storeShard opened slot s (shardDatagram tx framing i s).2 = dec at *
  have stillActive : (dec.groups slot).state = .active := by rw [stored_eq, active]
  have storedFrame : Frame framing i (dec.groups slot) := by
    rw [stored_eq]
    exact frame.stored tx active
  have storedInv : GroupInv config dec.nextEmitBlock (dec.groups slot) := by
    rw [stored_eq, ← stored]
    exact groupInv.of_sameBlock ⟨rfl, rfl, rfl, rfl, rfl⟩ groupInv.notEmitted
  have storedUntried : (dec.groups slot).lastRecoveryCount = 0 := by rw [stored_eq, untried]
  have attempted := tryRecoverGroup_active config dec slot false stillActive
  have laterFrame := storedFrame.attempted good lawful storedInv stillActive attempted
  have outcome := attempt_short good lawful storedInv storedFrame stillActive storedUntried
    attempted
  obtain ⟨group, attempt⟩ := attempted.attempt
  rw [attempt.groups_eq, update_self] at laterFrame outcome
  rw [stored_eq] at outcome
  subst stored
  exact ⟨group, attempt.groups_eq.trans (replaced group), laterFrame, attempt.next_eq,
    attempt.endSeen_eq, attempt.complete_eq, attempt.output_eq, attempt.heads_eq, outcome⟩

theorem wireShardCount_eq : wireShardCount config.codec = config.expectedShards := by
  obtain ⟨_, _, _, _, shards⟩ := lawful_sizes lawful
  apply UInt16.toNat_inj.mp
  rw [shards, good.shards_eq]

theorem shard_wellFormed (announced : (chunk config.codec source i).length % 2 ^ 16 ≠ 0)
    (isShard : s < config.codec.dataShards + config.codec.parityShards) :
    dataMalformed config (shardDatagram tx framing i s).1 (shardDatagram tx framing i s).2 =
      false := by
  obtain ⟨_⟩ := lawful_sizes lawful
  have index_eq : (shardDatagram tx framing i s).1.shardIndex.toNat = s :=
    shardIndex_toNat lawful i isShard
  have len_eq : (shardDatagram tx framing i s).1.validLen.toNat =
      (chunk config.codec source i).length % 2 ^ 16 := UInt16.toNat_ofNat'
  have most := length_chunk_le config.codec source i
  rw [dataMalformed, decide_eq_false_iff_not]
  push Not
  have payload_eq : (UInt16.ofNat PKG_SIZE).toNat = PKG_SIZE := by decide
  have payload_length : (shardDatagram tx framing i s).2.length = PKG_SIZE := by
    rw [shardDatagram, length_shardPayload]
  refine ⟨rfl, wireShardCount_eq good lawful, ?_, ?_, ?_, payload_eq, ?_⟩
  · rw [UInt16.le_iff_toNat_le, index_eq]
    show ¬ (wireShardCount config.codec).toNat ≤ s
    omega
  · intro zero
    rw [zero] at len_eq
    exact announced len_eq.symm
  · rw [len_eq, good.inputSize_eq]
    exact (Nat.mod_le _ _).trans most
  · rw [payload_length]

theorem shard_matches {next : UInt64} (groupInv : GroupInv config next group)
    (frame : Frame framing i group)
    (isShard : s < config.codec.dataShards + config.codec.parityShards) :
    groupMismatch group (shardDatagram tx framing i s).1 = false := by
  have index_eq : (shardDatagram tx framing i s).1.shardIndex.toNat = s :=
    shardIndex_toNat lawful i isShard
  have total := groupTotal good groupInv
  rw [groupMismatch, decide_eq_false_iff_not]
  push Not
  refine ⟨?_, frame.validLen_eq, frame.begin_eq, frame.end_eq, ?_⟩
  · rw [groupInv.shardCount_eq, ← wireShardCount_eq good lawful]
    rfl
  · rw [UInt16.le_iff_toNat_le, index_eq]
    omega

end Lawful

include good lawful small fits

theorem LiveInv.emitted (window : WindowInv config dec) (inv : LiveInv framing dec)
    (found : findGroup dec.groups dec.nextEmitBlock = some slot)
    (ready : (dec.groups slot).state = .recovered) :
    LiveInv framing { afterWrite config dec slot with nextEmitBlock := dec.nextEmitBlock + 1 } := by
  refine ⟨inv.strictInv.emitted good lawful small fits window found ready, ?_, ?_,
    inv.endSeen_eq, inv.complete_eq⟩
  · intro other
    show (Function.update dec.groups slot releasedGroup other).state ≠ .failed
    by_cases same : other = slot
    · rw [same, update_self]
      decide
    · rw [update_of_ne same]
      exact inv.notFailed other
  · intro other
    show (Function.update dec.groups slot releasedGroup other).state = .active →
      groupReceivedCount (Function.update dec.groups slot releasedGroup other) < _ ∧
        (Function.update dec.groups slot releasedGroup other).lastRecoveryCount = 0
    by_cases same : other = slot
    · rw [same, update_self]
      exact (nofun)
    · rw [update_of_ne same]
      exact inv.short other

theorem LiveInv.emission (strict : config.bestEffort = false) (window : WindowInv config dec)
    (inv : LiveInv framing dec) :
    ∃ later, tryEmitFromHead config dec = (0, later) ∧ LiveInv framing later ∧
      HeadWaits later ∧ ∀ i s, Gathered dec i s → Gathered later i s := by
  obtain ⟨later, emitted, _, stuck, laterInv, kept⟩ := tryEmitFromHead_induction good dec window
    (fun cur => LiveInv framing cur ∧ ∀ i s, Gathered dec i s → Gathered cur i s)
    ⟨inv, fun _ _ gathered => gathered⟩
    (by
      intro _ _ _ currentWindow ⟨currentInv, currentKept⟩ undone movable moved
      have ready := (headMovable_allowed movable undone).resolve_left (by simp [strict])
      obtain ⟨_, found, state_eq, rfl⟩ := HeadMoved.of_recovered moved ready
      refine ⟨currentInv.emitted good lawful small fits currentWindow found state_eq, ?_⟩
      intro i s gathered
      exact (currentKept i s gathered).emitted fits currentInv.strictInv found)
  refine ⟨later, emitted, laterInv, ?_, kept⟩
  rcases stuck with ⟨ended, _⟩ | immovable
  · rw [laterInv.endSeen_eq] at ended
    cases ended
  · simp only [headMovable, Bool.or_eq_false_iff] at immovable
    exact immovable.1.1

theorem LiveInv.stored (strict : config.bestEffort = false) {opened : WireFlowDecoder}
    (window : WindowInv config opened) (inv : LiveInv framing opened)
    (isBlock : i < chunkCount config.codec source)
    (isShard : s < config.codec.dataShards + config.codec.parityShards)
    (wellFormed : dataMalformed config (shardDatagram tx framing i s).1
      (shardDatagram tx framing i s).2 = false) (active : (opened.groups slot).state = .active)
    (blockId_eq : (opened.groups slot).blockId = UInt64.ofNat i)
    (matching : groupMismatch (opened.groups slot) (shardDatagram tx framing i s).1 = false)
    (absent : (opened.groups slot).receivedBits s = false) :
    let later := (tryRecoverGroup config
      (storeShard opened slot s (shardDatagram tx framing i s).2) slot false).2
    WindowInv config later ∧ LiveInv framing later ∧
      (∀ j t, Gathered opened j t → Gathered later j t) ∧ Gathered later i s := by
  intro later
  have honest : Honest tx framing (shardDatagram tx framing i s) := .shard i s isBlock isShard
  have moves : Moves config (shardDatagram tx framing i s) opened later := by
    have index_eq : (shardDatagram tx framing i s).1.shardIndex.toNat = s :=
      shardIndex_toNat lawful i isShard
    have moves := storedAttempt_moves (shardDatagram tx framing i s) wellFormed active blockId_eq
      matching (by rw [index_eq, absent])
    rwa [index_eq] at moves
  have laterStrict : StrictInv framing later := Moves.induction (StrictInv framing)
    (fun _ _ window inv move => inv.move good lawful small fits strict honest window move)
    window inv.strictInv moves
  have occ : (opened.groups slot).state ≠ .empty := by simp [active]
  obtain ⟨j, frame⟩ := inv.strictInv.groups slot occ
  have same : j = i := blockId_inj fits frame.isBlock isBlock
    (frame.blockId_eq.symm.trans blockId_eq)
  subst same
  obtain ⟨group, stored⟩ := tryRecoverGroup_stored good lawful tx s
    (window.group slot occ) frame active (inv.short slot active).2
  have groups_eq := stored.groups_eq
  have sameBlock : group.blockId = (opened.groups slot).blockId := by
    rw [stored.frame.blockId_eq, blockId_eq]
  refine ⟨moves.windowInv window, ?_, ?_, ?_⟩
  · refine inv.update laterStrict groups_eq stored.endSeen_eq stored.complete_eq ?_ ?_
    · rcases stored.outcome with recovered | ⟨stays, _⟩
      · simp [recovered]
      · simp [stays]
    · intro stays
      rcases stored.outcome with recovered | ⟨_, _, few, untried⟩
      · rw [recovered] at stays
        cases stays
      · exact ⟨few, untried⟩
  · intro _ t gathered
    refine gathered.update groups_eq stored.next_eq ?_
    intro _
    rcases stored.outcome with recovered | ⟨stays, bits_eq, _⟩
    · exact ⟨by simp [recovered], sameBlock, fun _ => recovered, fun _ _ => Or.inl recovered⟩
    refine ⟨by simp [stays], sameBlock, ?_, ?_⟩
    · intro recovered
      rw [active] at recovered
      cases recovered
    · intro _ received
      right
      rw [bits_eq]
      simp [presentSet, received]
  · right
    refine ⟨slot, ?_⟩
    rw [groups_eq, update_self]
    have blockId_toNat : group.blockId.toNat = j := by
      rw [sameBlock, blockId_eq, toNat_blockId fits (le_of_lt isBlock)]
    rcases stored.outcome with recovered | ⟨stays, bits_eq, _⟩
    · exact ⟨by simp [recovered], blockId_toNat, Or.inl recovered⟩
    refine ⟨by simp [stays], blockId_toNat, Or.inr ?_⟩
    rw [bits_eq]
    simp [presentSet]

theorem LiveInv.ingest (strict : config.bestEffort = false) (window : WindowInv config dec)
    (inv : LiveInv framing dec) (waits : HeadWaits dec)
    (isBlock : i < chunkCount config.codec source)
    (isShard : s < config.codec.dataShards + config.codec.parityShards)
    (near : i < dec.nextEmitBlock.toNat + WIRE_FLOW_GROUP_WINDOW) :
    let later := (wireFlowDecoderIngest config dec (shardDatagram tx framing i s).1
      (shardDatagram tx framing i s).2).2
    LiveInv framing later ∧ HeadWaits later ∧
      (∀ j t, Gathered dec j t → Gathered later j t) ∧ Gathered later i s := by
  intro later
  have differ : ¬ (shardDatagram tx framing i s).1.type = WIRE_TYPE_END := fun same => by
    have contrary : WIRE_TYPE_DATA = WIRE_TYPE_END := same
    revert contrary
    decide
  have wellFormed : dataMalformed config (shardDatagram tx framing i s).1
      (shardDatagram tx framing i s).2 = false :=
    shard_wellFormed good lawful (chunk_announced lawful small isBlock) isShard
  have honest : Honest tx framing (shardDatagram tx framing i s) := .shard i s isBlock isShard
  have id_toNat : (UInt64.ofNat i).toNat = i := toNat_blockId fits (le_of_lt isBlock)
  have seenWindow : WindowInv config (seenDatagram dec) := window.of_same rfl rfl
  have seenInv : LiveInv framing (seenDatagram dec) := inv.restat _
  obtain ⟨roomy, last, made, _, done, placed⟩ := placeDatagram_placed good
    (shardDatagram tx framing i s) (seenDatagram dec) seenWindow wellFormed
  have roomy_eq : roomy = seenDatagram dec := by
    rcases made with same | made
    · exact same
    · rw [makeRoomForBlock, if_pos strict] at made
      exact (congrArg Prod.snd made).symm
  have later_eq : later = last := by
    show (wireFlowDecoderIngest config dec (shardDatagram tx framing i s).1
      (shardDatagram tx framing i s).2).2 = last
    rw [wireFlowDecoderIngest, if_neg (by rw [inv.complete_eq]; decide), if_neg differ,
      ingestData, wellFormed, if_neg (by decide), done]
  have strictInv_moves : ∀ {opened}, Moves config (shardDatagram tx framing i s)
      (seenDatagram dec) opened → StrictInv framing opened := fun moves =>
    Moves.induction (StrictInv framing)
      (fun _ _ window inv move => inv.move good lawful small fits strict honest window move)
      seenWindow seenInv.strictInv moves
  have index_eq : (shardDatagram tx framing i s).1.shardIndex.toNat = s :=
    shardIndex_toNat lawful i isShard
  rw [later_eq]
  subst roomy_eq
  cases placed with
  | dropped stats _ _ _ cause =>
    refine ⟨seenInv.restat stats, waits, fun _ _ gathered => gathered, ?_⟩
    by_cases late : i < dec.nextEmitBlock.toNat
    · exact Or.inl late
    have inWin : blockInReorderWindow (UInt64.ofNat i) dec.nextEmitBlock = true := by
      rw [blockInReorderWindow_iff, id_toNat]
      exact ⟨Nat.not_lt.mp late, near⟩
    exfalso
    rcases cause with early | outside | full
    · rw [UInt64.lt_iff_toNat_lt] at early
      exact late (id_toNat ▸ early)
    · exact absurd (inWin.symm.trans outside) (by decide)
    · exact openGroup_ne_none lawful seenWindow inWin full
  | refused slot opened stats inWin found _ _ _ cause =>
    obtain ⟨opening, occ, blockId_eq⟩ :=
      openGroup_moves (shardDatagram tx framing i s) wellFormed inWin found
    have openedWindow := opening.windowInv seenWindow
    have openedStrict := strictInv_moves opening
    obtain ⟨openedInv, kept⟩ := seenInv.opened good openedStrict found
    have gathered : Gathered opened i s := by
      right
      refine ⟨slot, occ, by rw [blockId_eq]; exact id_toNat, ?_⟩
      obtain ⟨j, frame⟩ := openedStrict.groups slot occ
      have same : j = i := blockId_inj fits frame.isBlock isBlock
        (frame.blockId_eq.symm.trans blockId_eq)
      subst same
      have groupInv := openedWindow.group slot occ
      rcases cause with inactive | mismatch | received
      · left
        cases st : (opened.groups slot).state with
        | empty => exact absurd st occ
        | active => exact absurd st inactive
        | recovered => rfl
        | emitted => exact absurd st groupInv.notEmitted
        | failed => exact absurd st (openedInv.notFailed slot)
      · rw [shard_matches good lawful groupInv frame isShard] at mismatch
        cases mismatch
      · right
        rw [← index_eq]
        exact received
    have openedWaits : HeadWaits opened := HeadWaits.opened seenWindow waits found
    exact ⟨openedInv.restat stats, openedWaits, kept, gathered⟩
  | stored _ _ emitted inWin found active matching absent emission =>
    obtain ⟨opening, _, blockId_eq⟩ :=
      openGroup_moves (shardDatagram tx framing i s) wellFormed inWin found
    obtain ⟨openedInv, openKept⟩ := seenInv.opened good (strictInv_moves opening) found
    rw [index_eq] at absent emission
    obtain ⟨storedWindow, storedInv, storedKept, here⟩ := openedInv.stored good lawful small fits
      strict (opening.windowInv seenWindow) isBlock isShard wellFormed active blockId_eq matching
      absent
    obtain ⟨last, again, lastInv, lastWaits, lastKept⟩ :=
      storedInv.emission good lawful small fits strict storedWindow
    have same : emitted = last := congrArg Prod.snd (emission.symm.trans again)
    subst same
    rw [afterEmission_unended lastInv.endSeen_eq]
    exact ⟨lastInv.restat _, lastWaits,
      fun j t gathered => lastKept j t (storedKept j t (openKept j t gathered)),
      lastKept i s here⟩

theorem ingestAll_liveInv (strict : config.bestEffort = false) (arrived : List Datagram)
    (areShards : ∀ dgram ∈ arrived, ∃ i s, i < chunkCount config.codec source ∧
      s < config.codec.dataShards + config.codec.parityShards ∧
      dgram = shardDatagram tx framing i s)
    (near : ∀ before dgram after, arrived = before ++ dgram :: after → dgram.1.blockId.toNat <
        (ingestAll config freshDecoder before).nextEmitBlock.toNat + WIRE_FLOW_GROUP_WINDOW) :
    LiveInv framing (ingestAll config freshDecoder arrived) ∧
      HeadWaits (ingestAll config freshDecoder arrived) ∧
      ∀ dgram ∈ arrived, Gathered (ingestAll config freshDecoder arrived)
        dgram.1.blockId.toNat dgram.1.shardIndex.toNat := by
  induction arrived using List.reverseRecOn with
  | nil => exact ⟨freshDecoder_liveInv, freshDecoder_headWaits, fun _ mem => nomatch mem⟩
  | append_singleton before dgram ih =>
    obtain ⟨inv, waits, gathered⟩ := ih
      (fun other mem => areShards other (List.mem_append_left _ mem))
      (fun first other after split => near first other (after ++ [dgram])
        (by rw [split, List.append_assoc, List.cons_append]))
    obtain ⟨i, s, isBlock, isShard, rfl⟩ :=
      areShards dgram (List.mem_append_right _ List.mem_cons_self)
    have id_toNat : (UInt64.ofNat i).toNat = i := toNat_blockId fits (le_of_lt isBlock)
    have inWin := near before (shardDatagram tx framing i s) [] rfl
    have window := ingestAll_windowInv good before freshDecoder (freshDecoder_windowInv config)
    obtain ⟨laterInv, laterWaits, kept, here⟩ := inv.ingest good lawful small fits strict window
      waits isBlock isShard (id_toNat ▸ inWin)
    have run : ingestAll config freshDecoder (before ++ [shardDatagram tx framing i s]) =
        (wireFlowDecoderIngest config (ingestAll config freshDecoder before)
          (shardDatagram tx framing i s).1 (shardDatagram tx framing i s).2).2 := by
      rw [ingestAll, List.foldl_append]
      rfl
    rw [run]
    refine ⟨laterInv, laterWaits, ?_⟩
    intro other mem
    rcases List.mem_append.mp mem with earlier | last
    · exact kept _ _ (gathered other earlier)
    have blockId_toNat : (shardDatagram tx framing i s).1.blockId.toNat = i := id_toNat
    rw [List.mem_singleton.mp last, shardIndex_toNat lawful i isShard, blockId_toNat]
    exact here

end Live

/-- The distinct shards of a block among some datagrams. -/
def shardsReceived (datagrams : List Datagram) (blockId : UInt64) : Finset UInt16 :=
  ((datagrams.filter fun datagram =>
    decide (datagram.1.type = WIRE_TYPE_DATA ∧ datagram.1.blockId = blockId)).map fun datagram =>
      datagram.1.shardIndex).toFinset

section Finish

variable {cfg : WireFlowDecoderConfig} (good : GoodConfig cfg)
  (lawful : LawfulCodec cfg.codec) {source : List UInt8}
  {fr : Framing cfg.codec source} {tx : TxConfig}

variable {dec : WireFlowDecoder}

theorem ingestEnd_complete (dec : WireFlowDecoder) (window : WindowInv cfg dec)
    (hdr : WireHeader) (accepted : ¬ EndRejected cfg dec hdr)
    (reached : dec.nextEmitBlock = hdr.blockId) : (ingestEnd cfg dec hdr).2.complete = true := by
  have start := announcedEnd_spec hdr dec window
  have stopped : tryEmitFromHead cfg (announcedEnd cfg dec hdr) =
      (0, announcedEnd cfg dec hdr) := by
    refine tryEmitFromHead_reached _ start.endSeen_eq (UInt64.le_of_eq ?_)
    rw [start.count_eq, start.next_eq, reached]
  have atEnd : (announcedEnd cfg dec hdr).nextEmitBlock =
      (announcedEnd cfg dec hdr).endBlockCount := by
    rw [start.count_eq, start.next_eq, reached]
  generalize announced : announcedEnd cfg dec hdr = settled at *
  unfold announcedEnd at announced
  unfold ingestEnd
  rw [if_neg accepted]
  dsimp only
  rw [announced, stopped]
  dsimp only
  rw [if_neg (by decide)]
  split
  · rfl
  · rename_i notEnd
    exact absurd atEnd notEnd

theorem ingestAll_complete (complete : dec.complete = true) (datagrams : List Datagram) :
    ingestAll cfg dec datagrams = dec := by
  induction datagrams with
  | nil => rfl
  | cons dgram _ ih =>
    have ignored : (wireFlowDecoderIngest cfg dec dgram.1 dgram.2).2 = dec := by
      rw [wireFlowDecoderIngest, if_pos complete]
    rw [ingestAll, List.foldl_cons, ignored]
    exact ih

include good lawful

theorem LiveInv.reached (window : WindowInv cfg dec) (inv : LiveInv fr dec)
    (waits : HeadWaits dec) (arrived : List Datagram)
    (areShards : ∀ dgram ∈ arrived, ∃ i s, i < chunkCount cfg.codec source ∧
      s < cfg.codec.dataShards + cfg.codec.parityShards ∧
      dgram = shardDatagram tx fr i s)
    (gathered : ∀ dgram ∈ arrived, Gathered dec dgram.1.blockId.toNat dgram.1.shardIndex.toNat)
    (enough : ∀ i < chunkCount cfg.codec source,
      cfg.codec.dataShards ≤ (shardsReceived arrived (UInt64.ofNat i)).card) :
    dec.nextEmitBlock.toNat = chunkCount cfg.codec source := by
  by_contra notEnd
  have before := lt_of_le_of_ne inv.strictInv.next_le notEnd
  have pos := good.dataPositive
  have shards := enough dec.nextEmitBlock.toNat before
  rw [UInt64.ofNat_toNat] at shards
  have atHead : ∀ idx ∈ shardsReceived arrived dec.nextEmitBlock, ∃ slot,
      findGroup dec.groups dec.nextEmitBlock = some slot ∧
      (dec.groups slot).state = .active ∧ (dec.groups slot).receivedBits idx.toNat = true ∧
      idx.toNat < cfg.codec.dataShards + cfg.codec.parityShards := by
    intro idx mem
    obtain ⟨dgram, filtered, index_eq⟩ := List.mem_map.mp (List.mem_toFinset.mp mem)
    obtain ⟨isArrived, isHead⟩ := List.mem_filter.mp filtered
    have blockId_eq := (of_decide_eq_true isHead).2
    have inGroup := gathered dgram isArrived
    rw [blockId_eq, index_eq] at inGroup
    have isShard : idx.toNat < cfg.codec.dataShards + cfg.codec.parityShards := by
      obtain ⟨i, s, _, isShard, rfl⟩ := areShards dgram isArrived
      rw [← index_eq, shardIndex_toNat lawful i isShard]
      exact isShard
    rcases inGroup with passed | ⟨slot, occ, slotId, received⟩
    · exact absurd passed (Nat.lt_irrefl _)
    have headId := UInt64.toNat_inj.mp slotId
    have found : findGroup dec.groups dec.nextEmitBlock = some slot := by
      cases first : findGroup dec.groups dec.nextEmitBlock with
      | none => exact absurd headId (findGroup_none first slot occ)
      | some other =>
        obtain ⟨otherOccupied, otherId⟩ := findGroup_some first
        rw [window.distinct slot other occ otherOccupied (headId.trans otherId.symm)]
    rw [HeadWaits, found] at waits
    have notRecovered := of_decide_eq_false waits
    refine ⟨slot, found, ?_, received.resolve_left notRecovered, isShard⟩
    cases st : (dec.groups slot).state with
    | empty => exact absurd st occ
    | active => rfl
    | recovered => exact absurd st notRecovered
    | emitted => exact absurd st (window.group slot occ).notEmitted
    | failed => exact absurd st (inv.notFailed slot)
  -- some shard of the block at the head has arrived, so its group is there
  obtain ⟨idx, mem⟩ := Finset.card_pos.mp (Nat.lt_of_lt_of_le pos shards)
  obtain ⟨slot, found, active, _⟩ := atHead idx mem
  have total := groupTotal good (window.group slot (by simp [active]))
  have few := (inv.short slot active).1
  rw [groupReceivedCount, presentCount_eq_card, total] at few
  have included : (shardsReceived arrived dec.nextEmitBlock).card ≤
      (presentShards (dec.groups slot).receivedBits
        (cfg.codec.dataShards + cfg.codec.parityShards)).card := by
    refine Finset.card_le_card_of_injOn UInt16.toNat ?_ ?_
    · intro other otherMember
      obtain ⟨otherSlot, otherFound, _, received, isShard⟩ := atHead other otherMember
      have same : slot = otherSlot := Option.some.inj (found.symm.trans otherFound)
      subst same
      exact Finset.mem_coe.mpr
        (Finset.mem_filter.mpr ⟨Finset.mem_range.mpr isShard, received⟩)
    · intro _ _ _ _ same
      exact UInt16.toNat_inj.mp same
  omega

theorem ingest_last (tx : TxConfig) (window : WindowInv cfg dec) (notEnded : dec.endSeen = false)
    (running : dec.complete = false)
    (reached : dec.nextEmitBlock = UInt64.ofNat (chunkCount cfg.codec source)) :
    (wireFlowDecoderIngest cfg dec (endDatagram tx cfg.codec source).1
      (endDatagram tx cfg.codec source).2).2.complete = true := by
  have accepted : ¬ EndRejected cfg dec (endDatagram tx cfg.codec source).1 := by
    rintro (wrongCount | withPayload | ⟨ended, _⟩)
    · exact wrongCount (wireShardCount_eq good lawful)
    · exact withPayload rfl
    · rw [notEnded] at ended
      cases ended
  have isEnd : (endDatagram tx cfg.codec source).1.type = WIRE_TYPE_END := rfl
  rw [wireFlowDecoderIngest, if_neg (by simp [running]), if_pos isEnd]
  exact ingestEnd_complete dec window _ accepted reached

end Finish

/-- A strict decoder that gets `k` distinct shards of every block while the block is in the
window, and then the END, completes with the file written. -/
theorem strict_completes (config : WireFlowDecoderConfig) (good : GoodConfig config)
    (lawful : LawfulCodec config.codec) (strict : config.bestEffort = false)
    (small : config.codec.inputBlockSize ≤ 65535) (tx : TxConfig)
    (clock : UInt64 → UInt64 × UInt64) (kind : SenderKind) (file : SourceFile)
    (sent received : List (List UInt8)) (sends : kind.send config.codec tx clock file = some sent)
    (fromSent : ∀ datagram ∈ received, datagram ∈ sent) (shards ends : List Datagram)
    (arrives : received.filterMap recvWireDatagram = shards ++ ends)
    (areData : ∀ datagram ∈ shards, datagram.1.type = WIRE_TYPE_DATA)
    (areEnds : ∀ datagram ∈ ends, datagram.1.type = WIRE_TYPE_END) (ended : ends ≠ [])
    (enough : ∀ i < chunkCount config.codec file.bytes,
      config.codec.dataShards ≤ (shardsReceived shards (UInt64.ofNat i)).card)
    (near : ∀ before datagram after, shards = before ++ datagram :: after →
      datagram.1.blockId.toNat <
        (ingestAll config freshDecoder before).nextEmitBlock.toNat + WIRE_FLOW_GROUP_WINDOW) :
    let dec := ingestAll config freshDecoder (received.filterMap recvWireDatagram)
    dec.complete = true ∧ dec.output.flatten = file.bytes := by
  intro dec
  obtain ⟨positive, _⟩ := lawful_sizes lawful
  obtain ⟨framing, _, honest⟩ := received_honest lawful tx clock kind file sends
  have fits := chunkCount_lt config.codec positive file
  have honestly := honest received fromSent
  have areShards : ∀ datagram ∈ shards, ∃ i s, i < chunkCount config.codec file.bytes ∧
      s < config.codec.dataShards + config.codec.parityShards ∧
      datagram = shardDatagram tx framing i s := by
    intro datagram member
    cases honestly datagram (arrives ▸ List.mem_append_left _ member) with
    | shard i s isBlock isShard => exact ⟨i, s, isBlock, isShard, rfl⟩
    | finish =>
      have differ : WIRE_TYPE_END ≠ WIRE_TYPE_DATA := by decide
      exact absurd (areData _ member) differ
  have window := ingestAll_windowInv good shards freshDecoder (freshDecoder_windowInv config)
  obtain ⟨inv, waits, gathered⟩ :=
    ingestAll_liveInv good lawful small fits strict shards areShards near
  have reached := inv.reached good lawful window waits shards areShards gathered enough
  have complete : dec.complete = true := by
    cases ends with
    | nil => exact absurd rfl ended
    | cons last rest =>
      have last_eq : last = endDatagram tx config.codec file.bytes := by
        have isEnd := areEnds last List.mem_cons_self
        cases honestly last (arrives ▸ List.mem_append_right _ List.mem_cons_self) with
        | shard =>
          have differ : WIRE_TYPE_DATA ≠ WIRE_TYPE_END := by decide
          exact absurd isEnd differ
        | finish => rfl
      have atEnd : (ingestAll config freshDecoder shards).nextEmitBlock =
          UInt64.ofNat (chunkCount config.codec file.bytes) := by
        rw [← reached, UInt64.ofNat_toNat]
      have finished := ingest_last good lawful tx window inv.endSeen_eq inv.complete_eq atEnd
      have dec_eq : dec = ingestAll config (wireFlowDecoderIngest config
          (ingestAll config freshDecoder shards) last.1 last.2).2 rest := by
        show ingestAll config freshDecoder (received.filterMap recvWireDatagram) = _
        rw [arrives]
        exact List.foldl_append
      rw [dec_eq, last_eq, ingestAll_complete finished, finished]
  have written := ingestAll_strictInv good lawful small fits strict _ honestly
  refine ⟨complete, ?_⟩
  rw [written.output_eq, written.complete_eq complete, take_chunkCount _ _ positive]

theorem strict_completes_plain :
    ∃ sent, SenderKind.localSource.send noneCodec plainTx (fun _ => (0, 0)) plainFile =
        some sent ∧
      let dec := ingestAll (plainConfig false) freshDecoder (sent.filterMap recvWireDatagram)
      dec.complete = true ∧ dec.output.flatten = plainFile.bytes := by
  obtain ⟨framing, framed⟩ := send_frames plainTx (fun _ => (0, 0)) plainFile noneCodec_lawful
    .localSource
  refine ⟨_, framed, ?_⟩
  have one : chunkCount noneCodec plainFile.bytes = 1 := by decide
  have arrives := recv_datagrams plainTx noneCodec_lawful framing
  rw [one] at arrives
  have single : (List.range 1).flatMap (arrivedBlock plainTx framing) =
      [shardDatagram plainTx framing 0 0] := rfl
  rw [single] at arrives
  have isData : (shardDatagram plainTx framing 0 0).1.type = WIRE_TYPE_DATA := rfl
  have isFirst : (shardDatagram plainTx framing 0 0).1.blockId = UInt64.ofNat 0 := rfl
  refine strict_completes (plainConfig false) (plainConfig_good false) noneCodec_lawful rfl
    (by decide) plainTx (fun _ => (0, 0)) .localSource plainFile _ _ framed
    (fun _ member => member) _ _ arrives ?_ ?_ (List.cons_ne_nil _ _) ?_ ?_
  · intro datagram member
    rw [List.mem_singleton.mp member, isData]
  · intro datagram member
    rw [List.mem_singleton.mp member]
    rfl
  · intro i isBlock
    have first : i = 0 := by
      have below : i < chunkCount noneCodec plainFile.bytes := isBlock
      omega
    simp only [first, shardsReceived, List.filter_cons, isData, isFirst, and_self, decide_true,
      if_true, List.filter_nil, List.map_cons, List.map_nil, List.toFinset_cons,
      List.toFinset_nil, insert_empty_eq, Finset.card_singleton]
    exact Nat.le_refl 1
  · intro before _ _ split
    cases before with
    | nil =>
      rw [← (List.cons.inj split).1, isFirst]
      exact Nat.lt_of_lt_of_le (by decide) (Nat.le_add_left _ _)
    | cons =>
      exact absurd (List.cons.inj split).2.symm (List.append_ne_nil_of_right_ne_nil _
        (List.cons_ne_nil _ _))

end MultiFlow.Stream
