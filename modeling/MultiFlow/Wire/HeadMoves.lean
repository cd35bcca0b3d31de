import MultiFlow.Wire.FlowDecoder

/-!
# What the decoder's operations do

One inversion lemma for each operation that changes the slot table: the two kinds of write, an
attempt to recover (`tryRecoverGroup_active`) and the move of the head (`moveHead_ok`).  They hold
in every state and for every configuration; the moves also show that the loops over heads end.
-/

namespace MultiFlow.FlowDecoder

open Function CodecApi Lib

def afterWrite (config : WireFlowDecoderConfig) (dec : WireFlowDecoder) (slot : Slot) :
    WireFlowDecoder :=
  let group := dec.groups slot
  { dec with
    groups := update dec.groups slot releasedGroup
    stats := { dec.stats with
      decodedBlocks := dec.stats.decodedBlocks + 1
      groupsEmitted := dec.stats.groupsEmitted + 1
      outputBytes := dec.stats.outputBytes + UInt64.ofNat group.validLen.toNat }
    output := dec.output ++
      [blockBytes (config.codec.decode group.data (group.shardCount.toNat * PKG_SIZE))
        group.validLen.toNat]
    heads := dec.heads ++ [.emitted group.blockId] }

variable {cfg : WireFlowDecoderConfig} {dec later : WireFlowDecoder} {slot : Slot}
  {head : Option Slot} {flag : Bool}

theorem writeDecodedGroup_ok (written : writeDecodedGroup cfg dec slot = (0, later)) :
    (dec.groups slot).state = .recovered ∧ later = afterWrite cfg dec slot := by
  unfold writeDecodedGroup at written
  by_cases ready : (dec.groups slot).state = .recovered
  · refine ⟨ready, ?_⟩
    simp only [ready, ne_eq, not_true_eq_false, if_false] at written
    split at written
    · cases written
    split at written
    · cases written
    · rw [← (Prod.mk.inj written).2, afterWrite]
      simp only [releaseGroup, WireFlowDecoder.setGroup, update_idem]
  · simp only [ready, ne_eq, not_false_eq_true, if_true] at written
    cases written

theorem emitHead_ok (emitted : emitHead cfg dec slot = (0, later)) :
    (dec.groups slot).state = .recovered ∧
      later = { afterWrite cfg dec slot with nextEmitBlock := dec.nextEmitBlock + 1 } := by
  unfold emitHead at emitted
  cases write : writeDecodedGroup cfg dec slot with
  | mk =>
    rw [write] at emitted
    dsimp only at emitted
    split at emitted
    · cases emitted
    rename_i succeeded
    rw [not_not.mp succeeded] at write
    obtain ⟨ready, written_eq⟩ := writeDecodedGroup_ok write
    refine ⟨ready, ?_⟩
    rw [← (Prod.mk.inj emitted).2, written_eq]
    rfl

/-- Writing what arrived of an abandoned group touches the output and two counters. -/
structure PartialWrite (dec later : WireFlowDecoder) (most : Nat) : Prop where
  complete_eq : later.complete = dec.complete
  groups_eq : later.groups = dec.groups
  next_eq : later.nextEmitBlock = dec.nextEmitBlock
  endCount_eq : later.endBlockCount = dec.endBlockCount
  endSeen_eq : later.endSeen = dec.endSeen
  heads_eq : later.heads = dec.heads
  emitted_eq : later.stats.groupsEmitted = dec.stats.groupsEmitted
  skipped_eq : later.stats.skippedGroups = dec.stats.skippedGroups
  recovered_eq : later.stats.groupsRecovered = dec.stats.groupsRecovered
  output_eq : ∃ chunks, later.output = dec.output ++ chunks ∧ chunks.flatten.length ≤ most

theorem writeBestEffortShard_spec (cfg : WireFlowDecoderConfig) (grp : WireGroup)
    (count remaining : Nat) (dec : WireFlowDecoder) :
    ∃ status left later, forRange count ((0 : Int), remaining, dec) (writeBestEffortShard cfg grp) =
        (status, left, later) ∧
      left ≤ remaining ∧ PartialWrite dec later (remaining - left) := by
  induction count with
  | zero =>
    exact ⟨0, remaining, dec, rfl, le_refl _, rfl, rfl, rfl, rfl, rfl, rfl, rfl, rfl, rfl,
      [], by simp, by simp⟩
  | succ count ih =>
    obtain ⟨status, left, cur, reached, leftLe, wrote⟩ := ih
    obtain ⟨chunks, output_eq, _⟩ := wrote.output_eq
    rw [forRange_succ, reached, writeBestEffortShard]
    dsimp only
    have shardLenLe : (if left > PKG_SIZE then PKG_SIZE else left) ≤ left := by split <;> omega
    generalize (if left > PKG_SIZE then PKG_SIZE else left) = shardLen at shardLenLe ⊢
    split
    · exact ⟨status, left, cur, rfl, leftLe, wrote⟩
    split
    · split
      · exact ⟨-1, left, cur, rfl, leftLe, wrote⟩
      · refine ⟨0, left - shardLen, _, rfl, by omega, wrote.1, wrote.2, wrote.3, wrote.4,
          wrote.5, wrote.6, wrote.7, wrote.8, wrote.9,
          chunks ++ [(List.range shardLen).map (grp.data count)], ?_, ?_⟩
        · rw [output_eq, List.append_assoc]
        · have one : [(List.range shardLen).map (grp.data count)].flatten.length =
              shardLen := by simp
          rw [List.flatten_append, List.length_append, one]
          omega
    · exact ⟨0, left - shardLen, _, rfl, by omega, wrote.1, wrote.2, wrote.3, wrote.4,
        wrote.5, wrote.6, wrote.7, wrote.8, wrote.9, chunks, output_eq, by omega⟩

theorem writeBestEffortGroup_ok (written : writeBestEffortGroup cfg dec slot = (0, later)) :
    PartialWrite (releaseGroup dec slot) later (dec.groups slot).validLen.toNat := by
  unfold writeBestEffortGroup at written
  dsimp only at written
  split at written
  · cases written
  split at written
  · cases written
  split at written
  · cases written
  · generalize (if cfg.codec.isSystematic = true then (dec.groups slot).data
      else cfg.codec.decode (dec.groups slot).data
        ((dec.groups slot).shardCount.toNat * PKG_SIZE)) = data at written
    obtain ⟨_, _, _, reached, _, wrote⟩ :=
      writeBestEffortShard_spec cfg { dec.groups slot with data }
        cfg.codec.dataShards (dec.groups slot).validLen.toNat
        (dec.setGroup slot { dec.groups slot with data })
    rw [reached] at written
    split at written
    · cases written
    obtain ⟨chunks, output_eq, _⟩ := wrote.output_eq
    rw [← (Prod.mk.inj written).2]
    refine ⟨wrote.1, ?_, wrote.3, wrote.4, wrote.5, wrote.6, wrote.7, wrote.8, wrote.9,
      chunks, output_eq, by omega⟩
    simp only [releaseGroup, WireFlowDecoder.setGroup, wrote.groups_eq, update_idem]

/-- The head moved on without being emitted; its group, if it had one, is released. -/
structure SkippedHead (dec later : WireFlowDecoder) (head : Option Slot) (most : Nat) : Prop where
  complete_eq : later.complete = dec.complete
  groups_eq : later.groups =
    match head with
    | none => dec.groups
    | some slot => update dec.groups slot releasedGroup
  next_eq : later.nextEmitBlock = dec.nextEmitBlock + 1
  endCount_eq : later.endBlockCount = dec.endBlockCount
  endSeen_eq : later.endSeen = dec.endSeen
  heads_eq : later.heads = dec.heads ++ [.skipped dec.nextEmitBlock]
  emitted_eq : later.stats.groupsEmitted = dec.stats.groupsEmitted
  skipped_eq : later.stats.skippedGroups = dec.stats.skippedGroups + 1
  recovered_eq : later.stats.groupsRecovered = dec.stats.groupsRecovered
  output_eq : ∃ chunks, later.output = dec.output ++ chunks ∧ chunks.flatten.length ≤ most

def headLen (dec : WireFlowDecoder) : Option Slot → Nat
  | none => 0
  | some slot => (dec.groups slot).validLen.toNat

theorem skipUnrecoverableHead_ok (skipped : skipUnrecoverableHead cfg dec head = (0, later)) :
    SkippedHead dec later head (headLen dec head) := by
  unfold skipUnrecoverableHead at skipped
  cases head with
  | none =>
    dsimp only at skipped
    rw [if_neg (by decide)] at skipped
    rw [← (Prod.mk.inj skipped).2]
    exact ⟨rfl, rfl, rfl, rfl, rfl, rfl, rfl, rfl, rfl, [], by simp, by simp⟩
  | some slot =>
    dsimp only at skipped
    split at skipped
    · cases write : writeBestEffortGroup cfg dec slot with
      | mk =>
        rw [write] at skipped
        dsimp only at skipped
        split at skipped
        · cases skipped
        rename_i succeeded
        rw [not_not.mp succeeded] at write
        have wrote := writeBestEffortGroup_ok write
        rw [← (Prod.mk.inj skipped).2]
        exact ⟨wrote.complete_eq, wrote.groups_eq, congrArg (· + 1) wrote.next_eq,
          wrote.endCount_eq, wrote.endSeen_eq, by
            simp only [wrote.heads_eq, wrote.next_eq]
            rfl,
          wrote.emitted_eq, congrArg (· + 1) wrote.skipped_eq, wrote.recovered_eq,
          wrote.output_eq⟩
    · dsimp only at skipped
      rw [if_neg (by decide)] at skipped
      rw [← (Prod.mk.inj skipped).2]
      exact ⟨rfl, rfl, rfl, rfl, rfl, rfl, rfl, rfl, rfl, [], by simp [releaseGroup,
        WireFlowDecoder.setGroup], by simp⟩

structure SameBlock (group other : WireGroup) : Prop where
  blockId_eq : other.blockId = group.blockId
  shardCount_eq : other.shardCount = group.shardCount
  validLen_eq : other.validLen = group.validLen
  begin_eq : other.encodeBeginNs = group.encodeBeginNs
  end_eq : other.encodeEndNs = group.encodeEndNs

/-- The three ways in which a group becomes ready, and the data it then holds. -/
inductive Completes (config : WireFlowDecoderConfig) (group : WireGroup) : Block → Prop where
  | allPresent (every : groupAllShardsPresent group = true) : Completes config group group.data
  | systematic (ready : groupSystematicDataReady group config.codec = true) :
      Completes config group group.data
  | repaired (data : Block) (missing : groupAllShardsPresent group = false)
      (enough : config.codec.dataShards ≤ groupReceivedCount group)
      (recovered : codecRecover config.codec group.data group.receivedBits
        group.shardCount.toNat = (.ok, data)) : Completes config group data

/-- An attempt concerns one slot and the counters of its outcome. -/
structure Attempt (dec later : WireFlowDecoder) (slot : Slot) (group : WireGroup) : Prop where
  groups_eq : later.groups = update dec.groups slot group
  same : SameBlock (dec.groups slot) group
  complete_eq : later.complete = dec.complete
  next_eq : later.nextEmitBlock = dec.nextEmitBlock
  endCount_eq : later.endBlockCount = dec.endBlockCount
  endSeen_eq : later.endSeen = dec.endSeen
  heads_eq : later.heads = dec.heads
  output_eq : later.output = dec.output
  emitted_eq : later.stats.groupsEmitted = dec.stats.groupsEmitted
  skipped_eq : later.stats.skippedGroups = dec.stats.skippedGroups

/-- An active group either becomes ready, or it stays as it is and is given up when the
stream has ended. -/
inductive Attempted (config : WireFlowDecoderConfig) (dec : WireFlowDecoder) (slot : Slot)
    (finalizeAtEnd : Bool) : WireRecoverResult × WireFlowDecoder → Prop where
  | ready (later : WireFlowDecoder) (group : WireGroup) (attempt : Attempt dec later slot group)
      (state_eq : group.state = .recovered)
      (completes : Completes config (dec.groups slot) group.data)
      (recovered_eq : later.stats.groupsRecovered = dec.stats.groupsRecovered + 1) :
      Attempted config dec slot finalizeAtEnd (.ok, later)
  | missed (result : WireRecoverResult) (later : WireFlowDecoder) (group : WireGroup)
      (attempt : Attempt dec later slot group) (notOk : result ≠ .ok)
      (state_eq : group.state = if finalizeAtEnd then .failed else .active)
      (bits_eq : group.receivedBits = (dec.groups slot).receivedBits)
      (incomplete : groupAllShardsPresent (dec.groups slot) = false)
      (notReady : groupSystematicDataReady (dec.groups slot) config.codec = false)
      (cause : (group.data = (dec.groups slot).data ∧
          group.lastRecoveryCount = (dec.groups slot).lastRecoveryCount ∧
          (config.codec.dataShards = 0 ∨
            groupReceivedCount (dec.groups slot) < config.codec.dataShards ∨
            finalizeAtEnd = false ∧
              groupReceivedCount (dec.groups slot) = (dec.groups slot).lastRecoveryCount)) ∨
        (config.codec.dataShards ≤ groupReceivedCount (dec.groups slot) ∧
          ∃ status, status ≠ .ok ∧ codecRecover config.codec (dec.groups slot).data
            (dec.groups slot).receivedBits (dec.groups slot).shardCount.toNat =
              (status, group.data)))
      (recovered_eq : later.stats.groupsRecovered = dec.stats.groupsRecovered) :
      Attempted config dec slot finalizeAtEnd (result, later)

theorem Attempted.attempt {finalizeAtEnd : Bool} {res : WireRecoverResult}
    (attempted : Attempted cfg dec slot finalizeAtEnd (res, later)) :
    ∃ group, Attempt dec later slot group := by
  cases attempted with
  | ready _ group attempt | missed _ _ group attempt => exact ⟨group, attempt⟩

theorem recoveryMissed_spec (dec : WireFlowDecoder)
    (slot : Slot) (finalizeAtEnd : Bool) (active : (dec.groups slot).state = .active) :
    ∃ res later grp, recoveryMissed dec slot finalizeAtEnd = (res, later) ∧
      Attempt dec later slot grp ∧ res ≠ .ok ∧
      grp.state = (if finalizeAtEnd then .failed else .active) ∧
      grp.receivedBits = (dec.groups slot).receivedBits ∧
      grp.data = (dec.groups slot).data ∧
      grp.lastRecoveryCount = (dec.groups slot).lastRecoveryCount ∧
      later.stats.groupsRecovered = dec.stats.groupsRecovered := by
  cases finalizeAtEnd with
  | true =>
    exact ⟨.failed, _, { dec.groups slot with state := .failed }, rfl,
      ⟨rfl, ⟨rfl, rfl, rfl, rfl, rfl⟩, rfl, rfl, rfl, rfl, rfl, rfl, rfl, rfl⟩, by decide,
      rfl, rfl, rfl, rfl, rfl⟩
  | false =>
    exact ⟨.pending, dec, dec.groups slot, rfl,
      ⟨(update_eq_self slot dec.groups).symm, ⟨rfl, rfl, rfl, rfl, rfl⟩, rfl, rfl,
        rfl, rfl, rfl, rfl, rfl, rfl⟩, by decide, active, rfl, rfl, rfl, rfl⟩

theorem tryRecoverGroup_active (cfg : WireFlowDecoderConfig) (dec : WireFlowDecoder)
    (slot : Slot) (finalizeAtEnd : Bool) (active : (dec.groups slot).state = .active) :
    Attempted cfg dec slot finalizeAtEnd (tryRecoverGroup cfg dec slot finalizeAtEnd) := by
  unfold tryRecoverGroup
  simp only [active]
  unfold recoverActiveGroup
  by_cases every : groupAllShardsPresent (dec.groups slot) = true
  · rw [if_pos every]
    exact .ready _ _ ⟨rfl, ⟨rfl, rfl, rfl, rfl, rfl⟩, rfl, rfl, rfl, rfl, rfl, rfl, rfl, rfl⟩
      rfl (.allPresent every) rfl
  rw [if_neg every]
  by_cases ready : groupSystematicDataReady (dec.groups slot) cfg.codec = true
  · rw [if_pos ready]
    exact .ready _ _ ⟨rfl, ⟨rfl, rfl, rfl, rfl, rfl⟩, rfl, rfl, rfl, rfl, rfl, rfl, rfl, rfl⟩
      rfl (.systematic ready) rfl
  rw [if_neg ready]
  rw [Bool.not_eq_true] at every ready
  by_cases few : cfg.codec.dataShards = 0 ∨
      groupReceivedCount (dec.groups slot) < cfg.codec.dataShards
  · rw [if_pos few]
    obtain ⟨res, later, grp, missed, attempt, notOk, state_eq, bits_eq, data_eq, last_eq,
      rec_eq⟩ := recoveryMissed_spec dec slot finalizeAtEnd active
    rw [missed]
    exact .missed res later grp attempt notOk state_eq bits_eq every ready
      (.inl ⟨data_eq, last_eq, few.imp_right .inl⟩) rec_eq
  rw [if_neg few]
  by_cases repeated : finalizeAtEnd = false ∧
      groupReceivedCount (dec.groups slot) = (dec.groups slot).lastRecoveryCount
  · rw [if_pos repeated]
    refine .missed .pending dec (dec.groups slot)
      ⟨(update_eq_self slot dec.groups).symm, ⟨rfl, rfl, rfl, rfl, rfl⟩, rfl, rfl,
        rfl, rfl, rfl, rfl, rfl, rfl⟩ (by decide) ?_ rfl every ready
      (.inl ⟨rfl, rfl, .inr (.inr repeated)⟩) rfl
    rw [repeated.1]
    exact active
  rw [if_neg repeated]
  rcases outcome : codecRecover cfg.codec (dec.groups slot).data
      (dec.groups slot).receivedBits (dec.groups slot).shardCount.toNat with ⟨status, data⟩
  have missedAfter : status ≠ .ok → Attempted cfg dec slot finalizeAtEnd
      (recoveryMissed (dec.setGroup slot { dec.groups slot with
        lastRecoveryCount := groupReceivedCount (dec.groups slot), data })
        slot finalizeAtEnd) := by
    intro notOk
    obtain ⟨res, later, grp, missed, attempt, resultNotOk, state_eq, bits_eq, data_eq,
      last_eq, rec_eq⟩ := recoveryMissed_spec
        (dec.setGroup slot { dec.groups slot with
          lastRecoveryCount := groupReceivedCount (dec.groups slot), data })
        slot finalizeAtEnd (by simpa [WireFlowDecoder.setGroup] using active)
    rw [missed]
    have slot_eq : (dec.setGroup slot { dec.groups slot with
        lastRecoveryCount := groupReceivedCount (dec.groups slot), data }).groups
        slot = { dec.groups slot with
          lastRecoveryCount := groupReceivedCount (dec.groups slot), data } := by
      simp [WireFlowDecoder.setGroup]
    have same := attempt.same
    rw [slot_eq] at same bits_eq data_eq
    refine .missed res later grp ⟨?_, { same with },
      attempt.3, attempt.4, attempt.5, attempt.6, attempt.7, attempt.8, attempt.9,
      attempt.10⟩ resultNotOk state_eq bits_eq every ready
      (.inr ⟨by omega, status, notOk, by rw [outcome, data_eq]⟩) rec_eq
    rw [attempt.groups_eq]
    simp [WireFlowDecoder.setGroup]
  cases status with
  | ok =>
    refine .ready _ { dec.groups slot with
      lastRecoveryCount := groupReceivedCount (dec.groups slot), data,
      state := .recovered,
      receivedBits := presentSetAll (dec.groups slot).shardCount.toNat }
      ⟨?_, ⟨rfl, rfl, rfl, rfl, rfl⟩, rfl, rfl, rfl, rfl, rfl, rfl, rfl, rfl⟩ rfl
      (.repaired data every (by omega) outcome) rfl
    simp [markGroupRecovered, WireFlowDecoder.setGroup]
  | unavailable | err => exact missedAfter (by decide)

/-- The ways in which the head moves on, when no write fails. -/
inductive HeadMoved (config : WireFlowDecoderConfig) (dec : WireFlowDecoder) :
    Option Slot → Bool → WireFlowDecoder → Prop where
  | emitted (slot : Slot) (ready : (dec.groups slot).state = .recovered) :
      HeadMoved config dec (some slot) false
        { afterWrite config dec slot with nextEmitBlock := dec.nextEmitBlock + 1 }
  | rescued (slot : Slot) (middle : WireFlowDecoder) (group : WireGroup)
      (active : (dec.groups slot).state = .active) (attempt : Attempt dec middle slot group)
      (state_eq : group.state = .recovered)
      (completes : Completes config (dec.groups slot) group.data)
      (recovered_eq : middle.stats.groupsRecovered = dec.stats.groupsRecovered + 1) :
      HeadMoved config dec (some slot) false
        { afterWrite config middle slot with nextEmitBlock := middle.nextEmitBlock + 1 }
  | abandoned (slot : Slot) (middle later : WireFlowDecoder) (group : WireGroup)
      (active : (dec.groups slot).state = .active) (attempt : Attempt dec middle slot group)
      (state_eq : group.state = .failed)
      (recovered_eq : middle.stats.groupsRecovered = dec.stats.groupsRecovered)
      (skipped : SkippedHead middle later (some slot) (dec.groups slot).validLen.toNat) :
      HeadMoved config dec (some slot) true later
  | skipped (head : Option Slot) (later : WireFlowDecoder)
      (notReady : ∀ slot, head = some slot →
        (dec.groups slot).state ≠ .recovered ∧ (dec.groups slot).state ≠ .active)
      (skipped : SkippedHead dec later head (headLen dec head)) :
      HeadMoved config dec head true later

theorem moveHead_ok (moved : moveHead cfg dec head = (0, flag, later)) :
    HeadMoved cfg dec head flag later := by
  unfold moveHead at moved
  cases head with
  | none =>
    obtain ⟨skipped, rfl, rfl⟩ : (skipUnrecoverableHead cfg dec none).1 = 0 ∧
        true = flag ∧ (skipUnrecoverableHead cfg dec none).2 = later := by
      simpa using moved
    exact .skipped none _ (by rintro slot ⟨⟩)
      (skipUnrecoverableHead_ok (Prod.ext skipped rfl : skipUnrecoverableHead cfg dec none = _))
  | some slot =>
    dsimp only at moved
    by_cases ready : (dec.groups slot).state = .recovered
    · rw [if_pos ready] at moved
      obtain ⟨emitted, rfl, rfl⟩ : (emitHead cfg dec slot).1 = 0 ∧
          false = flag ∧ (emitHead cfg dec slot).2 = later := by
        simpa using moved
      have ok : emitHead cfg dec slot = (0, (emitHead cfg dec slot).2) :=
        Prod.ext emitted rfl
      rw [(emitHead_ok ok).2]
      exact .emitted slot ready
    rw [if_neg ready] at moved
    by_cases active : (dec.groups slot).state = .active
    · rw [if_pos active] at moved
      have attempted := tryRecoverGroup_active cfg dec slot true active
      rcases outcome : tryRecoverGroup cfg dec slot true with ⟨_, mid⟩
      rw [outcome] at moved attempted
      cases attempted with
      | ready _ grp attempt state_eq completes rec_eq =>
        rw [if_pos rfl] at moved
        obtain ⟨emitted, rfl, rfl⟩ : (emitHead cfg mid slot).1 = 0 ∧
            false = flag ∧ (emitHead cfg mid slot).2 = later := by
          simpa using moved
        have ok : emitHead cfg mid slot =
            (0, (emitHead cfg mid slot).2) := Prod.ext emitted rfl
        rw [(emitHead_ok ok).2]
        exact .rescued slot mid grp active attempt state_eq completes rec_eq
      | missed _ _ grp attempt notOk state_eq bits_eq incomplete notReady cause
          rec_eq =>
          rw [if_neg notOk] at moved
          obtain ⟨skipped, rfl, rfl⟩ :
              (skipUnrecoverableHead cfg mid (some slot)).1 = 0 ∧ true = flag ∧
                (skipUnrecoverableHead cfg mid (some slot)).2 = later := by
            simpa using moved
          have ok : skipUnrecoverableHead cfg mid (some slot) =
              (0, (skipUnrecoverableHead cfg mid (some slot)).2) :=
            Prod.ext skipped rfl
          have effect := skipUnrecoverableHead_ok ok
          have len_eq : headLen mid (some slot) = (dec.groups slot).validLen.toNat := by
            rw [headLen, attempt.groups_eq, update_self, attempt.same.validLen_eq]
          rw [len_eq] at effect
          exact .abandoned slot mid _ grp active attempt state_eq rec_eq effect
    · rw [if_neg active] at moved
      obtain ⟨skipped, rfl, rfl⟩ : (skipUnrecoverableHead cfg dec (some slot)).1 = 0 ∧
          true = flag ∧ (skipUnrecoverableHead cfg dec (some slot)).2 = later := by
        simpa using moved
      refine .skipped (some slot) _ ?_ (skipUnrecoverableHead_ok (Prod.ext skipped rfl))
      rintro other ⟨⟩
      exact ⟨ready, active⟩

theorem HeadMoved.next_eq (moved : HeadMoved cfg dec head flag later) :
    later.nextEmitBlock = dec.nextEmitBlock + 1 := by
  cases moved with
  | emitted => rfl
  | rescued _ _ _ _ attempt =>
    exact congrArg (· + 1) attempt.next_eq
  | abandoned _ _ _ _ _ attempt _ _ skipped =>
    rw [skipped.next_eq, attempt.next_eq]
  | skipped _ _ _ skipped => exact skipped.next_eq

def recoveredSlots (groups : Groups) : Finset Slot :=
  Finset.univ.filter fun slot => (groups slot).state = .recovered

theorem mem_recoveredSlots (groups : Groups) (slot : Slot) :
    slot ∈ recoveredSlots groups ↔ (groups slot).state = .recovered := by
  simp [recoveredSlots]

theorem recoveredSlots_update (groups : Groups) (slot : Slot) (grp : WireGroup)
    (wasNot : (groups slot).state ≠ .recovered) (isNot : grp.state ≠ .recovered) :
    recoveredSlots (update groups slot grp) = recoveredSlots groups := by
  ext other
  by_cases same : other = slot
  · subst same
    simp [mem_recoveredSlots, wasNot, isNot]
  · simp [mem_recoveredSlots, same]

theorem recoveredSlots_update_ready (groups : Groups) (slot : Slot) (grp : WireGroup)
    (wasNot : (groups slot).state ≠ .recovered) (ready : grp.state = .recovered) :
    (recoveredSlots (update groups slot grp)).card = (recoveredSlots groups).card + 1 := by
  have inserted : recoveredSlots (update groups slot grp) =
      insert slot (recoveredSlots groups) := by
    ext other
    by_cases same : other = slot
    · subst same
      simp [mem_recoveredSlots, ready]
    · simp [mem_recoveredSlots, same]
  have fresh : slot ∉ recoveredSlots groups := by
    rw [mem_recoveredSlots]
    exact wasNot
  rw [inserted, Finset.card_insert_of_notMem fresh]

theorem recoveredSlots_release (groups : Groups) (slot : Slot)
    (ready : (groups slot).state = .recovered) :
    (recoveredSlots (update groups slot releasedGroup)).card + 1 =
      (recoveredSlots groups).card := by
  -- putting the group back undoes the release
  have back := recoveredSlots_update_ready (update groups slot releasedGroup) slot
    (groups slot) (by simp [releasedGroup]) ready
  rw [Function.update_idem, Function.update_eq_self] at back
  exact back.symm

theorem HeadMoved.recoveredSlots_card (moved : HeadMoved cfg dec head flag later) :
    (recoveredSlots later.groups).card + (if headRecovered dec head then 1 else 0) =
      (recoveredSlots dec.groups).card := by
  have released : releasedGroup.state ≠ .recovered := by decide
  cases moved with
  | emitted slot ready =>
    rw [headRecovered, decide_eq_true ready, if_pos rfl]
    exact recoveredSlots_release dec.groups slot ready
  | rescued slot mid _ active attempt =>
    have notReady : (dec.groups slot).state ≠ .recovered := by simp [active]
    rw [headRecovered, decide_eq_false notReady, if_neg (by decide)]
    show (recoveredSlots (update mid.groups slot releasedGroup)).card + 0 = _
    rw [attempt.groups_eq, update_idem,
      recoveredSlots_update dec.groups slot _ notReady released, Nat.add_zero]
  | abandoned slot _ _ _ active attempt _ _ skipped =>
    have notReady : (dec.groups slot).state ≠ .recovered := by simp [active]
    rw [headRecovered, decide_eq_false notReady, if_neg (by decide), skipped.groups_eq]
    dsimp only
    rw [attempt.groups_eq, update_idem,
      recoveredSlots_update dec.groups slot _ notReady released, Nat.add_zero]
  | skipped _ _ notReady skipped =>
    rw [skipped.groups_eq]
    cases head with
    | none => exact Nat.add_zero _
    | some slot =>
      have headNot := (notReady slot rfl).1
      rw [headRecovered, decide_eq_false headNot, if_neg (by decide)]
      rw [recoveredSlots_update dec.groups slot _ headNot released, Nat.add_zero]

end MultiFlow.FlowDecoder
