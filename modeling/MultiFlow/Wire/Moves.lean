import MultiFlow.Wire.Window

/-!
# An ingest as a sequence of moves

`Move` lists what one step of `wire_flow_decoder_ingest` can do to the decoder.  Every move keeps
the window invariant, and on a good configuration an ingest returns 0 and is a sequence of moves
(`ingest_moves`), so an invariant is proved once for each move.
-/

namespace MultiFlow.FlowDecoder

open Function CodecApi Lib Wire

inductive Move (config : WireFlowDecoderConfig) (datagram : Datagram) (dec : WireFlowDecoder) :
    WireFlowDecoder → Prop where
  | head (flag : Bool) (later : WireFlowDecoder)
      (allowed : config.bestEffort = true ∨
        headRecovered dec (findGroup dec.groups dec.nextEmitBlock) = true)
      (moved : HeadMoved config dec (findGroup dec.groups dec.nextEmitBlock) flag later) :
      Move config datagram dec later
  | attempt (slot : Slot) (finalizeAtEnd : Bool) (result : WireRecoverResult)
      (later : WireFlowDecoder) (active : (dec.groups slot).state = .active)
      (attempted : Attempted config dec slot finalizeAtEnd (result, later)) :
      Move config datagram dec later
  | opened (slot : Slot) (group : WireGroup) (stats : WireFlowDecoderStats)
      (wellFormed : dataMalformed config datagram.1 datagram.2 = false)
      (inWindow : blockInReorderWindow datagram.1.blockId dec.nextEmitBlock = true)
      (missing : findGroup dec.groups datagram.1.blockId = none)
      (allocated : allocateGroup dec.groups datagram.1.blockId datagram.1.shardCount
        datagram.1.validLen datagram.1.encodeBeginNs datagram.1.encodeEndNs = some (slot, group))
      (stats_eq : stats = { dec.stats with groupsReceived := dec.stats.groupsReceived + 1 }) :
      Move config datagram dec { dec.setGroup slot group with stats := stats }
  | stored (slot : Slot)
      (wellFormed : dataMalformed config datagram.1 datagram.2 = false)
      (active : (dec.groups slot).state = .active)
      (blockId_eq : (dec.groups slot).blockId = datagram.1.blockId)
      (matching : groupMismatch (dec.groups slot) datagram.1 = false)
      (absent : (dec.groups slot).receivedBits datagram.1.shardIndex.toNat = false) :
      Move config datagram dec (storeShard dec slot datagram.1.shardIndex.toNat datagram.2)
  | counted (stats : WireFlowDecoderStats)
      (emitted_eq : stats.groupsEmitted = dec.stats.groupsEmitted)
      (skipped_eq : stats.skippedGroups = dec.stats.skippedGroups)
      (recovered_eq : stats.groupsRecovered = dec.stats.groupsRecovered) :
      Move config datagram dec { dec with stats := stats }
  | announced (isEnd : datagram.1.type = WIRE_TYPE_END)
      (agrees : ¬ (dec.endSeen = true ∧ datagram.1.blockId ≠ dec.endBlockCount)) :
      Move config datagram dec
        { dec with endSeen := true, endBlockCount := datagram.1.blockId }
  | finished (ended : dec.endSeen = true)
      (reached : dec.nextEmitBlock = dec.endBlockCount ∨
        config.bestEffort = true ∧ dec.endBlockCount ≤ dec.nextEmitBlock) :
      Move config datagram dec { dec with complete := true }

abbrev Moves (config : WireFlowDecoderConfig) (datagram : Datagram) :=
  Relation.ReflTransGen (Move config datagram)

theorem blockInReorderWindow_iff (blockId next : UInt64) :
    blockInReorderWindow blockId next = true ↔
      next.toNat ≤ blockId.toNat ∧ blockId.toNat < next.toNat + WIRE_FLOW_GROUP_WINDOW := by
  unfold blockInReorderWindow
  rw [decide_eq_true_eq, UInt64.le_iff_toNat_le]
  constructor
  · rintro ⟨above, near⟩
    rw [UInt64.toNat_sub_of_le _ _ (UInt64.le_iff_toNat_le.mpr above)] at near
    exact ⟨above, by omega⟩
  · rintro ⟨above, _⟩
    refine ⟨above, ?_⟩
    rw [UInt64.toNat_sub_of_le _ _ (UInt64.le_iff_toNat_le.mpr above)]
    omega

theorem allocateGroup_some {groups : Groups} {blockId : UInt64} {shardCount validLen : UInt16}
    {encodeBeginNs encodeEndNs : UInt64} {slot : Slot} {grp : WireGroup}
    (allocated : allocateGroup groups blockId shardCount validLen encodeBeginNs encodeEndNs =
      some (slot, grp)) :
    (groups slot).state = .empty ∧ shardCount.toNat ≤ WIRE_FLOW_MAX_SHARDS ∧
      grp = newGroup blockId shardCount validLen encodeBeginNs encodeEndNs := by
  unfold allocateGroup at allocated
  split at allocated
  · cases allocated
  rename_i inRange
  cases found : findEmptySlot groups with
  | none =>
    rw [found] at allocated
    cases allocated
  | some =>
    rw [found] at allocated
    obtain ⟨rfl, rfl⟩ := Prod.mk.inj (Option.some.inj allocated)
    push Not at inRange
    exact ⟨findEmptySlot_some found, inRange.2, rfl⟩

variable {cfg : WireFlowDecoderConfig} {dec later : WireFlowDecoder}

theorem Move.windowInv {dgram : Datagram} (move : Move cfg dgram dec later)
    (inv : WindowInv cfg dec) : WindowInv cfg later := by
  cases move with
  | head _ _ _ moved => exact moved.windowInv inv
  | attempt slot _ _ _ active attempted =>
    have occ : (dec.groups slot).state ≠ .empty := by simp [active]
    cases attempted with
    | ready _ _ attempt state_eq =>
      exact inv.replace occ attempt.groups_eq attempt.next_eq attempt.same
        (by simp [state_eq])
    | missed _ _ grp attempt notOk state_eq bits_eq incomplete notReady cause
        rec_eq =>
        refine inv.replace occ attempt.groups_eq attempt.next_eq attempt.same ?_
        rw [state_eq]
        split <;> decide
  | opened _ _ _ wellFormed inWin missing allocated =>
    obtain ⟨_, inRange, rfl⟩ := allocateGroup_some allocated
    simp only [dataMalformed, decide_eq_false_iff_not, not_or] at wellFormed
    obtain ⟨above, below⟩ := (blockInReorderWindow_iff _ _).mp inWin
    exact inv.open missing rfl rfl ⟨by simp [newGroup], not_not.mp wellFormed.2.1, inRange,
      wellFormed.2.2.2.1, Nat.not_lt.mp wellFormed.2.2.2.2.1, above, below⟩
  | stored slot _ active =>
    have occ : (dec.groups slot).state ≠ .empty := by simp [active]
    exact inv.replace occ rfl rfl ⟨rfl, rfl, rfl, rfl, rfl⟩ (by simp [active])
  | counted | announced | finished => exact inv.of_same rfl rfl

theorem Moves.windowInv {dgram : Datagram} (moves : Moves cfg dgram dec later)
    (inv : WindowInv cfg dec) : WindowInv cfg later := by
  induction moves with
  | refl => exact inv
  | tail _ move ih => exact move.windowInv ih

section Runs

variable {cfg : WireFlowDecoderConfig} (good : GoodConfig cfg) (dgram : Datagram)

include good

variable {dec : WireFlowDecoder}

variable {res : Int × WireFlowDecoder}

theorem makeRoomStep_done {blockId : UInt64} {guard : Nat} (inv : WindowInv cfg dec)
    (left : makeRoomStep cfg blockId (dec, guard) = .done res) :
    res = (0, dec) ∧ (blockNeedsRoom dec blockId = false ∨
      WIRE_FLOW_GROUP_WINDOW ≤ guard ∨ blockId ≤ dec.nextEmitBlock) := by
  unfold makeRoomStep at left
  dsimp only at left
  split at left
  · rename_i enough
    exact ⟨(Step.done.inj left).symm, enough.imp_right Or.inl⟩
  split at left
  · rename_i reached
    exact ⟨(Step.done.inj left).symm, Or.inr (Or.inr reached)⟩
  obtain ⟨_, _, moved⟩ := moveHead_succeeds good inv
  rw [moved] at left
  dsimp only at left
  rw [if_neg (by decide)] at left
  cases left

theorem makeRoomForBlock_moves (blockId : UInt64) (dec : WireFlowDecoder)
    (inv : WindowInv cfg dec) :
    ∃ later, makeRoomForBlock cfg dec blockId = (0, later) ∧
      Moves cfg dgram dec later := by
  unfold makeRoomForBlock
  split
  · exact ⟨dec, rfl, .refl⟩
  rename_i bestEffort
  rw [Bool.not_eq_false] at bestEffort
  have outcome := @loop_induction _ _ _ _ _ roomVariant (makeRoomStep_decreases cfg blockId)
    (fun cur => Moves cfg dgram dec cur.1)
    (fun res => res.1 = 0 ∧ Moves cfg dgram dec res.2)
    (by
      intro cur later moves moved
      obtain ⟨_, _, flag, head, _⟩ := makeRoomStep_next moved
      exact moves.tail (.head flag _ (Or.inl bestEffort) head))
    (by
      intro cur res moves left
      obtain ⟨rfl, _⟩ := makeRoomStep_done good (moves.windowInv inv) left
      exact ⟨rfl, moves⟩)
    (dec, 0) .refl
  exact ⟨_, Prod.ext outcome.1 rfl, outcome.2⟩

def HeadStuck (config : WireFlowDecoderConfig) (dec : WireFlowDecoder) : Prop :=
  (dec.endSeen = true ∧ dec.endBlockCount ≤ dec.nextEmitBlock) ∨
    headMovable config dec (findGroup dec.groups dec.nextEmitBlock) = false

theorem tryEmitStep_done (inv : WindowInv cfg dec) (left : tryEmitStep cfg dec = .done res) :
    res = (0, dec) ∧ HeadStuck cfg dec := by
  unfold tryEmitStep at left
  dsimp only at left
  split at left
  · rename_i reached
    exact ⟨(Step.done.inj left).symm, Or.inl reached⟩
  split at left
  · obtain ⟨_, _, moved⟩ := moveHead_succeeds good inv
    rw [moved] at left
    dsimp only at left
    rw [if_neg (by decide)] at left
    cases left
  · rename_i stuck
    exact ⟨(Step.done.inj left).symm, Or.inr (Bool.not_eq_true _ ▸ stuck)⟩

omit dgram in
theorem tryEmitFromHead_induction (dec : WireFlowDecoder) (inv : WindowInv cfg dec)
    (kept : WireFlowDecoder → Prop) (start : kept dec)
    (keeps : ∀ cur flag later, WindowInv cfg cur → kept cur →
      ¬ (cur.endSeen = true ∧ cur.endBlockCount ≤ cur.nextEmitBlock) →
      headMovable cfg cur (findGroup cur.groups cur.nextEmitBlock) = true →
      HeadMoved cfg cur (findGroup cur.groups cur.nextEmitBlock) flag later →
      kept later) :
    ∃ later, tryEmitFromHead cfg dec = (0, later) ∧ WindowInv cfg later ∧
      HeadStuck cfg later ∧ kept later := by
  have outcome := @loop_induction _ _ _ _ _ emitVariant (tryEmitStep_decreases cfg)
    (fun cur => WindowInv cfg cur ∧ kept cur)
    (fun res => res.1 = 0 ∧ WindowInv cfg res.2 ∧ HeadStuck cfg res.2 ∧
      kept res.2)
    (by
      intro cur later ⟨window, holds⟩ moved
      obtain ⟨undone, movable, flag, head⟩ := tryEmitStep_next moved
      exact ⟨head.windowInv window, keeps cur flag later window holds undone movable head⟩)
    (by
      intro cur res ⟨window, holds⟩ left
      obtain ⟨rfl, stuck⟩ := tryEmitStep_done good window left
      exact ⟨rfl, window, stuck, holds⟩)
    dec ⟨inv, start⟩
  exact ⟨_, Prod.ext outcome.1 rfl, outcome.2.1, outcome.2.2.1, outcome.2.2.2⟩

omit dgram good in
theorem headMovable_allowed {head : Option Slot} (movable : headMovable cfg dec head = true)
    (undone : ¬ (dec.endSeen = true ∧ dec.endBlockCount ≤ dec.nextEmitBlock)) :
    cfg.bestEffort = true ∨ headRecovered dec head = true := by
  rcases headMovable_cases movable undone with ready | ⟨bestEffort, _⟩ | ⟨bestEffort, _⟩
  · exact Or.inr ready
  all_goals exact Or.inl bestEffort

theorem tryEmitFromHead_moves (dec : WireFlowDecoder) (inv : WindowInv cfg dec) :
    ∃ later, tryEmitFromHead cfg dec = (0, later) ∧ Moves cfg dgram dec later := by
  obtain ⟨later, emitted, _, _, moves⟩ := tryEmitFromHead_induction good dec inv
    (Moves cfg dgram dec) .refl
    (fun _ flag _ _ moves undone movable moved =>
      moves.tail (.head flag _ (headMovable_allowed movable undone) moved))
  exact ⟨later, emitted, moves⟩

end Runs

theorem finalizeGroup_moves (cfg : WireFlowDecoderConfig) (dgram : Datagram)
    (dec : WireFlowDecoder) (slot : Slot) : Moves cfg dgram dec (finalizeGroup cfg dec slot) := by
  unfold finalizeGroup
  split
  · rename_i active
    have attempted := tryRecoverGroup_active cfg dec slot true active
    exact .single (.attempt slot true _ _ active attempted)
  · exact .refl

theorem finalizeActiveGroups_moves (cfg : WireFlowDecoderConfig) (dgram : Datagram)
    (dec : WireFlowDecoder) : Moves cfg dgram dec (finalizeActiveGroups cfg dec) := by
  unfold finalizeActiveGroups
  generalize List.finRange WIRE_FLOW_GROUP_WINDOW = slots
  induction slots generalizing dec with
  | nil => exact .refl
  | cons slot _ ih => exact (finalizeGroup_moves cfg dgram dec slot).trans (ih _)

theorem finalizeGroup_notActive (cfg : WireFlowDecoderConfig) (dec : WireFlowDecoder)
    (slot other : Slot) (settled : slot = other ∨ (dec.groups slot).state ≠ .active) :
    ((finalizeGroup cfg dec other).groups slot).state ≠ .active := by
  unfold finalizeGroup
  split
  · rename_i active
    have attempted := tryRecoverGroup_active cfg dec other true active
    rcases outcome : tryRecoverGroup cfg dec other true with ⟨_, next⟩
    rw [outcome] at attempted
    have replaced : ∀ grp, Attempt dec next other grp → grp.state ≠ .active →
        (next.groups slot).state ≠ .active := by
      intro grp attempt groupSettled
      by_cases same : slot = other
      · rw [attempt.groups_eq, same, update_self]
        exact groupSettled
      · rw [attempt.groups_eq, update_of_ne same]
        exact settled.resolve_left same
    cases attempted with
    | ready _ grp attempt state_eq =>
      exact replaced grp attempt (by simp [state_eq])
    | missed _ _ grp attempt notOk state_eq bits_eq incomplete notReady cause
        rec_eq =>
        exact replaced grp attempt (by simp [state_eq])
  · rename_i idle
    rcases settled with same | settled
    · rw [same]
      exact idle
    · exact settled

theorem finalizeActiveGroups_notActive (cfg : WireFlowDecoderConfig)
    (dec : WireFlowDecoder) (slot : Slot) :
    ((finalizeActiveGroups cfg dec).groups slot).state ≠ .active := by
  have settled : ∀ (slots : List Slot) (dec : WireFlowDecoder),
      (slot ∈ slots ∨ (dec.groups slot).state ≠ .active) →
      ((slots.foldl (finalizeGroup cfg) dec).groups slot).state ≠ .active := by
    intro slots
    induction slots with
    | nil =>
      intro dec reached
      exact reached.resolve_left List.not_mem_nil
    | cons first slots ih =>
      intro dec reached
      refine ih (finalizeGroup cfg dec first) ?_
      by_cases later : slot ∈ slots
      · exact Or.inl later
      right
      refine finalizeGroup_notActive cfg dec slot first ?_
      rw [List.mem_cons] at reached
      exact reached.imp_left fun mem => mem.resolve_right later
  unfold finalizeActiveGroups
  exact settled (List.finRange WIRE_FLOW_GROUP_WINDOW) dec (Or.inl (List.mem_finRange slot))

variable {flag : Bool} {head : Option Slot}

theorem HeadMoved.notActive (moved : HeadMoved cfg dec head flag later)
    (settled : ∀ slot, (dec.groups slot).state ≠ .active) (slot : Slot) :
    (later.groups slot).state ≠ .active := by
  have released : ∀ other, (update dec.groups other releasedGroup slot).state ≠
      .active := by
    intro other
    by_cases same : slot = other
    · rw [same, update_self]
      decide
    · rw [update_of_ne same]
      exact settled slot
  cases moved with
  | emitted other => exact released other
  | rescued other _ _ active | abandoned other _ _ _ active =>
    exact absurd active (settled other)
  | skipped _ _ _ skipped =>
    rw [skipped.groups_eq]
    cases head with
    | none => exact settled slot
    | some other => exact released other

theorem HeadMoved.flags (moved : HeadMoved cfg dec head flag later) :
    later.endSeen = dec.endSeen ∧ later.endBlockCount = dec.endBlockCount ∧
      later.complete = dec.complete := by
  cases moved with
  | emitted => exact ⟨rfl, rfl, rfl⟩
  | rescued _ _ _ _ attempt =>
    exact ⟨attempt.endSeen_eq, attempt.endCount_eq, attempt.complete_eq⟩
  | abandoned _ _ _ _ _ attempt _ _ skipped =>
    exact ⟨skipped.endSeen_eq.trans attempt.endSeen_eq,
      skipped.endCount_eq.trans attempt.endCount_eq,
      skipped.complete_eq.trans attempt.complete_eq⟩
  | skipped _ _ _ skipped =>
    exact ⟨skipped.endSeen_eq, skipped.endCount_eq, skipped.complete_eq⟩

theorem finalizeActiveGroups_same (cfg : WireFlowDecoderConfig) (dec : WireFlowDecoder) :
    (finalizeActiveGroups cfg dec).endSeen = dec.endSeen ∧
      (finalizeActiveGroups cfg dec).endBlockCount = dec.endBlockCount ∧
      (finalizeActiveGroups cfg dec).complete = dec.complete ∧
      (finalizeActiveGroups cfg dec).nextEmitBlock = dec.nextEmitBlock ∧
      (finalizeActiveGroups cfg dec).heads = dec.heads := by
  unfold finalizeActiveGroups
  generalize List.finRange WIRE_FLOW_GROUP_WINDOW = slots
  induction slots generalizing dec with
  | nil => exact ⟨rfl, rfl, rfl, rfl, rfl⟩
  | cons slot _ ih =>
    have one : (finalizeGroup cfg dec slot).endSeen = dec.endSeen ∧
        (finalizeGroup cfg dec slot).endBlockCount = dec.endBlockCount ∧
        (finalizeGroup cfg dec slot).complete = dec.complete ∧
        (finalizeGroup cfg dec slot).nextEmitBlock = dec.nextEmitBlock ∧
        (finalizeGroup cfg dec slot).heads = dec.heads := by
      unfold finalizeGroup
      split
      · rename_i active
        have attempted := tryRecoverGroup_active cfg dec slot true active
        cases outcome : tryRecoverGroup cfg dec slot true with
        | mk =>
          rw [outcome] at attempted
          obtain ⟨_, attempt⟩ := attempted.attempt
          exact ⟨attempt.endSeen_eq, attempt.endCount_eq, attempt.complete_eq,
            attempt.next_eq, attempt.heads_eq⟩
      · exact ⟨rfl, rfl, rfl, rfl, rfl⟩
    rw [List.foldl_cons]
    obtain ⟨seen, count, complete, next, heads⟩ := ih (finalizeGroup cfg dec slot)
    exact ⟨seen.trans one.1, count.trans one.2.1, complete.trans one.2.2.1,
      next.trans one.2.2.2.1, heads.trans one.2.2.2.2⟩

theorem headStuck_reached (inv : WindowInv cfg dec) (bestEffort : cfg.bestEffort = true)
    (ended : dec.endSeen = true) (settled : ∀ slot, (dec.groups slot).state ≠ .active)
    (stuck : HeadStuck cfg dec) : dec.endBlockCount ≤ dec.nextEmitBlock := by
  rcases stuck with reached | immovable
  · exact reached.2
  exfalso
  simp only [headMovable, bestEffort, ended, Bool.true_and, Bool.or_eq_false_iff] at immovable
  cases found : findGroup dec.groups dec.nextEmitBlock with
  | none =>
    rw [found] at immovable
    cases immovable.1.2
  | some slot =>
    rw [found] at immovable
    have occ := (findGroup_some found).1
    have notEmitted := (inv.group slot occ).notEmitted
    have notRecovered := of_decide_eq_false immovable.1.1
    have notFailed := of_decide_eq_false immovable.1.2
    cases st : (dec.groups slot).state with
    | empty => exact occ st
    | active => exact settled slot st
    | recovered => exact notRecovered st
    | emitted => exact notEmitted st
    | failed => exact notFailed st

section End

variable {cfg : WireFlowDecoderConfig} (good : GoodConfig cfg) (datagram : Datagram)

include good

theorem settle_moves (dec : WireFlowDecoder) (inv : WindowInv cfg dec)
    (ended : dec.endSeen = true) :
    ∃ later, tryEmitFromHead cfg (finalizeActiveGroups cfg dec) = (0, later) ∧
      Moves cfg datagram dec later ∧ later.endSeen = true ∧
      later.endBlockCount = dec.endBlockCount ∧ later.complete = dec.complete ∧
      (cfg.bestEffort = true → later.endBlockCount ≤ later.nextEmitBlock) := by
  have finalized := finalizeActiveGroups_moves cfg datagram dec
  obtain ⟨seen, count, complete, _⟩ := finalizeActiveGroups_same cfg dec
  have settledStart := finalizeActiveGroups_notActive cfg dec
  obtain ⟨later, emitted, window, stuck, moves, settled, laterSeen, laterCount, laterComplete⟩ :=
    tryEmitFromHead_induction good (finalizeActiveGroups cfg dec) (finalized.windowInv inv)
      (fun cur => Moves cfg datagram dec cur ∧
        (∀ slot, (cur.groups slot).state ≠ .active) ∧
        cur.endSeen = true ∧ cur.endBlockCount = dec.endBlockCount ∧
        cur.complete = dec.complete)
      ⟨finalized, settledStart, seen.trans ended, count, complete⟩
      (by
        intro cur flag next _ ⟨moves, settled, currentSeen, currentCount, currentComplete⟩
          undone movable moved
        obtain ⟨nextSeen, nextCount, nextComplete⟩ := moved.flags
        exact ⟨moves.tail (.head flag _ (headMovable_allowed movable undone) moved),
          moved.notActive settled,
          nextSeen.trans currentSeen, nextCount.trans currentCount,
          nextComplete.trans currentComplete⟩)
  exact ⟨later, emitted, moves, laterSeen, laterCount, laterComplete, fun bestEffort =>
    headStuck_reached window bestEffort laterSeen settled stuck⟩

theorem flush_moves (dec : WireFlowDecoder) (inv : WindowInv cfg dec)
    (bestEffort : cfg.bestEffort = true) (ended : dec.endSeen = true) :
    ∃ later, wireFlowDecoderFlushBestEffort cfg dec = (0, later) ∧
      Moves cfg datagram dec later ∧ later.endSeen = true ∧
      later.endBlockCount = dec.endBlockCount ∧ later.complete = true ∧
      later.endBlockCount ≤ later.nextEmitBlock := by
  obtain ⟨later, emitted, moves, seen, count, _, reaches⟩ :=
    settle_moves good datagram dec inv ended
  have reached := reaches bestEffort
  have stop : (refreshPendingSnapshot later).endBlockCount ≤
      (refreshPendingSnapshot later).nextEmitBlock := reached
  unfold wireFlowDecoderFlushBestEffort
  rw [if_neg (by rw [bestEffort]; decide), if_neg (by rw [ended]; decide), emitted]
  dsimp only
  rw [if_neg (by decide), if_pos stop]
  have refreshed : Moves cfg datagram dec (refreshPendingSnapshot later) :=
    moves.tail (.counted _ rfl rfl rfl)
  exact ⟨_, rfl, refreshed.tail (.finished seen (Or.inr ⟨bestEffort, reached⟩)), seen, count,
    rfl, reached⟩

theorem ingestEnd_accepted (dec : WireFlowDecoder) (inv : WindowInv cfg dec)
    (isEnd : datagram.1.type = WIRE_TYPE_END) (accepted : ¬ EndRejected cfg dec datagram.1) :
    ∃ later, ingestEnd cfg dec datagram.1 = (0, later) ∧ Moves cfg datagram dec later ∧
      later.endSeen = true ∧ later.endBlockCount = datagram.1.blockId ∧
      (cfg.bestEffort = true → later.complete = true ∧
        later.endBlockCount ≤ later.nextEmitBlock) := by
  unfold ingestEnd
  rw [if_neg accepted]
  have announced : Move cfg datagram dec
      { dec with endSeen := true, endBlockCount := datagram.1.blockId } :=
    .announced isEnd fun disagrees => accepted (Or.inr (Or.inr disagrees))
  obtain ⟨later, emitted, moves, seen, count, _, reaches⟩ := settle_moves good datagram
    { dec with endSeen := true, endBlockCount := datagram.1.blockId }
    (announced.windowInv inv) rfl
  dsimp only at emitted ⊢
  rw [emitted]
  dsimp only
  rw [if_neg (by decide)]
  have refreshed : Moves cfg datagram dec (refreshPendingSnapshot later) :=
    ((Relation.ReflTransGen.single announced).trans moves).tail
      (.counted _ rfl rfl rfl)
  by_cases exactly_ : (refreshPendingSnapshot later).nextEmitBlock =
      (refreshPendingSnapshot later).endBlockCount
  · rw [if_pos exactly_]
    refine ⟨_, rfl, refreshed.tail (.finished seen (Or.inl exactly_)), seen, count, ?_⟩
    intro bestEffort
    exact ⟨rfl, reaches bestEffort⟩
  rw [if_neg exactly_]
  by_cases bestEffort : cfg.bestEffort = true
  · rw [if_pos bestEffort]
    obtain ⟨_, flushed, flushMoves, lastSeen, lastCount, _, reached⟩ :=
      flush_moves good datagram (refreshPendingSnapshot later)
        (Moves.windowInv refreshed inv) bestEffort seen
    rw [flushed]
    dsimp only
    rw [if_neg (by decide)]
    exact ⟨_, rfl, (refreshed.trans flushMoves).tail
      (.finished lastSeen (Or.inr ⟨bestEffort, reached⟩)), lastSeen, lastCount.trans count,
      fun _ => ⟨rfl, reached⟩⟩
  · rw [if_neg bestEffort]
    exact ⟨_, rfl, refreshed, seen, count, fun contrary => absurd contrary bestEffort⟩

/-- A decoder after its last emission: the snapshot, and completion at the exact end. -/
def afterEmission (dec : WireFlowDecoder) : WireFlowDecoder :=
  let dec := refreshPendingSnapshot dec
  if dec.endSeen = true ∧ dec.nextEmitBlock = dec.endBlockCount then
    { dec with complete := true } else dec

variable {dec opened : WireFlowDecoder} {slot : Slot}

omit good in
theorem afterEmission_unended (unended : dec.endSeen = false) :
    afterEmission dec = refreshPendingSnapshot dec := by
  have refreshed : (refreshPendingSnapshot dec).endSeen = false := unended
  unfold afterEmission
  rw [if_neg (by simp [refreshed])]

/-- What becomes of a well-formed shard once there is room: it is dropped, its group
refuses it, or it is stored, and then the group is tried and the head emitted. -/
inductive Placed (config : WireFlowDecoderConfig) (datagram : Datagram) (dec : WireFlowDecoder) :
    WireFlowDecoder → Prop where
  | dropped (stats : WireFlowDecoderStats)
      (emitted_eq : stats.groupsEmitted = dec.stats.groupsEmitted)
      (skipped_eq : stats.skippedGroups = dec.stats.skippedGroups)
      (recovered_eq : stats.groupsRecovered = dec.stats.groupsRecovered)
      (cause : datagram.1.blockId < dec.nextEmitBlock ∨
        blockInReorderWindow datagram.1.blockId dec.nextEmitBlock = false ∨
        openGroup dec datagram.1 = none) :
      Placed config datagram dec { dec with stats := stats }
  | refused (slot : Slot) (opened : WireFlowDecoder) (stats : WireFlowDecoderStats)
      (inWindow : blockInReorderWindow datagram.1.blockId dec.nextEmitBlock = true)
      (found : openGroup dec datagram.1 = some (slot, opened))
      (emitted_eq : stats.groupsEmitted = opened.stats.groupsEmitted)
      (skipped_eq : stats.skippedGroups = opened.stats.skippedGroups)
      (recovered_eq : stats.groupsRecovered = opened.stats.groupsRecovered)
      (cause : (opened.groups slot).state ≠ .active ∨
        groupMismatch (opened.groups slot) datagram.1 = true ∨
        (opened.groups slot).receivedBits datagram.1.shardIndex.toNat = true) :
      Placed config datagram dec { opened with stats := stats }
  | stored (slot : Slot) (opened emitted : WireFlowDecoder)
      (inWindow : blockInReorderWindow datagram.1.blockId dec.nextEmitBlock = true)
      (found : openGroup dec datagram.1 = some (slot, opened))
      (active : (opened.groups slot).state = .active)
      (matching : groupMismatch (opened.groups slot) datagram.1 = false)
      (absent : (opened.groups slot).receivedBits datagram.1.shardIndex.toNat = false)
      (emission : tryEmitFromHead config (tryRecoverGroup config
        (storeShard opened slot datagram.1.shardIndex.toNat datagram.2) slot false).2 =
          (0, emitted)) :
      Placed config datagram dec (afterEmission emitted)

omit good in
theorem openGroup_cases {hdr : WireHeader} (found : openGroup dec hdr = some (slot, opened)) :
    (findGroup dec.groups hdr.blockId = some slot ∧ opened = dec) ∨
      (findGroup dec.groups hdr.blockId = none ∧
        allocateGroup dec.groups hdr.blockId hdr.shardCount hdr.validLen
          hdr.encodeBeginNs hdr.encodeEndNs = some (slot, newGroup hdr.blockId
            hdr.shardCount hdr.validLen hdr.encodeBeginNs hdr.encodeEndNs) ∧
        opened = { dec.setGroup slot (newGroup hdr.blockId hdr.shardCount hdr.validLen
            hdr.encodeBeginNs hdr.encodeEndNs) with
          stats := { dec.stats with groupsReceived := dec.stats.groupsReceived + 1 } }) := by
  unfold openGroup at found
  cases present : findGroup dec.groups hdr.blockId with
  | some =>
    rw [present] at found
    obtain ⟨rfl, rfl⟩ := Prod.mk.inj (Option.some.inj found)
    exact Or.inl ⟨rfl, rfl⟩
  | none =>
    rw [present] at found
    cases allocated : allocateGroup dec.groups hdr.blockId hdr.shardCount
        hdr.validLen hdr.encodeBeginNs hdr.encodeEndNs with
    | none =>
      rw [allocated] at found
      cases found
    | some entry =>
      obtain ⟨_⟩ := entry
      rw [allocated] at found
      obtain ⟨rfl, rfl⟩ := Prod.mk.inj (Option.some.inj found)
      obtain ⟨_, _, rfl⟩ := allocateGroup_some allocated
      exact Or.inr ⟨rfl, rfl, rfl⟩

omit good in
theorem openGroup_moves (wellFormed : dataMalformed cfg datagram.1 datagram.2 = false)
    (inWin : blockInReorderWindow datagram.1.blockId dec.nextEmitBlock = true)
    (found : openGroup dec datagram.1 = some (slot, opened)) :
    Moves cfg datagram dec opened ∧ (opened.groups slot).state ≠ .empty ∧
      (opened.groups slot).blockId = datagram.1.blockId := by
  rcases openGroup_cases found with ⟨present, rfl⟩ | ⟨missing, allocated, rfl⟩
  · exact ⟨.refl, findGroup_some present⟩
  · refine ⟨.single (.opened slot _ _ wellFormed inWin missing allocated rfl), ?_, ?_⟩
    all_goals simp [WireFlowDecoder.setGroup, newGroup]

omit good in
theorem storedAttempt_moves (wellFormed : dataMalformed cfg datagram.1 datagram.2 = false)
    (active : (opened.groups slot).state = .active)
    (blockId_eq : (opened.groups slot).blockId = datagram.1.blockId)
    (matching : groupMismatch (opened.groups slot) datagram.1 = false)
    (absent : (opened.groups slot).receivedBits datagram.1.shardIndex.toNat = false) :
    Moves cfg datagram opened (tryRecoverGroup cfg
      (storeShard opened slot datagram.1.shardIndex.toNat datagram.2) slot false).2 := by
  have stored : Move cfg datagram opened
      (storeShard opened slot datagram.1.shardIndex.toNat datagram.2) :=
    .stored slot wellFormed active blockId_eq matching absent
  have stillActive : ((storeShard opened slot datagram.1.shardIndex.toNat
      datagram.2).groups slot).state = .active := by
    simpa [storeShard, WireFlowDecoder.setGroup] using active
  exact (Relation.ReflTransGen.single stored).tail (.attempt slot false _ _ stillActive
    (tryRecoverGroup_active cfg _ slot false stillActive))

theorem ingestShard_placed (inv : WindowInv cfg dec)
    (wellFormed : dataMalformed cfg datagram.1 datagram.2 = false)
    (inWin : blockInReorderWindow datagram.1.blockId dec.nextEmitBlock = true)
    (found : openGroup dec datagram.1 = some (slot, opened)) :
    ∃ later, ingestShard cfg opened slot datagram.1 datagram.2 = (0, later) ∧
      Placed cfg datagram dec later := by
  obtain ⟨opening, occ, blockId_eq⟩ := openGroup_moves datagram wellFormed inWin found
  unfold ingestShard
  dsimp only
  split
  · rename_i done
    refine ⟨_, rfl, .refused slot opened _ inWin found rfl rfl rfl (Or.inl ?_)⟩
    rcases done with done | done | done <;> simp [done]
  rename_i notDone
  split
  · rename_i mismatch
    exact ⟨_, rfl, .refused slot opened _ inWin found rfl rfl rfl (Or.inr (Or.inl mismatch))⟩
  rename_i matching
  split
  · rename_i present
    exact ⟨_, rfl, .refused slot opened _ inWin found rfl rfl rfl (Or.inr (Or.inr present))⟩
  rename_i absent
  rw [Bool.not_eq_true] at matching absent
  have active : (opened.groups slot).state = .active := by
    cases st : (opened.groups slot).state with
    | empty => exact absurd st occ
    | active => rfl
    | recovered => exact absurd (Or.inl st) notDone
    | emitted => exact absurd (Or.inr (Or.inr st)) notDone
    | failed => exact absurd (Or.inr (Or.inl st)) notDone
  have soFar := opening.trans
    (storedAttempt_moves datagram wellFormed active blockId_eq matching absent)
  obtain ⟨emitted, emission, _⟩ := tryEmitFromHead_moves good datagram _ (Moves.windowInv soFar inv)
  rw [emission]
  dsimp only
  rw [if_neg (by decide)]
  exact ⟨_, rfl, .stored slot opened emitted inWin found active matching absent emission⟩

theorem placeDatagram_placed (dec : WireFlowDecoder) (inv : WindowInv cfg dec)
    (wellFormed : dataMalformed cfg datagram.1 datagram.2 = false) :
    ∃ roomy later, (roomy = dec ∨ makeRoomForBlock cfg dec datagram.1.blockId = (0, roomy)) ∧
      Moves cfg datagram dec roomy ∧
      placeDatagram cfg dec datagram.1 datagram.2 = (0, later) ∧
      Placed cfg datagram roomy later := by
  unfold placeDatagram
  split
  · rename_i late
    exact ⟨dec, _, Or.inl rfl, .refl, rfl, .dropped _ rfl rfl rfl (Or.inl late)⟩
  obtain ⟨roomy, made, soFar⟩ := makeRoomForBlock_moves good datagram datagram.1.blockId dec inv
  rw [made]
  dsimp only
  rw [if_neg (by decide)]
  split
  · rename_i late
    exact ⟨roomy, _, Or.inr rfl, soFar, rfl, .dropped _ rfl rfl rfl (Or.inl late)⟩
  split
  · rename_i outside
    exact ⟨roomy, _, Or.inr rfl, soFar, rfl, .dropped _ rfl rfl rfl (Or.inr (Or.inl outside))⟩
  rename_i inWin
  rw [Bool.not_eq_false] at inWin
  cases found : openGroup roomy datagram.1 with
  | none => exact ⟨roomy, _, Or.inr rfl, soFar, rfl, .dropped _ rfl rfl rfl (Or.inr (Or.inr found))⟩
  | some entry =>
    obtain ⟨_⟩ := entry
    obtain ⟨later, done, placed⟩ := ingestShard_placed good datagram
      (Moves.windowInv soFar inv) wellFormed inWin found
    exact ⟨roomy, later, Or.inr rfl, soFar, done, placed⟩

omit good in
theorem afterEmission_moves (dec : WireFlowDecoder) :
    Moves cfg datagram dec (afterEmission dec) := by
  have refreshed : Moves cfg datagram dec (refreshPendingSnapshot dec) :=
    .single (.counted _ rfl rfl rfl)
  unfold afterEmission
  dsimp only
  split
  · rename_i finished
    exact refreshed.tail (.finished finished.1 (Or.inl finished.2))
  · exact refreshed

theorem Placed.moves {later : WireFlowDecoder} (inv : WindowInv cfg dec)
    (wellFormed : dataMalformed cfg datagram.1 datagram.2 = false)
    (placed : Placed cfg datagram dec later) : Moves cfg datagram dec later := by
  cases placed with
  | dropped stats emitted_eq skipped_eq rec_eq =>
    exact .single (.counted stats emitted_eq skipped_eq rec_eq)
  | refused _ _ stats inWin found emitted_eq skipped_eq rec_eq =>
    obtain ⟨opening, _⟩ := openGroup_moves datagram wellFormed inWin found
    exact opening.tail (.counted stats emitted_eq skipped_eq rec_eq)
  | stored _ _ emitted inWin found active matching absent emission =>
    obtain ⟨opening, _, blockId_eq⟩ := openGroup_moves datagram wellFormed inWin found
    have soFar := opening.trans
      (storedAttempt_moves datagram wellFormed active blockId_eq matching absent)
    obtain ⟨last, again, moves⟩ := tryEmitFromHead_moves good datagram _ (Moves.windowInv soFar inv)
    have same : emitted = last := congrArg Prod.snd (emission.symm.trans again)
    subst same
    exact (soFar.trans moves).trans (afterEmission_moves datagram emitted)

theorem ingestData_moves (dec : WireFlowDecoder) (inv : WindowInv cfg dec) :
    ∃ later, ingestData cfg dec datagram.1 datagram.2 = (0, later) ∧
      Moves cfg datagram dec later := by
  unfold ingestData
  split
  · exact ⟨_, rfl, .single (.counted _ rfl rfl rfl)⟩
  rename_i wellFormed
  rw [Bool.not_eq_true] at wellFormed
  have seen : Move cfg datagram dec (seenDatagram dec) := .counted _ rfl rfl rfl
  obtain ⟨_, later, _, making, done, placed⟩ :=
    placeDatagram_placed good datagram (seenDatagram dec) (seen.windowInv inv) wellFormed
  have soFar := (Relation.ReflTransGen.single seen).trans making
  exact ⟨later, done,
    soFar.trans (placed.moves good datagram (Moves.windowInv soFar inv) wellFormed)⟩

theorem ingest_moves (dec : WireFlowDecoder) (inv : WindowInv cfg dec) :
    ∃ later, wireFlowDecoderIngest cfg dec datagram.1 datagram.2 = (0, later) ∧
      Moves cfg datagram dec later := by
  unfold wireFlowDecoderIngest
  split
  · exact ⟨dec, rfl, .refl⟩
  split
  · rename_i isEnd
    by_cases rejected : EndRejected cfg dec datagram.1
    · rw [ingestEnd, if_pos rejected]
      exact ⟨_, rfl, .single (.counted _ rfl rfl rfl)⟩
    obtain ⟨later, done, moves, _⟩ :=
      ingestEnd_accepted good datagram dec inv isEnd rejected
    exact ⟨later, done, moves⟩
  · exact ingestData_moves good datagram dec inv

theorem ingest_windowInv (dec : WireFlowDecoder) (inv : WindowInv cfg dec) :
    WindowInv cfg (wireFlowDecoderIngest cfg dec datagram.1 datagram.2).2 := by
  obtain ⟨_, done, moves⟩ := ingest_moves good datagram dec inv
  rw [done]
  exact Moves.windowInv moves inv

end End

theorem ingestAll_windowInv (good : GoodConfig cfg) (datagrams : List Datagram)
    (dec : WireFlowDecoder) (inv : WindowInv cfg dec) :
    WindowInv cfg (ingestAll cfg dec datagrams) := by
  induction datagrams generalizing dec with
  | nil => exact inv
  | cons dgram _ ih => exact ih _ (ingest_windowInv good dgram dec inv)

end MultiFlow.FlowDecoder
