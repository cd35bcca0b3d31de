import MultiFlow.Wire.Progress

/-!
# The work of one datagram

How many heads one ingest can move.  Making room skips at most a window of heads and
every head it emits frees a slot; emission stops at the last group of the window, except
on a best-effort decoder that has seen the end, which runs to the announced block count.
-/

namespace MultiFlow.FlowDecoder

open CodecApi Lib Wire

def occupiedSlots (groups : Groups) : Finset Slot :=
  Finset.univ.filter fun slot => (groups slot).state ≠ .empty

theorem mem_occupiedSlots (groups : Groups) (slot : Slot) :
    slot ∈ occupiedSlots groups ↔ (groups slot).state ≠ .empty := by
  simp [occupiedSlots]

theorem occupiedSlots_card_le (groups : Groups) :
    (occupiedSlots groups).card ≤ WIRE_FLOW_GROUP_WINDOW :=
  (Finset.card_filter_le _ _).trans (Finset.card_fin _).le

theorem occupiedSlots_release (groups : Groups) (slot : Slot) (occ : (groups slot).state ≠ .empty) :
    (occupiedSlots (Function.update groups slot releasedGroup)).card + 1 =
      (occupiedSlots groups).card := by
  have erased : occupiedSlots (Function.update groups slot releasedGroup) =
      (occupiedSlots groups).erase slot := by
    ext other
    by_cases same : other = slot
    · subst same
      simp [mem_occupiedSlots, releasedGroup]
    · simp [mem_occupiedSlots, same]
  have mem : slot ∈ occupiedSlots groups := (mem_occupiedSlots groups slot).mpr occ
  rw [erased, Finset.card_erase_add_one mem]

variable {cfg : WireFlowDecoderConfig} {flag : Bool}

theorem HeadMoved.occupied_card {dec later : WireFlowDecoder}
    (moved : HeadMoved cfg dec (findGroup dec.groups dec.nextEmitBlock) flag later) :
    (occupiedSlots later.groups).card + (if flag then 0 else 1) ≤
      (occupiedSlots dec.groups).card := by
  have ids : ∀ slot, findGroup dec.groups dec.nextEmitBlock = some slot →
      (dec.groups slot).state ≠ .empty := fun slot found => (findGroup_some found).1
  rw [moved.groups_eq]
  generalize findGroup dec.groups dec.nextEmitBlock = head at moved ids
  have fewer : ∀ slot, head = some slot →
      (occupiedSlots (withoutHead dec.groups head)).card + 1 =
        (occupiedSlots dec.groups).card := by
    intro slot found
    rw [found, withoutHead]
    exact occupiedSlots_release dec.groups slot (ids slot found)
  cases moved with
  | emitted slot | rescued slot => exact (fewer slot rfl).le
  | abandoned slot =>
    have freed := fewer slot rfl
    rw [if_pos rfl]
    omega
  | skipped =>
    rw [if_pos rfl]
    cases head with
    | none => exact le_refl _
    | some slot =>
      have freed := fewer slot rfl
      omega

theorem HeadMoved.heads_length {dec later : WireFlowDecoder}
    (moved : HeadMoved cfg dec (findGroup dec.groups dec.nextEmitBlock) flag later) :
    later.heads.length = dec.heads.length + 1 := by
  rw [moved.heads_eq, List.length_append, List.length_singleton]

section Bounds

variable {config : WireFlowDecoderConfig} (good : GoodConfig config)

include good

variable (dec : WireFlowDecoder)

theorem makeRoomForBlock_heads_le (inv : WindowInv config dec) (blockId : UInt64) :
    (makeRoomForBlock config dec blockId).2.heads.length ≤
      dec.heads.length + 2 * WIRE_FLOW_GROUP_WINDOW := by
  have start := occupiedSlots_card_le dec.groups
  unfold makeRoomForBlock
  split
  · exact Nat.le_add_right _ _
  refine loop_induction
    -- each turn either uses the guard or frees a slot
    (fun cur => WindowInv config cur.1 ∧ cur.2 ≤ WIRE_FLOW_GROUP_WINDOW ∧
      cur.1.heads.length + (occupiedSlots cur.1.groups).card ≤
        dec.heads.length + (occupiedSlots dec.groups).card + cur.2)
    (fun res : Int × WireFlowDecoder => res.2.heads.length ≤
      dec.heads.length + 2 * WIRE_FLOW_GROUP_WINDOW) ?_ ?_ (dec, 0)
    ⟨inv, Nat.zero_le _, le_refl _⟩
  · rintro cur _ ⟨window, guardLe, potential⟩ moved
    obtain ⟨_, _, flag, head, guard_eq⟩ := makeRoomStep_next moved
    have longer := head.heads_length
    have freed := head.occupied_card
    refine ⟨head.windowInv window, ?_⟩
    rw [guard_eq]
    cases flag with
    | true =>
      simp only [if_true] at freed ⊢
      omega
    | false =>
      simp only [Bool.false_eq_true, if_false] at freed ⊢
      omega
  · rintro _ _ ⟨window, guardLe, potential⟩ left
    obtain ⟨rfl, _⟩ := makeRoomStep_done good window left
    dsimp only
    omega

omit good in
theorem headMovable_occupied {dec : WireFlowDecoder}
    (undone : ¬ (dec.endSeen = true ∧ dec.endBlockCount ≤ dec.nextEmitBlock))
    (movable : headMovable config dec (findGroup dec.groups dec.nextEmitBlock) = true)
    (open_ : ¬ (config.bestEffort = true ∧ dec.endSeen = true)) :
    ∃ slot, (dec.groups slot).state ≠ .empty := by
  rcases headMovable_cases movable undone with
    ready | ⟨bestEffort, ended, _⟩ | ⟨_, slot, ready, _⟩
  · cases found : findGroup dec.groups dec.nextEmitBlock with
    | none =>
      rw [found] at ready
      cases ready
    | some slot => exact ⟨slot, (findGroup_some found).1⟩
  · exact absurd ⟨bestEffort, ended⟩ open_
  · exact ⟨slot, by simp [ready]⟩

/-- While a group waits, the head has not passed the window it started with. -/
structure Emitting (dec current : WireFlowDecoder) : Prop where
  endSeen_eq : current.endSeen = dec.endSeen
  heads_le : current.heads.length ≤ dec.heads.length + WIRE_FLOW_GROUP_WINDOW
  waiting : ∀ slot, (current.groups slot).state ≠ .empty →
    current.nextEmitBlock.toNat + dec.heads.length =
      dec.nextEmitBlock.toNat + current.heads.length ∧
    (current.groups slot).blockId.toNat < dec.nextEmitBlock.toNat + WIRE_FLOW_GROUP_WINDOW

omit good in
theorem Emitting.turn {dec cur later : WireFlowDecoder} {flag : Bool}
    (window : WindowInv config cur) (emitting : Emitting dec cur)
    (waits : ∃ slot, (cur.groups slot).state ≠ .empty)
    (moved : HeadMoved config cur (findGroup cur.groups cur.nextEmitBlock) flag
      later) : Emitting dec later := by
  have longer := moved.heads_length
  refine ⟨moved.flags.1.trans emitting.endSeen_eq, ?_, ?_⟩
  · obtain ⟨slot, occ⟩ := waits
    obtain ⟨_, below⟩ := emitting.waiting slot occ
    have above := (window.group slot occ).aboveHead
    omega
  intro slot occ
  rw [moved.groups_eq] at occ ⊢
  obtain ⟨same, wasOccupied, notHead⟩ := window.kept occ
  obtain ⟨_, below⟩ := emitting.waiting slot wasOccupied
  have above := (window.group slot wasOccupied).aboveHead
  have differs : (cur.groups slot).blockId.toNat ≠ cur.nextEmitBlock.toNat :=
    fun equal => notHead (UInt64.toNat_inj.mp equal)
  have less : cur.nextEmitBlock < (cur.groups slot).blockId :=
    UInt64.lt_iff_toNat_lt.mpr (by omega)
  rw [same, moved.next_eq, toNat_add_one_of_lt less]
  exact ⟨by omega, below⟩

theorem tryEmitFromHead_heads_le (inv : WindowInv config dec)
    (open_ : ¬ (config.bestEffort = true ∧ dec.endSeen = true)) :
    (tryEmitFromHead config dec).2.heads.length ≤ dec.heads.length + WIRE_FLOW_GROUP_WINDOW := by
  obtain ⟨later, done, _, _, emitting⟩ := tryEmitFromHead_induction good dec inv
    (Emitting dec)
    ⟨rfl, Nat.le_add_right _ _, fun slot occ =>
      ⟨Nat.add_comm _ _ ▸ rfl, (inv.group slot occ).belowEnd⟩⟩
    (by
      intro cur _ _ window emitting undone movable moved
      have stillOpen : ¬ (config.bestEffort = true ∧ cur.endSeen = true) := by
        rw [emitting.endSeen_eq]
        exact open_
      exact emitting.turn window (headMovable_occupied undone movable stillOpen) moved)
  rw [done]
  exact emitting.heads_le

theorem tryEmitFromHead_toEnd (inv : WindowInv config dec) (bestEffort : config.bestEffort = true)
    (ended : dec.endSeen = true) (settled : ∀ slot, (dec.groups slot).state ≠ .active) :
    let later := (tryEmitFromHead config dec).2
    later.heads.length =
        dec.heads.length + (dec.endBlockCount.toNat - dec.nextEmitBlock.toNat) ∧
      later.nextEmitBlock.toNat = max dec.nextEmitBlock.toNat dec.endBlockCount.toNat := by
  obtain ⟨later, done, window, stuck, laterEnded, count_eq, laterSettled, atLeast, atMost,
    passed⟩ := tryEmitFromHead_induction good dec inv
    (fun cur => cur.endSeen = true ∧ cur.endBlockCount = dec.endBlockCount ∧
      (∀ slot, (cur.groups slot).state ≠ .active) ∧
      dec.nextEmitBlock.toNat ≤ cur.nextEmitBlock.toNat ∧
      cur.nextEmitBlock.toNat ≤ max dec.nextEmitBlock.toNat dec.endBlockCount.toNat ∧
      cur.heads.length = dec.heads.length + (cur.nextEmitBlock.toNat - dec.nextEmitBlock.toNat))
    ⟨ended, rfl, settled, le_refl _, le_max_left _ _, by omega⟩
    (by
      intro cur _ _ _ ⟨seen, count, settled, atLeast, atMost, passed⟩ undone _ moved
      have before : cur.nextEmitBlock < cur.endBlockCount :=
        UInt64.not_le.mp fun reached => undone ⟨seen, reached⟩
      obtain ⟨laterSeen, laterCount, _⟩ := moved.flags
      refine ⟨laterSeen.trans seen, laterCount.trans count, moved.notActive settled, ?_⟩
      rw [count, UInt64.lt_iff_toNat_lt] at before
      rw [moved.heads_length, moved.next_eq,
        toNat_add_one_of_lt (UInt64.lt_iff_toNat_lt.mpr before)]
      omega)
  have reached := headStuck_reached window bestEffort laterEnded laterSettled stuck
  rw [count_eq, UInt64.le_iff_toNat_le] at reached
  rw [done]
  dsimp only
  omega

variable {dgram : Datagram}

omit good in
theorem Move.endSeen_of_data {dec later : WireFlowDecoder} (notEnd : dgram.1.type ≠ WIRE_TYPE_END)
    (move : Move config dgram dec later) :
    later.endSeen = dec.endSeen ∧ later.endBlockCount = dec.endBlockCount ∧
      (dec.complete = true → later.complete = true) := by
  cases move with
  | head _ _ _ moved =>
    obtain ⟨seen, count, complete⟩ := moved.flags
    exact ⟨seen, count, fun done => complete.trans done⟩
  | attempt _ _ _ _ _ attempted =>
    obtain ⟨_, attempt⟩ := attempted.attempt
    exact ⟨attempt.endSeen_eq, attempt.endCount_eq, fun done => attempt.complete_eq.trans done⟩
  | opened | stored | counted => exact ⟨rfl, rfl, id⟩
  | announced isEnd => exact absurd isEnd notEnd
  | finished => exact ⟨rfl, rfl, fun _ => rfl⟩

omit good in
theorem Moves.endSeen_of_data {dec later : WireFlowDecoder} (notEnd : dgram.1.type ≠ WIRE_TYPE_END)
    (moves : Moves config dgram dec later) :
    later.endSeen = dec.endSeen ∧ later.endBlockCount = dec.endBlockCount ∧
      (dec.complete = true → later.complete = true) := by
  induction moves with
  | refl => exact ⟨rfl, rfl, id⟩
  | tail _ move ih =>
    obtain ⟨seen, count, complete⟩ := move.endSeen_of_data notEnd
    exact ⟨seen.trans ih.1, count.trans ih.2.1, fun done => complete (ih.2.2 done)⟩

omit good in
theorem openGroup_same {dec opened : WireFlowDecoder} {hdr : WireHeader} {slot : Slot}
    (found : openGroup dec hdr = some (slot, opened)) :
    opened.heads = dec.heads ∧ opened.endSeen = dec.endSeen := by
  rcases openGroup_cases found with ⟨_, rfl⟩ | ⟨_, _, rfl⟩
  all_goals exact ⟨rfl, rfl⟩

omit good in
theorem storedAttempt_same (opened : WireFlowDecoder) (slot : Slot) (shard : Nat)
    (body : List UInt8) (active : (opened.groups slot).state = .active) :
    (tryRecoverGroup config (storeShard opened slot shard body) slot false).2.heads = opened.heads ∧
      (tryRecoverGroup config (storeShard opened slot shard body) slot false).2.endSeen =
        opened.endSeen := by
  have stillActive : ((storeShard opened slot shard body).groups slot).state = .active := by
    simpa [storeShard, WireFlowDecoder.setGroup] using active
  have attempted := tryRecoverGroup_active config _ slot false stillActive
  cases outcome : tryRecoverGroup config (storeShard opened slot shard body) slot false with
  | mk =>
    rw [outcome] at attempted
    obtain ⟨_, attempt⟩ := attempted.attempt
    exact ⟨attempt.heads_eq, attempt.endSeen_eq⟩

omit good in
theorem afterEmission_heads : (afterEmission dec).heads = dec.heads := by
  unfold afterEmission
  dsimp only
  split
  · rfl
  · rfl

theorem Placed.heads_le {dec later : WireFlowDecoder} (inv : WindowInv config dec)
    (wellFormed : dataMalformed config dgram.1 dgram.2 = false)
    (open_ : ¬ (config.bestEffort = true ∧ dec.endSeen = true))
    (placed : Placed config dgram dec later) :
    later.heads.length ≤ dec.heads.length + WIRE_FLOW_GROUP_WINDOW := by
  cases placed with
  | dropped => exact Nat.le_add_right _ _
  | refused _ opened _ _ found =>
    show opened.heads.length ≤ _
    rw [(openGroup_same found).1]
    exact Nat.le_add_right _ _
  | stored slot opened _ inWin found active matching absent emission =>
    obtain ⟨opening, _, blockId_eq⟩ := openGroup_moves dgram wellFormed inWin found
    obtain ⟨openedHeads, openedEnd⟩ := openGroup_same found
    obtain ⟨storedHeads, storedEnd⟩ := @storedAttempt_same config opened slot
      dgram.1.shardIndex.toNat dgram.2 active
    have bound := tryEmitFromHead_heads_le good _
      (Moves.windowInv (opening.trans
        (storedAttempt_moves dgram wellFormed active blockId_eq matching absent)) inv)
      (by rw [storedEnd, openedEnd]; exact open_)
    rw [emission, storedHeads, openedHeads] at bound
    rw [afterEmission_heads]
    exact bound

theorem ingestData_heads_le (dgram : Datagram) (dec : WireFlowDecoder) (inv : WindowInv config dec)
    (open_ : ¬ (config.bestEffort = true ∧ dec.endSeen = true)) :
    (ingestData config dec dgram.1 dgram.2).2.heads.length ≤
      dec.heads.length + 3 * WIRE_FLOW_GROUP_WINDOW := by
  unfold ingestData
  split
  · exact Nat.le_add_right _ _
  rename_i wellFormed
  rw [Bool.not_eq_true] at wellFormed
  have seenInv : WindowInv config (seenDatagram dec) := inv.of_same rfl rfl
  obtain ⟨roomy, _, made, making, done, placed⟩ :=
    placeDatagram_placed good dgram (seenDatagram dec) seenInv wellFormed
  have notEnd : dgram.1.type ≠ WIRE_TYPE_END := by
    simp only [dataMalformed, decide_eq_false_iff_not, not_or] at wellFormed
    rw [not_not.mp wellFormed.1]
    decide
  have roomyEnd : roomy.endSeen = dec.endSeen := (making.endSeen_of_data notEnd).1
  have room : roomy.heads.length ≤ dec.heads.length + 2 * WIRE_FLOW_GROUP_WINDOW := by
    rcases made with rfl | made
    · exact Nat.le_add_right _ _
    · have bound := makeRoomForBlock_heads_le good (seenDatagram dec) seenInv dgram.1.blockId
      rw [made] at bound
      exact bound
  have bound := placed.heads_le good (Moves.windowInv making seenInv) wellFormed
    (by rw [roomyEnd]; exact open_)
  rw [done]
  dsimp only
  omega

omit good in
theorem finalizeActiveGroups_settled (settled : ∀ slot, (dec.groups slot).state ≠ .active) :
    finalizeActiveGroups config dec = dec := by
  unfold finalizeActiveGroups
  generalize List.finRange WIRE_FLOW_GROUP_WINDOW = slots
  induction slots with
  | nil => rfl
  | cons slot _ ih => rw [List.foldl_cons, finalizeGroup, if_neg (settled slot), ih]

omit good in
theorem tryEmitFromHead_reached (ended : dec.endSeen = true)
    (reached : dec.endBlockCount ≤ dec.nextEmitBlock) : tryEmitFromHead config dec = (0, dec) := by
  refine loop_done ?_
  rw [tryEmitStep, if_pos ⟨ended, reached⟩]

omit good in
theorem flush_reached (bestEffort : config.bestEffort = true) (ended : dec.endSeen = true)
    (reached : dec.endBlockCount ≤ dec.nextEmitBlock)
    (settled : ∀ slot, (dec.groups slot).state ≠ .active) :
    wireFlowDecoderFlushBestEffort config dec =
      (0, { refreshPendingSnapshot dec with complete := true }) := by
  have stop : (refreshPendingSnapshot dec).endBlockCount ≤
      (refreshPendingSnapshot dec).nextEmitBlock := reached
  unfold wireFlowDecoderFlushBestEffort
  rw [if_neg (by rw [bestEffort]; decide), if_neg (by rw [ended]; decide),
    finalizeActiveGroups_settled dec settled, tryEmitFromHead_reached dec ended reached]
  dsimp only
  rw [if_neg (by decide), if_pos stop]

def announcedEnd (config : WireFlowDecoderConfig) (dec : WireFlowDecoder) (header : WireHeader) :
    WireFlowDecoder :=
  finalizeActiveGroups config { dec with endSeen := true, endBlockCount := header.blockId }

structure AnnouncedEnd (config : WireFlowDecoderConfig) (header : WireHeader)
    (dec started : WireFlowDecoder) : Prop where
  window : WindowInv config started
  settled : ∀ slot, (started.groups slot).state ≠ .active
  endSeen_eq : started.endSeen = true
  count_eq : started.endBlockCount = header.blockId
  next_eq : started.nextEmitBlock = dec.nextEmitBlock
  heads_eq : started.heads = dec.heads

variable (hdr : WireHeader)

omit good in
theorem announcedEnd_spec (dec : WireFlowDecoder) (inv : WindowInv config dec) :
    AnnouncedEnd config hdr dec (announcedEnd config dec hdr) := by
  unfold announcedEnd
  obtain ⟨seen, count, _, next, heads⟩ := finalizeActiveGroups_same config
    { dec with endSeen := true, endBlockCount := hdr.blockId }
  exact ⟨(finalizeActiveGroups_moves config (hdr, []) _).windowInv (inv.of_same rfl rfl),
    finalizeActiveGroups_notActive config _, seen, count, next, heads⟩

/-- After an accepted END there is one emission; the flush of a best-effort decoder finds
the end reached. -/
theorem ingestEnd_emission (dec : WireFlowDecoder) (inv : WindowInv config dec)
    (accepted : ¬ EndRejected config dec hdr) :
    (ingestEnd config dec hdr).2.heads =
        (tryEmitFromHead config (announcedEnd config dec hdr)).2.heads ∧
      (ingestEnd config dec hdr).2.nextEmitBlock =
        (tryEmitFromHead config (announcedEnd config dec hdr)).2.nextEmitBlock := by
  have start := announcedEnd_spec hdr dec inv
  obtain ⟨settled, emitted, window, stuck, laterSeen, laterSettled⟩ :=
    tryEmitFromHead_induction good (announcedEnd config dec hdr) start.window
      (fun cur => cur.endSeen = true ∧ ∀ slot, (cur.groups slot).state ≠ .active)
      ⟨start.endSeen_eq, start.settled⟩
      (by
        intro _ _ _ _ ⟨currentSeen, currentSettled⟩ _ _ moved
        exact ⟨moved.flags.1.trans currentSeen, moved.notActive currentSettled⟩)
  rw [emitted]
  unfold announcedEnd at emitted
  unfold ingestEnd
  rw [if_neg accepted]
  dsimp only
  rw [emitted]
  dsimp only
  rw [if_neg (by decide)]
  split
  · exact ⟨rfl, rfl⟩
  split
  · rename_i bestEffort
    have reached := headStuck_reached window bestEffort laterSeen laterSettled stuck
    rw [flush_reached (refreshPendingSnapshot settled) bestEffort laterSeen reached laterSettled]
    dsimp only
    rw [if_neg (by decide)]
    exact ⟨rfl, rfl⟩
  · exact ⟨rfl, rfl⟩

theorem ingestEnd_heads_strict (dec : WireFlowDecoder) (inv : WindowInv config dec)
    (strict : config.bestEffort = false) :
    (ingestEnd config dec hdr).2.heads.length ≤ dec.heads.length + WIRE_FLOW_GROUP_WINDOW := by
  by_cases rejected : EndRejected config dec hdr
  · rw [ingestEnd, if_pos rejected]
    exact Nat.le_add_right _ _
  have start := announcedEnd_spec hdr dec inv
  have bound := tryEmitFromHead_heads_le good _ start.window (by simp [strict])
  rw [(ingestEnd_emission good hdr dec inv rejected).1]
  rw [start.heads_eq] at bound
  exact bound

theorem ingestEnd_heads_bestEffort (dec : WireFlowDecoder) (inv : WindowInv config dec)
    (bestEffort : config.bestEffort = true) (accepted : ¬ EndRejected config dec hdr) :
    (ingestEnd config dec hdr).2.heads.length =
        dec.heads.length + (hdr.blockId.toNat - dec.nextEmitBlock.toNat) ∧
      (ingestEnd config dec hdr).2.nextEmitBlock.toNat =
        max dec.nextEmitBlock.toNat hdr.blockId.toNat := by
  have start := announcedEnd_spec hdr dec inv
  have exactly_ := tryEmitFromHead_toEnd good _ start.window bestEffort start.endSeen_eq
    start.settled
  obtain ⟨heads_eq, next_eq⟩ := ingestEnd_emission good hdr dec inv accepted
  rw [heads_eq, next_eq]
  rw [start.heads_eq, start.next_eq, start.count_eq] at exactly_
  exact exactly_

theorem ingestAll_endSeen_complete (bestEffort : config.bestEffort = true)
    (datagrams : List Datagram) :
    (ingestAll config freshDecoder datagrams).endSeen = true →
      (ingestAll config freshDecoder datagrams).complete = true := by
  refine ingestAll_invariant good (fun dec => dec.endSeen = true → dec.complete = true)
    (fun ended => by cases ended) datagrams ?_
  intro dgram _ dec inv holds
  by_cases isEnd : dgram.1.type = WIRE_TYPE_END
  · unfold wireFlowDecoderIngest
    rw [if_pos isEnd]
    split
    · exact holds
    by_cases rejected : EndRejected config dec dgram.1
    · rw [ingestEnd, if_pos rejected]
      exact holds
    obtain ⟨_, done, _, _, _, completes⟩ :=
      ingestEnd_accepted good dgram dec inv isEnd rejected
    rw [done]
    exact fun _ => (completes bestEffort).1
  · obtain ⟨_, done, moves⟩ := ingest_moves good dgram dec inv
    obtain ⟨seen, _, complete⟩ := moves.endSeen_of_data isEnd
    rw [done]
    intro ended
    exact complete (holds (seen.symm.trans ended))

end Bounds

/-- The work of one ingest in any reachable state: at most three windows of heads, except
for the END that a best-effort decoder accepts, which runs exactly to the announced
block count. -/
theorem ingest_heads_bound (config : WireFlowDecoderConfig) (good : GoodConfig config)
    (datagrams : List Datagram) (datagram : Datagram) :
    let dec := ingestAll config freshDecoder datagrams
    let later := (wireFlowDecoderIngest config dec datagram.1 datagram.2).2
    (∃ heads, later.heads = dec.heads ++ heads ∧
        later.nextEmitBlock = dec.nextEmitBlock + UInt64.ofNat heads.length) ∧
      (¬ (config.bestEffort = true ∧ datagram.1.type = WIRE_TYPE_END) →
        later.heads.length ≤ dec.heads.length + 3 * WIRE_FLOW_GROUP_WINDOW) ∧
      (config.bestEffort = true ∧ datagram.1.type = WIRE_TYPE_END →
        later.heads.length = dec.heads.length +
          if dec.complete = true ∨ EndRejected config dec datagram.1 then 0
          else datagram.1.blockId.toNat - dec.nextEmitBlock.toNat) := by
  intro dec later
  have window := ingestAll_windowInv good datagrams freshDecoder (freshDecoder_windowInv config)
  obtain ⟨after, done, moves⟩ := ingest_moves good datagram dec window
  have later_eq : later = after := congrArg Prod.snd done
  refine ⟨?_, ?_, ?_⟩
  · obtain ⟨heads, grown⟩ := later_eq ▸ moves.heads_append
    have before := ingestAll_headsInv good datagrams
    have run := ingestAll_headsInv good (datagrams ++ [datagram])
    rw [ingestAll, List.foldl_append] at run
    refine ⟨heads, grown, ?_⟩
    have next_eq : later.nextEmitBlock = UInt64.ofNat later.heads.length := run.next_eq
    rw [next_eq, grown, List.length_append, UInt64.ofNat_add, before.next_eq]
  · intro ordinary
    show (wireFlowDecoderIngest config dec datagram.1 datagram.2).2.heads.length ≤ _
    unfold wireFlowDecoderIngest
    split
    · exact Nat.le_add_right _ _
    rename_i running
    split
    · rename_i isEnd
      have strict : config.bestEffort = false := by
        rw [← Bool.not_eq_true]
        exact fun bestEffort => ordinary ⟨bestEffort, isEnd⟩
      have bound := ingestEnd_heads_strict good datagram.1 dec window strict
      omega
    · refine ingestData_heads_le good datagram dec window ?_
      rintro ⟨bestEffort, ended⟩
      exact running (ingestAll_endSeen_complete good bestEffort datagrams ended)
  · rintro ⟨bestEffort, isEnd⟩
    show (wireFlowDecoderIngest config dec datagram.1 datagram.2).2.heads.length = _
    unfold wireFlowDecoderIngest
    by_cases complete : dec.complete = true
    · rw [if_pos complete, if_pos (Or.inl complete)]
      rfl
    rw [if_neg complete, if_pos isEnd]
    by_cases rejected : EndRejected config dec datagram.1
    · rw [if_pos (Or.inr rejected), ingestEnd, if_pos rejected]
      rfl
    · rw [if_neg (not_or.mpr ⟨complete, rejected⟩)]
      exact (ingestEnd_heads_bestEffort good datagram.1 dec window bestEffort rejected).1

theorem ingest_heads_bound_plain :
    GoodConfig (plainConfig true) ∧
      (wireFlowDecoderIngest (plainConfig true) freshDecoder (plainEnd 7) []).2.heads.length =
        7 := by
  obtain ⟨_, _, toEnd⟩ := ingest_heads_bound (plainConfig true) (plainConfig_good true) []
    (plainEnd 7, [])
  have exactly_ := toEnd ⟨rfl, rfl⟩
  rw [if_neg (by decide)] at exactly_
  exact ⟨plainConfig_good true, exactly_⟩

/-- One END moves the head of a fresh best-effort decoder by more than three windows. -/
theorem endMovesHead_far :
    3 * WIRE_FLOW_GROUP_WINDOW < 385 ∧
      (wireFlowDecoderIngest (plainConfig true) (ingestAll (plainConfig true) freshDecoder [])
        (plainEnd 385) []).2.heads.length =
          (ingestAll (plainConfig true) freshDecoder []).heads.length + 385 := by
  refine ⟨by decide, ?_⟩
  have fresh : ingestAll (plainConfig true) freshDecoder [] = freshDecoder := rfl
  have toEnd := ingestEnd_heads_bestEffort (plainConfig_good true) (plainEnd 385) freshDecoder
    (freshDecoder_windowInv _) rfl (by decide)
  rw [fresh, wireFlowDecoderIngest, if_neg (by decide), if_pos (by decide)]
  exact toEnd.1

end MultiFlow.FlowDecoder
