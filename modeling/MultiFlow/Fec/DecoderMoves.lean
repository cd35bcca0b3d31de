import MultiFlow.Fec.GroupMoves

/-!
# Calls of the decoder as sequences of moves

`DecoderMove` adds to the moves inside a slot what the decoder itself does: it raises the
watermark, takes a free slot for a group, and clears a slot.  `clears` says which groups
may be cleared, given the watermark; each result about runs chooses it.
-/

namespace MultiFlow.Fec

open CodecApi Lib Wire List

section Decoder

variable (fec : FecTransport) (output : FecOutputFn) (unchecked : Prop)
  (received : WireHeader → List UInt8 → Prop)
  (clears : Option UInt64 → FecDecodeGroup → Prop)

inductive DecoderMove (decoder : FecDecoder) : FecDecoder → Prop where
  | inGroup (slot : Nat) (later : GroupView) (inWindow : slot < fec.groupWindow)
      (occupied : (decoder.groups slot).active ≠ .free)
      (move : GroupMove fec output unchecked received (decoder.view slot) later) :
      DecoderMove decoder (decoder.put slot later)
  | counted (stats : FecDecoderStats) : DecoderMove decoder { decoder with stats := stats }
  | raised (groupId : UInt64) (above : aboveHighest decoder.highestGroupId groupId = true) :
      DecoderMove decoder { decoder with highestGroupId := some groupId }
  | opened (slot : Nat) (groupId highest : UInt64) (inWindow : slot < fec.groupWindow)
      (free : (decoder.groups slot).active = .free)
      (unused : ∀ other < fec.groupWindow, (decoder.groups other).holds groupId = false)
      (highest_eq : decoder.highestGroupId = some highest) (below : groupId ≤ highest)
      (recent : behindWindow fec decoder.highestGroupId groupId = false) :
      DecoderMove decoder (openGroup decoder slot groupId)
  | cleared (slot : Nat) (stats : FecDecoderStats) (inWindow : slot < fec.groupWindow)
      (occupied : (decoder.groups slot).active ≠ .free)
      (allowed : clears decoder.highestGroupId (decoder.groups slot)) :
      DecoderMove decoder { decoder with
        groups := Function.update decoder.groups slot groupClear, stats := stats }

abbrev DecoderMoves :=
  Relation.ReflTransGen (DecoderMove fec output unchecked received clears)

@[simp] theorem FecDecoder.put_view (decoder : FecDecoder) (slot : Nat) :
    decoder.put slot (decoder.view slot) = decoder := by
  simp [FecDecoder.put, FecDecoder.view]

variable (dec : FecDecoder)

@[simp] theorem FecDecoder.view_put (slot : Nat) (view : GroupView) :
    (dec.put slot view).view slot = view := by
  simp [FecDecoder.put, FecDecoder.view]

@[simp] theorem FecDecoder.put_put (slot : Nat) (view later : GroupView) :
    (dec.put slot view).put slot later = dec.put slot later := by
  simp [FecDecoder.put]

@[simp] theorem FecDecoder.groups_put_same (slot : Nat) (view : GroupView) :
    (dec.put slot view).groups slot = view.group := by
  simp [FecDecoder.put]

variable {slot : Nat} {decoder : FecDecoder} {groupId highest : UInt64}

theorem FecDecoder.groups_put_other {other : Nat} (view : GroupView) (apart : other ≠ slot) :
    (dec.put slot view).groups other = dec.groups other := by
  simp [FecDecoder.put, Function.update_of_ne apart]

theorem FecDecoder.onGroup_snd (slot : Nat) (run : GroupView → FecStatus × GroupView) :
    (dec.onGroup slot run).2 = dec.put slot (run (dec.view slot)).2 := rfl

variable {unchecked received clears}

theorem put_moves (slot : Nat) (later : GroupView) (inWin : slot < fec.groupWindow)
    (occ : (dec.groups slot).active ≠ .free)
    (moves : GroupMoves fec output unchecked received (dec.view slot) later) :
    DecoderMoves fec output unchecked received clears dec (dec.put slot later) := by
  induction moves with
  | refl => rw [FecDecoder.put_view]
  | @tail mid last before move ih =>
    refine ih.tail ?_
    rw [← FecDecoder.put_put dec slot mid last]
    refine .inGroup slot last inWin ?_ ?_
    · rw [FecDecoder.groups_put_same]
      exact (GroupMoves.sameGroup before).active occ
    · rw [FecDecoder.view_put]
      exact move

theorem onGroup_moves (slot : Nat) (run : GroupView → FecStatus × GroupView)
    (inWin : slot < fec.groupWindow) (occ : (dec.groups slot).active ≠ .free)
    (moves : GroupMoves fec output unchecked received (dec.view slot) (run (dec.view slot)).2) :
    DecoderMoves fec output unchecked received clears dec (dec.onGroup slot run).2 :=
  put_moves fec output dec slot _ inWin occ moves

variable (visit : GroupView → FecStatus × GroupView)

variable (slots : List Nat)

theorem eachGroup_moves (distinct : slots.Nodup) (dec : FecDecoder)
    (moves : ∀ slot ∈ slots, ∀ cur : FecDecoder, cur.groups slot = dec.groups slot →
      cur.highestGroupId = dec.highestGroupId →
      DecoderMoves fec output unchecked received clears cur (cur.onGroup slot visit).2) :
    DecoderMoves fec output unchecked received clears dec (eachGroup visit slots dec).2 := by
  induction slots generalizing dec with
  | nil => exact .refl
  | cons slot _ ih =>
    obtain ⟨notLater, distinctRest⟩ := nodup_cons.mp distinct
    have first := moves slot mem_cons_self dec rfl rfl
    rw [eachGroup]
    dsimp only
    split
    · exact first
    refine first.trans (ih distinctRest _ ?_)
    intro other mem cur same highest_eq
    refine moves other (mem_cons_of_mem _ mem) cur ?_ highest_eq
    rw [same]
    exact dec.groups_put_other _ fun equal => notLater (equal ▸ mem)

theorem eachGroup_highest : (eachGroup visit slots dec).2.highestGroupId = dec.highestGroupId := by
  induction slots generalizing dec with
  | nil => rfl
  | cons _ _ ih =>
    rw [eachGroup]
    dsimp only
    split
    · rfl
    · exact ih _

theorem eachGroup_other (notVisited : slot ∉ slots) (dec : FecDecoder) :
    (eachGroup visit slots dec).2.groups slot = dec.groups slot := by
  induction slots generalizing dec with
  | nil => rfl
  | cons cur _ ih =>
    rw [mem_cons, not_or] at notVisited
    have kept : (dec.onGroup cur visit).2.groups slot = dec.groups slot :=
      FecDecoder.groups_put_other _ _ notVisited.1
    rw [eachGroup]
    dsimp only
    split
    · exact kept
    · rw [ih notVisited.2, kept]

theorem eachGroup_group (distinct : slots.Nodup) (dec : FecDecoder) (slot : Nat) :
    (eachGroup visit slots dec).2.groups slot = dec.groups slot ∨
      ∃ stats log, (eachGroup visit slots dec).2.groups slot =
        (visit ⟨dec.groups slot, stats, log⟩).2.group := by
  induction slots generalizing dec with
  | nil => exact Or.inl rfl
  | cons cur rest ih =>
    obtain ⟨notLater, distinctRest⟩ := nodup_cons.mp distinct
    rw [eachGroup]
    dsimp only
    by_cases same : slot = cur
    · subst same
      right
      refine ⟨dec.stats, dec.log, ?_⟩
      have visited : (dec.onGroup slot visit).2.groups slot =
          (visit (dec.view slot)).2.group := FecDecoder.groups_put_same _ _ _
      split
      · exact visited
      · rw [eachGroup_other visit rest notLater]
        exact visited
    · have kept : (dec.onGroup cur visit).2.groups slot = dec.groups slot :=
        FecDecoder.groups_put_other _ _ same
      split
      · exact Or.inl kept
      · rw [← kept]
        exact ih distinctRest _

variable (now : UInt64)

theorem expireGroup_cases (view : GroupView) :
    (expireGroup fec output now view).2 = view ∨
      timedOut fec view.group now = true ∧
        ((expireGroup fec output now view).2 = (emitAvailable fec output view).2 ∨
          ∃ stats, (expireGroup fec output now view).2 =
            ⟨groupClear, stats, (emitAvailable fec output view).2.log⟩) := by
  unfold expireGroup
  split
  · exact Or.inl rfl
  rename_i expires
  rw [Bool.not_eq_false] at expires
  refine Or.inr ⟨expires, ?_⟩
  dsimp only
  split
  · exact Or.inl rfl
  split
  · exact Or.inl rfl
  · exact Or.inr ⟨_, rfl⟩

variable (covered : ∀ slot < fec.groupWindow, (dec.groups slot).active = .collecting →
    (dec.groups slot).emitBlocked = true → (dec.groups slot).metadataValid = true →
    ∀ idx < tableCount fec (dec.groups slot), (dec.groups slot).delivered idx = true ∨
        (dec.groups slot).present idx = true ∨ unchecked)

include covered

/-- The retry pass offers only records that are stored or delivered, if every blocked group
with a known length table has all of its records. -/
theorem retryBlocked_moves : DecoderMoves fec output unchecked received clears dec
      (retryBlocked fec output dec).2 := by
  refine eachGroup_moves fec output _ _ nodup_range dec ?_
  intro slot mem cur same _
  by_cases free : (dec.groups slot).active = .free
  · have still : retryGroup fec output (cur.view slot) = (.ok, cur.view slot) := by
      unfold retryGroup
      rw [if_pos (Or.inl (by simp [FecDecoder.view, same, free]))]
    rw [FecDecoder.onGroup_snd, still, FecDecoder.put_view]
  · refine onGroup_moves fec output cur slot _ (mem_range.mp mem)
      (by rwa [same]) (retryGroup_moves fec output _ ?_)
    unfold FecDecoder.view
    rw [same]
    exact covered slot (mem_range.mp mem)

theorem fecDecoderUpdate_moves
    (allowed : fec.flushTimeoutNs ≠ 0 → ∀ slot < fec.groupWindow, ∀ view : GroupView,
      (view.group = dec.groups slot ∨ ∃ stats log, view.group =
        (retryGroup fec output ⟨dec.groups slot, stats, log⟩).2.group) →
      timedOut fec view.group now = true →
      clears dec.highestGroupId (emitAvailable fec output view).2.group) :
    DecoderMoves fec output unchecked received clears dec
      (fecDecoderUpdate fec output dec now).2 := by
  have retried : DecoderMoves fec output unchecked received clears dec _ :=
    retryBlocked_moves fec output dec covered
  unfold fecDecoderUpdate
  dsimp only
  split
  · exact retried
  split
  · exact retried
  rename_i timeout
  refine retried.trans (eachGroup_moves fec output _ _ nodup_range _ ?_)
  intro slot mem cur same highest_eq
  have inWin := mem_range.mp mem
  rw [FecDecoder.onGroup_snd]
  rcases expireGroup_cases fec output now (cur.view slot) with
    still | ⟨expires, kept⟩
  · rw [still, FecDecoder.put_view]
  have occ : (cur.groups slot).active ≠ .free := by
    have collecting : (cur.groups slot).active = .collecting := (of_decide_eq_true expires).1
    rw [collecting]
    decide
  have emitted : DecoderMoves fec output unchecked received clears cur
      (cur.put slot (emitAvailable fec output (cur.view slot)).2) :=
    put_moves fec output cur slot _ inWin occ
      (emitAvailable_moves fec output (cur.view slot))
  rcases kept with kept | ⟨stats, clear⟩
  · rw [kept]
    exact emitted
  rw [clear, ← FecDecoder.put_put _ _ (emitAvailable fec output (cur.view slot)).2]
  refine emitted.tail (.cleared slot stats inWin ?_ ?_)
  · rw [FecDecoder.groups_put_same]
    rw [(emitAvailable_emitted fec output (cur.view slot)).rest_eq]
    exact occ
  rw [FecDecoder.groups_put_same]
  have highest : cur.highestGroupId = dec.highestGroupId :=
    highest_eq.trans (eachGroup_highest _ _ _)
  change clears cur.highestGroupId _
  rw [highest]
  refine allowed timeout slot inWin (cur.view slot) ?_ expires
  change cur.groups slot = _ ∨ ∃ stats log, cur.groups slot = _
  rw [same]
  exact eachGroup_group (retryGroup fec output) _ nodup_range dec slot

omit covered

structure SameSlots (before after : FecDecoder) : Prop where
  highest_eq : after.highestGroupId = before.highestGroupId
  epoch_eq : after.epoch = before.epoch
  active_eq : ∀ slot, (after.groups slot).active = (before.groups slot).active
  groupId_eq : ∀ slot, (after.groups slot).groupId = (before.groups slot).groupId

theorem SameSlots.refl (decoder : FecDecoder) : SameSlots decoder decoder :=
  ⟨rfl, rfl, fun _ => rfl, fun _ => rfl⟩

theorem SameSlots.trans {first second third : FecDecoder} (before : SameSlots first second)
    (after : SameSlots second third) : SameSlots first third :=
  ⟨after.highest_eq.trans before.highest_eq, after.epoch_eq.trans before.epoch_eq,
    fun slot => (after.active_eq slot).trans (before.active_eq slot),
    fun slot => (after.groupId_eq slot).trans (before.groupId_eq slot)⟩

theorem SameSlots.put (slot : Nat) (view : GroupView)
    (active_eq : view.group.active = (dec.groups slot).active)
    (groupId_eq : view.group.groupId = (dec.groups slot).groupId) :
    SameSlots dec (dec.put slot view) := by
  refine ⟨rfl, rfl, ?_, ?_⟩
  · intro other
    by_cases same : other = slot
    · rw [same, FecDecoder.groups_put_same, active_eq]
    · rw [FecDecoder.groups_put_other _ _ same]
  · intro other
    by_cases same : other = slot
    · rw [same, FecDecoder.groups_put_same, groupId_eq]
    · rw [FecDecoder.groups_put_other _ _ same]

theorem emitAvailable_sameSlots (slot : Nat) :
    SameSlots dec (dec.onGroup slot (emitAvailable fec output)).2 := by
  have emitted := emitAvailable_emitted fec output (dec.view slot)
  exact SameSlots.put dec slot _ emitted.active_eq emitted.groupId_eq

def GroupView.release (view : GroupView) : GroupView :=
  { view with group := { view.group with releasedUnrecoverable := true } }

theorem releaseOldest_cases (newGroupId : UInt64) (dec : FecDecoder) :
    releaseOldest fec output newGroupId dec = .done (.ok, dec) ∨
      ∃ slot < fec.groupWindow, (dec.groups slot).active = .collecting ∧
        ((∃ status, releaseOldest fec output newGroupId dec =
            .done (status, (dec.onGroup slot (emitAvailable fec output)).2)) ∨
          releaseOldest fec output newGroupId dec = .next (dec.put slot
            (emitAvailable fec output (dec.view slot)).2.release)) := by
  unfold releaseOldest
  split
  · exact Or.inl rfl
  rename_i slot found
  obtain ⟨inWin, passes, _⟩ := leastIndex_some _ _ found
  refine Or.inr ⟨slot, inWin, (of_decide_eq_true passes).1, ?_⟩
  dsimp only
  split
  · exact Or.inl ⟨_, rfl⟩
  split
  · exact Or.inl ⟨_, rfl⟩
  right
  rw [FecDecoder.onGroup_snd]
  simp [FecDecoder.put, GroupView.release]

theorem releaseOlderGroups_none {newGroupId : UInt64}
    (nothing : oldestGroup fec decoder (unreleased newGroupId) = none) :
    releaseOlderGroups fec output newGroupId decoder = (.ok, decoder) := by
  refine loop_done ?_
  unfold releaseOldest
  rw [nothing]

theorem releaseOlderGroups_moves (newGroupId : UInt64) (dec : FecDecoder) :
    DecoderMoves fec output unchecked received clears dec
        (releaseOlderGroups fec output newGroupId dec).2 ∧
      SameSlots dec (releaseOlderGroups fec output newGroupId dec).2 := by
  refine loop_induction
    (fun cur => DecoderMoves fec output unchecked received clears dec cur ∧
      SameSlots dec cur)
    (fun res : FecStatus × FecDecoder =>
      DecoderMoves fec output unchecked received clears dec res.2 ∧
      SameSlots dec res.2) ?_ ?_ dec ⟨.refl, SameSlots.refl _⟩
  · intro cur later reached continued
    rcases releaseOldest_cases fec output newGroupId cur with
      left | ⟨slot, inWin, collecting, ⟨status, left⟩ | next⟩
    · rw [left] at continued
      cases continued
    · rw [left] at continued
      cases continued
    · rw [next] at continued
      cases continued
      have emitted := emitAvailable_emitted fec output (cur.view slot)
      refine ⟨reached.1.trans (put_moves fec output cur slot _ inWin
        (by simp [collecting]) ?_), reached.2.trans
          (SameSlots.put _ _ _ emitted.active_eq emitted.groupId_eq)⟩
      exact (emitAvailable_moves fec output (cur.view slot)).tail .released
  · intro cur res reached left
    rcases releaseOldest_cases fec output newGroupId cur with
      done | ⟨slot, inWin, collecting, ⟨status, done⟩ | next⟩
    · rw [done] at left
      cases left
      exact reached
    · rw [done] at left
      cases left
      exact ⟨reached.1.trans (onGroup_moves fec output cur slot _ inWin
        (by simp [collecting]) (emitAvailable_moves fec output _)),
        reached.2.trans (emitAvailable_sameSlots fec output cur slot)⟩
    · rw [next] at left
      cases left

theorem raiseHighest_moves (groupId : UInt64) :
    DecoderMoves fec output unchecked received clears dec
      (raiseHighest fec output dec groupId).2 := by
  have released : DecoderMoves fec output unchecked received clears dec _ ∧
      SameSlots dec _ := releaseOlderGroups_moves fec output groupId dec
  unfold raiseHighest
  split
  · rename_i above
    dsimp only
    split
    · exact released.1
    refine released.1.tail (.raised groupId ?_)
    rw [released.2.highest_eq]
    exact above
  · exact .refl

def raisedHighest (highest : Option UInt64) (groupId : UInt64) : Option UInt64 :=
  if aboveHighest highest groupId then some groupId else highest

theorem raiseHighest_ok (ok : (raiseHighest fec output decoder groupId).1 = .ok) :
    (raiseHighest fec output decoder groupId).2.highestGroupId =
        raisedHighest decoder.highestGroupId groupId ∧
      (∀ slot, ((raiseHighest fec output decoder groupId).2.groups slot).active =
        (decoder.groups slot).active) ∧
      ∀ slot, ((raiseHighest fec output decoder groupId).2.groups slot).groupId =
        (decoder.groups slot).groupId := by
  have released : DecoderMoves fec output True (fun _ _ => True) (fun _ _ => True)
      decoder _ ∧ SameSlots decoder _ := releaseOlderGroups_moves fec output groupId decoder
  unfold raiseHighest raisedHighest at *
  split at ok
  · rename_i above
    rw [if_pos above]
    dsimp only at ok ⊢
    split at ok
    · rename_i failed
      exact absurd ok failed
    rename_i succeeded
    rw [if_neg succeeded, if_pos above]
    exact ⟨rfl, released.2.active_eq, released.2.groupId_eq⟩
  · rename_i notAbove
    rw [if_neg notAbove, if_neg notAbove]
    exact ⟨rfl, fun _ => rfl, fun _ => rfl⟩

theorem raisedHighest_spec (highest : Option UInt64) (groupId : UInt64) :
    ∃ raised, raisedHighest highest groupId = some raised ∧ groupId.toNat ≤ raised.toNat := by
  unfold raisedHighest
  cases highest with
  | none => exact ⟨groupId, rfl, le_refl _⟩
  | some highest =>
    by_cases above : highest < groupId
    · exact ⟨groupId, by simp [aboveHighest, above], le_refl _⟩
    refine ⟨highest, by simp [aboveHighest, above], ?_⟩
    rw [UInt64.lt_iff_toNat_lt, not_lt] at above
    exact above

theorem behindWindow_iff (highest groupId : UInt64) :
    behindWindow fec (some highest) groupId = true ↔
      groupId.toNat < highest.toNat ∧
        fec.groupWindow ≤ highest.toNat - groupId.toNat := by
  unfold behindWindow
  rw [decide_eq_true_eq, UInt64.lt_iff_toNat_lt]
  constructor
  · rintro ⟨below, far⟩
    rw [UInt64.toNat_sub_of_le _ _ (UInt64.le_iff_toNat_le.mpr below.le)] at far
    exact ⟨below, far⟩
  · rintro ⟨below, far⟩
    refine ⟨below, ?_⟩
    rw [UInt64.toNat_sub_of_le _ _ (UInt64.le_iff_toNat_le.mpr below.le)]
    exact far

theorem behindWindow_raised {highest : Option UInt64}
    (recent : behindWindow fec highest groupId = false) :
    behindWindow fec (raisedHighest highest groupId) groupId = false := by
  unfold raisedHighest
  split
  · rw [← Bool.not_eq_true, behindWindow_iff]
    omega
  · exact recent

variable (clears) in
/-- The groups that `find_group` may clear to make room. -/
structure FindAllowed (decoder : FecDecoder) (groupId : UInt64) : Prop where
  completed : ∀ slot,
    (∀ other < fec.groupWindow, (decoder.groups other).holds groupId = false) →
    (∀ other < fec.groupWindow, (decoder.groups other).active ≠ .free) →
    oldestGroup fec decoder (fun group => group.active = .completed) = some slot →
    clears decoder.highestGroupId (decoder.groups slot)
  oldest : ∀ slot later,
    (∀ other < fec.groupWindow, (decoder.groups other).holds groupId = false) →
    (∀ other < fec.groupWindow, (decoder.groups other).active ≠ .free) →
    oldestGroup fec decoder (fun group => group.active = .collecting) = some slot →
    (∀ other < fec.groupWindow, (decoder.groups other).active ≠ .completed) →
    (decoder.groups slot).groupId.toNat ≤ groupId.toNat →
    Emitted (decoder.groups slot) later →
    clears decoder.highestGroupId later

def FoundSlot (groupId : UInt64) (result : FindResult × FecDecoder) : Prop :=
  ∀ slot, result.1 = .found slot →
    slot < fec.groupWindow ∧ (result.2.groups slot).holds groupId = true

theorem openGroup_found (groupId : UInt64) (inWin : slot < fec.groupWindow) :
    FoundSlot fec groupId (.found slot, openGroup dec slot groupId) := by
  rintro other rfl_eq
  cases rfl_eq
  exact ⟨inWin, by simp [openGroup, FecDecodeGroup.holds]⟩

variable (highest_eq : decoder.highestGroupId = some highest)
  (below : groupId.toNat ≤ highest.toNat)
  (recent : behindWindow fec decoder.highestGroupId groupId = false)

include highest_eq below recent

theorem openGroup_moves (unused : ∀ other < fec.groupWindow, (decoder.groups other).holds groupId = false)
    (inWin : slot < fec.groupWindow) (allowed : (decoder.groups slot).active = .free ∨
      clears decoder.highestGroupId (decoder.groups slot)) :
    DecoderMoves fec output unchecked received clears decoder (openGroup decoder slot groupId) := by
  have notHeld : ∀ grp : FecDecodeGroup, grp.active = .free → grp.holds groupId = false := by
    intro grp free
    simp [FecDecodeGroup.holds, free]
  by_cases free : (decoder.groups slot).active = .free
  · exact .single (.opened slot groupId highest inWin free unused highest_eq
      (UInt64.le_iff_toNat_le.mpr below) recent)
  have clear : DecoderMoves fec output unchecked received clears decoder _ :=
    .single (.cleared slot decoder.stats inWin free (allowed.resolve_left free))
  refine clear.tail ?_
  have reopen : openGroup decoder slot groupId = openGroup
      { decoder with groups := Function.update decoder.groups slot groupClear } slot groupId := by
    simp [openGroup]
  rw [reopen]
  refine .opened slot groupId highest inWin (by simp [groupClear]) ?_ highest_eq
    (UInt64.le_iff_toNat_le.mpr below) recent
  intro other otherLt
  by_cases same : other = slot
  · subst same
    exact notHeld _ (by simp [groupClear])
  · simpa [Function.update_of_ne same] using unused other otherLt

theorem evictOldest_moves (unused : ∀ other < fec.groupWindow, (decoder.groups other).holds groupId = false)
    (inWin : slot < fec.groupWindow) (collecting : (decoder.groups slot).active = .collecting)
    (allowed : ∀ later, Emitted (decoder.groups slot) later → clears decoder.highestGroupId later) :
    DecoderMoves fec output unchecked received clears decoder
        (evictOldest fec output decoder slot groupId).2 ∧
      FoundSlot fec groupId (evictOldest fec output decoder slot groupId) := by
  have emitted : DecoderMoves fec output unchecked received clears decoder
      (decoder.onGroup slot (emitAvailable fec output)).2 :=
    onGroup_moves fec output decoder slot _ inWin (by simp [collecting])
      (emitAvailable_moves fec output _)
  have same := emitAvailable_sameSlots fec output decoder slot
  unfold evictOldest
  dsimp only
  split
  · exact ⟨emitted, fun _ contrary => nomatch contrary⟩
  split
  · exact ⟨emitted, fun _ contrary => nomatch contrary⟩
  generalize recordGroupLoss fec _ true _ = stats
  refine ⟨(emitted.tail (.counted stats)).trans ?_, openGroup_found fec _ groupId inWin⟩
  refine openGroup_moves fec output (same.highest_eq.trans highest_eq) below
    (same.highest_eq ▸ recent) ?_ inWin (Or.inr ?_)
  · intro other otherLt
    have before := unused other otherLt
    unfold FecDecodeGroup.holds at before ⊢
    rw [same.active_eq, same.groupId_eq]
    exact before
  · rw [same.highest_eq, FecDecoder.onGroup_snd, FecDecoder.groups_put_same]
    exact allowed _ (emitAvailable_emitted fec output (decoder.view slot))

theorem findGroup_moves (allowed : FindAllowed fec clears decoder groupId) :
    DecoderMoves fec output unchecked received clears decoder
        (findGroup fec output decoder groupId).2 ∧
      FoundSlot fec groupId (findGroup fec output decoder groupId) := by
  unfold findGroup
  dsimp only
  split
  · rename_i slot found
    refine ⟨.refl, ?_⟩
    rintro other rfl_eq
    cases rfl_eq
    have holds := List.find?_some found
    exact ⟨mem_range.mp (mem_of_find?_eq_some found), holds⟩
  rename_i missing
  have unused : ∀ other < fec.groupWindow,
      (decoder.groups other).holds groupId = false := by
    intro other otherLt
    simpa using List.find?_eq_none.mp missing other (mem_range.mpr otherLt)
  split
  · rename_i slot found
    have inWin := mem_range.mp (mem_of_find?_eq_some found)
    exact ⟨openGroup_moves fec output highest_eq below recent unused inWin
      (Or.inl (by simpa using List.find?_some found)), openGroup_found fec _ _ inWin⟩
  rename_i full
  have occ : ∀ other < fec.groupWindow, (decoder.groups other).active ≠ .free := by
    intro other otherLt
    simpa using List.find?_eq_none.mp full other (mem_range.mpr otherLt)
  split
  · rename_i slot found
    have inWin := (leastIndex_some _ _ found).1
    exact ⟨openGroup_moves fec output highest_eq below recent unused inWin
      (Or.inr (allowed.completed slot unused occ found)),
      openGroup_found fec _ _ inWin⟩
  rename_i noneCompleted
  split
  · rename_i slot found
    obtain ⟨inWin, collecting, _⟩ := leastIndex_some _ _ found
    split
    · exact ⟨.refl, fun _ contrary => nomatch contrary⟩
    rename_i notOlder
    rw [UInt64.lt_iff_toNat_lt, not_lt] at notOlder
    refine evictOldest_moves fec output highest_eq below recent unused inWin
      (of_decide_eq_true collecting) ?_
    intro later emitted
    refine allowed.oldest slot later unused occ found ?_ notOlder emitted
    intro other otherLt
    exact of_decide_eq_false (leastIndex_none _ _ noneCompleted other otherLt)
  · exact ⟨.refl, fun _ contrary => nomatch contrary⟩

omit highest_eq below recent

structure Admitted (decoder : FecDecoder) (datagram : List UInt8) (header : WireHeader) :
    Prop where
  decoded : wireHeaderDecode datagram = some header
  shape : wireShapeOk fec header datagram.length = true
  sameEpoch : (header.blockId >>> 32).toUInt32 = decoder.epoch
  recent : behindWindow fec decoder.highestGroupId header.blockId = false

theorem fecDecoderInput_cases (dgram : List UInt8) (now : UInt64) :
    (∃ stats, (fecDecoderInput fec output dec dgram now).2 = { dec with stats := stats } ∧
      ((fecDecoderInput fec output dec dgram now).1 = .wireHeader → ∃ hdr,
        wireHeaderDecode dgram = some hdr ∧ wireShapeOk fec hdr dgram.length = false)) ∨
      ∃ hdr, Admitted fec dec dgram hdr ∧
        fecDecoderInput fec output dec dgram now =
          inputGroup fec output dec hdr (dgram.drop WIRE_HEADER_SIZE) now := by
  unfold fecDecoderInput
  split
  · exact Or.inl ⟨_, rfl, nofun⟩
  split
  · exact Or.inl ⟨_, rfl, nofun⟩
  split
  · exact Or.inl ⟨_, rfl, nofun⟩
  rename_i hdr decoded
  split
  · exact Or.inl ⟨_, rfl, nofun⟩
  split
  · rename_i shape
    exact Or.inl ⟨_, rfl, fun _ => ⟨hdr, decoded, shape⟩⟩
  rename_i shape
  split
  · exact Or.inl ⟨_, rfl, nofun⟩
  rename_i sameEpoch
  split
  · exact Or.inl ⟨_, rfl, nofun⟩
  rename_i recent
  exact Or.inr ⟨hdr, ⟨decoded, by simpa using shape, not_not.mp sameEpoch,
    by simpa using recent⟩, rfl⟩

theorem fecDecoderInput_admitted {dgram : List UInt8} {hdr : WireHeader}
    (admitted : Admitted fec decoder dgram hdr) (now : UInt64) :
    fecDecoderInput fec output decoder dgram now =
      inputGroup fec output decoder hdr (dgram.drop WIRE_HEADER_SIZE) now := by
  have long : ¬ dgram.length < WIRE_HEADER_SIZE := by
    intro short
    have refused : wireHeaderDecode dgram = none := if_pos short
    rw [admitted.decoded] at refused
    cases refused
  have isData : hdr.type = WIRE_TYPE_DATA := by
    have shape := admitted.shape
    unfold wireShapeOk at shape
    split at shape
    · cases shape
    rename_i valid
    simp only [not_or, not_not] at valid
    exact valid.1
  have ne : dgram.length ≠ 0 := by
    intro empty
    exact long (by rw [empty]; decide)
  unfold fecDecoderInput
  rw [if_neg ne, if_neg long, admitted.decoded]
  dsimp only
  rw [if_neg (not_not.mpr isData), if_neg (by simp [admitted.shape]),
    if_neg (not_not.mpr admitted.sameEpoch), if_neg (by simp [admitted.recent])]

theorem inputGroup_moves {hdr : WireHeader} {body : List UInt8} (now : UInt64)
    (arrived : received hdr body)
    (recent : behindWindow fec decoder.highestGroupId hdr.blockId = false)
    (allowed : (raiseHighest fec output decoder hdr.blockId).1 = .ok →
      FindAllowed fec clears (raiseHighest fec output decoder hdr.blockId).2 hdr.blockId) :
    DecoderMoves fec output unchecked received clears decoder
      (inputGroup fec output decoder hdr body now).2 := by
  have raise : DecoderMoves fec output unchecked received clears decoder _ :=
    raiseHighest_moves fec output decoder hdr.blockId
  unfold inputGroup
  dsimp only
  split
  · exact raise
  rename_i ok
  rw [not_not] at ok
  obtain ⟨highest_eq, _⟩ := raiseHighest_ok fec output ok
  obtain ⟨_, raised_eq, below⟩ := raisedHighest_spec decoder.highestGroupId hdr.blockId
  have find : DecoderMoves fec output unchecked received clears _ _ ∧ FoundSlot fec _ _ :=
    findGroup_moves fec output (highest_eq.trans raised_eq) below
      (highest_eq ▸ behindWindow_raised fec recent) (allowed ok)
  split
  · rename_i slot _ found
    rw [found] at find
    obtain ⟨inWin, holds⟩ := find.2 slot rfl
    refine (raise.trans find.1).trans (onGroup_moves fec output _ slot _ inWin
      (of_decide_eq_true holds).1
      (inputShard_moves fec output hdr body now _ arrived (of_decide_eq_true holds).2.symm))
  · rename_i found
    rw [found] at find
    exact (raise.trans find.1).tail (.counted _)
  · rename_i found
    rw [found] at find
    exact raise.trans find.1

theorem inputGroup_first (epoch : UInt32) (hdr : WireHeader) (body : List UInt8) (now : UInt64) :
    inputGroup fec output (fecDecoderReset epoch) hdr body now =
      (openGroup { fecDecoderReset epoch with highestGroupId := some hdr.blockId } 0
        hdr.blockId).onGroup 0 (inputShard fec output hdr body now) := by
  have nothing : oldestGroup fec (fecDecoderReset epoch) (unreleased hdr.blockId) =
      none := by
    cases found : oldestGroup fec (fecDecoderReset epoch) (unreleased hdr.blockId) with
    | none => rfl
    | some =>
      have passes := (leastIndex_some _ _ found).2.1
      cases passes
  have first : List.range fec.groupWindow = 0 :: List.range' 1 (fec.groupWindow - 1) := by
    obtain ⟨_, window_eq⟩ := Nat.exists_eq_succ_of_ne_zero fec.window_pos.ne'
    rw [window_eq, range_eq_range', List.range'_succ]
    rfl
  have missing : (List.range fec.groupWindow).find?
      (fun slot => ((fecDecoderReset epoch).groups slot).holds hdr.blockId) = none := by
    rw [List.find?_eq_none]
    intro slot _ holds
    cases holds
  have raised : raiseHighest fec output (fecDecoderReset epoch) hdr.blockId =
      (.ok, { fecDecoderReset epoch with highestGroupId := some hdr.blockId }) := by
    have above : aboveHighest (fecDecoderReset epoch).highestGroupId hdr.blockId = true := rfl
    unfold raiseHighest
    rw [if_pos above, releaseOlderGroups_none fec output nothing]
    rfl
  unfold inputGroup
  rw [raised]
  dsimp only
  rw [if_neg (by simp)]
  unfold findGroup
  dsimp only
  rw [missing]
  rw [first, List.find?_cons_of_pos (by rfl)]

/-- Every call of a run meets a condition in the state before it. -/
def StepsMeet (condition : FecDecoder → FecDecoderCall → Prop) :
    FecDecoder → List FecDecoderCall → Prop
  | _, [] => True
  | decoder, call :: rest =>
    condition decoder call ∧ StepsMeet condition (decoder.call fec output call).2 rest

theorem foldl_call_induction {condition : FecDecoder → FecDecoderCall → Prop}
    (inv : FecDecoder → Prop) (step : ∀ dec call, inv dec → condition dec call →
      inv (dec.call fec output call).2)
    (calls : List FecDecoderCall) (dec : FecDecoder) (start : inv dec)
    (meets : StepsMeet fec output condition dec calls) :
    inv (calls.foldl (fun dec call => (dec.call fec output call).2) dec) := by
  induction calls generalizing dec with
  | nil => exact start
  | cons call _ ih => exact ih _ (step dec call start meets.1) meets.2

end Decoder

end MultiFlow.Fec
