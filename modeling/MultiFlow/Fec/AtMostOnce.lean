import MultiFlow.Lib.Transition
import MultiFlow.Fec.DecoderMoves

/-!
# At most one delivery of a record

The delivered set of a group lives in its slot and is lost when the slot is cleared.  So records are
delivered at most once as long as only groups are cleared that are behind the window, where the
watermark refuses them, or have delivered nothing.  Two steps of the source clear others:
`find_group` evicts a completed group of the window, and `fec_decoder_update` expires one.
-/

namespace MultiFlow.Fec

open Function CodecApi Lib Wire Finset

def acceptedKeys (log : List FecDelivery) : List (UInt64 × Nat) :=
  (log.filter fun delivery => delivery.answer = .ok).map
    fun delivery => (delivery.groupId, delivery.index)

theorem acceptedKeys_append_ok (log : List FecDelivery) (groupId : UInt64) (idx : Nat)
    (data : List UInt8) :
    acceptedKeys (log ++ [⟨groupId, idx, data, .ok⟩]) = acceptedKeys log ++ [(groupId, idx)] := by
  simp [acceptedKeys]

theorem acceptedKeys_append_refused (log : List FecDelivery) (groupId : UInt64) (idx : Nat)
    (data : List UInt8) {answer : FecOutputStatus} (refused : answer ≠ .ok) :
    acceptedKeys (log ++ [⟨groupId, idx, data, answer⟩]) = acceptedKeys log := by
  simp [acceptedKeys, refused]

section Invariant

variable (fec : FecTransport)

structure DeliveryInv (decoder : FecDecoder) : Prop where
  distinct : ∀ slot < fec.groupWindow, ∀ other < fec.groupWindow,
    (decoder.groups slot).active ≠ .free → (decoder.groups other).active ≠ .free →
    (decoder.groups slot).groupId = (decoder.groups other).groupId → slot = other
  below : ∀ slot < fec.groupWindow, (decoder.groups slot).active ≠ .free →
    ∃ highest, decoder.highestGroupId = some highest ∧
      (decoder.groups slot).groupId.toNat ≤ highest.toNat
  bounded : ∀ slot < fec.groupWindow,
    (decoder.groups slot).dataCount ≤ fec.messageShards
  recorded : ∀ slot < fec.groupWindow, (decoder.groups slot).active ≠ .free →
    ∀ index, (decoder.groups slot).delivered index = true ↔
      ((decoder.groups slot).groupId, index) ∈ acceptedKeys decoder.log
  remembered : ∀ key ∈ acceptedKeys decoder.log,
    (∃ slot < fec.groupWindow, (decoder.groups slot).active ≠ .free ∧
      (decoder.groups slot).groupId = key.1) ∨
    behindWindow fec decoder.highestGroupId key.1 = true
  once : (acceptedKeys decoder.log).Nodup

/-- Clearing such a group loses nothing that the watermark does not remember. -/
def Forgettable (highest : Option UInt64) (group : FecDecodeGroup) : Prop :=
  behindWindow fec highest group.groupId = true ∨
    ∀ index, group.delivered index = false

theorem fecDecoderReset_deliveryInv (epoch : UInt32) : DeliveryInv fec (fecDecoderReset epoch) := by
  refine ⟨?_, ?_, ?_, ?_, ?_, List.nodup_nil⟩
  · intro slot _ _ _ occ
    exact absurd rfl occ
  · intro slot _ occ
    exact absurd rfl occ
  · intro slot _
    exact Nat.zero_le _
  · intro _ _ occ
    exact absurd rfl occ
  · intro _ mem
    cases mem

variable {fec} {dec : FecDecoder}

variable {slot : Nat} {later : GroupView} {out : FecOutputFn} {unchecked : Prop}
  {received : WireHeader → List UInt8 → Prop} {view : GroupView} {groupId : UInt64}

variable (inv : DeliveryInv fec dec)
include inv

/-- A slot in use is replaced by one for the same group, and the log may grow by accepted
deliveries of that group. -/
theorem DeliveryInv.put (inWin : slot < fec.groupWindow) (occ : (dec.groups slot).active ≠ .free)
    (same : SameGroup (dec.groups slot) later.group)
    (bounded : later.group.dataCount ≤ fec.messageShards)
    (recorded : ∀ idx, later.group.delivered idx = true ↔
      ((dec.groups slot).groupId, idx) ∈ acceptedKeys later.log)
    (others : ∀ key, key.1 ≠ (dec.groups slot).groupId →
      (key ∈ acceptedKeys later.log ↔ key ∈ acceptedKeys dec.log))
    (once : (acceptedKeys later.log).Nodup) : DeliveryInv fec (dec.put slot later) := by
  have groupId_eq : ∀ other, ((dec.put slot later).groups other).groupId =
      (dec.groups other).groupId := by
    intro other
    by_cases equal : other = slot
    · rw [equal, FecDecoder.groups_put_same, same.groupId_eq]
    · rw [FecDecoder.groups_put_other _ _ equal]
  have active_iff : ∀ other, ((dec.put slot later).groups other).active ≠ .free →
      (dec.groups other).active ≠ .free := by
    intro other
    by_cases equal : other = slot
    · rw [equal]
      exact fun _ => occ
    · rw [FecDecoder.groups_put_other _ _ equal]
      exact id
  refine ⟨?_, ?_, ?_, ?_, ?_, once⟩
  · intro first firstLt second secondLt firstUsed secondUsed equal
    rw [groupId_eq, groupId_eq] at equal
    exact inv.distinct first firstLt second secondLt (active_iff _ firstUsed)
      (active_iff _ secondUsed) equal
  · intro other otherLt used
    rw [groupId_eq]
    exact inv.below other otherLt (active_iff _ used)
  · intro other otherLt
    by_cases equal : other = slot
    · rw [equal, FecDecoder.groups_put_same]
      exact bounded
    · rw [FecDecoder.groups_put_other _ _ equal]
      exact inv.bounded other otherLt
  · intro other otherLt used idx
    by_cases equal : other = slot
    · rw [equal, FecDecoder.groups_put_same, same.groupId_eq]
      exact recorded idx
    have distinct : (dec.groups other).groupId ≠ (dec.groups slot).groupId :=
      fun ids => equal (inv.distinct other otherLt slot inWin (active_iff _ used) occ ids)
    rw [FecDecoder.groups_put_other _ _ equal] at used ⊢
    exact (inv.recorded other otherLt used idx).trans (others _ distinct).symm
  intro key mem
  by_cases ofSlot : key.1 = (dec.groups slot).groupId
  · left
    refine ⟨slot, inWin, ?_, ?_⟩
    · rw [FecDecoder.groups_put_same]
      exact same.active occ
    · rw [groupId_eq, ofSlot]
  rcases inv.remembered key ((others key ofSlot).mp mem) with ⟨other, otherLt, used, id_eq⟩ | behind
  · left
    refine ⟨other, otherLt, ?_, by rw [groupId_eq, id_eq]⟩
    have apart : other ≠ slot := by
      rintro rfl
      exact ofSlot id_eq.symm
    rw [FecDecoder.groups_put_other _ _ apart]
    exact used
  · exact Or.inr behind

omit inv

theorem GroupMove.accepts (move : GroupMove fec out unchecked received view later) :
    (acceptedKeys later.log = acceptedKeys view.log ∧ later.group.delivered = view.group.delivered) ∨
      ∃ index, view.group.delivered index = false ∧
        acceptedKeys later.log = acceptedKeys view.log ++ [(view.group.groupId, index)] ∧
        later.group.delivered = presentSet view.group.delivered index := by
  cases move with
  | called index answer _ _ undelivered =>
    cases answer with
    | ok => exact Or.inr ⟨index, undelivered, acceptedKeys_append_ok _ _ _ _, rfl⟩
    | blocked | error => exact Or.inl ⟨acceptedKeys_append_refused _ _ _ _ (by decide), rfl⟩
  | _ => exact Or.inl ⟨rfl, rfl⟩

theorem GroupMove.bounded (move : GroupMove fec out unchecked received view later)
    (bounded : view.group.dataCount ≤ fec.messageShards) :
    later.group.dataCount ≤ fec.messageShards := by
  cases move with
  | called _ answer =>
    cases answer with
    | ok | blocked | error => exact bounded
  | hinted _ _ _ _ _ _ _ _ count_le | accepted _ _ count_le => exact count_le
  | _ => exact bounded

include inv

theorem DeliveryInv.inGroup (inWin : slot < fec.groupWindow)
    (occ : (dec.groups slot).active ≠ .free)
    (move : GroupMove fec out unchecked received (dec.view slot) later) :
    DeliveryInv fec (dec.put slot later) := by
  have before := inv.recorded slot inWin occ
  have bounded := move.bounded (inv.bounded slot inWin)
  rcases move.accepts with ⟨log_eq, delivered_eq⟩ | ⟨idx, undelivered, log_eq, delivered_eq⟩
  · change acceptedKeys later.log = acceptedKeys dec.log at log_eq
    refine inv.put inWin occ move.sameGroup bounded ?_ ?_ ?_
    · intro idx
      rw [delivered_eq, log_eq]
      exact before idx
    · intro key _
      rw [log_eq]
    · rw [log_eq]
      exact inv.once
  change acceptedKeys later.log =
    acceptedKeys dec.log ++ [((dec.groups slot).groupId, idx)] at log_eq
  have fresh : ((dec.groups slot).groupId, idx) ∉ acceptedKeys dec.log := by
    intro mem
    have contrary := (before idx).mpr mem
    change (dec.groups slot).delivered idx = false at undelivered
    rw [undelivered] at contrary
    cases contrary
  refine inv.put inWin occ move.sameGroup bounded ?_ ?_ ?_
  · intro other
    rw [delivered_eq, log_eq]
    by_cases same : other = idx
    · simp [presentSet, same]
    · simpa [presentSet, same, FecDecoder.view] using before other
  · intro _ apart
    rw [log_eq]
    simp only [List.mem_append, List.mem_singleton, or_iff_left_iff_imp]
    rintro rfl
    exact absurd rfl apart
  · rw [log_eq]
    exact inv.once.append (List.nodup_singleton _) (by simpa using fresh)

theorem DeliveryInv.raised (above : aboveHighest dec.highestGroupId groupId = true) :
    DeliveryInv fec { dec with highestGroupId := some groupId } := by
  have higher : ∀ highest, dec.highestGroupId = some highest →
      highest.toNat < groupId.toNat := by
    intro highest highest_eq
    rw [highest_eq] at above
    exact UInt64.lt_iff_toNat_lt.mp (of_decide_eq_true above)
  refine { inv with below := ?_, remembered := ?_ }
  · intro slot inWin occ
    obtain ⟨highest, highest_eq, below⟩ := inv.below slot inWin occ
    exact ⟨groupId, rfl, below.trans (higher highest highest_eq).le⟩
  intro key mem
  rcases inv.remembered key mem with held | behind
  · exact Or.inl held
  right
  cases highest_eq : dec.highestGroupId with
  | none =>
    rw [highest_eq] at behind
    cases behind
  | some highest =>
    rw [highest_eq, behindWindow_iff] at behind
    have := higher highest highest_eq
    rw [behindWindow_iff]
    omega

theorem DeliveryInv.opened {highest : UInt64} (inWin : slot < fec.groupWindow)
    (free : (dec.groups slot).active = .free)
    (unused : ∀ other < fec.groupWindow, (dec.groups other).holds groupId = false)
    (highest_eq : dec.highestGroupId = some highest) (below : groupId ≤ highest)
    (recent : behindWindow fec dec.highestGroupId groupId = false) :
    DeliveryInv fec (openGroup dec slot groupId) := by
  have notUsed : ∀ other < fec.groupWindow, (dec.groups other).active ≠ .free →
      (dec.groups other).groupId ≠ groupId := by
    intro other otherLt used same
    have := unused other otherLt
    simp [FecDecodeGroup.holds, used, same] at this
  have noneAccepted : ∀ idx, (groupId, idx) ∉ acceptedKeys dec.log := by
    intro idx mem
    rcases inv.remembered _ mem with ⟨other, otherLt, used, id_eq⟩ | behind
    · exact notUsed other otherLt used id_eq
    · rw [recent] at behind
      cases behind
  have opened_eq : (openGroup dec slot groupId).groups slot =
      { groupClear with active := .collecting, groupId } := by simp [openGroup]
  have kept : ∀ other, other ≠ slot →
      (openGroup dec slot groupId).groups other = dec.groups other := by
    intro other apart
    simp [openGroup, update_of_ne apart]
  refine ⟨?_, ?_, ?_, ?_, ?_, inv.once⟩
  · refine update_distinct (·.active ≠ .free) FecDecodeGroup.groupId inv.distinct ?_
    exact fun other otherLt _ used _ => notUsed other otherLt used
  · intro other otherLt used
    by_cases same : other = slot
    · rw [same, opened_eq]
      exact ⟨highest, highest_eq, UInt64.le_iff_toNat_le.mp below⟩
    · rw [kept other same] at used ⊢
      exact inv.below other otherLt used
  · intro other otherLt
    by_cases same : other = slot
    · rw [same, opened_eq]
      exact Nat.zero_le _
    · rw [kept other same]
      exact inv.bounded other otherLt
  · intro other otherLt used idx
    by_cases same : other = slot
    · rw [same, opened_eq]
      refine ⟨?_, fun mem => absurd mem (noneAccepted idx)⟩
      intro contrary
      cases contrary
    · rw [kept other same] at used ⊢
      exact inv.recorded other otherLt used idx
  · intro key mem
    rcases inv.remembered key mem with ⟨other, otherLt, used, id_eq⟩ | behind
    · left
      refine ⟨other, otherLt, ?_⟩
      have apart : other ≠ slot := by
        rintro rfl
        exact used free
      rw [kept other apart]
      exact ⟨used, id_eq⟩
    · exact Or.inr behind

theorem DeliveryInv.cleared (stats : FecDecoderStats) (inWin : slot < fec.groupWindow)
    (occ : (dec.groups slot).active ≠ .free)
    (allowed : Forgettable fec dec.highestGroupId (dec.groups slot)) :
    DeliveryInv fec { dec with
      groups := update dec.groups slot groupClear, stats := stats } := by
  have kept : ∀ other, (update dec.groups slot groupClear other).active ≠ .free →
      other ≠ slot ∧
        update dec.groups slot groupClear other = dec.groups other := by
    intro other used
    have apart : other ≠ slot := by
      rintro rfl
      exact used (by simp [groupClear])
    exact ⟨apart, update_of_ne apart _ _⟩
  refine ⟨?_, ?_, ?_, ?_, ?_, inv.once⟩
  · intro first firstLt second secondLt firstUsed secondUsed same
    have first_eq := (kept first firstUsed).2
    have second_eq := (kept second secondUsed).2
    dsimp only at firstUsed secondUsed same
    rw [first_eq] at firstUsed same
    rw [second_eq] at secondUsed same
    exact inv.distinct first firstLt second secondLt firstUsed secondUsed same
  · intro other otherLt used
    have other_eq := (kept other used).2
    dsimp only at used ⊢
    rw [other_eq] at used ⊢
    exact inv.below other otherLt used
  · intro other otherLt
    by_cases same : other = slot
    · simp [same, groupClear]
    · simpa [update_of_ne same] using inv.bounded other otherLt
  · intro other otherLt used
    have other_eq := (kept other used).2
    dsimp only at used ⊢
    rw [other_eq] at used ⊢
    exact inv.recorded other otherLt used
  intro key mem
  rcases inv.remembered key mem with ⟨other, otherLt, used, id_eq⟩ | behind
  · by_cases same : other = slot
    · subst same
      right
      rcases allowed with behind | nothing
      · rw [← id_eq]
        exact behind
      have delivered := (inv.recorded other otherLt used key.2).mpr (by rw [id_eq]; exact mem)
      rw [nothing] at delivered
      cases delivered
    · left
      refine ⟨other, otherLt, ?_⟩
      simpa [update_of_ne same] using ⟨used, id_eq⟩
  · exact Or.inr behind

omit inv

theorem DecoderMove.deliveryInv {later : FecDecoder}
    (move : DecoderMove fec out unchecked received (Forgettable fec) dec later)
    (inv : DeliveryInv fec dec) : DeliveryInv fec later := by
  cases move with
  | inGroup _ _ inWin occ move => exact inv.inGroup inWin occ move
  | counted =>
    exact { inv with }
  | raised _ above => exact inv.raised above
  | opened _ _ _ inWin free unused highest_eq below recent =>
    exact inv.opened inWin free unused highest_eq below recent
  | cleared _ stats inWin occ allowed => exact inv.cleared stats inWin occ allowed

theorem DecoderMoves.deliveryInv {later : FecDecoder}
    (moves : DecoderMoves fec out unchecked received (Forgettable fec) dec later)
    (inv : DeliveryInv fec dec) : DeliveryInv fec later := by
  induction moves with
  | refl => exact inv
  | tail _ move ih => exact move.deliveryInv ih

include inv

theorem DeliveryInv.full_span (lowest highest : Nat)
    (occ : ∀ slot < fec.groupWindow, (dec.groups slot).active ≠ .free)
    (unused : ∀ slot < fec.groupWindow, (dec.groups slot).holds groupId = false)
    (inRange : ∀ slot < fec.groupWindow, lowest ≤ (dec.groups slot).groupId.toNat ∧
        (dec.groups slot).groupId.toNat ≤ highest)
    (newInRange : lowest ≤ groupId.toNat ∧ groupId.toNat ≤ highest) :
    fec.groupWindow ≤ highest - lowest := by
  have injective : Set.InjOn (fun slot => (dec.groups slot).groupId.toNat)
      (Finset.range fec.groupWindow) := by
    intro slot slotLt other otherLt same
    rw [mem_coe, mem_range] at slotLt otherLt
    exact inv.distinct slot slotLt other otherLt (occ slot slotLt) (occ other otherLt)
      (UInt64.toNat_inj.mp same)
  have fresh : groupId.toNat ∉ (Finset.range fec.groupWindow).image
      fun slot => (dec.groups slot).groupId.toNat := by
    intro mem
    obtain ⟨slot, slotLt, same⟩ := mem_image.mp mem
    rw [mem_range] at slotLt
    have notHeld := unused slot slotLt
    simp [FecDecodeGroup.holds, occ slot slotLt, UInt64.toNat_inj.mp same] at notHeld
  have inside : insert groupId.toNat ((Finset.range fec.groupWindow).image
      fun slot => (dec.groups slot).groupId.toNat) ⊆ Finset.Icc lowest highest := by
    intro _ mem
    rw [mem_Icc]
    rcases mem_insert.mp mem with rfl | held
    · exact newInRange
    · obtain ⟨slot, slotLt, rfl⟩ := mem_image.mp held
      exact inRange slot (mem_range.mp slotLt)
  have counted := card_le_card inside
  rw [card_insert_of_notMem fresh, card_image_of_injOn injective,
    card_range, Nat.card_Icc] at counted
  omega

omit inv

/-- A group that has never offered a record to the output callback and stores none. -/
structure Untouched (fec : FecTransport) (group : FecDecodeGroup) : Prop where
  notBlocked : group.emitBlocked = false
  noneStored : ∀ index < fec.messageShards, group.present index = false
  noneDelivered : ∀ index, group.delivered index = false

/-- The call clears the slot of a group of the window whose records may have been delivered: a
completed group that makes room for another one, or a group that expires. -/
def ForgetsGroup (fec : FecTransport) (decoder : FecDecoder) : FecDecoderCall → Prop
  | .input datagram _ => ∃ header slot, Admitted fec decoder datagram header ∧
      (∀ other < fec.groupWindow,
        (decoder.groups other).holds header.blockId = false) ∧
      (∀ other < fec.groupWindow, (decoder.groups other).active ≠ .free) ∧
      oldestGroup fec decoder (fun group => group.active = .completed) = some slot ∧
      behindWindow fec (raisedHighest decoder.highestGroupId header.blockId)
        (decoder.groups slot).groupId = false
  | .update now => fec.flushTimeoutNs ≠ 0 ∧ ∃ slot < fec.groupWindow,
      timedOut fec (decoder.groups slot) now = true ∧
      behindWindow fec decoder.highestGroupId (decoder.groups slot).groupId = false ∧
      ¬ Untouched fec (decoder.groups slot)

theorem emitAvailable_untouched (out : FecOutputFn) (view : GroupView)
    (bounded : view.group.dataCount ≤ fec.messageShards) (untouched : Untouched fec view.group) :
    emitAvailable fec out view = (.ok, view) := by
  have limit : emitLimit fec view.group ≤ fec.messageShards := by
    unfold emitLimit
    split
    · exact bounded
    · exact le_refl _
  have skips : ∀ indices : List Nat, (∀ idx ∈ indices, idx < fec.messageShards) →
      emitRecords out (chooseAvailable fec) indices view = (.ok, view) := by
    intro indices inRange
    induction indices with
    | nil => rfl
    | cons idx _ ih =>
      have absent := untouched.noneStored idx (inRange idx List.mem_cons_self)
      rw [emitRecords, chooseAvailable, if_pos (Or.inl absent)]
      exact ih fun other mem => inRange other (List.mem_cons_of_mem _ mem)
  refine skips _ ?_
  intro _ mem
  exact (List.mem_range.mp mem).trans_le limit

/-- What expires after the retry pass had timed out before it, and was left alone if it was
not blocked. -/
theorem retryGroup_timedOut {now : UInt64}
    (expires : timedOut fec (retryGroup fec out view).2.group now = true) :
    timedOut fec view.group now = true ∧
      (retryGroup fec out view).2.group.groupId = view.group.groupId := by
  have moves : GroupMoves fec out True (fun _ _ => False) view
      (retryGroup fec out view).2 :=
    retryGroup_moves fec out view fun _ _ _ _ _ => Or.inr (Or.inr trivial)
  have same := GroupMoves.sameGroup moves
  refine ⟨?_, same.groupId_eq⟩
  unfold timedOut at expires ⊢
  rw [decide_eq_true_eq, GroupMoves.lastSeenNs_eq moves] at expires
  exact decide_eq_true ⟨same.collecting expires.1, expires.2⟩

theorem retryGroup_notBlocked (out : FecOutputFn) (view : GroupView)
    (notBlocked : view.group.emitBlocked = false) : retryGroup fec out view = (.ok, view) := by
  unfold retryGroup
  rw [if_pos (Or.inr notBlocked)]

include inv

theorem DeliveryInv.update (out : FecOutputFn) (now : UInt64)
    (keeps : ¬ ForgetsGroup fec dec (.update now)) :
    DeliveryInv fec (fecDecoderUpdate fec out dec now).2 := by
  have moves : DecoderMoves fec out True (fun _ _ => False) (Forgettable fec)
      dec (fecDecoderUpdate fec out dec now).2 := by
    refine fecDecoderUpdate_moves fec out dec now
      (fun _ _ _ _ _ _ _ => Or.inr (Or.inr trivial)) ?_
    intro timeout slot inWin view origin expires
    have before : timedOut fec (dec.groups slot) now = true ∧
        view.group.groupId = (dec.groups slot).groupId := by
      rcases origin with same | ⟨stats, log, retried⟩
      · rw [← same]
        exact ⟨expires, rfl⟩
      · rw [retried] at expires ⊢
        exact retryGroup_timedOut expires
    have emitted := emitAvailable_emitted fec out view
    by_cases behind : behindWindow fec dec.highestGroupId
        (dec.groups slot).groupId = true
    · left
      rw [emitted.groupId_eq, before.2]
      exact behind
    · have untouched : Untouched fec (dec.groups slot) := by
        by_contra touched
        exact keeps ⟨timeout, slot, inWin, before.1, by simpa using behind, touched⟩
      have view_eq : view.group = dec.groups slot := by
        rcases origin with same | ⟨stats, log, retried⟩
        · exact same
        · rw [retried, retryGroup_notBlocked out _ untouched.notBlocked]
      right
      rw [emitAvailable_untouched out view (by rw [view_eq]; exact inv.bounded slot inWin)
        (by rw [view_eq]; exact untouched), view_eq]
      exact untouched.noneDelivered
  exact DecoderMoves.deliveryInv moves inv

/-- The groups that an input clears are behind the window: a completed one by assumption,
the oldest one because the window is full. -/
theorem DeliveryInv.input (out : FecOutputFn) (dgram : List UInt8) (now : UInt64)
    (keeps : ¬ ForgetsGroup fec dec (.input dgram now)) :
    DeliveryInv fec (fecDecoderInput fec out dec dgram now).2 := by
  rcases fecDecoderInput_cases fec out dec dgram now with
    ⟨stats, refused, -⟩ | ⟨hdr, admitted, accepts⟩
  · rw [refused]
    exact { inv with }
  rw [accepts]
  have raise : DecoderMoves fec out True (fun _ _ => True) (Forgettable fec)
      dec _ := raiseHighest_moves fec out dec hdr.blockId
  have moves : DecoderMoves fec out True (fun _ _ => True) (Forgettable fec)
      dec (inputGroup fec out dec hdr (dgram.drop WIRE_HEADER_SIZE) now).2 := by
    refine inputGroup_moves fec out now trivial admitted.recent ?_
    intro ok
    have raisedInv := DecoderMoves.deliveryInv raise inv
    obtain ⟨highest_eq, active_eq, groupId_eq⟩ := raiseHighest_ok fec out ok
    have sameHolds : ∀ slot, (dec.groups slot).holds hdr.blockId =
        ((raiseHighest fec out dec hdr.blockId).2.groups slot).holds
          hdr.blockId := by
      intro slot
      unfold FecDecodeGroup.holds
      rw [active_eq, groupId_eq]
    refine ⟨?_, ?_⟩
    · intro slot unused occ found
      left
      rw [highest_eq, groupId_eq]
      by_contra recent
      refine keeps ⟨hdr, slot, admitted, ?_, ?_, ?_, by simpa using recent⟩
      · intro other otherLt
        rw [sameHolds]
        exact unused other otherLt
      · intro other otherLt
        rw [← active_eq]
        exact occ other otherLt
      · rw [← found]
        unfold oldestGroup
        simp only [active_eq, groupId_eq]
    intro slot _ unused occ found noneCompleted older emitted
    obtain ⟨_, _, least⟩ := leastIndex_some _ _ found
    obtain ⟨highest, raised_eq, below⟩ := raisedHighest_spec dec.highestGroupId hdr.blockId
    left
    rw [emitted.groupId_eq, highest_eq, raised_eq, behindWindow_iff]
    have span := raisedInv.full_span
      ((raiseHighest fec out dec hdr.blockId).2.groups slot).groupId.toNat
      highest.toNat occ unused ?_ ⟨older, below⟩
    · have pos := fec.window_pos
      omega
    · intro other otherLt
      constructor
      · refine least other otherLt (decide_eq_true ?_)
        cases st : ((raiseHighest fec out dec hdr.blockId).2.groups other).active with
        | free => exact absurd st (occ other otherLt)
        | collecting => rfl
        | completed => exact absurd st (noneCompleted other otherLt)
      · obtain ⟨_, top_eq, otherBelow⟩ := raisedInv.below other otherLt (occ other otherLt)
        rw [highest_eq, raised_eq] at top_eq
        cases top_eq
        exact otherBelow
  exact DecoderMoves.deliveryInv moves inv

end Invariant

/-- If no call forgets a group that is still in the window, every record of every group is
accepted at most once: for any datagrams, any times and any answers. -/
theorem delivered_at_most_once (transport : FecTransport) (output : FecOutputFn)
    (epoch : UInt32) (calls : List FecDecoderCall) (keeps : StepsMeet transport output
      (fun decoder call => ¬ ForgetsGroup transport decoder call) (fecDecoderReset epoch) calls) :
    (acceptedKeys (decodeAll transport output epoch calls).log).Nodup := by
  have inv : DeliveryInv transport (decodeAll transport output epoch calls) := by
    refine foldl_call_induction transport output (DeliveryInv transport) ?_ calls _
      (fecDecoderReset_deliveryInv transport epoch) keeps
    intro _ call inv keeps
    cases call with
    | input datagram now => exact inv.input output datagram now keeps
    | update now => exact inv.update output now keeps
  exact inv.once

def firstDatagram : List UInt8 :=
  wireHeaderEncode
    { type := WIRE_TYPE_DATA, finalDst := 0, ttl := 0, flowId := 0, blockId := 0,
      shardCount := 4, validLen := 96, payloadLen := 1 } ++ 7 :: List.replicate 31 0

theorem firstDatagram_admitted :
    Admitted (smallTransport 1) (fecDecoderReset 0) firstDatagram
      { version := WIRE_VERSION_V3, type := WIRE_TYPE_DATA, finalDst := 0, ttl := 0, flowId := 0,
        blockId := 0, shardCount := 4, validLen := 96, payloadLen := 1 } where
  decoded := by decide +kernel
  shape := by decide +kernel
  sameEpoch := by decide +kernel
  recent := by decide +kernel

/-- A record that was delivered is delivered again by a copy of its datagram, once its group
has expired: the watermark still accepts the group. -/
theorem expired_delivered_twice :
    (∃ bound, fecTransportCreate freshBackend ⟨true, true⟩ (smallConfig 1) =
      some (smallTransport 1, bound)) ∧
    firstDatagram ∈ (encodeAll (smallTransport 1) (fun _ _ => .ok) 0 [.push [7] 1, .drain 1]).sent ∧
    acceptedKeys (decodeAll (smallTransport 1) (fun _ _ => .ok) 0
      [.input firstDatagram 1, .update 2, .input firstDatagram 3]).log = [(0, 0), (0, 0)] := by
  refine ⟨fecTransportCreate_small 1, by decide +kernel, ?_⟩
  have first := fecDecoderInput_admitted (smallTransport 1) (fun _ _ => .ok)
    firstDatagram_admitted 1
  rw [inputGroup_first] at first
  unfold decodeAll
  rw [List.foldl_cons, FecDecoder.call, first]
  decide +kernel

/-- A copy that arrives before the group expires is recognised. -/
theorem delivered_at_most_once_copy :
    (acceptedKeys (decodeAll (smallTransport 1) (fun _ _ => .ok) 0
      [.input firstDatagram 1, .input firstDatagram 2]).log).Nodup := by
  refine delivered_at_most_once (smallTransport 1) (fun _ _ => .ok) 0 _ ⟨?_, ?_, trivial⟩
  · rintro ⟨_, _, _, _, occupied, _⟩
    exact occupied 0 (by decide) rfl
  rintro ⟨_, _, admitted, unused, _⟩
  have first := fecDecoderInput_admitted (smallTransport 1) (fun _ _ => .ok)
    firstDatagram_admitted 1
  rw [inputGroup_first] at first
  have decoded := Option.some.inj (firstDatagram_admitted.decoded.symm.trans admitted.decoded)
  have held := unused 0 (by decide)
  rw [FecDecoder.call, first, ← decoded] at held
  revert held
  decide +kernel

end MultiFlow.Fec
