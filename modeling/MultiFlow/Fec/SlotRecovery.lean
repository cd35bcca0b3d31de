import MultiFlow.Fec.Genuine

/-!
# Recovery of a group in its slot

With a callback that takes every record, a faithful slot makes progress at every datagram:
either it still lacks shards, or all of its records were delivered.
-/

namespace MultiFlow.Fec

open CodecApi Lib Wire List

section Willing

variable {fec : FecTransport} {output : FecOutputFn}

def Willing (output : FecOutputFn) : Prop := ∀ call data, output call data = .ok

theorem emitRecord_willing (willing : Willing output)
    {view : GroupView} (idx : Nat) {length : Nat} (ne : length ≠ 0)
    (unblocked : view.group.emitBlocked = false) :
    (emitRecord output view idx length).1 = .ok ∧
      (emitRecord output view idx length).2.group.delivered idx = true ∧
      (emitRecord output view idx length).2.group.emitBlocked = false := by
  unfold emitRecord
  rw [if_neg ne]
  split
  · rename_i delivered
    exact ⟨rfl, delivered, unblocked⟩
  dsimp only
  rw [willing]
  exact ⟨rfl, by simp [FecDecodeGroup.answered, presentSet], rfl⟩

/-- What an emission loop may choose so that it does not fail. -/
def EmitChoice.harmless : EmitChoice → Prop
  | .skip => True
  | .leave status => status = .ok
  | .emit length => length ≠ 0

section Emission

variable (willing : Willing output)
include willing

theorem emitRecords_willing (choice : FecDecodeGroup → Nat → EmitChoice) (indices : List Nat)
    (view : GroupView) (unblocked : view.group.emitBlocked = false)
    (harmless : ∀ grp, Emitted view.group grp → ∀ idx ∈ indices, (choice grp idx).harmless) :
    (emitRecords output choice indices view).1 = .ok ∧
      (emitRecords output choice indices view).2.group.emitBlocked = false := by
  induction indices generalizing view with
  | nil => exact ⟨rfl, unblocked⟩
  | cons idx _ ih =>
    have first := harmless view.group (Emitted.refl _) idx mem_cons_self
    rw [emitRecords]
    split
    · exact ih view unblocked fun grp emitted other mem =>
        harmless grp emitted other (mem_cons_of_mem _ mem)
    · rename_i status chosen
      rw [chosen] at first
      exact ⟨first, unblocked⟩
    rename_i length chosen
    rw [chosen] at first
    obtain ⟨status, delivered, open_⟩ := emitRecord_willing willing idx first unblocked
    have emitted := emitRecord_emitted output view idx length
    dsimp only
    rw [if_neg (not_not.mpr status), if_neg (by simp [delivered])]
    exact ih _ open_ fun grp later other mem =>
      harmless grp (emitted.trans later) other (mem_cons_of_mem _ mem)

theorem emitAvailable_willing (view : GroupView) (unblocked : view.group.emitBlocked = false) :
    (emitAvailable fec output view).1 = .ok ∧
      (emitAvailable fec output view).2.group.emitBlocked = false := by
  refine emitRecords_willing willing _ _ view unblocked ?_
  intro _ _ _ _
  unfold chooseAvailable
  split
  · trivial
  split
  · trivial
  rename_i good
  simp only [badLength, decide_eq_true_eq, not_or] at good
  exact good.1

theorem emitContiguous_willing (view : GroupView) (unblocked : view.group.emitBlocked = false)
    (sized : ∀ idx < emitLimit fec view.group, view.group.present idx = true →
      badLength fec view.group idx = false) :
    (emitContiguous fec output view).1 = .ok ∧
      (emitContiguous fec output view).2.group.emitBlocked = false := by
  refine emitRecords_willing willing _ _ view unblocked ?_
  intro grp emitted idx mem
  have good := sized idx (mem_range.mp mem)
  unfold chooseContiguous
  split
  · trivial
  split
  · rfl
  rename_i present
  rw [Bool.not_eq_false, emitted.rest_eq] at present
  have same : badLength fec grp idx = false := by
    rw [emitted.rest_eq]
    exact good present
  rw [if_neg (by simp [same])]
  simp only [badLength, decide_eq_false_iff_not, not_or] at same
  exact same.1

theorem emitUndelivered_willing (indices : List Nat) (view : GroupView)
    (unblocked : view.group.emitBlocked = false)
    (sized : ∀ idx ∈ indices, (view.group.lengths idx).toNat ≠ 0) :
    (emitRecords output chooseUndelivered indices view).1 = .ok ∧
      (emitRecords output chooseUndelivered indices view).2.group.emitBlocked = false ∧
      ∀ idx ∈ indices,
        (emitRecords output chooseUndelivered indices view).2.group.delivered idx = true := by
  induction indices generalizing view with
  | nil => exact ⟨rfl, unblocked, fun _ mem => absurd mem not_mem_nil⟩
  | cons idx rest ih =>
    have later : ∀ other ∈ rest, (view.group.lengths other).toNat ≠ 0 :=
      fun other mem => sized other (mem_cons_of_mem _ mem)
    rw [emitRecords, chooseUndelivered]
    cases known : view.group.delivered idx with
    | true =>
      obtain ⟨status, open_, all⟩ := ih view unblocked later
      refine ⟨status, open_, ?_⟩
      intro other mem
      rcases mem_cons.mp mem with rfl | inRest
      · exact (emitRecords_emitted output chooseUndelivered rest view).delivered_mono _ known
      · exact all other inRest
    | false =>
      obtain ⟨status, delivered, open_⟩ := emitRecord_willing willing idx
        (sized idx mem_cons_self) unblocked
      have emitted := emitRecord_emitted output view idx (view.group.lengths idx).toNat
      obtain ⟨rest_status, rest_open, all⟩ := ih
        (emitRecord output view idx (view.group.lengths idx).toNat).2 open_
        (by rw [emitted.rest_eq]; exact later)
      simp only [Bool.false_eq_true, if_false]
      rw [if_neg (not_not.mpr status), if_neg (by simp [delivered])]
      refine ⟨rest_status, rest_open, ?_⟩
      intro other mem
      rcases mem_cons.mp mem with rfl | inRest
      · exact (emitRecords_emitted output chooseUndelivered rest _).delivered_mono _ delivered
      · exact all other inRest

end Emission

end Willing

structure Decodable (fec : FecTransport) (records : List (List UInt8)) : Prop where
  codec : ShardCodec fec.codec fec.k fec.r fec.shardSize
  tableFits : 1 + 2 * (fec.k - 1) ≤ fec.shardSize
  few : records.length ≤ fec.messageShards
  short : ∀ record ∈ records, 0 < record.length ∧ record.length ≤ fec.shardSize
  nonempty : 0 < records.length

section Recovery

variable {fec : FecTransport} {out : FecOutputFn} {recs : List (List UInt8)}
  {group : FecDecodeGroup} {view later : GroupView}

theorem Faithful.moves (faithful : Faithful fec recs view.group) (decodable : Decodable fec recs)
    {unchecked : Prop} (moves : GroupMoves fec out unchecked (Genuine fec fun _ => recs)
      view later) : Faithful fec recs later.group :=
  GroupMoves.faithful decodable.codec decodable.tableFits
    (fun _ => ⟨decodable.few, decodable.short⟩) moves faithful

section Lengths

variable (decodable : Decodable fec recs)
include decodable

theorem Decodable.recordLength {idx : Nat} (known : idx < recs.length) :
    (recordLengths recs idx).toNat = recs[idx].length ∧
      0 < recs[idx].length ∧ recs[idx].length ≤ fec.shardSize := by
  obtain ⟨pos, short⟩ := decodable.short _ (getElem_mem known)
  refine ⟨?_, pos, short⟩
  rw [recordLengths, getD_of_found (List.getElem?_eq_getElem known)]
  exact toNat_length short

theorem Faithful.readLengths_ok (indices : List Nat) (known : ∀ idx ∈ indices, idx < recs.length)
    (faithful : Faithful fec recs group) (hasTable : group.present fec.messageShards = true) :
    ∃ lengths, readLengths fec indices group = (.ok, { group with lengths := lengths }) ∧
      (∀ idx ∈ indices, lengths idx ≠ 0) ∧
      ∀ idx, group.lengths idx ≠ 0 → lengths idx ≠ 0 := by
  induction indices generalizing group with
  | nil => exact ⟨group.lengths, rfl, fun _ mem => absurd mem not_mem_nil, fun _ => id⟩
  | cons idx rest ih =>
    have inTable := known idx mem_cons_self
    have later : ∀ other ∈ rest, other < recs.length :=
      fun other mem => known other (mem_cons_of_mem _ mem)
    obtain ⟨len_eq, pos, short⟩ := decodable.recordLength inTable
    have read : tableLength fec group idx = recs[idx].length :=
      (faithful.tableLength_eq decodable.codec decodable.tableFits decodable.few hasTable
        inTable).trans len_eq
    rw [readLengths, if_neg (by omega), if_neg]
    · split
      · have count_eq := faithful.tableCount_eq decodable.codec decodable.few hasTable
        obtain ⟨lengths, equation, all, kept⟩ := ih later
          (faithful.lengthRead decodable.codec decodable.tableFits decodable.few decodable.short
            hasTable (count_eq ▸ inTable)) hasTable
        have here : lengths idx ≠ 0 := by
          refine kept idx ?_
          dsimp only
          rw [Function.update_self, read]
          intro zero
          have := toNat_length short
          rw [zero] at this
          exact pos.ne this
        refine ⟨lengths, equation, ?_, ?_⟩
        · intro other mem
          rcases mem_cons.mp mem with rfl | inRest
          · exact here
          · exact all other inRest
        intro other nonzero
        by_cases same : other = idx
        · rw [same]
          exact here
        refine kept other ?_
        dsimp only
        rwa [Function.update_of_ne same]
      · rename_i nonzero
        obtain ⟨lengths, equation, all, kept⟩ := ih later faithful hasTable
        refine ⟨lengths, equation, ?_, kept⟩
        intro other mem
        rcases mem_cons.mp mem with rfl | inRest
        · exact kept _ nonzero
        · exact all other inRest
    · rintro ⟨nonzero, apart⟩
      obtain ⟨_, found, sized⟩ := faithful.sized idx nonzero
      rw [List.getElem?_eq_getElem inTable] at found
      cases found
      exact apart (sized.trans read.symm)

end Lengths

def FecDecodeGroup.tabled (fec : FecTransport) (group : FecDecodeGroup)
    (lengths : Nat → UInt16) (count : Nat) : FecDecodeGroup :=
  markUnusedZeros fec
    { group with lengths := lengths, dataCount := count, metadataValid := true } count

theorem Faithful.acceptMetadata_ok (faithful : Faithful fec recs group)
    (decodable : Decodable fec recs) (hasTable : group.present fec.messageShards = true) :
    ∃ lengths, acceptMetadata fec group = (.ok, group.tabled fec lengths recs.length) ∧
      ∀ idx < recs.length, lengths idx ≠ 0 := by
  have count_eq := faithful.tableCount_eq decodable.codec decodable.few hasTable
  obtain ⟨lengths, read, all, _⟩ := faithful.readLengths_ok decodable (List.range recs.length)
    (fun idx => mem_range.mp) hasTable
  refine ⟨lengths, ?_, fun idx known => all idx (mem_range.mpr known)⟩
  have pos := decodable.nonempty
  have few := decodable.few
  have parsed : parseMetadata fec group = (.ok, { group with lengths }) := by
    unfold parseMetadata
    rw [count_eq, if_neg (by simp [hasTable]), if_neg (by omega), if_neg, read]
    rintro ⟨hinted, apart⟩
    exact apart (faithful.counted (by simp [FecDecodeGroup.countKnown, hinted]))
  unfold acceptMetadata
  rw [parsed]
  dsimp only
  rw [if_neg (by simp)]
  have kept : tableCount fec { group with lengths } = recs.length := count_eq
  rw [kept]
  rfl

def Delivered (records : List (List UInt8)) (group : FecDecodeGroup) : Prop :=
  ∀ index < records.length, group.delivered index = true

theorem completeGroup_active (fec : FecTransport) (view : GroupView) :
    (completeGroup fec view).group.active = .completed ∧
      (completeGroup fec view).group.delivered = view.group.delivered := by
  unfold completeGroup
  split
  · rename_i completed
    exact ⟨completed, rfl⟩
  · exact ⟨rfl, rfl⟩

theorem allMessagesDelivered_iff (group : FecDecodeGroup) :
    allMessagesDelivered group recs.length = true ↔ Delivered recs group := by
  simp [allMessagesDelivered, Delivered, all_eq_true]

section Recovered

variable (faithful : Faithful fec recs view.group) (decodable : Decodable fec recs)
include faithful decodable

theorem Faithful.emitFromMetadata_willing (willing : Willing out)
    (unblocked : view.group.emitBlocked = false)
    (hasTable : view.group.present fec.messageShards = true) :
    (emitFromMetadata fec out view).1 = .ok ∧
      messagesComplete (emitFromMetadata fec out view).2.group = true ∧
      Delivered recs (emitFromMetadata fec out view).2.group := by
  obtain ⟨lengths, accepted, nonzero⟩ := faithful.acceptMetadata_ok decodable hasTable
  unfold emitFromMetadata
  rw [accepted]
  dsimp only
  rw [if_neg (by simp)]
  generalize tabled_eq : view.group.tabled fec lengths recs.length = tabled
  have count_eq : tabled.dataCount = recs.length := by
    rw [← tabled_eq]
    rfl
  rw [count_eq]
  obtain ⟨status, _, all⟩ := emitUndelivered_willing willing (List.range recs.length)
    { view with group := tabled } (by rw [← tabled_eq]; exact unblocked) (by
      intro idx mem zero
      rw [← tabled_eq] at zero
      exact nonzero idx (mem_range.mp mem) (UInt16.toNat_inj.mp zero))
  have emitted := emitRecords_emitted out chooseUndelivered (List.range recs.length)
    { view with group := tabled }
  refine ⟨status, Bool.and_eq_true_iff.mpr ⟨?_, ?_⟩, ?_⟩
  · rw [emitted.rest_eq, ← tabled_eq]
    rfl
  · have same : (emitRecords out chooseUndelivered (List.range recs.length)
        { view with group := tabled }).2.group.dataCount = recs.length := by
      rw [emitted.rest_eq, ← count_eq]
    rw [same, allMessagesDelivered_iff]
    exact fun idx known => all idx (mem_range.mpr known)
  · exact fun idx known => all idx (mem_range.mpr known)

theorem Faithful.emitRecovered_willing (willing : Willing out)
    (unblocked : view.group.emitBlocked = false)
    (whole : ∀ shard < fec.k, view.group.present shard = true) :
    (emitRecovered fec out view).2.group.active = .completed ∧
      Delivered recs (emitRecovered fec out view).2.group := by
  obtain ⟨status, complete, delivered⟩ := faithful.emitFromMetadata_willing decodable willing
    unblocked (whole _ (messageShards_lt fec).1)
  unfold emitRecovered
  dsimp only
  rw [if_neg (not_not.mpr status), if_pos complete]
  obtain ⟨active, delivered_eq⟩ := completeGroup_active fec (emitFromMetadata fec out view).2
  refine ⟨active, ?_⟩
  unfold Delivered
  rw [delivered_eq]
  exact delivered

theorem Faithful.recoverGroup_willing (willing : Willing out)
    (unblocked : view.group.emitBlocked = false) :
    presentCount view.group.present fec.n < fec.k ∧
        (recoverGroup fec out view).2 = view ∨
      (recoverGroup fec out view).2.group.active = .completed ∧
        Delivered recs (recoverGroup fec out view).2.group := by
  unfold recoverGroup
  dsimp only
  split
  · rename_i waiting
    exact Or.inl ⟨waiting, rfl⟩
  rename_i enough
  right
  split
  · rename_i none_missing
    exact faithful.emitRecovered_willing decodable willing unblocked
      (missingData_eq_zero fec none_missing)
  obtain ⟨block, recovers, recovered⟩ := faithful.recovered decodable.codec (not_lt.mp enough)
  rw [recovers]
  have markedFaithful : Faithful fec recs (markRecovered fec view block).group := recovered
  exact markedFaithful.emitRecovered_willing decodable willing unblocked
    fun shard isData => by simp [markRecovered, isData]

end Recovered

/-- A slot that collects: the shards that carry no record count as present exactly when a
tail has arrived. -/
structure Collecting (fec : FecTransport) (records : List (List UInt8))
    (group : FecDecodeGroup) : Prop where
  active_eq : group.active = .collecting
  unblocked : group.emitBlocked = false
  tailHint : ∀ shard < fec.n, fec.messageShards ≤ shard →
    group.present shard = true → group.dataCountHintValid = true
  zeros : ∀ shard < fec.messageShards, records.length ≤ shard →
    (group.present shard = true ↔ group.dataCountHintValid = true)
  nonzero : ∀ index < records.length, group.present index = true → group.lengths index ≠ 0

/-- The slot still lacks shards, or its records are all delivered. -/
def Progress (fec : FecTransport) (records : List (List UInt8)) (group : FecDecodeGroup) : Prop :=
  Collecting fec records group ∧
      presentCount group.present fec.n < fec.k ∨
    group.active = .completed ∧ Delivered records group

theorem Collecting.emitted {before after : FecDecodeGroup}
    (collecting : Collecting fec recs before) (emitted : Emitted before after)
    (unblocked : after.emitBlocked = false) : Collecting fec recs after := by
  rw [emitted.rest_eq]
  exact { collecting with unblocked }

def FecDecodeGroup.hinted (fec : FecTransport) (group : FecDecodeGroup) (count : Nat) :
    FecDecodeGroup :=
  markUnusedZeros fec { group with dataCount := count, dataCountHintValid := true } count

theorem present_markUnusedZeros (fec : FecTransport) (grp : FecDecodeGroup) (count shard : Nat) :
    (markUnusedZeros fec grp count).present shard = true ↔
      (count ≤ shard ∧ shard < fec.messageShards) ∨ grp.present shard = true := by
  simp [markUnusedZeros]

theorem Collecting.hinted (collecting : Collecting fec recs group) :
    Collecting fec recs (group.hinted fec recs.length) := by
  refine ⟨collecting.active_eq, collecting.unblocked, fun _ _ _ _ => rfl, ?_, ?_⟩
  · intro _ isMessage unused
    refine ⟨fun _ => rfl, fun _ => (present_markUnusedZeros _ _ _ _).mpr (Or.inl ⟨unused, isMessage⟩)⟩
  intro idx known present
  refine collecting.nonzero idx known ?_
  rcases (present_markUnusedZeros _ _ _ _).mp present with ⟨_, _⟩ | stored
  · omega
  · exact stored

variable {hdr : WireHeader} {body : List UInt8}

theorem Faithful.checkCount_ok (faithful : Faithful fec recs view.group)
    (decodable : Decodable fec recs) (genuine : Genuine fec (fun _ => recs) hdr body) :
    checkCount fec view hdr = (.ok, { view with
      group := if fec.messageShards ≤ hdr.shardIndex.toNat then
          view.group.hinted fec recs.length
        else view.group }) := by
  have few := decodable.few
  have pos := decodable.nonempty
  have size := fec.size_ge
  have below := messageShards_lt fec
  have total := fec.total_le
  have limit : FEC_TRANSPORT_MAX_SHARDS = 255 := rfl
  unfold checkCount
  cases genuine with
  | data _ found =>
    have known := (List.getElem?_eq_some_iff.mp found).1
    rw [if_neg (by omega), if_neg, if_neg (by omega)]
    rintro ⟨hinted, unused⟩
    rw [faithful.counted (by simp [FecDecodeGroup.countKnown, hinted])] at unused
    omega
  | tail isTail len_eq =>
    rw [if_pos isTail, if_pos isTail]
    unfold applyTailHint
    dsimp only
    have shortest : 2 * fec.shardSize ≤ (recs.length + 1) * fec.shardSize :=
      Nat.mul_le_mul_right _ (by omega)
    have longest : (recs.length + 1) * fec.shardSize ≤
        fec.k * fec.shardSize := Nat.mul_le_mul_right _ (by omega)
    have count : ((recs.length + 1) * fec.shardSize / fec.shardSize - 1) % 256 =
        recs.length := by
      rw [Nat.mul_div_cancel _ (by omega), Nat.add_sub_cancel, Nat.mod_eq_of_lt]
      omega
    rw [len_eq, count, if_neg, if_neg]
    · rfl
    · rintro (⟨hinted, apart⟩ | _)
      · exact apart (faithful.counted (by simp [FecDecodeGroup.countKnown, hinted]))
      · omega
    · rw [Nat.mul_mod_left]
      omega

section Stored

variable (collecting : Collecting fec recs group)
include collecting

theorem Collecting.stored (decodable : Decodable fec recs)
    (genuine : Genuine fec (fun _ => recs) hdr body)
    (hinted : fec.messageShards ≤ hdr.shardIndex.toNat →
      group.dataCountHintValid = true) (stats : FecDecoderStats) (log : List FecDelivery)
    (now : UInt64) :
    Collecting fec recs (storeShard fec ⟨group, stats, log⟩ hdr body now).group := by
  have few := decodable.few
  refine ⟨collecting.active_eq, collecting.unblocked, ?_, ?_, ?_⟩
  · intro shard isShard isTail present
    by_cases same : shard = hdr.shardIndex.toNat
    · exact hinted (same ▸ isTail)
    · refine collecting.tailHint shard isShard isTail ?_
      simpa [storeShard, presentSet, same] using present
  · intro shard isMessage unused
    have apart : shard ≠ hdr.shardIndex.toNat := by
      cases genuine with
      | data _ found =>
        have known := (List.getElem?_eq_some_iff.mp found).1
        omega
      | tail => omega
    simpa [storeShard, presentSet, apart] using collecting.zeros shard isMessage unused
  intro index known present
  by_cases same : index = hdr.shardIndex.toNat
  · have isMessage : hdr.shardIndex.toNat < fec.messageShards := by omega
    cases genuine with
    | data record found len_eq =>
      have pos := (decodable.short record (mem_of_getElem? found)).1
      simp only [storeShard, if_pos isMessage, same, Function.update_self]
      intro zero
      rw [zero] at len_eq
      exact pos.ne len_eq
    | tail => omega
  · have earlier : group.present index = true := by
      simpa [storeShard, presentSet, same] using present
    have kept : (storeShard fec ⟨group, stats, log⟩ hdr body now).group.lengths
        index = group.lengths index := by
      simp only [storeShard]
      split
      · exact Function.update_of_ne same _ _
      · rfl
    rw [kept]
    exact collecting.nonzero index known earlier

theorem Collecting.goodLength (faithful : Faithful fec recs group)
    (decodable : Decodable fec recs) :
    ∀ idx < emitLimit fec group, group.present idx = true →
      badLength fec group idx = false := by
  intro idx inLimit present
  have known : idx < recs.length := by
    by_contra unused
    unfold emitLimit at inLimit
    split at inLimit
    · rename_i counted
      rw [faithful.counted counted] at inLimit
      exact unused inLimit
    · rename_i unknown
      have hinted := (collecting.zeros idx inLimit (not_lt.mp unused)).mp present
      exact unknown (by simp [FecDecodeGroup.countKnown, hinted])
  have nonzero := collecting.nonzero idx known present
  obtain ⟨record, found, _⟩ := faithful.sized idx nonzero
  obtain ⟨_⟩ := decodable.short record (mem_of_getElem? found)
  simp only [badLength, decide_eq_false_iff_not]
  omega

theorem Collecting.tabled (hasTable : group.present fec.messageShards = true)
    {lengths : Nat → UInt16} (nonzero : ∀ idx < recs.length, lengths idx ≠ 0) :
    Collecting fec recs (group.tabled fec lengths recs.length) := by
  have below := messageShards_lt fec
  have hinted := collecting.tailHint _ (below.1.trans below.2) (le_refl _) hasTable
  refine ⟨collecting.active_eq, collecting.unblocked, fun _ _ _ _ => hinted, ?_, ?_⟩
  · intro _ isMessage unused
    exact ⟨fun _ => hinted,
      fun _ => (present_markUnusedZeros _ _ _ _).mpr (Or.inl ⟨unused, isMessage⟩)⟩
  · exact fun idx known _ => nonzero idx known

end Stored

/-- A slot after a function that only adds shards: it has kept those of before. -/
def Kept (before after : FecDecodeGroup) : Prop :=
  after.active = .completed ∨ ∀ shard, before.present shard = true → after.present shard = true

theorem Collecting.recoverGroup_progress (view : GroupView)
    (collecting : Collecting fec recs view.group)
    (faithful : Faithful fec recs view.group) (decodable : Decodable fec recs)
    (willing : Willing out) :
    Progress fec recs (recoverGroup fec out view).2.group ∧
      Kept view.group (recoverGroup fec out view).2.group := by
  rcases faithful.recoverGroup_willing decodable willing collecting.unblocked with
    ⟨waiting, same⟩ | ⟨completed, delivered⟩
  · rw [same]
    exact ⟨Or.inl ⟨collecting, waiting⟩, Or.inr fun _ => id⟩
  · exact ⟨Or.inr ⟨completed, delivered⟩, Or.inl completed⟩

theorem Collecting.finishInput_progress (view : GroupView)
    (collecting : Collecting fec recs view.group)
    (faithful : Faithful fec recs view.group) (decodable : Decodable fec recs)
    (willing : Willing out) :
    Progress fec recs (finishInput fec out view).2.group ∧
      Kept view.group (finishInput fec out view).2.group := by
  unfold finishInput
  split
  · rename_i hasTable
    obtain ⟨lengths, accepted, nonzero⟩ := faithful.acceptMetadata_ok decodable hasTable
    have tabledFaithful : Faithful fec recs
        (view.group.tabled fec lengths recs.length) := by
      have moves : GroupMoves fec out False (Genuine fec fun _ => recs)
          view _ := acceptMetadata_moves fec out view
      rw [accepted] at moves
      exact faithful.moves decodable moves
    have kept : ∀ shard, view.group.present shard = true →
        (view.group.tabled fec lengths recs.length).present shard = true :=
      fun shard present => (present_markUnusedZeros _ _ _ _).mpr (Or.inr present)
    rw [accepted]
    dsimp only
    rw [if_neg (by simp)]
    split
    · rename_i delivered
      obtain ⟨completed, delivered_eq⟩ := completeGroup_active fec
        { view with group := view.group.tabled fec lengths recs.length }
      refine ⟨Or.inr ⟨completed, ?_⟩, Or.inl completed⟩
      unfold Delivered
      rw [delivered_eq]
      exact (allMessagesDelivered_iff _).mp delivered
    have later : Collecting fec recs
        (view.group.tabled fec lengths recs.length) :=
      collecting.tabled hasTable nonzero
    obtain ⟨progress, keeps⟩ := Collecting.recoverGroup_progress
      { view with group := view.group.tabled fec lengths recs.length } later
      tabledFaithful decodable willing
    refine ⟨progress, ?_⟩
    rcases keeps with completed | grown
    · exact Or.inl completed
    · exact Or.inr fun shard present => grown shard (kept shard present)
  · exact collecting.recoverGroup_progress view faithful decodable willing

theorem inputShard_completed (hdr : WireHeader) (body : List UInt8) (now : UInt64)
    (view : GroupView) (completed : view.group.active = .completed) :
    (inputShard fec out hdr body now view).2.group.active = .completed ∧
      (inputShard fec out hdr body now view).2.group.delivered = view.group.delivered := by
  have check : (checkCount fec view hdr).2.group.active = .completed ∧
      (checkCount fec view hdr).2.group.delivered = view.group.delivered := by
    unfold checkCount applyTailHint
    dsimp only
    split
    · split
      · exact ⟨completed, rfl⟩
      split
      all_goals exact ⟨completed, rfl⟩
    split
    all_goals exact ⟨completed, rfl⟩
  unfold inputShard
  dsimp only
  split
  · exact check
  · rw [if_pos (Or.inl check.1)]
    exact check

theorem Faithful.inputShard_progress (faithful : Faithful fec recs view.group)
    (decodable : Decodable fec recs) (willing : Willing out)
    (progress : Progress fec recs view.group) (genuine : Genuine fec (fun _ => recs) hdr body)
    (isShard : hdr.shardIndex.toNat < fec.n) (forGroup : hdr.blockId = view.group.groupId)
    (now : UInt64) :
    let later := (inputShard fec out hdr body now view).2.group
    Progress fec recs later ∧
      (later.active = .completed ∨ later.present hdr.shardIndex.toNat = true) := by
  intro later
  rcases progress with ⟨collecting, waiting⟩ | ⟨completed, delivered⟩
  swap
  · obtain ⟨still, delivered_eq⟩ := inputShard_completed hdr body now view completed
    refine ⟨Or.inr ⟨still, ?_⟩, Or.inl still⟩
    unfold Delivered
    rw [delivered_eq]
    exact delivered
  have check := faithful.checkCount_ok decodable genuine
  have checkMoves : GroupMoves fec out False (Genuine fec fun _ => recs) view
      (checkCount fec view hdr).2 :=
    checkCount_moves fec out view hdr body genuine forGroup
  have below := messageShards_lt fec
  generalize checked_eq : (if fec.messageShards ≤ hdr.shardIndex.toNat then
    view.group.hinted fec recs.length else view.group) = checked at check
  have checkedCollecting : Collecting fec recs checked := by
    rw [← checked_eq]
    split
    · exact collecting.hinted
    · exact collecting
  have hinted : fec.messageShards ≤ hdr.shardIndex.toNat →
      checked.dataCountHintValid = true := by
    intro isTail
    rw [← checked_eq, if_pos isTail]
    rfl
  have later_eq : later = (inputShard fec out hdr body now view).2.group := rfl
  unfold inputShard at later_eq
  rw [check] at later_eq checkMoves
  dsimp only at later_eq
  rw [if_neg (by simp)] at later_eq
  by_cases present : checked.present hdr.shardIndex.toNat = true
  · -- a shard that is there: the hint marks nothing new, since a tail was there before
    rw [if_pos (Or.inr present)] at later_eq
    rw [later_eq]
    have same : checked.present = view.group.present := by
      rw [← checked_eq] at present ⊢
      split at present
      · rename_i isTail
        rw [if_pos isTail]
        funext shard
        refine Bool.eq_iff_iff.mpr ((present_markUnusedZeros _ _ _ _).trans ?_)
        refine ⟨?_, Or.inr⟩
        rintro (⟨unused, isMessage⟩ | stored)
        · refine (collecting.zeros shard isMessage unused).mpr ?_
          refine collecting.tailHint _ isShard isTail ?_
          rcases (present_markUnusedZeros _ _ _ _).mp present with ⟨_, _⟩ | stored
          · omega
          · exact stored
        · exact stored
      · rename_i isData
        rw [if_neg isData]
    refine ⟨Or.inl ⟨checkedCollecting, ?_⟩, Or.inr present⟩
    rw [same]
    exact waiting
  rw [if_neg (by simp [checkedCollecting.active_eq, present])] at later_eq
  generalize stored_eq :
    storeShard fec { view with group := checked } hdr body now = stored at later_eq
  have storedCollecting : Collecting fec recs stored.group := by
    rw [← stored_eq]
    exact checkedCollecting.stored decodable genuine hinted _ _ now
  have storedFaithful : Faithful fec recs stored.group := by
    rw [← stored_eq]
    exact (faithful.moves decodable checkMoves).stored decodable.codec decodable.few genuine now
  have storedPresent : stored.group.present hdr.shardIndex.toNat = true := by
    rw [← stored_eq]
    simp [storeShard, presentSet]
  have emits : (emitStored fec out stored hdr.shardIndex.toNat).1 = .ok ∧
      Emitted stored.group (emitStored fec out stored hdr.shardIndex.toNat).2.group ∧
      (emitStored fec out stored hdr.shardIndex.toNat).2.group.emitBlocked = false := by
    unfold emitStored
    split
    · obtain ⟨status, unblocked⟩ := emitContiguous_willing willing stored
        storedCollecting.unblocked (storedCollecting.goodLength storedFaithful decodable)
      exact ⟨status, emitContiguous_emitted fec out stored, unblocked⟩
    · exact ⟨rfl, Emitted.refl _, storedCollecting.unblocked⟩
  obtain ⟨status, emitted, unblocked⟩ := emits
  rw [if_neg (not_not.mpr status)] at later_eq
  rw [later_eq]
  have emittedFaithful : Faithful fec recs
      (emitStored fec out stored hdr.shardIndex.toNat).2.group := by
    rw [emitted.rest_eq]
    exact { storedFaithful with }
  obtain ⟨progress, kept⟩ := Collecting.finishInput_progress _
    (storedCollecting.emitted emitted unblocked) emittedFaithful decodable willing
  refine ⟨progress, ?_⟩
  rcases kept with completed | grown
  · exact Or.inl completed
  refine Or.inr (grown _ ?_)
  rw [emitted.rest_eq]
  exact storedPresent

end Recovery

end MultiFlow.Fec
