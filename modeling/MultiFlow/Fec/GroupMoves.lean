import MultiFlow.Fec.Decoder

/-!
# What can happen inside a slot

`GroupMove` lists the steps that the functions on one slot are made of, each with the tests that
precede it in the source, so an invariant of a slot is proved once for each move.  A call for a
record whose shard is absent is a move only under `unchecked`.
-/

namespace MultiFlow.Fec

open CodecApi Lib Wire

/-- The bytes that are passed to the output callback for a record. -/
def FecDecodeGroup.record (group : FecDecodeGroup) (index : Nat) : List UInt8 :=
  group.bytes index (group.lengths index).toNat

section Moves

variable (fec : FecTransport) (output : FecOutputFn)

inductive GroupMove (unchecked : Prop) (received : WireHeader → List UInt8 → Prop)
    (view : GroupView) : GroupView → Prop where
  | counted (stats : FecDecoderStats) : GroupMove unchecked received view { view with stats := stats }
  | called (index : Nat) (answer : FecOutputStatus) (stats : FecDecoderStats)
      (nonempty : (view.group.lengths index).toNat ≠ 0)
      (undelivered : view.group.delivered index = false)
      (stored : view.group.present index = true ∨ unchecked)
      (answer_eq : output view.log.length (view.group.record index) = answer) :
      GroupMove unchecked received view
        { group := view.group.answered index answer
          stats := stats
          log := view.log ++ [⟨view.group.groupId, index, view.group.record index, answer⟩] }
  | hinted (header : WireHeader) (payload : List UInt8) (count : Nat)
      (arrived : received header payload)
      (forGroup : header.blockId = view.group.groupId)
      (isTail : fec.messageShards ≤ header.shardIndex.toNat)
      (count_eq : header.validLen.toNat = (count + 1) * fec.shardSize)
      (positive : 0 < count) (count_le : count ≤ fec.messageShards) :
      GroupMove unchecked received view { view with
        group := markUnusedZeros fec
          { view.group with dataCount := count, dataCountHintValid := true } count }
  | stored (header : WireHeader) (payload : List UInt8) (now : UInt64) (stats : FecDecoderStats)
      (arrived : received header payload)
      (forGroup : header.blockId = view.group.groupId)
      (incomplete : view.group.active ≠ .completed)
      (absent : view.group.present header.shardIndex.toNat = false)
      (hinted : fec.messageShards ≤ header.shardIndex.toNat →
        view.group.dataCountHintValid = true) :
      GroupMove unchecked received view
        { storeShard fec view header payload now with stats := stats }
  | lengthRead (index : Nat)
      (hasTable : view.group.present fec.messageShards = true)
      (inTable : index < tableCount fec view.group)
      (unknown : view.group.lengths index = 0)
      (nonempty : tableLength fec view.group index ≠ 0)
      (length_le : tableLength fec view.group index ≤ fec.shardSize) :
      GroupMove unchecked received view { view with
        group := { view.group with
          lengths := Function.update view.group.lengths index
            (UInt16.ofNat (tableLength fec view.group index)) } }
  | accepted (hasTable : view.group.present fec.messageShards = true)
      (positive : 0 < tableCount fec view.group)
      (count_le : tableCount fec view.group ≤ fec.messageShards) :
      GroupMove unchecked received view { view with
        group := markUnusedZeros fec
          { view.group with
            dataCount := tableCount fec view.group, metadataValid := true }
          (tableCount fec view.group) }
  | recovered (block : Block) (stats : FecDecoderStats)
      (enough : fec.k ≤ presentCount view.group.present fec.n)
      (recovers : codecRecover fec.codec view.group.block view.group.present fec.n =
        (.ok, block)) :
      GroupMove unchecked received view
        { markRecovered fec view block with stats := stats }
  | unrecovered (status : CodecRecoverStatus) (block : Block)
      (enough : fec.k ≤ presentCount view.group.present fec.n)
      (fails : codecRecover fec.codec view.group.block view.group.present fec.n =
        (status, block)) (notOk : status ≠ .ok) :
      GroupMove unchecked received view { view with group := { view.group with block := block } }
  | completed (stats : FecDecoderStats) (incomplete : view.group.active ≠ .completed)
      (complete : messagesComplete view.group = true) :
      GroupMove unchecked received view
        { view with
          group := { view.group with active := .completed, emitBlocked := false }
          stats := stats }
  | released :
      GroupMove unchecked received view { view with
        group := { view.group with releasedUnrecoverable := true } }

abbrev GroupMoves (unchecked : Prop) (received : WireHeader → List UInt8 → Prop) :=
  Relation.ReflTransGen (GroupMove fec output unchecked received)

end Moves

section Frame

variable {fec : FecTransport} {out : FecOutputFn} {unchecked : Prop}
  {received : WireHeader → List UInt8 → Prop} {view later : GroupView}

/-- What every move keeps of a slot: the group it is for, and that it is in use. -/
structure SameGroup (before after : FecDecodeGroup) : Prop where
  groupId_eq : after.groupId = before.groupId
  active : before.active ≠ .free → after.active ≠ .free
  collecting : after.active = .collecting → before.active = .collecting

theorem GroupMove.sameGroup (move : GroupMove fec out unchecked received view later) :
    SameGroup view.group later.group := by
  cases move with
  | called _ answer =>
    cases answer with
    | ok | blocked | error => exact ⟨rfl, id, id⟩
  | completed =>
    exact ⟨rfl, fun _ => by simp, fun contrary => by cases contrary⟩
  | _ => exact ⟨rfl, id, id⟩

theorem GroupMoves.sameGroup (moves : GroupMoves fec out unchecked received view later) :
    SameGroup view.group later.group := by
  induction moves with
  | refl => exact ⟨rfl, id, id⟩
  | tail _ move ih =>
    have step := move.sameGroup
    exact ⟨step.groupId_eq.trans ih.groupId_eq, step.active ∘ ih.active,
      ih.collecting ∘ step.collecting⟩

theorem GroupMove.present_mono (move : GroupMove fec out unchecked received view later)
    {shard : Nat} (present : view.group.present shard = true) :
    later.group.present shard = true := by
  cases move with
  | called _ answer =>
    cases answer with
    | ok | blocked | error => exact present
  | hinted | accepted => simp [markUnusedZeros, present]
  | stored => simp [storeShard, presentSet, present]
  | recovered => simp [markRecovered, present]
  | _ => exact present

theorem GroupMoves.present_mono
    (moves : GroupMoves fec out unchecked received view later) {shard : Nat}
    (present : view.group.present shard = true) : later.group.present shard = true := by
  induction moves with
  | refl => exact present
  | tail _ move ih => exact move.present_mono ih

theorem GroupMoves.lastSeenNs_eq
    (moves : GroupMoves fec out unchecked (fun _ _ => False) view later) :
    later.group.lastSeenNs = view.group.lastSeenNs := by
  induction moves with
  | refl => rfl
  | tail _ move ih =>
    rw [← ih]
    cases move with
    | called _ answer =>
      cases answer with
      | ok => rfl
      | blocked => rfl
      | error => rfl
    | stored _ _ _ _ arrived => exact arrived.elim
    | hinted => rfl
    | counted => rfl
    | lengthRead => rfl
    | accepted => rfl
    | recovered => rfl
    | unrecovered => rfl
    | completed => rfl
    | released => rfl

end Frame

/-- Emission changes the delivered set and the blocked flag of a group, nothing else, and
what was delivered stays delivered. -/
structure Emitted (before after : FecDecodeGroup) : Prop where
  delivered_mono : ∀ index, before.delivered index = true → after.delivered index = true
  rest_eq : after =
    { before with delivered := after.delivered, emitBlocked := after.emitBlocked }

theorem Emitted.refl (group : FecDecodeGroup) : Emitted group group :=
  ⟨fun _ => id, rfl⟩

theorem Emitted.trans {first second third : FecDecodeGroup} (before : Emitted first second)
    (after : Emitted second third) : Emitted first third := by
  refine ⟨fun idx => after.delivered_mono idx ∘ before.delivered_mono idx, ?_⟩
  rw [after.rest_eq, before.rest_eq]

theorem Emitted.active_eq {before after : FecDecodeGroup} (emitted : Emitted before after) :
    after.active = before.active := by
  rw [emitted.rest_eq]

theorem Emitted.groupId_eq {before after : FecDecodeGroup} (emitted : Emitted before after) :
    after.groupId = before.groupId := by
  rw [emitted.rest_eq]

theorem Emitted.answered (grp : FecDecodeGroup) (idx : Nat) (answer : FecOutputStatus) :
    Emitted grp (grp.answered idx answer) := by
  cases answer with
  | ok =>
    refine ⟨?_, rfl⟩
    intro _ isDelivered
    simp [FecDecodeGroup.answered, presentSet, isDelivered]
  | blocked | error => exact ⟨fun _ => id, rfl⟩

section Functions

variable (fec : FecTransport) (out : FecOutputFn)

variable (view : GroupView)

theorem emitRecord_cases (idx length : Nat) :
    (emitRecord out view idx length).2 = view ∨
      length ≠ 0 ∧ view.group.delivered idx = false ∧
        ∃ answer, out view.log.length (view.group.bytes idx length) = answer ∧
          emitRecord out view idx length = (answeredStatus answer,
            { group := view.group.answered idx answer
              stats := answeredStats view.stats answer
              log := view.log ++
                [⟨view.group.groupId, idx, view.group.bytes idx length, answer⟩] }) := by
  unfold emitRecord
  split
  · exact Or.inl rfl
  rename_i ne
  split
  · exact Or.inl rfl
  rename_i undelivered
  exact Or.inr ⟨ne, Bool.not_eq_true _ ▸ undelivered, _, rfl, rfl⟩

theorem emitRecord_emitted (idx length : Nat) :
    Emitted view.group (emitRecord out view idx length).2.group := by
  rcases emitRecord_cases out view idx length with same | ⟨_, _, answer, _, called⟩
  · rw [same]
    exact Emitted.refl _
  · rw [called]
    exact Emitted.answered _ _ _

theorem emitRecords_emitted (choice : FecDecodeGroup → Nat → EmitChoice) (indices : List Nat)
    (view : GroupView) : Emitted view.group (emitRecords out choice indices view).2.group := by
  induction indices generalizing view with
  | nil => exact Emitted.refl _
  | cons idx _ ih =>
    rw [emitRecords]
    split
    · exact ih view
    · exact Emitted.refl _
    rename_i length _
    have first := emitRecord_emitted out view idx length
    dsimp only
    split
    · exact first
    split
    · exact first
    · exact first.trans (ih _)

theorem emitContiguous_emitted : Emitted view.group (emitContiguous fec out view).2.group :=
  emitRecords_emitted out _ _ view

theorem emitAvailable_emitted : Emitted view.group (emitAvailable fec out view).2.group :=
  emitRecords_emitted out _ _ view

variable {unchecked : Prop} {received : WireHeader → List UInt8 → Prop}

theorem emitRecord_moves (idx : Nat) (stored : view.group.present idx = true ∨ unchecked) :
    GroupMoves fec out unchecked received view
      (emitRecord out view idx (view.group.lengths idx).toNat).2 := by
  rcases emitRecord_cases out view idx (view.group.lengths idx).toNat with
    same | ⟨ne, undelivered, answer, answer_eq, called⟩
  · rw [same]
  · rw [called]
    exact .single (.called idx answer _ ne undelivered stored answer_eq)

theorem emitRecords_moves (choice : FecDecodeGroup → Nat → EmitChoice) (indices : List Nat)
    (view : GroupView) (emits : ∀ grp, Emitted view.group grp → ∀ idx ∈ indices, ∀ length,
      choice grp idx = .emit length →
        length = (grp.lengths idx).toNat ∧ (grp.present idx = true ∨ unchecked)) :
    GroupMoves fec out unchecked received view (emitRecords out choice indices view).2 := by
  induction indices generalizing view with
  | nil => exact .refl
  | cons idx _ ih =>
    rw [emitRecords]
    split
    · exact ih view fun grp emitted other mem =>
        emits grp emitted other (List.mem_cons_of_mem _ mem)
    · exact .refl
    rename_i chosen
    obtain ⟨rfl, stored⟩ := emits view.group (Emitted.refl _) idx List.mem_cons_self _ chosen
    have first : GroupMoves fec out unchecked received view _ :=
      emitRecord_moves fec out view idx stored
    have emitted := emitRecord_emitted out view idx (view.group.lengths idx).toNat
    dsimp only
    split
    · exact first
    split
    · exact first
    · refine first.trans (ih _ ?_)
      intro grp later other mem
      exact emits grp (emitted.trans later) other (List.mem_cons_of_mem _ mem)

theorem emitContiguous_moves :
    GroupMoves fec out unchecked received view (emitContiguous fec out view).2 := by
  refine emitRecords_moves fec out _ _ view ?_
  intro _ _ _ _ _ chosen
  unfold chooseContiguous at chosen
  split at chosen
  · cases chosen
  split at chosen
  · cases chosen
  rename_i present
  split at chosen
  · cases chosen
  exact ⟨(EmitChoice.emit.inj chosen).symm, Or.inl (by simpa using present)⟩

theorem emitAvailable_moves :
    GroupMoves fec out unchecked received view (emitAvailable fec out view).2 := by
  refine emitRecords_moves fec out _ _ view ?_
  intro _ _ _ _ _ chosen
  unfold chooseAvailable at chosen
  split at chosen
  · cases chosen
  rename_i present
  split at chosen
  · cases chosen
  rw [not_or, Bool.not_eq_false] at present
  exact ⟨(EmitChoice.emit.inj chosen).symm, Or.inl present.1⟩

theorem readLengths_group (indices : List Nat) (grp : FecDecodeGroup) :
    ∃ lengths, (readLengths fec indices grp).2 = { grp with lengths := lengths } := by
  induction indices generalizing grp with
  | nil => exact ⟨_, rfl⟩
  | cons _ _ ih =>
    rw [readLengths]
    split
    · exact ⟨_, rfl⟩
    split
    · exact ⟨_, rfl⟩
    split
    · exact ih _
    · exact ih _

theorem readLengths_moves (indices : List Nat) (view : GroupView)
    (hasTable : view.group.present fec.messageShards = true)
    (inTable : ∀ idx ∈ indices, idx < tableCount fec view.group) :
    GroupMoves fec out unchecked received view
      { view with group := (readLengths fec indices view.group).2 } := by
  induction indices generalizing view with
  | nil => exact .refl
  | cons idx rest ih =>
    have later : ∀ other ∈ rest, other < tableCount fec view.group :=
      fun other mem => inTable other (List.mem_cons_of_mem _ mem)
    rw [readLengths]
    split
    · exact .refl
    rename_i valid
    rw [not_or, not_lt] at valid
    split
    · exact .refl
    split
    · rename_i unknown
      refine Relation.ReflTransGen.head
        (.lengthRead idx hasTable (inTable idx List.mem_cons_self) unknown valid.1 valid.2) ?_
      exact ih { view with group := { view.group with
        lengths := Function.update view.group.lengths idx
          (UInt16.ofNat (tableLength fec view.group idx)) } } hasTable later
    · exact ih view hasTable later

theorem parseMetadata_group (grp : FecDecodeGroup) :
    ∃ lengths, (parseMetadata fec grp).2 = { grp with lengths := lengths } := by
  unfold parseMetadata
  dsimp only
  split
  · exact ⟨_, rfl⟩
  split
  · exact ⟨_, rfl⟩
  split
  · exact ⟨_, rfl⟩
  · exact readLengths_group fec _ grp

variable {grp : FecDecodeGroup} {hdr : WireHeader}

theorem parseMetadata_ok (ok : (parseMetadata fec grp).1 = .ok) :
    grp.present fec.messageShards = true ∧ 0 < tableCount fec grp ∧
      tableCount fec grp ≤ fec.messageShards := by
  unfold parseMetadata at ok
  dsimp only at ok
  split at ok
  · cases ok
  rename_i hasTable
  split at ok
  · cases ok
  rename_i counted
  rw [not_or, not_lt] at counted
  exact ⟨by simpa using hasTable, Nat.pos_of_ne_zero counted.1, counted.2⟩

theorem parseMetadata_moves :
    GroupMoves fec out unchecked received view
      { view with group := (parseMetadata fec view.group).2 } := by
  unfold parseMetadata
  dsimp only
  split
  · exact .refl
  rename_i hasTable
  split
  · exact .refl
  split
  · exact .refl
  · exact readLengths_moves fec out _ view (by simpa using hasTable)
      fun idx mem => List.mem_range.mp mem

theorem acceptMetadata_ok (ok : (acceptMetadata fec grp).1 = .ok) :
    ∃ lengths, (parseMetadata fec grp) = (.ok, { grp with lengths := lengths }) ∧
      (acceptMetadata fec grp).2 =
        markUnusedZeros fec
          { grp with
            lengths := lengths, dataCount := tableCount fec grp, metadataValid := true }
          (tableCount fec grp) := by
  obtain ⟨lengths, parsed⟩ := parseMetadata_group fec grp
  unfold acceptMetadata at ok ⊢
  dsimp only at ok ⊢
  split at ok
  · rename_i failed
    exact absurd ok failed
  rename_i succeeded
  rw [not_not] at succeeded
  refine ⟨lengths, Prod.ext succeeded parsed, ?_⟩
  rw [if_neg (not_not.mpr succeeded), parsed]
  rfl

theorem acceptMetadata_moves :
    GroupMoves fec out unchecked received view
      { view with group := (acceptMetadata fec view.group).2 } := by
  have parse : GroupMoves fec out unchecked received view _ := parseMetadata_moves fec out view
  obtain ⟨_, parsed⟩ := parseMetadata_group fec view.group
  unfold acceptMetadata
  dsimp only
  split
  · exact parse
  rename_i ok
  obtain ⟨hasTable, pos, count_le⟩ := parseMetadata_ok fec (not_not.mp ok)
  refine parse.tail ?_
  rw [parsed]
  exact .accepted hasTable pos count_le

theorem completeGroup_moves (complete : messagesComplete view.group = true) :
    GroupMoves fec out unchecked received view (completeGroup fec view) := by
  unfold completeGroup
  split
  · exact .refl
  · rename_i incomplete
    exact .single (.completed _ incomplete complete)

theorem emitFromMetadata_moves (covered : ∀ idx < tableCount fec view.group,
      view.group.delivered idx = true ∨ view.group.present idx = true ∨ unchecked) :
    GroupMoves fec out unchecked received view (emitFromMetadata fec out view).2 := by
  have accept : GroupMoves fec out unchecked received view _ := acceptMetadata_moves fec out view
  unfold emitFromMetadata
  dsimp only
  split
  · exact accept
  rename_i ok
  obtain ⟨_, _, accepted⟩ := acceptMetadata_ok fec (not_not.mp ok)
  refine accept.trans (emitRecords_moves fec out _ _ _ ?_)
  rw [accepted]
  intro _ emitted idx mem _ chosen
  have inTable : idx < tableCount fec view.group := List.mem_range.mp mem
  unfold chooseUndelivered at chosen
  split at chosen
  · cases chosen
  rename_i undelivered
  refine ⟨(EmitChoice.emit.inj chosen).symm, ?_⟩
  rcases covered idx inTable with isDelivered | isPresent | allowed
  · exact absurd (emitted.delivered_mono idx isDelivered) undelivered
  · left
    rw [emitted.rest_eq]
    simp [markUnusedZeros, isPresent]
  · exact Or.inr allowed

theorem emitFromMetadata_valid {view : GroupView} (ok : (emitFromMetadata fec out view).1 = .ok) :
    (emitFromMetadata fec out view).2.group.metadataValid = true := by
  unfold emitFromMetadata at ok ⊢
  dsimp only at ok ⊢
  split at ok
  · rename_i failed
    exact absurd ok failed
  rename_i succeeded
  obtain ⟨_, _, accepted⟩ := acceptMetadata_ok fec (not_not.mp succeeded)
  rw [if_neg succeeded, (emitRecords_emitted out _ _ _).rest_eq, accepted]
  rfl

theorem missingData_eq_zero (none_missing : missingData fec grp = 0) :
    ∀ shard < fec.k, grp.present shard = true := by
  intro shard isData
  have absent := List.countP_eq_zero.mp none_missing shard (List.mem_range.mpr isData)
  simpa using absent

theorem emitRecovered_moves (whole : ∀ shard < fec.k, view.group.present shard = true) :
    GroupMoves fec out unchecked received view (emitRecovered fec out view).2 := by
  have messages : fec.messageShards < fec.k := by
    have two := fec.two_le
    unfold ResolvedConfig.messageShards
    omega
  have emit : GroupMoves fec out unchecked received view
      (emitFromMetadata fec out view).2 := by
    by_cases bounded : tableCount fec view.group ≤ fec.messageShards
    · refine emitFromMetadata_moves fec out view ?_
      intro idx _
      exact Or.inr (Or.inl (whole idx (by omega)))
    -- a table with too many records is refused, so nothing is offered
    have refused : (acceptMetadata fec view.group).1 ≠ .ok := by
      intro ok
      obtain ⟨_, parsed, _⟩ := acceptMetadata_ok fec ok
      exact bounded (parseMetadata_ok fec (by rw [parsed])).2.2
    unfold emitFromMetadata
    dsimp only
    rw [if_pos refused]
    exact acceptMetadata_moves fec out view
  unfold emitRecovered
  dsimp only
  split
  · exact emit
  split
  · rename_i complete
    exact emit.trans (completeGroup_moves fec out _ complete)
  · exact emit

theorem recoverGroup_moves :
    GroupMoves fec out unchecked received view (recoverGroup fec out view).2 := by
  unfold recoverGroup
  dsimp only
  split
  · exact .refl
  rename_i enough
  rw [not_lt] at enough
  split
  · rename_i none_missing
    exact emitRecovered_moves fec out view (missingData_eq_zero fec none_missing)
  split
  · rename_i block failed
    exact .single (.unrecovered .unavailable block enough failed (by decide))
  · rename_i block failed
    exact .single (.unrecovered .err block enough failed (by decide))
  rename_i block recovers
  refine Relation.ReflTransGen.head (.recovered block _ enough recovers)
    (emitRecovered_moves fec out _ ?_)
  intro _ isData
  simp [markRecovered, isData]

theorem applyTailHint_moves (hdr : WireHeader) (body : List UInt8) (arrived : received hdr body)
    (forGroup : hdr.blockId = view.group.groupId)
    (isTail : fec.messageShards ≤ hdr.shardIndex.toNat) :
    GroupMoves fec out unchecked received view (applyTailHint fec view hdr).2 := by
  unfold applyTailHint
  dsimp only
  split
  · exact .single (.counted _)
  rename_i shape
  split
  · exact .single (.counted _)
  rename_i agrees
  simp only [not_or, not_lt, not_not] at shape agrees
  obtain ⟨shortest, _, whole⟩ := shape
  obtain ⟨_, pos, count_le⟩ := agrees
  refine .single (.hinted hdr body _ arrived forGroup isTail ?_ (Nat.pos_of_ne_zero pos) count_le)
  have size := fec.size_ge
  have limit : FEC_TRANSPORT_MAX_SHARDS = 255 := rfl
  have total := fec.total_le
  have quotient_le : hdr.validLen.toNat / fec.shardSize ≤ fec.k :=
    Nat.div_le_of_le_mul (by rwa [mul_comm])
  have quotient_ge : 2 ≤ hdr.validLen.toNat / fec.shardSize :=
    (Nat.le_div_iff_mul_le (by omega)).mpr shortest
  rw [Nat.mod_eq_of_lt (by omega), Nat.sub_add_cancel (by omega)]
  exact (Nat.div_mul_cancel (Nat.dvd_of_mod_eq_zero whole)).symm

theorem applyTailHint_hint {view : GroupView} (ok : (applyTailHint fec view hdr).1 = .ok) :
    (applyTailHint fec view hdr).2.group.dataCountHintValid = true := by
  unfold applyTailHint at ok ⊢
  dsimp only at ok ⊢
  split at ok
  · cases ok
  split at ok
  · cases ok
  rename_i shape agrees
  rw [if_neg shape, if_neg agrees]
  rfl

theorem checkCount_moves (hdr : WireHeader) (body : List UInt8) (arrived : received hdr body)
    (forGroup : hdr.blockId = view.group.groupId) :
    GroupMoves fec out unchecked received view (checkCount fec view hdr).2 := by
  unfold checkCount
  dsimp only
  split
  · rename_i isTail
    exact applyTailHint_moves fec out view hdr body arrived forGroup isTail
  split
  · exact .single (.counted _)
  · exact .refl

theorem checkCount_hint {view : GroupView} (ok : (checkCount fec view hdr).1 = .ok)
    (isTail : fec.messageShards ≤ hdr.shardIndex.toNat) :
    (checkCount fec view hdr).2.group.dataCountHintValid = true := by
  unfold checkCount at ok ⊢
  rw [if_pos isTail] at ok ⊢
  exact applyTailHint_hint fec ok

theorem finishInput_moves :
    GroupMoves fec out unchecked received view (finishInput fec out view).2 := by
  have accept : GroupMoves fec out unchecked received view _ := acceptMetadata_moves fec out view
  unfold finishInput
  split
  · dsimp only
    split
    · exact accept
    rename_i ok
    split
    · rename_i delivered
      refine accept.trans (completeGroup_moves fec out _ ?_)
      obtain ⟨_, _, accepted⟩ := acceptMetadata_ok fec (not_not.mp ok)
      rw [accepted] at delivered ⊢
      exact Bool.and_eq_true_iff.mpr ⟨rfl, delivered⟩
    · exact accept.trans (recoverGroup_moves fec out _)
  · exact recoverGroup_moves fec out view

theorem inputShard_moves (hdr : WireHeader) (body : List UInt8) (now : UInt64)
    (view : GroupView) (arrived : received hdr body) (forGroup : hdr.blockId = view.group.groupId) :
    GroupMoves fec out unchecked received view (inputShard fec out hdr body now view).2 := by
  have check : GroupMoves fec out unchecked received view _ :=
    checkCount_moves fec out view hdr body arrived forGroup
  unfold inputShard
  dsimp only
  split
  · exact check
  rename_i ok
  split
  · exact check.tail (.counted _)
  rename_i fresh
  rw [not_or, Bool.not_eq_true] at fresh
  have stored := check.tail (.stored hdr body now
    (storeShard fec (checkCount fec view hdr).2 hdr body now).stats
    arrived (forGroup.trans check.sameGroup.groupId_eq.symm) fresh.1 fresh.2 (checkCount_hint fec (not_not.mp ok)))
  have emitted : GroupMoves fec out unchecked received
      (storeShard fec (checkCount fec view hdr).2 hdr body now)
      (emitStored fec out (storeShard fec (checkCount fec view hdr).2 hdr body now)
        hdr.shardIndex.toNat).2 := by
    unfold emitStored
    split
    · exact emitContiguous_moves fec out _
    · exact .refl
  split
  · exact stored.trans emitted
  · exact (stored.trans emitted).trans (finishInput_moves fec out _)

/-- The one place where a record may be offered without its shard: the retry of a group
whose length table is known. -/
theorem retryGroup_moves
    (covered : view.group.active = .collecting → view.group.emitBlocked = true →
      view.group.metadataValid = true → ∀ idx < tableCount fec view.group,
        view.group.delivered idx = true ∨ view.group.present idx = true ∨ unchecked) :
    GroupMoves fec out unchecked received view (retryGroup fec out view).2 := by
  unfold retryGroup
  split
  · exact .refl
  rename_i blocked
  rw [not_or, not_not, Bool.not_eq_false] at blocked
  have contiguous : GroupMoves fec out unchecked received view
      (emitContiguous fec out view).2 := emitContiguous_moves fec out view
  have emitted := emitContiguous_emitted fec out view
  dsimp only
  split
  · exact contiguous
  split
  · exact contiguous
  split
  · rename_i known
    rw [emitted.rest_eq] at known
    have metadata : GroupMoves fec out unchecked received
        (emitContiguous fec out view).2
        (emitFromMetadata fec out (emitContiguous fec out view).2).2 := by
      refine emitFromMetadata_moves fec out _ ?_
      intro idx inTable
      rw [emitted.rest_eq] at inTable ⊢
      rcases covered blocked.1 blocked.2 known idx inTable with isDelivered | other
      · exact Or.inl (emitted.delivered_mono idx isDelivered)
      · exact Or.inr other
    split
    · exact contiguous.trans metadata
    split
    · rename_i ok complete
      refine (contiguous.trans metadata).trans (completeGroup_moves fec out _ ?_)
      exact Bool.and_eq_true_iff.mpr
        ⟨emitFromMetadata_valid fec out (not_not.mp ok), complete.2⟩
    · exact contiguous.trans metadata
  · exact contiguous.trans (recoverGroup_moves fec out _)

end Functions

end MultiFlow.Fec
