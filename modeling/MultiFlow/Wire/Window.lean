import MultiFlow.Lib.Transition
import MultiFlow.Wire.Ingest

/-!
# The reorder window

`WindowInv` says what the slot table looks like: occupied slots hold distinct blocks of
the window, with the geometry of the configuration.  Releasing the head, replacing a
group and opening one keep it, and under it no write fails.
-/

namespace MultiFlow.FlowDecoder

open Function CodecApi Lib Wire

/-- What the callers of `wire_flow_decoder_create` provide, and a callback that always
succeeds. -/
structure GoodConfig (config : WireFlowDecoderConfig) : Prop where
  outputs : ∀ history chunk, config.outputFn history chunk = true
  inputSize_eq : config.inputSize = config.codec.inputBlockSize
  shards_eq : config.expectedShards.toNat = config.codec.dataShards + config.codec.parityShards
  dataPositive : 0 < config.codec.dataShards

structure GroupInv (config : WireFlowDecoderConfig) (next : UInt64) (group : WireGroup) :
    Prop where
  notEmitted : group.state ≠ .emitted
  shardCount_eq : group.shardCount = config.expectedShards
  shardCount_le : group.shardCount.toNat ≤ WIRE_FLOW_MAX_SHARDS
  validLen_ne : group.validLen ≠ 0
  validLen_le : group.validLen.toNat ≤ config.inputSize
  aboveHead : next.toNat ≤ group.blockId.toNat
  belowEnd : group.blockId.toNat < next.toNat + WIRE_FLOW_GROUP_WINDOW

structure WindowInv (config : WireFlowDecoderConfig) (dec : WireFlowDecoder) : Prop where
  group : ∀ slot, (dec.groups slot).state ≠ .empty →
    GroupInv config dec.nextEmitBlock (dec.groups slot)
  distinct : ∀ slot other, (dec.groups slot).state ≠ .empty →
    (dec.groups other).state ≠ .empty →
    (dec.groups slot).blockId = (dec.groups other).blockId → slot = other

theorem freshDecoder_windowInv (cfg : WireFlowDecoderConfig) : WindowInv cfg freshDecoder :=
  ⟨fun _ occ => absurd rfl occ, fun _ _ occ => absurd rfl occ⟩

variable {groups : Groups} {slot : Slot} {cfg : WireFlowDecoderConfig} {group : WireGroup}
  {dec later : WireFlowDecoder}

variable {blockId : UInt64} {flag : Bool}

theorem findGroup_some (found : findGroup groups blockId = some slot) :
    (groups slot).state ≠ .empty ∧ (groups slot).blockId = blockId := by
  simpa using List.find?_some found

theorem findGroup_none (missing : findGroup groups blockId = none) (slot : Slot)
    (occ : (groups slot).state ≠ .empty) : (groups slot).blockId ≠ blockId := by
  have absent := List.find?_eq_none.mp missing slot (List.mem_finRange slot)
  simp only [decide_eq_true_eq, not_and] at absent
  exact absent occ

theorem findEmptySlot_some (found : findEmptySlot groups = some slot) :
    (groups slot).state = .empty := by
  simpa using List.find?_some found

theorem slide_group {next : UInt64} (inv : GroupInv cfg next group)
    (notHead : group.blockId ≠ next) : GroupInv cfg (next + 1) group := by
  have differs : group.blockId.toNat ≠ next.toNat := fun same => notHead (UInt64.toNat_inj.mp same)
  have above := inv.aboveHead
  have below := inv.belowEnd
  have less : next < group.blockId := UInt64.lt_iff_toNat_lt.mpr (by omega)
  have advanced := toNat_add_one_of_lt less
  exact { inv with aboveHead := by omega, belowEnd := by omega }

def withoutHead (groups : Groups) : Option Slot → Groups
  | none => groups
  | some slot => update groups slot releasedGroup

theorem HeadMoved.groups_eq {head : Option Slot} (moved : HeadMoved cfg dec head flag later) :
    later.groups = withoutHead dec.groups head := by
  cases moved with
  | emitted => rfl
  | rescued slot mid _ _ attempt =>
    show update mid.groups slot releasedGroup = _
    rw [attempt.groups_eq, update_idem, withoutHead]
  | abandoned _ _ _ _ _ attempt _ _ skipped =>
    rw [skipped.groups_eq]
    dsimp only
    rw [attempt.groups_eq, update_idem, withoutHead]
  | skipped _ _ _ skipped =>
    rw [skipped.groups_eq]
    cases head with
    | none => rfl
    | some => rfl

theorem WindowInv.kept (inv : WindowInv cfg dec)
    (occ : (withoutHead dec.groups (findGroup dec.groups dec.nextEmitBlock) slot).state ≠ .empty) :
    withoutHead dec.groups (findGroup dec.groups dec.nextEmitBlock) slot = dec.groups slot ∧
      (dec.groups slot).state ≠ .empty ∧ (dec.groups slot).blockId ≠ dec.nextEmitBlock := by
  cases found : findGroup dec.groups dec.nextEmitBlock with
  | none =>
    rw [found] at occ
    exact ⟨rfl, occ, findGroup_none found slot occ⟩
  | some head =>
    rw [found, withoutHead] at occ
    have differs : slot ≠ head := by
      rintro rfl
      rw [update_self] at occ
      exact occ rfl
    rw [update_of_ne differs] at occ
    refine ⟨update_of_ne differs _ _, occ, ?_⟩
    intro same
    obtain ⟨headOccupied, headId⟩ := findGroup_some found
    exact differs (inv.distinct slot head occ headOccupied (same.trans headId.symm))

theorem HeadMoved.windowInv
    (moved : HeadMoved cfg dec (findGroup dec.groups dec.nextEmitBlock) flag later)
    (inv : WindowInv cfg dec) : WindowInv cfg later := by
  have groups_eq := moved.groups_eq
  constructor
  · intro slot occ
    rw [groups_eq] at occ ⊢
    obtain ⟨same, wasOccupied, notHead⟩ := inv.kept occ
    rw [same, moved.next_eq]
    exact slide_group (inv.group slot wasOccupied) notHead
  · intro slot other occ otherOccupied sameId
    rw [groups_eq] at occ otherOccupied sameId
    obtain ⟨same, wasOccupied, _⟩ := inv.kept occ
    obtain ⟨otherSame, otherWasOccupied, _⟩ := inv.kept otherOccupied
    rw [same, otherSame] at sameId
    exact inv.distinct slot other wasOccupied otherWasOccupied sameId

theorem GroupInv.of_sameBlock {next : UInt64} {other : WireGroup} (inv : GroupInv cfg next group)
    (same : SameBlock group other) (notEmitted : other.state ≠ .emitted) :
    GroupInv cfg next other := by
  refine ⟨notEmitted, ?_, ?_, ?_, ?_, ?_, ?_⟩
  · rw [same.shardCount_eq, inv.shardCount_eq]
  · rw [same.shardCount_eq]
    exact inv.shardCount_le
  · rw [same.validLen_eq]
    exact inv.validLen_ne
  · rw [same.validLen_eq]
    exact inv.validLen_le
  · rw [same.blockId_eq]
    exact inv.aboveHead
  · rw [same.blockId_eq]
    exact inv.belowEnd

theorem WindowInv.replace (inv : WindowInv cfg dec) (occ : (dec.groups slot).state ≠ .empty)
    (groups_eq : later.groups = update dec.groups slot group)
    (next_eq : later.nextEmitBlock = dec.nextEmitBlock) (same : SameBlock (dec.groups slot) group)
    (notEmitted : group.state ≠ .emitted) : WindowInv cfg later := by
  have id_eq : ∀ other, (later.groups other).blockId = (dec.groups other).blockId := by
    intro other
    by_cases here : other = slot
    · rw [groups_eq, here, update_self, same.blockId_eq]
    · rw [groups_eq, update_of_ne here]
  have was : ∀ other, (later.groups other).state ≠ .empty →
      (dec.groups other).state ≠ .empty := by
    intro other otherOccupied
    by_cases here : other = slot
    · rw [here]
      exact occ
    · rwa [groups_eq, update_of_ne here] at otherOccupied
  constructor
  · intro other otherOccupied
    have before := inv.group other (was other otherOccupied)
    rw [next_eq]
    by_cases here : other = slot
    · subst here
      rw [groups_eq, update_self]
      exact before.of_sameBlock same notEmitted
    · rwa [groups_eq, update_of_ne here]
  · intro first second firstOccupied secondOccupied sameId
    rw [id_eq, id_eq] at sameId
    exact inv.distinct first second (was first firstOccupied) (was second secondOccupied) sameId

theorem WindowInv.open (inv : WindowInv cfg dec)
    (missing : findGroup dec.groups group.blockId = none)
    (groups_eq : later.groups = update dec.groups slot group)
    (next_eq : later.nextEmitBlock = dec.nextEmitBlock)
    (groupInv : GroupInv cfg dec.nextEmitBlock group) : WindowInv cfg later := by
  constructor
  · intro other occ
    rw [next_eq]
    by_cases same : other = slot
    · rw [groups_eq, same, update_self]
      exact groupInv
    · rw [groups_eq, update_of_ne same] at occ ⊢
      exact inv.group other occ
  · rw [groups_eq]
    intro first second
    refine update_distinct (·.state ≠ .empty) WireGroup.blockId
      (fun j (_ : True) k _ => inv.distinct j k) ?_ first trivial second trivial
    exact fun other _ _ occ _ => findGroup_none missing other occ

theorem WindowInv.of_same (inv : WindowInv cfg dec) (groups_eq : later.groups = dec.groups)
    (next_eq : later.nextEmitBlock = dec.nextEmitBlock) : WindowInv cfg later := by
  constructor
  · rw [groups_eq, next_eq]
    exact inv.group
  · rw [groups_eq]
    exact inv.distinct

section Succeeds

variable {cfg : WireFlowDecoderConfig} (good : GoodConfig cfg)

include good

variable {next : UInt64} {dec : WireFlowDecoder}

theorem outputSize_bounds {group : WireGroup} (inv : GroupInv cfg next group) :
    group.shardCount.toNat * PKG_SIZE ≠ 0 ∧
      ¬ group.shardCount.toNat * PKG_SIZE > CODEC_MAX_ENCODE_BLOCK := by
  have pos := good.dataPositive
  have total := good.shards_eq
  have most := inv.shardCount_le
  rw [← inv.shardCount_eq] at total
  unfold WIRE_FLOW_MAX_SHARDS at most
  unfold CODEC_MAX_ENCODE_BLOCK PKG_SIZE at *
  constructor <;> omega

theorem writeDecodedGroup_succeeds {slot : Slot} (inv : GroupInv cfg next (dec.groups slot))
    (ready : (dec.groups slot).state = .recovered) : (writeDecodedGroup cfg dec slot).1 = 0 := by
  obtain ⟨nonzero, inRange⟩ := outputSize_bounds good inv
  have fits : ¬ (dec.groups slot).validLen.toNat > cfg.codec.inputBlockSize := by
    rw [← good.inputSize_eq]
    exact Nat.not_lt.mpr inv.validLen_le
  unfold writeDecodedGroup
  dsimp only
  rw [if_neg (not_not.mpr ready),
    if_neg (by simp only [inv.validLen_ne, fits, nonzero, inRange, or_self, not_false_eq_true]),
    good.outputs, if_neg (by decide)]

theorem emitHead_succeeds {slot : Slot} (inv : GroupInv cfg next (dec.groups slot))
    (ready : (dec.groups slot).state = .recovered) : (emitHead cfg dec slot).1 = 0 := by
  have written := writeDecodedGroup_succeeds good inv ready
  unfold emitHead
  cases outcome : writeDecodedGroup cfg dec slot with
  | mk =>
    rw [outcome] at written
    dsimp only at written ⊢
    rw [if_neg (not_not.mpr written)]

theorem writeBestEffortShard_succeeds (group : WireGroup) (count remaining : Nat)
    (dec : WireFlowDecoder) :
    (forRange count ((0 : Int), remaining, dec) (writeBestEffortShard cfg group)).1 = 0 := by
  induction count with
  | zero => rfl
  | succ _ ih =>
    rw [forRange_succ, writeBestEffortShard]
    dsimp only
    split
    · exact ih
    · split
      · rw [good.outputs, if_neg (by decide)]
      · rfl

theorem skipUnrecoverableHead_succeeds {head : Option Slot}
    (inv : ∀ slot, head = some slot → GroupInv cfg next (dec.groups slot)) :
    (skipUnrecoverableHead cfg dec head).1 = 0 := by
  unfold skipUnrecoverableHead
  cases head with
  | none => rfl
  | some slot =>
    have groupInv := inv slot rfl
    obtain ⟨nonzero, inRange⟩ := outputSize_bounds good groupInv
    have fits : ¬ (dec.groups slot).validLen.toNat > cfg.codec.inputBlockSize := by
      rw [← good.inputSize_eq]
      exact Nat.not_lt.mpr groupInv.validLen_le
    have total : (dec.groups slot).shardCount.toNat =
        cfg.codec.dataShards + cfg.codec.parityShards := by
      rw [groupInv.shardCount_eq, good.shards_eq]
    have pos := good.dataPositive
    have written : codecAllowsBestEffort cfg.codec = true →
        (writeBestEffortGroup cfg dec slot).1 = 0 := by
      intro allowed
      unfold writeBestEffortGroup
      dsimp only
      rw [if_neg (by simp [allowed, groupInv.validLen_ne, Nat.not_lt.mp fits]),
        if_neg (by omega), if_neg (by simp only [nonzero, inRange, or_self, and_false,
          not_false_eq_true])]
      rw [if_neg (not_not.mpr (writeBestEffortShard_succeeds good _ _ _ _))]
    dsimp only
    split
    · rename_i partialWrite
      rw [if_neg (not_not.mpr (written partialWrite.1))]
    · rfl

theorem moveHead_succeeds (inv : WindowInv cfg dec) :
    ∃ flag later, moveHead cfg dec (findGroup dec.groups dec.nextEmitBlock) = (0, flag, later) := by
  have heads : ∀ slot, findGroup dec.groups dec.nextEmitBlock = some slot →
      GroupInv cfg dec.nextEmitBlock (dec.groups slot) :=
    fun slot found => inv.group slot (findGroup_some found).1
  generalize findGroup dec.groups dec.nextEmitBlock = head at heads
  unfold moveHead
  cases head with
  | none => exact ⟨true, _, Prod.ext (skipUnrecoverableHead_succeeds good heads) rfl⟩
  | some slot =>
    have groupInv := heads slot rfl
    dsimp only
    by_cases ready : (dec.groups slot).state = .recovered
    · rw [if_pos ready]
      exact ⟨false, _, Prod.ext (emitHead_succeeds good groupInv ready) rfl⟩
    rw [if_neg ready]
    by_cases active : (dec.groups slot).state = .active
    · rw [if_pos active]
      have attempted := tryRecoverGroup_active cfg dec slot true active
      rcases outcome : tryRecoverGroup cfg dec slot true with ⟨_, mid⟩
      rw [outcome] at attempted
      dsimp only
      cases attempted with
      | ready _ group attempt state_eq =>
        have middle_eq : mid.groups slot = group := by rw [attempt.groups_eq, update_self]
        have middleInv := groupInv.of_sameBlock attempt.same (by simp [state_eq])
        rw [← middle_eq] at middleInv state_eq
        rw [if_pos rfl]
        exact ⟨false, _, Prod.ext (emitHead_succeeds good middleInv state_eq) rfl⟩
      | missed _ _ group attempt notOk state_eq bits_eq incomplete notReady cause
          rec_eq =>
          have middle_eq : mid.groups slot = group := by rw [attempt.groups_eq, update_self]
          have middleInv := groupInv.of_sameBlock attempt.same (by simp [state_eq])
          rw [← middle_eq] at middleInv
          have middleHeads : ∀ other, some slot = some other →
              GroupInv cfg dec.nextEmitBlock (mid.groups other) := by
            rintro other ⟨⟩
            exact middleInv
          rw [if_neg notOk]
          exact ⟨true, _, Prod.ext (skipUnrecoverableHead_succeeds good middleHeads) rfl⟩
    · rw [if_neg active]
      exact ⟨true, _, Prod.ext (skipUnrecoverableHead_succeeds good heads) rfl⟩

end Succeeds

end MultiFlow.FlowDecoder
