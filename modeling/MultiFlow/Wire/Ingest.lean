import MultiFlow.Wire.HeadMoves

/-!
# Ingesting datagrams

The loops of `make_room_for_block` and `try_emit_from_head` with the variants that end them, and
`wire_flow_decoder_ingest`.  A head only moves towards the block that needs room, the announced end,
or a later recovered group, so a counter that moves does not wrap inside a loop.
-/

namespace MultiFlow.FlowDecoder

open CodecApi Lib Wire

theorem toNat_add_one_of_lt {a b : UInt64} (less : a < b) : (a + 1).toNat = a.toNat + 1 := by
  have bound := b.toNat_lt
  rw [UInt64.lt_iff_toNat_lt] at less
  rw [UInt64.toNat_add]
  exact Nat.mod_eq_of_lt (by
    show a.toNat + 1 < 2 ^ 64
    omega)

variable {cfg : WireFlowDecoderConfig} {dec : WireFlowDecoder}

theorem makeRoomStep_next {blockId : UInt64} {later : WireFlowDecoder} {guard laterGuard : Nat}
    (moved : makeRoomStep cfg blockId (dec, guard) = .next (later, laterGuard)) :
    dec.nextEmitBlock < blockId ∧ guard < WIRE_FLOW_GROUP_WINDOW ∧
      ∃ flag, HeadMoved cfg dec (findGroup dec.groups dec.nextEmitBlock) flag later ∧
        laterGuard = if flag then guard + 1 else guard := by
  unfold makeRoomStep at moved
  dsimp only at moved
  split at moved
  · cases moved
  rename_i room
  split at moved
  · cases moved
  rename_i before
  rcases outcome : moveHead cfg dec (findGroup dec.groups dec.nextEmitBlock) with ⟨_, rest⟩
  obtain ⟨flag, _⟩ := rest
  rw [outcome] at moved
  dsimp only at moved
  split at moved
  · cases moved
  rename_i succeeded
  rw [not_not.mp succeeded] at outcome
  obtain ⟨rfl, rfl⟩ := Prod.mk.inj (Step.next.inj moved)
  refine ⟨UInt64.not_le.mp before, ?_, flag, moveHead_ok outcome, rfl⟩
  push Not at room
  exact room.2

def roomVariant (current : WireFlowDecoder × Nat) : Nat :=
  2 ^ 64 - current.1.nextEmitBlock.toNat

theorem makeRoomStep_decreases (cfg : WireFlowDecoderConfig) (blockId : UInt64)
    (current later : WireFlowDecoder × Nat)
    (moved : makeRoomStep cfg blockId current = .next later) :
    roomVariant later < roomVariant current := by
  obtain ⟨before, _, _, head, _⟩ := makeRoomStep_next moved
  have bound := current.1.nextEmitBlock.toNat_lt
  rw [roomVariant, roomVariant, head.next_eq, toNat_add_one_of_lt before]
  omega

variable (config : WireFlowDecoderConfig)

def makeRoomForBlock (dec : WireFlowDecoder) (blockId : UInt64) : Int × WireFlowDecoder :=
  if config.bestEffort = false then (0, dec)
  else
    loop (makeRoomStep config blockId) roomVariant (makeRoomStep_decreases config blockId)
      (dec, 0)

theorem tryEmitStep_next {later : WireFlowDecoder} (moved : tryEmitStep cfg dec = .next later) :
    ¬ (dec.endSeen = true ∧ dec.endBlockCount ≤ dec.nextEmitBlock) ∧
      headMovable cfg dec (findGroup dec.groups dec.nextEmitBlock) = true ∧
      ∃ flag, HeadMoved cfg dec (findGroup dec.groups dec.nextEmitBlock) flag later := by
  unfold tryEmitStep at moved
  dsimp only at moved
  split at moved
  · cases moved
  rename_i open_
  split at moved
  · rename_i movable
    rcases outcome : moveHead cfg dec (findGroup dec.groups dec.nextEmitBlock) with ⟨_, rest⟩
    obtain ⟨flag, _⟩ := rest
    rw [outcome] at moved
    dsimp only at moved
    split at moved
    · cases moved
    rename_i succeeded
    rw [not_not.mp succeeded] at outcome
    obtain rfl := Step.next.inj moved
    exact ⟨open_, movable, flag, moveHead_ok outcome⟩
  · cases moved

theorem headMovable_cases {head : Option Slot} (movable : headMovable cfg dec head = true)
    (undone : ¬ (dec.endSeen = true ∧ dec.endBlockCount ≤ dec.nextEmitBlock)) :
    headRecovered dec head = true ∨
      (cfg.bestEffort = true ∧ dec.endSeen = true ∧ dec.nextEmitBlock < dec.endBlockCount) ∨
      (cfg.bestEffort = true ∧ ∃ slot, (dec.groups slot).state = .recovered ∧
        dec.nextEmitBlock < (dec.groups slot).blockId) := by
  simp only [headMovable, Bool.or_eq_true, Bool.and_eq_true] at movable
  rcases movable with (ready | ⟨⟨bestEffort, ended⟩, _⟩) | ⟨⟨bestEffort, _⟩, waiting⟩
  · exact Or.inl ready
  · refine Or.inr (Or.inl ⟨bestEffort, ended, ?_⟩)
    exact UInt64.not_le.mp fun reached => undone ⟨ended, reached⟩
  · refine Or.inr (Or.inr ⟨bestEffort, ?_⟩)
    obtain ⟨slot, _, found⟩ := List.any_eq_true.mp waiting
    exact ⟨slot, of_decide_eq_true found⟩

def emitVariant (dec : WireFlowDecoder) : Nat × Nat :=
  ((recoveredSlots dec.groups).card, 2 ^ 64 - dec.nextEmitBlock.toNat)

theorem tryEmitStep_decreases (cfg : WireFlowDecoderConfig) (dec later : WireFlowDecoder)
    (moved : tryEmitStep cfg dec = .next later) :
    WellFoundedRelation.rel (emitVariant later) (emitVariant dec) := by
  obtain ⟨undone, movable, _, head⟩ := tryEmitStep_next moved
  have fewer := head.recoveredSlots_card
  have bound := dec.nextEmitBlock.toNat_lt
  have beyond : ∀ other : UInt64, dec.nextEmitBlock < other →
      WellFoundedRelation.rel (emitVariant later) (emitVariant dec) := by
    intro other before
    have closer : 2 ^ 64 - later.nextEmitBlock.toNat < 2 ^ 64 - dec.nextEmitBlock.toNat := by
      rw [head.next_eq, toNat_add_one_of_lt before]
      omega
    rcases Nat.lt_or_ge (recoveredSlots later.groups).card (recoveredSlots dec.groups).card
      with less | same
    · exact Prod.Lex.left _ _ less
    · have equal : (recoveredSlots later.groups).card = (recoveredSlots dec.groups).card := by
        omega
      rw [emitVariant, emitVariant, equal]
      exact Prod.Lex.right _ closer
  rcases headMovable_cases movable undone with
    ready | ⟨_, _, before⟩ | ⟨_, slot, _, before⟩
  · rw [if_pos ready] at fewer
    exact Prod.Lex.left _ _ (Nat.lt_of_succ_le fewer.le)
  all_goals exact beyond _ before

def tryEmitFromHead (dec : WireFlowDecoder) : Int × WireFlowDecoder :=
  loop (tryEmitStep config) emitVariant (tryEmitStep_decreases config) dec

def finalizeGroup (dec : WireFlowDecoder) (slot : Slot) : WireFlowDecoder :=
  if (dec.groups slot).state = .active then (tryRecoverGroup config dec slot true).2 else dec

def finalizeActiveGroups (dec : WireFlowDecoder) : WireFlowDecoder :=
  (List.finRange WIRE_FLOW_GROUP_WINDOW).foldl (finalizeGroup config) dec

def countPendingRecovered (dec : WireFlowDecoder) : UInt64 :=
  (List.finRange WIRE_FLOW_GROUP_WINDOW).foldl (fun pending slot =>
    if (dec.groups slot).state = .recovered ∧
        dec.nextEmitBlock ≤ (dec.groups slot).blockId then pending + 1 else pending) 0

def refreshPendingSnapshot (dec : WireFlowDecoder) : WireFlowDecoder :=
  { dec with
    stats := { dec.stats with pendingRecoveredGroups := countPendingRecovered dec } }

def wireFlowDecoderFlushBestEffort (dec : WireFlowDecoder) : Int × WireFlowDecoder :=
  if config.bestEffort = false then (-1, dec)
  else if dec.endSeen = false then (0, dec)
  else
    let (status, dec) := tryEmitFromHead config (finalizeActiveGroups config dec)
    if status ≠ 0 then (-1, dec)
    else
      let dec := refreshPendingSnapshot dec
      (0, if dec.endBlockCount ≤ dec.nextEmitBlock then { dec with complete := true } else dec)

def malformedDatagram (dec : WireFlowDecoder) : WireFlowDecoder :=
  { dec with stats := { dec.stats with
      malformedDatagrams := dec.stats.malformedDatagrams + 1 } }

def EndRejected (dec : WireFlowDecoder) (header : WireHeader) : Prop :=
  header.shardCount ≠ config.expectedShards ∨ header.payloadLen ≠ 0 ∨
    (dec.endSeen = true ∧ header.blockId ≠ dec.endBlockCount)

instance (config : WireFlowDecoderConfig) (dec : WireFlowDecoder) (header : WireHeader) :
    Decidable (EndRejected config dec header) :=
  inferInstanceAs (Decidable (_ ∨ _ ∨ _))

def ingestEnd (dec : WireFlowDecoder) (header : WireHeader) : Int × WireFlowDecoder :=
  if EndRejected config dec header then (0, malformedDatagram dec)
  else
    let dec := { dec with endSeen := true, endBlockCount := header.blockId }
    let (status, dec) := tryEmitFromHead config (finalizeActiveGroups config dec)
    if status ≠ 0 then (-1, dec)
    else
      let dec := refreshPendingSnapshot dec
      if dec.nextEmitBlock = dec.endBlockCount then (0, { dec with complete := true })
      else if config.bestEffort then
        let (status, dec) := wireFlowDecoderFlushBestEffort config dec
        if status ≠ 0 then (-1, dec) else (0, { dec with complete := true })
      else (0, dec)

def lateDatagram (dec : WireFlowDecoder) : WireFlowDecoder :=
  { dec with stats := { dec.stats with lateDatagrams := dec.stats.lateDatagrams + 1 } }

def overflowDatagram (dec : WireFlowDecoder) : WireFlowDecoder :=
  { dec with stats := { dec.stats with windowOverflow := dec.stats.windowOverflow + 1 } }

def duplicateDatagram (dec : WireFlowDecoder) : WireFlowDecoder :=
  { dec with stats := { dec.stats with
      duplicateDatagrams := dec.stats.duplicateDatagrams + 1 } }

def storeShard (dec : WireFlowDecoder) (slot : Slot) (shard : Nat) (payload : List UInt8) :
    WireFlowDecoder :=
  let group := dec.groups slot
  { dec.setGroup slot { group with
      data := Grid.modify (fun s b => s = shard ∧ b < PKG_SIZE)
        (fun _ b _ => payload.getD b 0) group.data
      receivedBits := presentSet group.receivedBits shard } with
    stats := { dec.stats with receivedDatagrams := dec.stats.receivedDatagrams + 1 } }

/-- The group of a block in the window, opened if this is its first shard. -/
def openGroup (dec : WireFlowDecoder) (header : WireHeader) : Option (Slot × WireFlowDecoder) :=
  match findGroup dec.groups header.blockId with
  | some slot => some (slot, dec)
  | none =>
    match allocateGroup dec.groups header.blockId header.shardCount header.validLen
        header.encodeBeginNs header.encodeEndNs with
    | none => none
    | some (slot, group) => some (slot, { dec.setGroup slot group with
        stats := { dec.stats with groupsReceived := dec.stats.groupsReceived + 1 } })

def groupMismatch (group : WireGroup) (header : WireHeader) : Bool :=
  decide (group.shardCount ≠ header.shardCount ∨ group.validLen ≠ header.validLen ∨
    group.encodeBeginNs ≠ header.encodeBeginNs ∨ group.encodeEndNs ≠ header.encodeEndNs ∨
    group.shardCount ≤ header.shardIndex)

/-- From the found or opened group to the end of `wire_flow_decoder_ingest`. -/
def ingestShard (dec : WireFlowDecoder) (slot : Slot) (header : WireHeader) (payload : List UInt8) :
    Int × WireFlowDecoder :=
  let group := dec.groups slot
  if group.state = .recovered ∨ group.state = .failed ∨ group.state = .emitted then
    (0, duplicateDatagram dec)
  else if groupMismatch group header then (0, malformedDatagram dec)
  else if group.receivedBits header.shardIndex.toNat then (0, duplicateDatagram dec)
  else
    let dec := storeShard dec slot header.shardIndex.toNat payload
    let dec := (tryRecoverGroup config dec slot false).2
    let (status, dec) := tryEmitFromHead config dec
    if status ≠ 0 then (-1, dec)
    else
      let dec := refreshPendingSnapshot dec
      (0, if dec.endSeen = true ∧ dec.nextEmitBlock = dec.endBlockCount then
        { dec with complete := true } else dec)

def dataMalformed (header : WireHeader) (payload : List UInt8) : Bool :=
  decide (header.type ≠ WIRE_TYPE_DATA ∨ header.shardCount ≠ config.expectedShards ∨
    header.shardCount ≤ header.shardIndex ∨ header.validLen = 0 ∨
    config.inputSize < header.validLen.toNat ∨ header.payloadLen.toNat ≠ PKG_SIZE ∨
    payload.length < PKG_SIZE)

def seenDatagram (dec : WireFlowDecoder) : WireFlowDecoder :=
  { dec with stats := { dec.stats with seenDatagrams := dec.stats.seenDatagrams + 1 } }

/-- A well-formed shard: late, beyond the window, or for a group of the window. -/
def placeDatagram (dec : WireFlowDecoder) (header : WireHeader) (payload : List UInt8) :
    Int × WireFlowDecoder :=
  if header.blockId < dec.nextEmitBlock then (0, lateDatagram dec)
  else
    let (status, dec) := makeRoomForBlock config dec header.blockId
    if status ≠ 0 then (-1, dec)
    else if header.blockId < dec.nextEmitBlock then (0, lateDatagram dec)
    else if blockInReorderWindow header.blockId dec.nextEmitBlock = false then
      (0, overflowDatagram dec)
    else
      match openGroup dec header with
      | none => (0, overflowDatagram dec)
      | some (slot, dec) => ingestShard config dec slot header payload

def ingestData (dec : WireFlowDecoder) (header : WireHeader) (payload : List UInt8) :
    Int × WireFlowDecoder :=
  if dataMalformed config header payload then (0, malformedDatagram dec)
  else placeDatagram config (seenDatagram dec) header payload

def wireFlowDecoderIngest (dec : WireFlowDecoder) (header : WireHeader) (payload : List UInt8) :
    Int × WireFlowDecoder :=
  if dec.complete then (0, dec)
  else if header.type = WIRE_TYPE_END then ingestEnd config dec header
  else ingestData config dec header payload

abbrev Datagram := WireHeader × List UInt8

def ingestAll (dec : WireFlowDecoder) (datagrams : List Datagram) : WireFlowDecoder :=
  datagrams.foldl (fun dec datagram =>
    (wireFlowDecoderIngest config dec datagram.1 datagram.2).2) dec

end MultiFlow.FlowDecoder
