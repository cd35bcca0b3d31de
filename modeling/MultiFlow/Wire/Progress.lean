import MultiFlow.Codec.Lawful
import MultiFlow.Wire.Moves

/-!
# Progress of the head

`heads` has one entry for each time the head moved, with the block it passed, so it is
the unwrapped value of `next_emit_block`.  From it follow the monotonicity of the window
and the bound on the work one datagram can cause.
-/

namespace MultiFlow.FlowDecoder

open CodecApi Lib Wire List

def Head.blockId : Head → UInt64
  | .emitted blockId => blockId
  | .skipped blockId => blockId

def Head.isEmitted : Head → Bool
  | .emitted _ => true
  | .skipped _ => false

variable {cfg : WireFlowDecoderConfig} {dec later : WireFlowDecoder} {dgram : Datagram}

theorem HeadMoved.heads_eq {flag : Bool}
    (moved : HeadMoved cfg dec (findGroup dec.groups dec.nextEmitBlock) flag later) :
    later.heads = dec.heads ++
      [if flag then .skipped dec.nextEmitBlock else .emitted dec.nextEmitBlock] := by
  have ids : ∀ slot, findGroup dec.groups dec.nextEmitBlock = some slot →
      (dec.groups slot).blockId = dec.nextEmitBlock := fun slot found => (findGroup_some found).2
  generalize findGroup dec.groups dec.nextEmitBlock = head at moved ids
  cases moved with
  | emitted slot =>
    show dec.heads ++ [Head.emitted (dec.groups slot).blockId] = _
    rw [ids slot rfl]
    rfl
  | rescued slot mid _ _ attempt =>
    show mid.heads ++ [Head.emitted (mid.groups slot).blockId] = _
    rw [attempt.heads_eq, attempt.groups_eq, Function.update_self, attempt.same.blockId_eq,
      ids slot rfl]
    rfl
  | abandoned _ _ _ _ _ attempt _ _ skipped =>
    rw [skipped.heads_eq, attempt.heads_eq, attempt.next_eq]
    rfl
  | skipped _ _ _ skipped => exact skipped.heads_eq

/-- The head has passed the blocks 0, 1, 2, ... in order, modulo the counter's width. -/
structure HeadsInv (dec : WireFlowDecoder) : Prop where
  next_eq : dec.nextEmitBlock = UInt64.ofNat dec.heads.length
  ids_eq : dec.heads.map Head.blockId = (List.range dec.heads.length).map UInt64.ofNat

theorem freshDecoder_headsInv : HeadsInv freshDecoder := ⟨rfl, rfl⟩

theorem HeadsInv.head {flag : Bool} (inv : HeadsInv dec)
    (moved : HeadMoved cfg dec (findGroup dec.groups dec.nextEmitBlock) flag later) :
    HeadsInv later := by
  have heads_eq := moved.heads_eq
  have len_eq : later.heads.length = dec.heads.length + 1 := by
    rw [heads_eq, length_append, length_singleton]
  constructor
  · rw [moved.next_eq, len_eq, inv.next_eq, UInt64.ofNat_add]
    rfl
  rw [len_eq, range_succ, map_append, ← inv.ids_eq, heads_eq, map_append,
    map_singleton, map_singleton, ← inv.next_eq]
  cases flag with
  | true => rfl
  | false => rfl

theorem Move.head_or_still (move : Move cfg dgram dec later) :
    (∃ flag, HeadMoved cfg dec (findGroup dec.groups dec.nextEmitBlock) flag later) ∨
      (later.nextEmitBlock = dec.nextEmitBlock ∧ later.heads = dec.heads) := by
  cases move with
  | head flag _ _ moved => exact Or.inl ⟨flag, moved⟩
  | attempt _ _ _ _ _ attempted =>
    obtain ⟨_, attempt⟩ := attempted.attempt
    exact Or.inr ⟨attempt.next_eq, attempt.heads_eq⟩
  | opened | stored | counted | announced | finished => exact Or.inr ⟨rfl, rfl⟩

theorem Move.headsInv (move : Move cfg dgram dec later) (inv : HeadsInv dec) :
    HeadsInv later := by
  rcases move.head_or_still with ⟨flag, moved⟩ | ⟨next_eq, heads_eq⟩
  · exact inv.head moved
  · constructor
    · rw [next_eq, heads_eq, inv.next_eq]
    · rw [heads_eq, inv.ids_eq]

theorem ingestAll_invariant (good : GoodConfig cfg) (inv : WireFlowDecoder → Prop)
    (start : inv freshDecoder) (datagrams : List Datagram)
    (step : ∀ dgram ∈ datagrams, ∀ dec, WindowInv cfg dec → inv dec →
      inv (wireFlowDecoderIngest cfg dec dgram.1 dgram.2).2) :
    inv (ingestAll cfg freshDecoder datagrams) := by
  have run : ∀ dec, WindowInv cfg dec → inv dec →
      inv (ingestAll cfg dec datagrams) := by
    induction datagrams with
    | nil => exact fun dec _ holds => holds
    | cons dgram _ ih =>
      intro dec window holds
      refine ih (fun later mem => step later (mem_cons_of_mem _ mem)) _
        (ingest_windowInv good dgram dec window) ?_
      exact step dgram mem_cons_self dec window holds
  exact run freshDecoder (freshDecoder_windowInv cfg) start

theorem Moves.induction (inv : WireFlowDecoder → Prop)
    (step : ∀ cur next, WindowInv cfg cur → inv cur →
      Move cfg dgram cur next → inv next) (window : WindowInv cfg dec)
    (start : inv dec) (moves : Moves cfg dgram dec later) : inv later := by
  have both : WindowInv cfg later ∧ inv later := by
    induction moves with
    | refl => exact ⟨window, start⟩
    | tail _ move ih => exact ⟨move.windowInv ih.1, step _ _ ih.1 ih.2 move⟩
  exact both.2

theorem ingestAll_induction (good : GoodConfig cfg) (inv : WireFlowDecoder → Prop)
    (start : inv freshDecoder) (datagrams : List Datagram)
    (step : ∀ dgram ∈ datagrams, ∀ dec later, WindowInv cfg dec → inv dec →
      Move cfg dgram dec later → inv later) : inv (ingestAll cfg freshDecoder datagrams) := by
  refine ingestAll_invariant good inv start datagrams ?_
  intro dgram mem dec window holds
  obtain ⟨_, done, moves⟩ := ingest_moves good dgram dec window
  rw [done]
  exact Moves.induction inv (step dgram mem) window holds moves

theorem ingestAll_headsInv (good : GoodConfig cfg) (datagrams : List Datagram) :
    HeadsInv (ingestAll cfg freshDecoder datagrams) :=
  ingestAll_induction good HeadsInv freshDecoder_headsInv datagrams
    (fun _ _ _ _ _ inv move => move.headsInv inv)

theorem Moves.heads_append (moves : Moves cfg dgram dec later) :
    ∃ more, later.heads = dec.heads ++ more := by
  induction moves with
  | refl => exact ⟨[], (append_nil _).symm⟩
  | tail _ move ih =>
    obtain ⟨more, soFar⟩ := ih
    rcases move.head_or_still with ⟨flag, moved⟩ | ⟨_, heads_eq⟩
    · rw [moved.heads_eq, soFar]
      exact ⟨_, append_assoc _ _ _⟩
    · exact ⟨more, heads_eq.trans soFar⟩

theorem next_le_of_heads (inv : HeadsInv dec) (laterInv : HeadsInv later)
    (grown : ∃ more, later.heads = dec.heads ++ more) (noWrap : later.heads.length < 2 ^ 64) :
    dec.nextEmitBlock ≤ later.nextEmitBlock := by
  obtain ⟨_, heads_eq⟩ := grown
  have longer : dec.heads.length ≤ later.heads.length := by
    rw [heads_eq, length_append]
    omega
  rw [UInt64.le_iff_toNat_le, inv.next_eq, laterInv.next_eq, UInt64.toNat_ofNat',
    UInt64.toNat_ofNat', Nat.mod_eq_of_lt (by omega), Nat.mod_eq_of_lt noWrap]
  exact longer

theorem findEmptySlot_of_missing (inv : WindowInv cfg dec) (blockId : UInt64)
    (inWin : blockInReorderWindow blockId dec.nextEmitBlock = true)
    (missing : findGroup dec.groups blockId = none) :
    ∃ slot, findEmptySlot dec.groups = some slot := by
  cases free : findEmptySlot dec.groups with
  | some slot => exact ⟨slot, rfl⟩
  | none =>
    exfalso
    have occ : ∀ slot, (dec.groups slot).state ≠ .empty := by
      intro slot
      simpa using List.find?_eq_none.mp free slot (mem_finRange slot)
    have near : ∀ slot, (dec.groups slot).blockId.toNat - dec.nextEmitBlock.toNat <
        WIRE_FLOW_GROUP_WINDOW := by
      intro slot
      have above := (inv.group slot (occ slot)).aboveHead
      have below := (inv.group slot (occ slot)).belowEnd
      omega
    let offset : Slot → Slot := fun slot =>
      ⟨(dec.groups slot).blockId.toNat - dec.nextEmitBlock.toNat, near slot⟩
    have injective : Function.Injective offset := by
      intro slot other same
      have offsets := congrArg Fin.val same
      have above := (inv.group slot (occ slot)).aboveHead
      have otherAbove := (inv.group other (occ other)).aboveHead
      refine inv.distinct slot other (occ slot) (occ other) ?_
      apply UInt64.toNat_inj.mp
      simp only [offset] at offsets
      omega
    obtain ⟨_⟩ := (blockInReorderWindow_iff _ _).mp inWin
    obtain ⟨slot, hit⟩ := Finite.injective_iff_surjective.mp injective
      ⟨blockId.toNat - dec.nextEmitBlock.toNat, by omega⟩
    have offsets := congrArg Fin.val hit
    have slotAbove := (inv.group slot (occ slot)).aboveHead
    refine findGroup_none missing slot (occ slot) ?_
    apply UInt64.toNat_inj.mp
    simp only [offset] at offsets
    omega

theorem allocateGroup_of_missing (inv : WindowInv cfg dec) (blockId : UInt64)
    (shardCount validLen : UInt16) (encodeBeginNs encodeEndNs : UInt64) (nonzero : shardCount ≠ 0)
    (inRange : shardCount.toNat ≤ WIRE_FLOW_MAX_SHARDS)
    (inWin : blockInReorderWindow blockId dec.nextEmitBlock = true)
    (missing : findGroup dec.groups blockId = none) :
    (allocateGroup dec.groups blockId shardCount validLen encodeBeginNs encodeEndNs).isSome := by
  obtain ⟨_, free⟩ := findEmptySlot_of_missing inv blockId inWin missing
  rw [allocateGroup, if_neg (by
    rintro (zero | large)
    · exact nonzero zero
    · omega), free]
  rfl

theorem makeRoomForBlock_le (good : GoodConfig cfg) (dec : WireFlowDecoder)
    (inv : WindowInv cfg dec) (blockId : UInt64) (before : dec.nextEmitBlock ≤ blockId) :
    (makeRoomForBlock cfg dec blockId).2.nextEmitBlock ≤ blockId := by
  unfold makeRoomForBlock
  split
  · exact before
  refine loop_induction
    (fun cur => WindowInv cfg cur.1 ∧ cur.1.nextEmitBlock ≤ blockId)
    (fun res : Int × WireFlowDecoder => res.2.nextEmitBlock ≤ blockId) ?_ ?_ (dec, 0)
    ⟨inv, before⟩
  · rintro cur later ⟨window, _⟩ moved
    obtain ⟨less, _, _, head, _⟩ := makeRoomStep_next moved
    refine ⟨head.windowInv window, ?_⟩
    rw [head.next_eq, UInt64.le_iff_toNat_le, toNat_add_one_of_lt less]
    exact UInt64.lt_iff_toNat_lt.mp less
  · rintro cur res ⟨window, atMost⟩ left
    obtain ⟨rfl, _⟩ := makeRoomStep_done good window left
    exact atMost

/-- The reorder window along every run, in both modes.  `heads.length` is `next_emit_block` before
it is reduced to 64 bits; the third part needs it not to wrap.  `roomy` is the decoder in which the
ingest of block `blockId` calls `allocate_group`. -/
theorem reorderWindow_ingest (config : WireFlowDecoderConfig) (good : GoodConfig config)
    (datagrams : List Datagram) (datagram : Datagram) :
    let dec := ingestAll config freshDecoder datagrams
    let later := (wireFlowDecoderIngest config dec datagram.1 datagram.2).2
    let roomy := fun blockId => (makeRoomForBlock config (seenDatagram dec) blockId).2
    (∀ slot other, (later.groups slot).state ≠ .empty → (later.groups other).state ≠ .empty →
        slot ≠ other → (later.groups slot).blockId ≠ (later.groups other).blockId) ∧
      (∀ slot, (later.groups slot).state ≠ .empty →
        later.nextEmitBlock.toNat ≤ (later.groups slot).blockId.toNat ∧
        (later.groups slot).blockId.toNat <
          later.nextEmitBlock.toNat + WIRE_FLOW_GROUP_WINDOW) ∧
      (later.nextEmitBlock = UInt64.ofNat later.heads.length ∧
        (later.heads.length < 2 ^ 64 → dec.nextEmitBlock ≤ later.nextEmitBlock)) ∧
      (∀ blockId shardCount validLen encodeBeginNs encodeEndNs, shardCount ≠ 0 →
        shardCount.toNat ≤ WIRE_FLOW_MAX_SHARDS →
        blockInReorderWindow blockId (roomy blockId).nextEmitBlock = true →
        findGroup (roomy blockId).groups blockId = none →
        (allocateGroup (roomy blockId).groups blockId shardCount validLen encodeBeginNs
          encodeEndNs).isSome) ∧
      (∀ blockId, dec.nextEmitBlock ≤ blockId → (roomy blockId).nextEmitBlock ≤ blockId) := by
  intro dec later roomy
  have window := ingestAll_windowInv good datagrams freshDecoder (freshDecoder_windowInv config)
  have heads := ingestAll_headsInv good datagrams
  obtain ⟨after, done, moves⟩ := ingest_moves good datagram dec window
  have later_eq : later = after := congrArg Prod.snd done
  have laterWindow : WindowInv config later := later_eq ▸ Moves.windowInv moves window
  have laterHeads : HeadsInv later := by
    have run := ingestAll_headsInv good (datagrams ++ [datagram])
    rwa [ingestAll, List.foldl_append] at run
  refine ⟨?_, ?_, ⟨laterHeads.next_eq, ?_⟩, ?_, ?_⟩
  · intro slot other occupied otherOccupied differs same
    exact differs (laterWindow.distinct slot other occupied otherOccupied same)
  · intro slot occupied
    have inv := laterWindow.group slot occupied
    exact ⟨inv.aboveHead, inv.belowEnd⟩
  · intro noWrap
    exact next_le_of_heads heads laterHeads (later_eq ▸ moves.heads_append) noWrap
  · intro blockId shardCount validLen encodeBeginNs encodeEndNs nonzero inRange inWindow missing
    obtain ⟨_, made_eq, roomMoves⟩ := makeRoomForBlock_moves good datagram blockId
      (seenDatagram dec) (window.of_same rfl rfl)
    have roomyWindow : WindowInv config (roomy blockId) := by
      show WindowInv config (makeRoomForBlock config (seenDatagram dec) blockId).2
      rw [made_eq]
      exact Moves.windowInv roomMoves (window.of_same rfl rfl)
    exact allocateGroup_of_missing roomyWindow blockId shardCount validLen encodeBeginNs
      encodeEndNs nonzero inRange inWindow missing
  · intro blockId before
    exact makeRoomForBlock_le good (seenDatagram dec) (window.of_same rfl rfl) blockId before

/-- A decoder for the codec that passes packages through, with a callback that accepts
everything. -/
def plainConfig (bestEffort : Bool) : WireFlowDecoderConfig where
  codec := noneCodec
  expectedShards := 1
  bestEffort := bestEffort
  inputSize := PKG_SIZE
  outputFn := fun _ _ => true

def plainEnd (blockCount : UInt64) : WireHeader where
  type := WIRE_TYPE_END
  finalDst := 0
  ttl := 0
  flowId := 0
  blockId := blockCount
  shardCount := 1

theorem plainConfig_good (bestEffort : Bool) : GoodConfig (plainConfig bestEffort) :=
  ⟨fun _ _ => rfl, rfl, rfl, Nat.one_pos⟩

def plainData (blockId : UInt64) : Datagram :=
  ({ plainEnd blockId with type := WIRE_TYPE_DATA, validLen := 1, payloadLen := 1400 },
    List.replicate 1400 7)

theorem reorderWindow_ingest_plain :
    let dec := ingestAll (plainConfig true) freshDecoder [plainData 9]
    let later := (wireFlowDecoderIngest (plainConfig true) dec (plainData 5).1 (plainData 5).2).2
    dataMalformed (plainConfig true) (plainData 5).1 (plainData 5).2 = false ∧
      (∀ slot, (later.groups slot).state ≠ .empty →
        later.nextEmitBlock.toNat ≤ (later.groups slot).blockId.toNat ∧
        (later.groups slot).blockId.toNat <
          later.nextEmitBlock.toNat + WIRE_FLOW_GROUP_WINDOW) ∧
      ∀ blockId, dec.nextEmitBlock ≤ blockId →
        (makeRoomForBlock (plainConfig true) (seenDatagram dec) blockId).2.nextEmitBlock ≤
          blockId := by
  obtain ⟨_, inside, _, _, stops⟩ := reorderWindow_ingest (plainConfig true)
    (plainConfig_good true) [plainData 9] (plainData 5)
  exact ⟨by decide +kernel, inside, stops⟩

end MultiFlow.FlowDecoder
