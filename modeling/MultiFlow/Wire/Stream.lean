import MultiFlow.Wire.Progress
import MultiFlow.Wire.Sender
import MultiFlow.Wire.HostOrder

/-!
# A decoder fed by an honest sender

What a sender's datagrams look like on arrival, and what they make of a decoder: every
group of the window is a block of the source (`Frame`), so a strict decoder has always
written a prefix of the source made of whole blocks.
-/

namespace MultiFlow.Stream

open CodecApi FlowDecoder Lib Sender Wire List Function

theorem length_shardPayload (encoded : Block) (shard : Nat) :
    (shardPayload encoded shard).length = PKG_SIZE := by
  simp [shardPayload]

theorem recv_send (hdr : WireHeader) (body : List UInt8)
    (version : hdr.version ≠ WIRE_VERSION_V4)
    (whole : body.length ≤ hdr.payloadLen.toNat) :
    recvWireDatagram (sendWireDatagram hdr body) =
      some ({ hdr with
        version := WIRE_VERSION_V3, originNode := 0, flags := 0, segmentBytes := 0 },
        body) := by
  have size : (wireHeaderEncode hdr).length = WIRE_HEADER_SIZE := length_wireHeaderEncode hdr
  rw [recvWireDatagram, sendWireDatagram, if_neg version, take_of_length_le whole,
    wireHeaderDecode_encode, Option.map_some]
  dsimp only [wireHeaderSize]
  rw [if_neg (by decide), ← size, drop_left]

section Arrival

variable (tx : TxConfig) {codec : Codec} {source : List UInt8}

def shardDatagram (framing : Framing codec source) (i s : Nat) : Datagram :=
  ({ dataHeader tx (UInt64.ofNat i) (UInt16.ofNat s) (wireShardCount codec)
      (chunk codec source i).length (framing.times i) with version := WIRE_VERSION_V3 },
    shardPayload (codec.encode (framing.data i) codec.outputBlockSize) s)

def endDatagram (codec : Codec) (source : List UInt8) : Datagram :=
  ({ endHeader tx (UInt64.ofNat (chunkCount codec source)) (wireShardCount codec) with
      version := WIRE_VERSION_V3 }, [])

inductive Honest (framing : Framing codec source) : Datagram → Prop where
  | shard (i s : Nat) (isBlock : i < chunkCount codec source)
      (isShard : s < codec.dataShards + codec.parityShards) :
      Honest framing (shardDatagram tx framing i s)
  | finish : Honest framing (endDatagram tx codec source)

theorem recv_shard (fr : Framing codec source) (i s : Nat) :
    recvWireDatagram (sendWireDatagram (dataHeader tx (UInt64.ofNat i) (UInt16.ofNat s)
      (wireShardCount codec) (chunk codec source i).length (fr.times i))
      (shardPayload (codec.encode (fr.data i) codec.outputBlockSize) s)) =
        some (shardDatagram tx fr i s) := by
  have notV4 : (0 : UInt8) ≠ WIRE_VERSION_V4 := by decide
  have fits : PKG_SIZE ≤ (UInt16.ofNat PKG_SIZE).toNat := by decide
  rw [recv_send _ _ notV4 (by rw [length_shardPayload]; exact fits)]
  rfl

theorem recv_last : recvWireDatagram (Framing.last tx codec source) =
    some (endDatagram tx codec source) := by
  have notV4 : (0 : UInt8) ≠ WIRE_VERSION_V4 := by decide
  rw [Framing.last, recv_send _ _ notV4 (Nat.zero_le _)]
  rfl

theorem recv_honest (lawful : LawfulCodec codec) (fr : Framing codec source)
    {dgram : List UInt8} (isSent : dgram ∈ fr.datagrams tx) :
    ∃ arrived, recvWireDatagram dgram = some arrived ∧ Honest tx fr arrived := by
  obtain ⟨_, _, _, _, shards⟩ := lawful_sizes lawful
  rw [Framing.datagrams, mem_append, mem_flatMap, mem_singleton] at isSent
  rcases isSent with ⟨i, isBlock, mem⟩ | rfl
  · obtain ⟨s, isShard, rfl⟩ := mem_map.mp mem
    rw [mem_range, shards] at isShard
    exact ⟨_, recv_shard tx fr i s, .shard i s (mem_range.mp isBlock) isShard⟩
  · exact ⟨_, recv_last tx, .finish⟩

def arrivedBlock (framing : Framing codec source) (i : Nat) : List Datagram :=
  (List.range (codec.dataShards + codec.parityShards)).map (shardDatagram tx framing i)

theorem recv_block (lawful : LawfulCodec codec) (fr : Framing codec source) (i : Nat) :
    (fr.block tx i).filterMap recvWireDatagram = arrivedBlock tx fr i := by
  obtain ⟨_, _, _, _, shards⟩ := lawful_sizes lawful
  rw [Framing.block, blockDatagrams, filterMap_map, shards, arrivedBlock, ← filterMap_eq_map]
  refine filterMap_congr ?_
  intro s _
  rw [comp_apply, recv_shard tx fr i s, comp_apply]

theorem recv_datagrams (lawful : LawfulCodec codec) (fr : Framing codec source) :
    (fr.datagrams tx).filterMap recvWireDatagram =
      (List.range (chunkCount codec source)).flatMap (arrivedBlock tx fr) ++
        [endDatagram tx codec source] := by
  rw [Framing.datagrams, filterMap_append, filterMap_flatMap, filterMap_cons, recv_last tx]
  refine congrArg (· ++ _) (flatMap_congr ?_)
  intro i _
  exact recv_block tx lawful fr i

end Arrival

/-- The bytes of block `i` that its 16-bit `valid_len` covers. -/
def announcedBytes (codec : Codec) (source : List UInt8) (i : Nat) : List UInt8 :=
  (chunk codec source i).take ((chunk codec source i).length % 2 ^ 16)

theorem announcedBytes_eq (codec : Codec) (src : List UInt8) (i : Nat)
    (short : (chunk codec src i).length ≤ 65535) :
    announcedBytes codec src i = chunk codec src i := by
  rw [announcedBytes, Nat.mod_eq_of_lt (by omega), take_length]

theorem length_announcedBytes (codec : Codec) (src : List UInt8) (i : Nat) :
    (announcedBytes codec src i).length = (chunk codec src i).length % 2 ^ 16 := by
  rw [announcedBytes, length_take, Nat.min_eq_left (Nat.mod_le _ _)]

structure Frame {codec : Codec} {source : List UInt8} (framing : Framing codec source) (i : Nat)
    (group : WireGroup) : Prop where
  isBlock : i < chunkCount codec source
  blockId_eq : group.blockId = UInt64.ofNat i
  validLen_eq : group.validLen = UInt16.ofNat (chunk codec source i).length
  begin_eq : group.encodeBeginNs = (framing.times i).1
  end_eq : group.encodeEndNs = (framing.times i).2
  carries : group.state = .active → Carries codec (framing.data i) group.data group.receivedBits
  decodes : group.state = .recovered → Decodes codec group.data (framing.data i)

section Groups

variable {cfg : WireFlowDecoderConfig} (good : GoodConfig cfg)
  (lawful : LawfulCodec cfg.codec)

variable {next : UInt64} {grp : WireGroup} {i : Nat}

include good in
theorem groupTotal (inv : GroupInv cfg next grp) :
    grp.shardCount.toNat = cfg.codec.dataShards + cfg.codec.parityShards := by
  rw [inv.shardCount_eq, good.shards_eq]

include good in
theorem groupAllShardsPresent_eq (inv : GroupInv cfg next grp) :
    groupAllShardsPresent grp =
      presentAll grp.receivedBits (cfg.codec.dataShards + cfg.codec.parityShards) := by
  have total := groupTotal good inv
  have pos := good.dataPositive
  have most := inv.shardCount_le
  have nonzero : grp.shardCount ≠ 0 := by
    intro zero
    rw [zero] at total
    have contrary : 0 = cfg.codec.dataShards + cfg.codec.parityShards := total
    omega
  rw [groupAllShardsPresent, if_neg (by
    rintro (zero | large)
    · exact nonzero zero
    · omega), total]

include good lawful in
theorem codecRecover_honest {data : Block} (inv : GroupInv cfg next grp)
    (carries : Carries cfg.codec data grp.data grp.receivedBits)
    (missing : groupAllShardsPresent grp = false)
    (enough : cfg.codec.dataShards ≤ groupReceivedCount grp) :
    ∃ recovered, codecRecover cfg.codec grp.data grp.receivedBits
      grp.shardCount.toNat = (.ok, recovered) ∧ Decodes cfg.codec recovered data := by
  have total := groupTotal good inv
  rw [groupAllShardsPresent_eq good inv, ← Bool.not_eq_true, presentAll_iff] at missing
  have fewer : presentCount grp.receivedBits
      (cfg.codec.dataShards + cfg.codec.parityShards) <
        cfg.codec.dataShards + cfg.codec.parityShards :=
    lt_of_le_of_ne (presentCount_le _ _)
      fun full => missing ((presentCount_eq_iff _ _).mp full)
  rw [groupReceivedCount, total] at enough
  rw [total]
  exact lawful.recovers data grp.data grp.receivedBits carries enough fewer

include good lawful in
theorem completes_decodes {data block : Block} (inv : GroupInv cfg next grp)
    (carries : Carries cfg.codec data grp.data grp.receivedBits)
    (completes : Completes cfg grp block) : Decodes cfg.codec block data := by
  cases completes with
  | allPresent every =>
    rw [groupAllShardsPresent_eq good inv] at every
    exact lawful.allPresent data grp.data grp.receivedBits carries every
  | systematic ready =>
    unfold groupSystematicDataReady at ready
    split at ready
    · cases ready
    rename_i systematic
    rw [Bool.not_eq_false] at systematic
    split at ready
    · cases ready
    exact lawful.systematic systematic data grp.data grp.receivedBits carries ready
  | repaired _ missing enough recovered =>
    obtain ⟨other, again, decodes⟩ := codecRecover_honest good lawful inv carries missing enough
    have same : block = other := congrArg Prod.snd (recovered.symm.trans again)
    rw [same]
    exact decodes

variable {src : List UInt8} (fr : Framing cfg.codec src) (tx : TxConfig)

theorem Frame.opened (s : Nat) (isBlock : i < chunkCount cfg.codec src) :
    let hdr := (shardDatagram tx fr i s).1
    Frame fr i (newGroup hdr.blockId hdr.shardCount hdr.validLen
      hdr.encodeBeginNs hdr.encodeEndNs) := by
  intro hdr
  refine ⟨isBlock, rfl, rfl, rfl, rfl, ?_, ?_⟩
  · intro _ t _ absent
    cases absent
  · intro ready
    cases ready

variable {fr}

theorem Frame.stored {s : Nat} (frame : Frame fr i grp) (active : grp.state = .active) :
    Frame fr i { grp with
      data := Grid.modify (fun t b => t = s ∧ b < PKG_SIZE)
        (fun _ b _ => (shardDatagram tx fr i s).2.getD b 0) grp.data
      receivedBits := presentSet grp.receivedBits s } := by
  refine { frame with carries := ?_, decodes := ?_ }
  · intro _ t isShard present b bLt
    by_cases here : t = s
    · subst here
      dsimp only
      rw [Grid.modify, if_pos ⟨rfl, bLt⟩]
      simp [shardDatagram, shardPayload, bLt]
    · have before : grp.receivedBits t = true := by
        simpa [presentSet, here] using present
      dsimp only
      rw [Grid.modify, if_neg fun inside => here inside.1]
      exact frame.carries active t isShard before b bLt
  · intro ready
    rw [active] at ready
    cases ready

include good lawful in
theorem Frame.attempted {slot : Slot} {finalizeAtEnd : Bool} {res : WireRecoverResult}
    {dec later : WireFlowDecoder} (inv : GroupInv cfg dec.nextEmitBlock (dec.groups slot))
    (frame : Frame fr i (dec.groups slot)) (active : (dec.groups slot).state = .active)
    (attempted : Attempted cfg dec slot finalizeAtEnd (res, later)) :
    Frame fr i (later.groups slot) := by
  have carries := frame.carries active
  cases attempted with
  | ready _ _ attempt state_eq completes =>
    obtain ⟨blockId_eq, _, validLen_eq, begin_eq, end_eq⟩ := attempt.same
    rw [attempt.groups_eq, update_self]
    refine ⟨frame.isBlock, blockId_eq.trans frame.blockId_eq,
      validLen_eq.trans frame.validLen_eq, begin_eq.trans frame.begin_eq,
      end_eq.trans frame.end_eq, ?_, ?_⟩
    · intro contrary
      rw [state_eq] at contrary
      cases contrary
    · exact fun _ => completes_decodes good lawful inv carries completes
  | missed _ _ grp attempt _ state_eq bits_eq incomplete _ cause =>
    obtain ⟨blockId_eq, _, validLen_eq, begin_eq, end_eq⟩ := attempt.same
    have data_eq : grp.data = (dec.groups slot).data := by
      rcases cause with ⟨data_eq, _⟩ | ⟨enough, status, failed, outcome⟩
      · exact data_eq
      obtain ⟨_, recovered, _⟩ :=
        codecRecover_honest good lawful inv carries incomplete enough
      exact absurd (congrArg Prod.fst (outcome.symm.trans recovered)) failed
    rw [attempt.groups_eq, update_self]
    refine ⟨frame.isBlock, blockId_eq.trans frame.blockId_eq,
      validLen_eq.trans frame.validLen_eq, begin_eq.trans frame.begin_eq,
      end_eq.trans frame.end_eq, ?_, ?_⟩
    · intro _
      rw [data_eq, bits_eq]
      exact carries
    · intro contrary
      rw [state_eq] at contrary
      split at contrary <;> cases contrary

theorem Frame.validLen_toNat (frame : Frame fr i grp) :
    grp.validLen.toNat = (chunk cfg.codec src i).length % 2 ^ 16 := by
  rw [frame.validLen_eq, UInt16.toNat_ofNat']

include good lawful in
theorem Frame.bytes (inv : GroupInv cfg next grp) (frame : Frame fr i grp)
    (ready : grp.state = .recovered) :
    blockBytes (cfg.codec.decode grp.data (grp.shardCount.toNat * PKG_SIZE))
      grp.validLen.toNat = announcedBytes cfg.codec src i := by
  have length_le := length_chunk_le cfg.codec src i
  have sent_le := Nat.mod_le (chunk cfg.codec src i).length (2 ^ 16)
  have whole : grp.shardCount.toNat * PKG_SIZE = cfg.codec.outputBlockSize := by
    rw [groupTotal good inv, lawful.outputBlockSize_eq]
  rw [frame.validLen_toNat, whole, announcedBytes]
  generalize (chunk cfg.codec src i).length % 2 ^ 16 = sent at sent_le
  have start : (chunk cfg.codec src i).take sent = blockBytes (fr.data i) sent := by
    rw [← fr.holds i, blockBytes, ← map_take, take_range, Nat.min_eq_left sent_le, blockBytes]
  rw [start]
  apply map_congr_left
  intro j mem
  have inChunk : j < sent := mem_range.mp mem
  refine frame.decodes ready (j / PKG_SIZE) ?_ (j % PKG_SIZE) (mod_pkg_lt j)
  rw [Nat.div_lt_iff_lt_mul (by decide), ← lawful.inputBlockSize_eq]
  omega

end Groups

theorem HeadMoved.of_recovered {cfg : WireFlowDecoderConfig} {dec later : WireFlowDecoder}
    {head : Option Slot} {flag : Bool} (moved : HeadMoved cfg dec head flag later)
    (ready : headRecovered dec head = true) :
    ∃ slot, head = some slot ∧ (dec.groups slot).state = .recovered ∧
      later = { afterWrite cfg dec slot with nextEmitBlock := dec.nextEmitBlock + 1 } := by
  cases moved with
  | emitted slot state_eq => exact ⟨slot, rfl, state_eq, rfl⟩
  | rescued _ _ _ active | abandoned _ _ _ _ active =>
    have recovered := of_decide_eq_true ready
    rw [active] at recovered
    cases recovered
  | skipped _ _ notReady =>
    cases head with
    | none => cases ready
    | some slot => exact absurd (of_decide_eq_true ready) (notReady slot rfl).1

structure StrictInv {config : WireFlowDecoderConfig} {source : List UInt8}
    (framing : Framing config.codec source) (dec : WireFlowDecoder) : Prop where
  groups : ∀ slot, (dec.groups slot).state ≠ .empty → ∃ i, Frame framing i (dec.groups slot)
  next_le : dec.nextEmitBlock.toNat ≤ chunkCount config.codec source
  output_eq : dec.output.flatten =
    source.take (dec.nextEmitBlock.toNat * config.codec.inputBlockSize)
  endCount_eq : dec.endSeen = true →
    dec.endBlockCount = UInt64.ofNat (chunkCount config.codec source)
  complete_eq : dec.complete = true → dec.nextEmitBlock.toNat = chunkCount config.codec source

section Strict

variable {cfg : WireFlowDecoderConfig} (good : GoodConfig cfg)
  (lawful : LawfulCodec cfg.codec) {src : List UInt8}
  {fr : Framing cfg.codec src} {tx : TxConfig}
  (small : cfg.codec.inputBlockSize ≤ 65535)
  (fits : chunkCount cfg.codec src < 2 ^ 64)

theorem freshDecoder_strictInv : StrictInv fr freshDecoder := by
  refine ⟨fun _ occ => absurd rfl occ, Nat.zero_le _, ?_, fun ended => ?_,
    fun complete => ?_⟩
  · rw [show freshDecoder.nextEmitBlock.toNat = 0 from rfl, Nat.zero_mul, take_zero]
    rfl
  · cases ended
  · cases complete

include fits in
theorem toNat_blockId {i : Nat} (isBlock : i ≤ chunkCount cfg.codec src) :
    (UInt64.ofNat i).toNat = i := by
  rw [UInt64.toNat_ofNat']
  exact Nat.mod_eq_of_lt (by omega)

variable {dec : WireFlowDecoder} {slot : Slot}

variable {later : WireFlowDecoder} {dgram : Datagram}

theorem StrictInv.update (inv : StrictInv fr dec) {grp : WireGroup} {i : Nat}
    (groups_eq : later.groups = Function.update dec.groups slot grp) (frame : Frame fr i grp)
    (next_eq : later.nextEmitBlock = dec.nextEmitBlock) (output_eq : later.output = dec.output)
    (endSeen_eq : later.endSeen = dec.endSeen)
    (endCount_eq : later.endBlockCount = dec.endBlockCount)
    (complete_eq : later.complete = dec.complete) : StrictInv fr later := by
  refine ⟨?_, ?_, ?_, ?_, ?_⟩
  · intro other occ
    by_cases same : other = slot
    · rw [groups_eq, same, update_self]
      exact ⟨i, frame⟩
    · rw [groups_eq, update_of_ne same] at occ ⊢
      exact inv.groups other occ
  · rw [next_eq]
    exact inv.next_le
  · rw [output_eq, next_eq]
    exact inv.output_eq
  · rw [endSeen_eq, endCount_eq]
    exact inv.endCount_eq
  · rw [complete_eq, next_eq]
    exact inv.complete_eq

include fits in
theorem StrictInv.atHead (inv : StrictInv fr dec)
    (found : findGroup dec.groups dec.nextEmitBlock = some slot) :
    ∃ i, Frame fr i (dec.groups slot) ∧ dec.nextEmitBlock.toNat = i ∧
      (dec.nextEmitBlock + 1).toNat = i + 1 := by
  obtain ⟨occ, atHead⟩ := findGroup_some found
  obtain ⟨i, frame⟩ := inv.groups slot occ
  have next_eq : dec.nextEmitBlock = UInt64.ofNat i := atHead.symm.trans frame.blockId_eq
  refine ⟨i, frame, ?_, ?_⟩
  · rw [next_eq, toNat_blockId fits (le_of_lt frame.isBlock)]
  have sum : dec.nextEmitBlock + 1 = UInt64.ofNat (i + 1) := by
    rw [next_eq, UInt64.ofNat_add]
    rfl
  rw [sum, toNat_blockId fits frame.isBlock]

include good lawful small fits in
theorem StrictInv.emitted (window : WindowInv cfg dec) (inv : StrictInv fr dec)
    (found : findGroup dec.groups dec.nextEmitBlock = some slot)
    (ready : (dec.groups slot).state = .recovered) :
    StrictInv fr { afterWrite cfg dec slot with nextEmitBlock := dec.nextEmitBlock + 1 } := by
  have occ := (findGroup_some found).1
  obtain ⟨i, frame, next_toNat, following⟩ := inv.atHead fits found
  have isBlock := frame.isBlock
  refine ⟨?_, ?_, ?_, inv.endCount_eq, ?_⟩
  · intro other otherOccupied
    have released : (Function.update dec.groups slot releasedGroup other).state ≠ .empty :=
      otherOccupied
    have differs : other ≠ slot := by
      rintro rfl
      rw [update_self] at released
      exact released rfl
    rw [update_of_ne differs] at released
    have kept := inv.groups other released
    show ∃ i, Frame fr i (Function.update dec.groups slot releasedGroup other)
    rw [update_of_ne differs]
    exact kept
  · show (dec.nextEmitBlock + 1).toNat ≤ _
    rw [following]
    exact isBlock
  · show (dec.output ++ [_]).flatten = src.take ((dec.nextEmitBlock + 1).toNat * _)
    rw [flatten_append, flatten_singleton, inv.output_eq,
      frame.bytes good lawful (window.group slot occ) ready,
      announcedBytes_eq _ _ _ ((length_chunk_le _ _ _).trans small), following, next_toNat,
      Nat.succ_mul, take_add]
    rfl
  · -- a complete decoder has no block left to emit
    intro complete
    have atEnd := inv.complete_eq complete
    omega

theorem blockId_inj {i j : Nat} (fits : chunkCount cfg.codec src < 2 ^ 64)
    (first : i < chunkCount cfg.codec src) (second : j < chunkCount cfg.codec src)
    (same : UInt64.ofNat i = UInt64.ofNat j) : i = j := by
  have toNats := congrArg UInt64.toNat same
  rwa [toNat_blockId fits (le_of_lt first), toNat_blockId fits (le_of_lt second)] at toNats

include lawful in
theorem shardIndex_toNat (i : Nat) {s : Nat}
    (isShard : s < cfg.codec.dataShards + cfg.codec.parityShards) :
    (shardDatagram tx fr i s).1.shardIndex.toNat = s := by
  have most := lawful.shards_le
  show (UInt16.ofNat s).toNat = s
  rw [UInt16.toNat_ofNat']
  exact Nat.mod_eq_of_lt (by omega)

include lawful in
theorem Honest.data (honest : Honest tx fr dgram)
    (wellFormed : dataMalformed cfg dgram.1 dgram.2 = false) :
    ∃ i s, i < chunkCount cfg.codec src ∧
      s < cfg.codec.dataShards + cfg.codec.parityShards ∧
      dgram = shardDatagram tx fr i s ∧ dgram.1.shardIndex.toNat = s := by
  cases honest with
  | shard i s isBlock isShard =>
    exact ⟨i, s, isBlock, isShard, rfl, shardIndex_toNat lawful i isShard⟩
  | finish =>
    simp only [dataMalformed, decide_eq_false_iff_not, not_or] at wellFormed
    have differ : WIRE_TYPE_END ≠ WIRE_TYPE_DATA := by decide
    exact absurd (not_not.mp wellFormed.1) differ

include good lawful small fits in
theorem StrictInv.move (strict : cfg.bestEffort = false) (honest : Honest tx fr dgram)
    (window : WindowInv cfg dec) (inv : StrictInv fr dec) (move : Move cfg dgram dec later) :
    StrictInv fr later := by
  cases move with
  | head _ _ allowed moved =>
    have ready := allowed.resolve_left (by simp [strict])
    obtain ⟨slot, found, state_eq, rfl⟩ := HeadMoved.of_recovered moved ready
    exact inv.emitted good lawful small fits window found state_eq
  | attempt slot _ _ _ active attempted =>
    have occ : (dec.groups slot).state ≠ .empty := by simp [active]
    obtain ⟨i, frame⟩ := inv.groups slot occ
    have laterFrame := frame.attempted good lawful (window.group slot occ) active attempted
    obtain ⟨_, attempt⟩ := attempted.attempt
    rw [attempt.groups_eq, update_self] at laterFrame
    exact inv.update attempt.groups_eq laterFrame attempt.next_eq attempt.output_eq
      attempt.endSeen_eq attempt.endCount_eq attempt.complete_eq
  | opened _ _ _ wellFormed _ _ allocated =>
    obtain ⟨i, s, isBlock, _, rfl, _⟩ := honest.data lawful wellFormed
    obtain ⟨_, _, rfl⟩ := allocateGroup_some allocated
    exact inv.update rfl (Frame.opened fr tx s isBlock) rfl rfl rfl rfl rfl
  | stored slot wellFormed active blockId_eq =>
    obtain ⟨j, s, isBlock, _, rfl, index_eq⟩ := honest.data lawful wellFormed
    obtain ⟨i, frame⟩ := inv.groups slot (by simp [active])
    have same : i = j := blockId_inj fits frame.isBlock isBlock
      (frame.blockId_eq.symm.trans blockId_eq)
    subst same
    rw [index_eq]
    exact inv.update rfl (frame.stored tx active) rfl rfl rfl rfl rfl
  | counted =>
    exact { inv with }
  | announced isEnd =>
    refine { inv with endCount_eq := ?_ }
    intro _
    have differ : WIRE_TYPE_DATA ≠ WIRE_TYPE_END := by decide
    cases honest with
    | shard => exact absurd isEnd differ
    | finish => rfl
  | finished ended reached =>
    refine { inv with complete_eq := ?_ }
    intro _
    have exactly_ := reached.resolve_right (by simp [strict])
    show dec.nextEmitBlock.toNat = _
    rw [exactly_, inv.endCount_eq ended, toNat_blockId fits (le_refl _)]

include good lawful small fits in
theorem ingestAll_strictInv (strict : cfg.bestEffort = false) (datagrams : List Datagram)
    (honest : ∀ dgram ∈ datagrams, Honest tx fr dgram) :
    StrictInv fr (ingestAll cfg freshDecoder datagrams) :=
  ingestAll_induction good (StrictInv fr) freshDecoder_strictInv datagrams
    fun _ mem _ _ window inv move =>
      inv.move good lawful small fits strict (honest _ mem) window move

end Strict

theorem received_honest {cfg : WireFlowDecoderConfig} (lawful : LawfulCodec cfg.codec)
    (tx : TxConfig) (clock : UInt64 → UInt64 × UInt64) (kind : SenderKind) (file : SourceFile)
    {sent : List (List UInt8)} (sends : kind.send cfg.codec tx clock file = some sent) :
    ∃ fr : Framing cfg.codec file.bytes, sent = fr.datagrams tx ∧
      ∀ received : List (List UInt8), (∀ datagram ∈ received, datagram ∈ sent) →
        ∀ datagram ∈ received.filterMap recvWireDatagram, Honest tx fr datagram := by
  obtain ⟨fr, framed⟩ := send_frames tx clock file lawful kind
  have sent_eq : sent = fr.datagrams tx := Option.some.inj (sends.symm.trans framed)
  refine ⟨fr, sent_eq, ?_⟩
  intro received fromSent datagram mem
  obtain ⟨bytes, isReceived, arrives⟩ := mem_filterMap.mp mem
  have isSent := fromSent bytes isReceived
  rw [sent_eq] at isSent
  obtain ⟨_, arrived_eq, honest⟩ := recv_honest tx lawful fr isSent
  rw [arrives] at arrived_eq
  rw [Option.some.inj arrived_eq]
  exact honest

theorem chunkCount_lt (codec : Codec) (pos : 0 < codec.inputBlockSize) (file : SourceFile) :
    chunkCount codec file.bytes < 2 ^ 64 := by
  have size := file.size_lt
  have most : chunkCount codec file.bytes ≤ file.bytes.length := by
    apply Nat.not_lt.mp
    rw [lt_chunkCount_iff codec file.bytes pos]
    exact Nat.not_lt.mpr (Nat.le_mul_of_pos_right _ pos)
  omega

/-- Whatever is lost, repeated or reordered of a file's datagrams, a strict decoder has
written whole blocks from the start of the file, and the whole file once it is complete. -/
theorem strict_output_blocks (config : WireFlowDecoderConfig) (good : GoodConfig config)
    (lawful : LawfulCodec config.codec) (strict : config.bestEffort = false)
    (small : config.codec.inputBlockSize ≤ 65535) (tx : TxConfig)
    (clock : UInt64 → UInt64 × UInt64) (kind : SenderKind) (file : SourceFile)
    (sent received : List (List UInt8)) (sends : kind.send config.codec tx clock file = some sent)
    (fromSent : ∀ datagram ∈ received, datagram ∈ sent) :
    let dec := ingestAll config freshDecoder (received.filterMap recvWireDatagram)
    (∃ blocks, dec.output.flatten = file.bytes.take (blocks * config.codec.inputBlockSize)) ∧
      (dec.complete = true → dec.output.flatten = file.bytes) := by
  intro dec
  obtain ⟨positive, _⟩ := lawful_sizes lawful
  obtain ⟨framing, _, honest⟩ := received_honest lawful tx clock kind file sends
  have inv : StrictInv framing dec := ingestAll_strictInv good lawful small
    (chunkCount_lt config.codec positive file) strict _ (honest received fromSent)
  refine ⟨⟨_, inv.output_eq⟩, ?_⟩
  intro complete
  rw [inv.output_eq, inv.complete_eq complete, take_chunkCount _ _ positive]

def plainTx : TxConfig where
  finalDst := 1
  ttl := 8
  flowId := 0
  finalDst_ne := by decide
  ttl_ne := by decide

def plainFile : SourceFile where
  bytes := [7, 8, 9]
  size_lt := by decide

theorem strict_output_blocks_plain :
    ∃ sent, SenderKind.localSource.send noneCodec plainTx (fun _ => (0, 0)) plainFile =
        some sent ∧
      let dec := ingestAll (plainConfig false) freshDecoder
        ((sent.reverse ++ sent).filterMap recvWireDatagram)
      (∃ blocks, dec.output.flatten = plainFile.bytes.take (blocks * PKG_SIZE)) ∧
        (dec.complete = true → dec.output.flatten = plainFile.bytes) := by
  obtain ⟨_, framed⟩ := send_frames plainTx (fun _ => (0, 0)) plainFile noneCodec_lawful
    .localSource
  refine ⟨_, framed, ?_⟩
  exact strict_output_blocks (plainConfig false) (plainConfig_good false) noneCodec_lawful rfl
    (by decide) plainTx (fun _ => (0, 0)) .localSource plainFile _ _ framed (by simp)

end MultiFlow.Stream
