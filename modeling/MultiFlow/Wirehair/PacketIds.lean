import MultiFlow.Wirehair.Receiver

/-!
# Packet ids of a segment

`wirehair_segment_source_packets` rounds up with a 32-bit sum.  Where the sum cannot wrap around,
the validator of a configuration bounds the packet ids of every segment.
-/

namespace MultiFlow.Wirehair

open Wire

/-- Any calls of `wirehair_segment_tx_emit_source` (`false`) and `…_emit_repair` (`true`). -/
def emitCalls (codec : WirehairCodec) {ω : Type} (emitFn : SegmentEmitFn ω) :
    List (Bool × Nat) → WirehairSegmentTx → ω → WirehairSegmentTx × ω
  | [], tx, env => (tx, env)
  | (repair, maxPackets) :: rest, tx, env =>
    let (_, tx, env) :=
      if repair then wirehairSegmentTxEmitRepair codec tx maxPackets emitFn env
      else wirehairSegmentTxEmitSource codec tx maxPackets emitFn env
    emitCalls codec emitFn rest tx env

section Emitted

variable {codec : WirehairCodec} {ω : Type} {emitFn : SegmentEmitFn ω} {tx : WirehairSegmentTx}
  {Inv : ω → Prop}

/-- The callback keeps `Inv` on every header of the segment below the limit. -/
def Keeps (tx : WirehairSegmentTx) (emitFn : SegmentEmitFn ω) (Inv : ω → Prop) : Prop :=
  ∀ packetId < tx.packetLimit, ∀ payload env, Inv env →
    Inv (emitFn (packetHeader tx packetId payload) payload env).2

/-- After a call the segment has only moved to a later packet, and `Inv` still holds. -/
def Emits (tx : WirehairSegmentTx) (Inv : ω → Prop) (result : Int × WirehairSegmentTx × ω) : Prop :=
  Inv result.2.2 ∧ ∃ next ≤ tx.packetLimit, result.2.1 = { tx with nextPacketId := next }

theorem emitPackets_emits (keeps : Keeps tx emitFn Inv) (count next : Nat) (emitted : Nat)
    (inLimit : next + count ≤ tx.packetLimit) {env : ω} (inv : Inv env) :
    Emits tx Inv (emitPackets codec emitFn count { tx with nextPacketId := next } emitted env) := by
  induction count generalizing next emitted env with
  | zero => exact ⟨inv, next, inLimit, rfl⟩
  | succ _ ih =>
    have kept : Inv (emitOnePacket codec { tx with nextPacketId := next } next emitFn env).2 := by
      unfold emitOnePacket
      split
      · exact inv
      rename_i body _
      have after := keeps next (by omega) body env inv
      dsimp only
      split <;> exact after
    rw [emitPackets]
    dsimp only
    split
    next => exact ⟨kept, next, by omega, rfl⟩
    next => exact ih (next + 1) (emitted + 1) (by omega) kept

theorem emitRange_emits (keeps : Keeps tx emitFn Inv) {next endPacketId : Nat}
    (inLimit : next ≤ tx.packetLimit) {env : ω} (inv : Inv env) :
    Emits tx Inv
      (wirehairSegmentTxEmitRange codec { tx with nextPacketId := next } endPacketId emitFn env) := by
  unfold wirehairSegmentTxEmitRange
  split
  next => exact ⟨inv, next, inLimit, rfl⟩
  next => exact emitPackets_emits keeps _ next 0 (by dsimp only; omega) inv

theorem emitCalls_emits (keeps : Keeps tx emitFn Inv) (calls : List (Bool × Nat)) {next : Nat}
    (inLimit : next ≤ tx.packetLimit) {env : ω} (inv : Inv env) :
    Inv (emitCalls codec emitFn calls { tx with nextPacketId := next } env).2 := by
  induction calls generalizing next env with
  | nil => exact inv
  | cons call rest ih =>
    obtain ⟨repair, maxPackets⟩ := call
    have emits : Emits tx Inv (if repair then
        wirehairSegmentTxEmitRepair codec { tx with nextPacketId := next } maxPackets emitFn env
      else wirehairSegmentTxEmitSource codec { tx with nextPacketId := next } maxPackets emitFn
        env) := by
      unfold wirehairSegmentTxEmitRepair wirehairSegmentTxEmitSource
      split_ifs
      · exact ⟨inv, next, inLimit, rfl⟩
      · exact emitRange_emits keeps inLimit inv
      · exact ⟨inv, next, inLimit, rfl⟩
      · exact emitRange_emits keeps inLimit inv
    rw [emitCalls]
    generalize (if repair then _ else _ : Int × WirehairSegmentTx × ω) = res at emits ⊢
    obtain ⟨answer, after, env'⟩ := res
    obtain ⟨kept, later, inLimit', rfl⟩ := emits
    exact ih inLimit' kept

end Emitted

/-- A callback that records the headers and answers as it likes. -/
def recordHeader (answers : Nat → Int) : SegmentEmitFn (List WireHeader) :=
  fun header _ log => (answers log.length, log ++ [header])

/-- The header carries an id below the limit, and a receiver of the configuration accepts it. -/
def HeaderFits (codec : WirehairCodec) (config : WirehairSegmentConfig) (tx : WirehairSegmentTx)
    (header : WireHeader) : Prop :=
  header.shardIndex.toNat < tx.packetLimit ∧ header.shardCount.toNat = tx.packetLimit ∧
    ∀ receiver : WirehairSegmentReceiver codec, receiver.config = config →
      headerGeometryOk receiver header = true

/-- The arithmetic of one segment is right: the source packets cover the coded message, ids and
limit fit the header, and a receiver of the same configuration accepts every header emitted. -/
structure PacketsFit (codec : WirehairCodec) (config : WirehairSegmentConfig)
    (tx : WirehairSegmentTx) : Prop where
  covered : tx.message.length ≤ tx.sourcePackets * WH_PACKET_SIZE
  limit : tx.packetLimit ≤ 65535
  emitted : ∀ calls answers, ∀ header ∈ (emitCalls codec (recordHeader answers) calls tx []).2,
    HeaderFits codec config tx header

section Geometry

variable {cfg : WirehairSegmentConfig} {flowId : UInt32} {seg : UInt64}
  {finalDst ttl : UInt8} {data : List UInt8} {tx : WirehairSegmentTx}

theorem sourcePackets_mul {bytes : Nat} (fits : bytes + WH_PACKET_SIZE ≤ 2 ^ 32) :
    max bytes (2 * WH_PACKET_SIZE) ≤ wirehairSegmentSourcePackets bytes * WH_PACKET_SIZE ∨
      bytes = 0 := by
  unfold wirehairSegmentSourcePackets WH_PACKET_SIZE at *
  by_cases nothing : bytes = 0
  · exact Or.inr nothing
  rw [if_neg nothing, Nat.mod_eq_of_lt (by omega)]
  dsimp only
  split_ifs <;> omega

theorem packetsFit_of_fits (codec : WirehairCodec)
    (created : wirehairSegmentTxCreate cfg flowId seg finalDst ttl data = some tx)
    (fits : cfg.segmentBytes.toNat + WH_PACKET_SIZE ≤ 2 ^ 32) : PacketsFit codec cfg tx := by
  have limit := wirehairSegmentTxCreate_limit created fits
  have something : data.length ≠ 0 := by
    intro empty
    unfold wirehairSegmentTxCreate at created
    rw [if_pos (Or.inr (Or.inl empty))] at created
    cases created
  obtain ⟨-, short, tx_eq⟩ := wirehairSegmentTxCreate_eq created
  refine ⟨?_, limit, ?_⟩
  · rw [tx_eq, length_padSegment]
    exact (sourcePackets_mul (by omega)).resolve_right something
  intro calls answers
  suffices keeps : Keeps tx (recordHeader answers)
      (fun log => ∀ hdr ∈ log, HeaderFits codec cfg tx hdr) by
    have all : ∀ hdr ∈ (emitCalls codec (recordHeader answers) calls
        { tx with nextPacketId := 0 } []).2, _ :=
      emitCalls_emits keeps calls (Nat.zero_le _) (List.forall_mem_nil _)
    rwa [show { tx with nextPacketId := 0 } = tx by rw [tx_eq]] at all
  subst tx_eq
  intro packetId below body log earlier hdr mem
  rcases List.mem_append.mp mem with old | new
  · exact earlier hdr old
  rw [List.mem_singleton.mp new]
  have count : (UInt16.ofNat (wirehairSegmentSourcePackets data.length +
      wirehairSegmentRepairCeiling (wirehairSegmentSourcePackets data.length)
        cfg.repairPercent.toNat cfg.ackEnabled)).toNat = _ :=
    UInt16.toNat_ofNat_of_lt' (Nat.lt_succ_of_le limit)
  have index : (UInt16.ofNat packetId).toNat = packetId :=
    UInt16.toNat_ofNat_of_lt' (below.trans_le (limit.trans (by decide)))
  refine ⟨index.trans_lt below, count, ?_⟩
  rintro rcv rfl
  have bytes : (UInt32.ofNat data.length).toNat = data.length :=
    UInt32.toNat_ofNat_of_lt' (short.trans_lt (UInt32.toNat_lt _))
  have flag : (rcv.config.ackEnabled ||
      (if rcv.config.ackEnabled then WIRE_FLAG_ACK_REQUEST else 0) &&&
        WIRE_FLAG_ACK_REQUEST != 0) = rcv.config.ackEnabled := by
    cases rcv.config.ackEnabled <;> rfl
  have inside : ¬(UInt32.ofNat data.length = 0 ∨
      rcv.config.segmentBytes < UInt32.ofNat data.length) := by
    rw [← UInt32.toNat_inj, UInt32.lt_iff_toNat_lt, bytes]
    exact not_or.mpr ⟨something, Nat.not_lt.mpr short⟩
  unfold headerGeometryOk packetHeader
  rw [if_neg inside, bytes, flag, count]
  exact decide_eq_true ⟨Nat.le_add_right _ _, le_refl _⟩

end Geometry

/-- Rounding up wraps: two packets are planned for four gigabytes. -/
theorem exists_not_packetsFit (codec : WirehairCodec) {config : WirehairSegmentConfig}
    (valid : wirehairSegmentConfigValid config = true)
    (wraps : ¬ config.segmentBytes.toNat + WH_PACKET_SIZE ≤ 2 ^ 32) :
    ∃ tx, wirehairSegmentTxCreate config 0 0 1 1 (List.replicate config.segmentBytes.toNat 0) =
      some tx ∧ ¬ PacketsFit codec config tx := by
  have small := UInt32.toNat_lt config.segmentBytes
  have length : (List.replicate config.segmentBytes.toNat (0 : UInt8)).length =
      config.segmentBytes.toNat := List.length_replicate
  have created : wirehairSegmentTxCreate config 0 0 1 1
      (List.replicate config.segmentBytes.toNat 0) = some _ := if_neg (by
    rw [valid, length]
    simp only [Bool.true_eq_false, false_or, not_or]
    unfold WH_PACKET_SIZE at wraps
    exact ⟨by omega, Nat.lt_irrefl _, by decide, by decide⟩)
  refine ⟨_, created, fun fit => ?_⟩
  have covered := fit.covered
  rw [length_padSegment, length] at covered
  unfold wirehairSegmentSourcePackets WH_PACKET_SIZE at covered
  unfold WH_PACKET_SIZE at wraps
  rw [if_neg (by omega), Nat.mod_eq_sub_mod (by omega), Nat.mod_eq_of_lt (by omega)] at covered
  dsimp only at covered
  split_ifs at covered <;> omega

/-- For a valid configuration the arithmetic is right for data of every admissible length, if and
only if the sum for the longest segment does not wrap around. -/
theorem packet_ids_fit_iff (codec : WirehairCodec) (config : WirehairSegmentConfig)
    (valid : wirehairSegmentConfigValid config = true) :
    (∀ flowId segmentId finalDst ttl data tx,
      wirehairSegmentTxCreate config flowId segmentId finalDst ttl data = some tx →
        PacketsFit codec config tx) ↔
      config.segmentBytes.toNat + WH_PACKET_SIZE ≤ 2 ^ 32 := by
  constructor
  · intro always
    by_contra wraps
    obtain ⟨_, created, cut⟩ := exists_not_packetsFit codec valid wraps
    exact cut (always _ _ _ _ _ _ created)
  · intro fits _ _ _ _ _ _ created
    exact packetsFit_of_fits codec created fits

theorem packet_ids_fit_small :
    PacketsFit twoPacketCodec ⟨1, 0, 1, true, 1, 1⟩
      ⟨⟨1, 0, 1, true, 1, 1⟩, 0, 0, 1, 1, padSegment [7], 1, 2, 4, 0⟩ :=
  (packet_ids_fit_iff twoPacketCodec ⟨1, 0, 1, true, 1, 1⟩ (by decide)).mpr (by decide)
    0 0 1 1 [7] _ rfl

/-- The validator accepts segments of four gigabytes, and a segment of that size gets the packet
limit of two packets. -/
theorem huge_segment_truncated :
    wirehairSegmentConfigValid ⟨4294967295, 0, 1, false, 1, 1⟩ = true ∧
      wirehairSegmentSourcePackets 4294967295 * WH_PACKET_SIZE = 2740 ∧
      ∃ tx, wirehairSegmentTxCreate ⟨4294967295, 0, 1, false, 1, 1⟩ 0 0 1 1
          (List.replicate (4294967295 : UInt32).toNat 0) = some tx ∧
        ¬ PacketsFit twoPacketCodec ⟨4294967295, 0, 1, false, 1, 1⟩ tx := by
  have valid : wirehairSegmentConfigValid ⟨4294967295, 0, 1, false, 1, 1⟩ = true := by decide
  exact ⟨valid, by decide, exists_not_packetsFit twoPacketCodec valid (by decide)⟩

end MultiFlow.Wirehair
