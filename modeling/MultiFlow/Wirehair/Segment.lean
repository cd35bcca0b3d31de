import MultiFlow.Wire.Header

/-!
# Wirehair segments

The sending half of `wirehair_segment.c`: the geometry of a segment and its incremental encoder.
Source packets are slices of the padded segment, repair packets come from the Wirehair library,
whose encoder is taken to succeed.  Callbacks pass a state of their own along, so that the queue or
the log behind them is part of the model.
-/

namespace MultiFlow.Wirehair

open Wire

def WIRE_TYPE_ACK : UInt8 := 3

def WIRE_FLAG_RETURN_PATH : UInt8 := 0x01

def WIRE_FLAG_ACK_REQUEST : UInt8 := 0x02

def WH_SEGMENT_WINDOW_DEFAULT : Nat := 8

def WH_SEGMENT_WINDOW_MAX : Nat := 16

def WH_PACKET_SIZE : Nat := 1370

def WH_REPAIR_MIN_PACKETS : Nat := 2

def WH_ACK_REPAIR_ROUND_PCT : Nat := 5

structure WirehairSegmentConfig where
  segmentBytes : UInt32
  repairPercent : UInt8
  window : UInt8
  ackEnabled : Bool
  originNode : UInt8
  ackTtl : UInt8
deriving DecidableEq

def wirehairSegmentWindow (config : WirehairSegmentConfig) : Nat :=
  if config.window = 0 then WH_SEGMENT_WINDOW_DEFAULT
  else if WH_SEGMENT_WINDOW_MAX < config.window.toNat then WH_SEGMENT_WINDOW_MAX
  else config.window.toNat

/-- The sum is a 32-bit one. -/
def wirehairSegmentSourcePackets (segmentBytes : Nat) : Nat :=
  if segmentBytes = 0 then 0
  else
    let packets := (segmentBytes + WH_PACKET_SIZE - 1) % 2 ^ 32 / WH_PACKET_SIZE
    if packets < 2 then 2 else packets

def wirehairSegmentRepairPackets (sourcePackets repairPercent : Nat) : Nat :=
  if sourcePackets = 0 ∨ repairPercent = 0 then 0
  else
    let repair := (sourcePackets * repairPercent + 99) / 100
    if repair < WH_REPAIR_MIN_PACKETS then WH_REPAIR_MIN_PACKETS else repair

def wirehairSegmentAckRepairRoundPackets (sourcePackets : Nat) : Nat :=
  wirehairSegmentRepairPackets sourcePackets WH_ACK_REPAIR_ROUND_PCT

def wirehairSegmentRepairCeiling (sourcePackets repairPercent : Nat) (ackEnabled : Bool) : Nat :=
  let repair := wirehairSegmentRepairPackets sourcePackets repairPercent
  if ackEnabled && decide (repair < sourcePackets) then sourcePackets else repair

def wirehairSegmentConfigValid (config : WirehairSegmentConfig) : Bool :=
  if config.segmentBytes = 0 ∨ 100 < config.repairPercent.toNat ∨ config.originNode = 0 ∨
      config.ackTtl = 0 ∨ WH_SEGMENT_WINDOW_MAX < config.window.toNat then false
  else
    let sourcePackets := wirehairSegmentSourcePackets config.segmentBytes.toNat
    let repairPackets :=
      wirehairSegmentRepairCeiling sourcePackets config.repairPercent.toNat config.ackEnabled
    decide (sourcePackets ≤ 64000 ∧ sourcePackets + repairPackets ≤ 65535)

variable {more : Nat}

theorem wirehairSegmentSourcePackets_mono {bytes : Nat} (le : bytes ≤ more)
    (fits : more + WH_PACKET_SIZE ≤ 2 ^ 32) :
    wirehairSegmentSourcePackets bytes ≤ wirehairSegmentSourcePackets more := by
  unfold wirehairSegmentSourcePackets WH_PACKET_SIZE at *
  by_cases nothing : bytes = 0
  · rw [if_pos nothing]
    exact Nat.zero_le _
  have something : ¬more = 0 := by omega
  rw [if_neg nothing, if_neg something]
  dsimp only
  rw [Nat.mod_eq_of_lt (by omega), Nat.mod_eq_of_lt (by omega)]
  have quotients : (bytes + 1370 - 1) / 1370 ≤ (more + 1370 - 1) / 1370 :=
    Nat.div_le_div_right (by omega)
  split_ifs <;> omega

theorem wirehairSegmentRepairPackets_mono {packets : Nat} (le : packets ≤ more)
    (repairPercent : Nat) :
    wirehairSegmentRepairPackets packets repairPercent ≤
      wirehairSegmentRepairPackets more repairPercent := by
  unfold wirehairSegmentRepairPackets
  by_cases nothing : packets = 0 ∨ repairPercent = 0
  · rw [if_pos nothing]
    exact Nat.zero_le _
  have something : ¬(more = 0 ∨ repairPercent = 0) := by omega
  rw [if_neg nothing, if_neg something]
  have scaled : packets * repairPercent ≤ more * repairPercent := Nat.mul_le_mul_right _ le
  have quotients : (packets * repairPercent + 99) / 100 ≤ (more * repairPercent + 99) / 100 :=
    Nat.div_le_div_right (by omega)
  dsimp only
  split_ifs <;> omega

theorem wirehairSegmentRepairCeiling_mono {packets : Nat} (le : packets ≤ more)
    (repairPercent : Nat) (ackEnabled : Bool) :
    wirehairSegmentRepairCeiling packets repairPercent ackEnabled ≤
      wirehairSegmentRepairCeiling more repairPercent ackEnabled := by
  have repairs := wirehairSegmentRepairPackets_mono le repairPercent
  unfold wirehairSegmentRepairCeiling
  dsimp only
  split_ifs with first second
  · exact le
  · simp only [Bool.and_eq_true, decide_eq_true_eq] at first second
    simp only [first, true_and] at second
    omega
  · next second =>
    simp only [Bool.and_eq_true, decide_eq_true_eq] at second
    omega
  · exact repairs

inductive WirehairResult where
  | success
  | needMore
  | error
deriving DecidableEq

/-- The Wirehair library for packets of `WH_PACKET_SIZE` bytes.  Nothing is assumed about the
answers of its decoder. -/
structure WirehairCodec where
  encode : List UInt8 → Nat → List UInt8
  Decoder : Type
  decoderCreate : Nat → Decoder
  decode : Decoder → Nat → List UInt8 → WirehairResult × Decoder
  recover : Decoder → Option (List UInt8)
  encode_pos : ∀ message packetId, 0 < (encode message packetId).length
  encode_le : ∀ message packetId, (encode message packetId).length ≤ WH_PACKET_SIZE

/-- A library that decodes messages of two packets as soon as it has both. -/
def twoPacketCodec : WirehairCodec where
  encode := fun _ _ => [0]
  Decoder := Nat × Option (List UInt8) × Option (List UInt8)
  decoderCreate := fun bytes => (bytes, none, none)
  decode := fun (bytes, first, second) packetId payload =>
    let first := if packetId = 0 then some payload else first
    let second := if packetId = 1 then some payload else second
    (if bytes = 2 * WH_PACKET_SIZE && first.isSome && second.isSome then .success else .needMore,
      (bytes, first, second))
  recover := fun (_, first, second) => first.bind fun first => second.map fun second => first ++ second
  encode_pos := fun _ _ => Nat.one_pos
  encode_le := fun _ _ => by decide

/-- A segment shorter than two packets is padded to two. -/
def padSegment (data : List UInt8) : List UInt8 :=
  data ++ List.replicate (2 * WH_PACKET_SIZE - data.length) 0

structure WirehairSegmentTx where
  config : WirehairSegmentConfig
  flowId : UInt32
  segmentId : UInt64
  finalDst : UInt8
  ttl : UInt8
  message : List UInt8
  dataLen : Nat
  sourcePackets : Nat
  packetLimit : Nat
  nextPacketId : Nat

abbrev SegmentEmitFn (ω : Type) := WireHeader → List UInt8 → ω → Int × ω

def wirehairSegmentTxCreate (config : WirehairSegmentConfig) (flowId : UInt32)
    (segmentId : UInt64) (finalDst ttl : UInt8) (data : List UInt8) : Option WirehairSegmentTx :=
  if wirehairSegmentConfigValid config = false ∨ data.length = 0 ∨
      config.segmentBytes.toNat < data.length ∨ finalDst = 0 ∨ ttl = 0 then none
  else
    let sourcePackets := wirehairSegmentSourcePackets data.length
    some
      { config, flowId, segmentId, finalDst, ttl
        message := padSegment data
        dataLen := data.length
        sourcePackets
        packetLimit := sourcePackets + wirehairSegmentRepairCeiling sourcePackets
          config.repairPercent.toNat config.ackEnabled
        nextPacketId := 0 }

section Emission

variable (codec : WirehairCodec)

def fillPacketPayload (tx : WirehairSegmentTx) (packetId : Nat) : Option (List UInt8) :=
  if packetId < tx.sourcePackets then
    let offset := packetId * WH_PACKET_SIZE
    if tx.message.length ≤ offset then none
    else some ((tx.message.drop offset).take WH_PACKET_SIZE)
  else some (codec.encode tx.message packetId)

def packetHeader (tx : WirehairSegmentTx) (packetId : Nat) (payload : List UInt8) : WireHeader where
  version := WIRE_VERSION_V4
  type := WIRE_TYPE_DATA
  finalDst := tx.finalDst
  ttl := tx.ttl
  flowId := tx.flowId
  blockId := tx.segmentId
  shardIndex := UInt16.ofNat packetId
  shardCount := UInt16.ofNat tx.packetLimit
  payloadLen := UInt16.ofNat payload.length
  originNode := tx.config.originNode
  flags := if tx.config.ackEnabled then WIRE_FLAG_ACK_REQUEST else 0
  segmentBytes := UInt32.ofNat tx.dataLen

variable {ω : Type}

/-- Every answer of the callback but 0 becomes -1. -/
def emitOnePacket (tx : WirehairSegmentTx) (packetId : Nat) (emitFn : SegmentEmitFn ω) (env : ω) :
    Int × ω :=
  match fillPacketPayload codec tx packetId with
  | none => (-1, env)
  | some payload =>
    let (answer, env) := emitFn (packetHeader tx packetId payload) payload env
    if answer ≠ 0 then (-1, env) else (0, env)

/-- The loop of `wirehair_segment_tx_emit_range` over the given number of packets. -/
def emitPackets (emitFn : SegmentEmitFn ω) :
    Nat → WirehairSegmentTx → Nat → ω → Int × WirehairSegmentTx × ω
  | 0, tx, emitted, env => (emitted, tx, env)
  | count + 1, tx, emitted, env =>
    let (answer, env) := emitOnePacket codec tx tx.nextPacketId emitFn env
    if answer ≠ 0 then (-1, tx, env)
    else emitPackets emitFn count { tx with nextPacketId := tx.nextPacketId + 1 } (emitted + 1) env

def wirehairSegmentTxEmitRange (tx : WirehairSegmentTx) (endPacketId : Nat)
    (emitFn : SegmentEmitFn ω) (env : ω) : Int × WirehairSegmentTx × ω :=
  if endPacketId < tx.nextPacketId then (-1, tx, env)
  else emitPackets codec emitFn (min endPacketId tx.packetLimit - tx.nextPacketId) tx 0 env

def wirehairSegmentTxEmitSource (tx : WirehairSegmentTx) (maxPackets : Nat)
    (emitFn : SegmentEmitFn ω) (env : ω) : Int × WirehairSegmentTx × ω :=
  if maxPackets = 0 then (0, tx, env)
  else
    wirehairSegmentTxEmitRange codec tx (min (tx.nextPacketId + maxPackets) tx.sourcePackets)
      emitFn env

def wirehairSegmentTxEmitRepair (tx : WirehairSegmentTx) (maxPackets : Nat)
    (emitFn : SegmentEmitFn ω) (env : ω) : Int × WirehairSegmentTx × ω :=
  if tx.nextPacketId < tx.sourcePackets ∨ maxPackets = 0 then (0, tx, env)
  else
    wirehairSegmentTxEmitRange codec tx (min (tx.nextPacketId + maxPackets) tx.packetLimit)
      emitFn env

end Emission

def wirehairSegmentTxSourceComplete (tx : WirehairSegmentTx) : Bool :=
  decide (tx.sourcePackets ≤ tx.nextPacketId)

def wirehairSegmentTxRepairExhausted (tx : WirehairSegmentTx) : Bool :=
  decide (tx.packetLimit ≤ tx.nextPacketId)

variable {config : WirehairSegmentConfig} {flowId : UInt32} {segmentId : UInt64}
  {finalDst ttl : UInt8} {data : List UInt8} {tx : WirehairSegmentTx}

/-- Every source packet starts inside the message, and the next packet is within the limit. -/
structure WirehairSegmentTx.Sound (tx : WirehairSegmentTx) : Prop where
  covers : ∀ packetId < tx.sourcePackets, packetId * WH_PACKET_SIZE < tx.message.length
  source_le : tx.sourcePackets ≤ tx.packetLimit
  next_le : tx.nextPacketId ≤ tx.packetLimit

theorem length_padSegment (data : List UInt8) :
    (padSegment data).length = max data.length (2 * WH_PACKET_SIZE) := by
  unfold padSegment
  rw [List.length_append, List.length_replicate]
  omega

theorem sourcePackets_covered (data : List UInt8) {packetId : Nat}
    (src : packetId < wirehairSegmentSourcePackets data.length) :
    packetId * WH_PACKET_SIZE < (padSegment data).length := by
  rw [length_padSegment]
  unfold wirehairSegmentSourcePackets at src
  split at src
  · omega
  have quotient : (data.length + WH_PACKET_SIZE - 1) % 2 ^ 32 / WH_PACKET_SIZE ≤
      (data.length + WH_PACKET_SIZE - 1) / WH_PACKET_SIZE :=
    Nat.div_le_div_right (Nat.mod_le _ _)
  unfold WH_PACKET_SIZE at *
  dsimp only at src
  split_ifs at src <;> omega

variable (created : wirehairSegmentTxCreate config flowId segmentId finalDst ttl data = some tx)
include created

theorem wirehairSegmentTxCreate_eq :
    wirehairSegmentConfigValid config = true ∧ data.length ≤ config.segmentBytes.toNat ∧
      tx = { config, flowId, segmentId, finalDst, ttl
             message := padSegment data
             dataLen := data.length
             sourcePackets := wirehairSegmentSourcePackets data.length
             packetLimit := wirehairSegmentSourcePackets data.length +
               wirehairSegmentRepairCeiling (wirehairSegmentSourcePackets data.length)
                 config.repairPercent.toNat config.ackEnabled
             nextPacketId := 0 } := by
  unfold wirehairSegmentTxCreate at created
  split at created
  next => cases created
  next accepted =>
    simp only [not_or, Bool.not_eq_false, Nat.not_lt] at accepted
    exact ⟨accepted.1, accepted.2.2.1, (Option.some.inj created).symm⟩

theorem wirehairSegmentTxCreate_sound : tx.Sound := by
  obtain ⟨-, -, rfl⟩ := wirehairSegmentTxCreate_eq created
  exact ⟨fun _ src => sourcePackets_covered data src, Nat.le_add_right _ _, Nat.zero_le _⟩

theorem wirehairSegmentTxCreate_limit (fits : config.segmentBytes.toNat + WH_PACKET_SIZE ≤ 2 ^ 32) :
    tx.packetLimit ≤ 65535 := by
  obtain ⟨valid, short, rfl⟩ := wirehairSegmentTxCreate_eq created
  have sources := wirehairSegmentSourcePackets_mono short fits
  have repairs := wirehairSegmentRepairCeiling_mono sources config.repairPercent.toNat
    config.ackEnabled
  unfold wirehairSegmentConfigValid at valid
  split at valid
  · cases valid
  have bounds := of_decide_eq_true valid
  dsimp only
  omega

omit created

theorem fillPacketPayload_some (codec : WirehairCodec) (sound : tx.Sound) (packetId : Nat) :
    ∃ payload, fillPacketPayload codec tx packetId = some payload := by
  unfold fillPacketPayload
  split
  next src =>
    dsimp only
    rw [if_neg (Nat.not_le_of_lt (sound.covers packetId src))]
    exact ⟨_, rfl⟩
  next => exact ⟨_, rfl⟩

end MultiFlow.Wirehair
