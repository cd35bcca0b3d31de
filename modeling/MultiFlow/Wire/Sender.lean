import MultiFlow.Codec.Lawful
import MultiFlow.Wire.Ingest

/-!
# The senders

`wire_udp_send`, `local_source_run` and the flow runner of `pipeline.c` cut a file into blocks of
the codec's input size, encode each block and send its shards, then an END with the number of
blocks.  A sender is the list of the datagrams it hands to the network; pacing and the sockets are
left out.  The three differ in what their buffer holds beyond the bytes just read; what they send
has one form (`Framing`).
-/

namespace MultiFlow.Sender

open Function CodecApi FlowDecoder Wire List

def WIRE_MAX_SHARDS : Nat := CODEC_MAX_ENCODE_BLOCK / PKG_SIZE

/-- A regular file; its size is an `off_t`. -/
structure SourceFile where
  bytes : List UInt8
  size_lt : bytes.length < 2 ^ 63

/-- What a sender puts in every header.  All three refuse destination 0 and TTL 0. -/
structure TxConfig where
  finalDst : UInt8
  ttl : UInt8
  flowId : UInt32
  finalDst_ne : finalDst ≠ 0
  ttl_ne : ttl ≠ 0

/-- `send_wire_datagram` and `emit_one`; the payload length they are given is `PKG_SIZE`
or 0, so their length check passes. -/
def sendWireDatagram (header : WireHeader) (payload : List UInt8) : List UInt8 :=
  (if header.version = WIRE_VERSION_V4 then wireHeaderEncodeV4 header
    else wireHeaderEncode header) ++ payload.take header.payloadLen.toNat

/-- The receivers decode the header and take the rest of the datagram as payload. -/
def recvWireDatagram (datagram : List UInt8) : Option Datagram :=
  (wireHeaderDecode datagram).map fun header =>
    (header, datagram.drop (wireHeaderSize header))

def dataHeader (tx : TxConfig) (blockId : UInt64) (shard shardCount : UInt16) (validLen : Nat)
    (times : UInt64 × UInt64) : WireHeader where
  type := WIRE_TYPE_DATA
  finalDst := tx.finalDst
  ttl := tx.ttl
  flowId := tx.flowId
  blockId := blockId
  shardIndex := shard
  shardCount := shardCount
  -- the cast of the sources to `uint16_t`
  validLen := UInt16.ofNat validLen
  payloadLen := UInt16.ofNat PKG_SIZE
  encodeBeginNs := times.1
  encodeEndNs := times.2

def endHeader (tx : TxConfig) (blockId : UInt64) (shardCount : UInt16) : WireHeader where
  type := WIRE_TYPE_END
  finalDst := tx.finalDst
  ttl := tx.ttl
  flowId := tx.flowId
  blockId := blockId
  shardCount := shardCount

def shardPayload (encoded : Block) (shard : Nat) : List UInt8 :=
  (List.range PKG_SIZE).map (encoded shard)

def blockDatagrams (tx : TxConfig) (blockId : UInt64) (shardCount : UInt16) (encoded : Block)
    (validLen : Nat) (times : UInt64 × UInt64) : List (List UInt8) :=
  (List.range shardCount.toNat).map fun shard =>
    sendWireDatagram (dataHeader tx blockId (UInt16.ofNat shard) shardCount validLen times)
      (shardPayload encoded shard)

def readInto (block : Block) (bytes : List UInt8) : Block := fun s b =>
  if s * PKG_SIZE + b < bytes.length ∧ b < PKG_SIZE then bytes.getD (s * PKG_SIZE + b) 0
  else block s b

def clearRange (block : Block) (start stop : Nat) : Block := fun s b =>
  if start ≤ s * PKG_SIZE + b ∧ s * PKG_SIZE + b < stop ∧ b < PKG_SIZE then 0 else block s b

theorem div_mod_pkg (j : Nat) : j / PKG_SIZE * PKG_SIZE + j % PKG_SIZE = j := by
  rw [Nat.mul_comm]
  exact Nat.div_add_mod j PKG_SIZE

theorem mod_pkg_lt (j : Nat) : j % PKG_SIZE < PKG_SIZE := Nat.mod_lt _ (by decide)

theorem blockBytes_readInto (block : Block) (bytes : List UInt8) :
    blockBytes (readInto block bytes) bytes.length = bytes := by
  apply ext_getElem
  · simp [blockBytes]
  intro j jLt _
  have inside : j < bytes.length := by simpa [blockBytes] using jLt
  simp only [blockBytes, getElem_map, getElem_range, readInto, div_mod_pkg, inside,
    mod_pkg_lt, and_self, if_true]
  exact getD_eq_getElem _ _ inside

theorem blockBytes_clearRange (block : Block) (start stop : Nat) :
    blockBytes (clearRange block start stop) start = blockBytes block start := by
  apply map_congr_left
  intro j mem
  have before : j < start := mem_range.mp mem
  have outside : ¬ start ≤ j := by omega
  simp only [clearRange, div_mod_pkg, outside, false_and, if_false]

theorem drop_length_lt {size : Nat} (pos : 0 < size) (input : List UInt8)
    (more : (input.take size).length ≠ 0) : (input.drop size).length < input.length := by
  rw [length_take] at more
  rw [length_drop]
  omega

section Senders

variable (codec : Codec) (tx : TxConfig) (clock : UInt64 → UInt64 × UInt64)

/-- The loop of `wire_udp_send`: the buffer keeps the parity of the block before. -/
def wireUdpSendLoop (shardCount : UInt16) (positive : 0 < codec.inputBlockSize) (block : Block)
    (blockId : UInt64) (input : List UInt8) : List (List UInt8) × UInt64 :=
  if _done : (input.take codec.inputBlockSize).length = 0 then ([], blockId)
  else
    let got := input.take codec.inputBlockSize
    let block := clearRange (readInto block got) got.length codec.inputBlockSize
    let encoded := codec.encode block codec.outputBlockSize
    let sent := blockDatagrams tx blockId shardCount encoded got.length (clock blockId)
    let (rest, last) := wireUdpSendLoop shardCount positive encoded (blockId + 1)
      (input.drop codec.inputBlockSize)
    (sent ++ rest, last)
termination_by input.length
decreasing_by exact drop_length_lt positive input _done

def wireUdpSend (block : Block) (file : SourceFile) : Option (List (List UInt8)) :=
  if sizes : codec.inputBlockSize = 0 ∨ codec.outputBlockSize = 0 ∨
      codec.outputBlockSize > CODEC_MAX_ENCODE_BLOCK ∨ codec.outputBlockSize % PKG_SIZE ≠ 0 then
    none
  else
    let shardCount := UInt16.ofNat (codec.outputBlockSize / PKG_SIZE)
    if shardCount = 0 ∨ shardCount.toNat > WIRE_MAX_SHARDS ∨
        shardCount.toNat ≠ codec.dataShards + codec.parityShards then none
    else
      let (sent, blockId) := wireUdpSendLoop codec tx clock shardCount
        (Nat.pos_of_ne_zero fun zero => sizes (Or.inl zero)) block 0 file.bytes
      some (sent ++ [sendWireDatagram (endHeader tx blockId shardCount) []])

/-- The loop of `local_source_run`: the buffer is cleared before each read. -/
def localSourceLoop (shardCount : UInt16) (positive : 0 < codec.inputBlockSize)
    (blockId : UInt64) (input : List UInt8) : List (List UInt8) × UInt64 :=
  if _done : (input.take codec.inputBlockSize).length = 0 then ([], blockId)
  else
    let got := input.take codec.inputBlockSize
    let encoded := codec.encode (readInto zeroBlock got) codec.outputBlockSize
    let sent := blockDatagrams tx blockId shardCount encoded got.length (clock blockId)
    let (rest, last) := localSourceLoop shardCount positive (blockId + 1)
      (input.drop codec.inputBlockSize)
    (sent ++ rest, last)
termination_by input.length
decreasing_by exact drop_length_lt positive input _done

def localSourceRun (file : SourceFile) : Option (List (List UInt8)) :=
  if sizes : codec.inputBlockSize = 0 ∨ codec.outputBlockSize = 0 ∨
      codec.outputBlockSize > CODEC_MAX_ENCODE_BLOCK ∨ codec.outputBlockSize % PKG_SIZE ≠ 0 then
    none
  else
    let shardCount := UInt16.ofNat (codec.outputBlockSize / PKG_SIZE)
    let (sent, blockId) := localSourceLoop codec tx clock shardCount
      (Nat.pos_of_ne_zero fun zero => sizes (Or.inl zero)) 0 file.bytes
    some (sent ++ [sendWireDatagram (endHeader tx blockId shardCount) []])

/-- `wire_udp_tx_send_block`: the datagrams and the next block id. -/
def wireUdpTxSendBlock (blockId : UInt64) (encoded : Block) (validLen : Nat)
    (times : UInt64 × UInt64) : Option (List (List UInt8) × UInt64) :=
  if codec.inputBlockSize = 0 ∨ codec.outputBlockSize = 0 ∨
      codec.outputBlockSize > CODEC_MAX_ENCODE_BLOCK ∨ codec.outputBlockSize % PKG_SIZE ≠ 0 ∨
      validLen = 0 ∨ validLen > codec.inputBlockSize then none
  else
    some (blockDatagrams tx blockId (UInt16.ofNat (codec.outputBlockSize / PKG_SIZE)) encoded
      validLen times, blockId + 1)

def wireUdpTxSendEnd (blockId : UInt64) : Option (List UInt8) :=
  if codec.outputBlockSize = 0 ∨ codec.outputBlockSize % PKG_SIZE ≠ 0 then none
  else
    some (sendWireDatagram
      (endHeader tx blockId (UInt16.ofNat (codec.outputBlockSize / PKG_SIZE))) [])

/-- `send_wire_tail_block`, with what is left when the input has ended. -/
def sendWireTailBlock (work : Block) (blockId : UInt64) (input : List UInt8) :
    Option (List (List UInt8) × UInt64) :=
  if input.length = 0 then some ([], blockId)
  else
    let work := clearRange (readInto work input) input.length codec.inputBlockSize
    wireUdpTxSendBlock codec tx blockId (codec.encode work codec.outputBlockSize) input.length
      (clock blockId)

/-- `process_flow_wire_send` over the whole input: full blocks, then the tail. -/
def processFlowWireSend (positive : 0 < codec.inputBlockSize) (work : Block) (blockId : UInt64)
    (input : List UInt8) : Option (List (List UInt8) × UInt64) :=
  if _full : codec.inputBlockSize ≤ input.length then
    let encoded := codec.encode (readInto work (input.take codec.inputBlockSize))
      codec.outputBlockSize
    (wireUdpTxSendBlock codec tx blockId encoded codec.inputBlockSize (clock blockId)).bind
      fun (sent, blockId) =>
        (processFlowWireSend positive encoded blockId (input.drop codec.inputBlockSize)).map
          fun (rest, last) => (sent ++ rest, last)
  else sendWireTailBlock codec tx clock work blockId input
termination_by input.length
decreasing_by
  rw [List.length_drop]
  omega

/-- The flow runner of `pipeline.c`: every block, then the END. -/
def wireFlowRunner (work : Block) (file : SourceFile) : Option (List (List UInt8)) :=
  if sizes : codec.inputBlockSize = 0 ∨ codec.outputBlockSize = 0 ∨
      codec.outputBlockSize > CODEC_MAX_ENCODE_BLOCK then none
  else
    (processFlowWireSend codec tx clock (Nat.pos_of_ne_zero fun zero => sizes (Or.inl zero)) work
      0 file.bytes).bind fun (sent, blockId) =>
        (wireUdpTxSendEnd codec tx blockId).map fun last => sent ++ [last]

end Senders

/-- The senders of the repository, each with what its buffer holds at the start. -/
inductive SenderKind where
  | udpSend (block : Block)
  | localSource
  | pipeline (work : Block)

def SenderKind.send (codec : Codec) (tx : TxConfig) (clock : UInt64 → UInt64 × UInt64) :
    SenderKind → SourceFile → Option (List (List UInt8))
  | .udpSend block => wireUdpSend codec tx clock block
  | .localSource => localSourceRun codec tx clock
  | .pipeline work => wireFlowRunner codec tx clock work

section Chunks

variable (codec : Codec) (source : List UInt8)

def chunk (i : Nat) : List UInt8 :=
  (source.drop (i * codec.inputBlockSize)).take codec.inputBlockSize

def chunkCount : Nat := (source.length + codec.inputBlockSize - 1) / codec.inputBlockSize

theorem lt_chunkCount_iff (pos : 0 < codec.inputBlockSize) (i : Nat) :
    i < chunkCount codec source ↔ i * codec.inputBlockSize < source.length := by
  rw [chunkCount, Nat.lt_iff_add_one_le, Nat.le_div_iff_mul_le pos, Nat.add_mul]
  omega

theorem length_chunk_le (i : Nat) : (chunk codec source i).length ≤ codec.inputBlockSize := by
  rw [chunk, length_take]
  omega

theorem chunk_ne_nil (pos : 0 < codec.inputBlockSize) {i : Nat}
    (isBlock : i < chunkCount codec source) : 0 < (chunk codec source i).length := by
  rw [lt_chunkCount_iff codec source pos] at isBlock
  rw [chunk, length_take, length_drop]
  omega

theorem flatMap_chunk (count : Nat) :
    (List.range count).flatMap (chunk codec source) =
      source.take (count * codec.inputBlockSize) := by
  induction count with
  | zero => simp
  | succ _ ih =>
    rw [range_succ, flatMap_append, ih, flatMap_singleton, Nat.succ_mul, take_add]
    rfl

theorem take_chunkCount (pos : 0 < codec.inputBlockSize) :
    source.take (chunkCount codec source * codec.inputBlockSize) = source := by
  apply take_of_length_le
  have last := (lt_chunkCount_iff codec source pos (chunkCount codec source)).not
  exact Nat.not_lt.mp (last.mp (Nat.lt_irrefl _))

end Chunks

/-- What a sender does with a source: the buffer it encodes and the times it stamps for
each block. -/
structure Framing (codec : Codec) (source : List UInt8) where
  data : Nat → Block
  times : Nat → UInt64 × UInt64
  holds : ∀ i, blockBytes (data i) (chunk codec source i).length = chunk codec source i

section Frames

variable {codec : Codec} (tx : TxConfig) {source : List UInt8}

def wireShardCount (codec : Codec) : UInt16 := UInt16.ofNat (codec.outputBlockSize / PKG_SIZE)

def Framing.block (framing : Framing codec source) (i : Nat) : List (List UInt8) :=
  blockDatagrams tx (UInt64.ofNat i) (wireShardCount codec)
    (codec.encode (framing.data i) codec.outputBlockSize) (chunk codec source i).length
    (framing.times i)

def Framing.last (codec : Codec) (source : List UInt8) : List UInt8 :=
  sendWireDatagram (endHeader tx (UInt64.ofNat (chunkCount codec source)) (wireShardCount codec))
    []

def Framing.datagrams (framing : Framing codec source) : List (List UInt8) :=
  (List.range (chunkCount codec source)).flatMap (framing.block tx) ++
    [Framing.last tx codec source]

/-- One turn of a sender's loop: a buffer that starts with the next bytes of the input is
encoded and sent, and the loop goes on behind them. -/
def SendsChunk (codec : Codec) (tx : TxConfig) (clock : UInt64 → UInt64 × UInt64)
    (loop : Block → UInt64 → List UInt8 → Option (List (List UInt8) × UInt64)) (block : Block)
    (blockId : UInt64) (input : List UInt8) : Prop :=
  ∃ data next, blockBytes data (input.take codec.inputBlockSize).length =
      input.take codec.inputBlockSize ∧
    loop block blockId input =
      (loop next (blockId + 1) (input.drop codec.inputBlockSize)).map fun (rest, last) =>
        (blockDatagrams tx blockId (wireShardCount codec)
          (codec.encode data codec.outputBlockSize) (input.take codec.inputBlockSize).length
          (clock blockId) ++ rest, last)

theorem loop_frames (pos : 0 < codec.inputBlockSize) (clock : UInt64 → UInt64 × UInt64)
    (loop : Block → UInt64 → List UInt8 → Option (List (List UInt8) × UInt64))
    (stop : ∀ block blockId, loop block blockId [] = some ([], blockId))
    (turn : ∀ block blockId input, input ≠ [] → SendsChunk codec tx clock loop block blockId input)
    (block : Block) (i count : Nat) (left : i + count = chunkCount codec source) :
    ∃ data : Nat → Block,
      (∀ j, i ≤ j → blockBytes (data j) (chunk codec source j).length = chunk codec source j) ∧
      loop block (UInt64.ofNat i) (source.drop (i * codec.inputBlockSize)) =
        some ((List.range' i count).flatMap (fun j =>
          blockDatagrams tx (UInt64.ofNat j) (wireShardCount codec)
            (codec.encode (data j) codec.outputBlockSize) (chunk codec source j).length
            (clock (UInt64.ofNat j))), UInt64.ofNat (i + count)) := by
  induction count generalizing i block with
  | zero =>
    have ended : ∀ j, i ≤ j → source.length ≤ j * codec.inputBlockSize := by
      intro j iLe
      have notBlock := (lt_chunkCount_iff codec source pos j).not
      exact Nat.not_lt.mp (notBlock.mp (by omega))
    refine ⟨fun _ => zeroBlock, ?_, ?_⟩
    · intro j iLe
      rw [chunk, drop_of_length_le (ended j iLe), take_nil]
      rfl
    · rw [drop_of_length_le (ended i (le_refl i)), stop]
      rfl
  | succ count ih =>
    have isBlock := (lt_chunkCount_iff codec source pos i).mp (by omega)
    have more : source.drop (i * codec.inputBlockSize) ≠ [] := by
      rw [ne_eq, drop_eq_nil_iff]
      omega
    obtain ⟨first, next, here, turned⟩ := turn block (UInt64.ofNat i) _ more
    obtain ⟨data, holds, rest⟩ := ih next (i + 1) (by omega)
    refine ⟨update data i first, ?_, ?_⟩
    · intro j iLe
      by_cases same : j = i
      · rw [same, update_self]
        exact here
      · rw [update_of_ne same]
        exact holds j (by omega)
    have following : UInt64.ofNat i + 1 = UInt64.ofNat (i + 1) := (UInt64.ofNat_add i 1).symm
    have others : (List.range' (i + 1) count).flatMap (fun j =>
        blockDatagrams tx (UInt64.ofNat j) (wireShardCount codec)
          (codec.encode (update data i first j) codec.outputBlockSize)
          (chunk codec source j).length (clock (UInt64.ofNat j))) =
        (List.range' (i + 1) count).flatMap (fun j =>
          blockDatagrams tx (UInt64.ofNat j) (wireShardCount codec)
            (codec.encode (data j) codec.outputBlockSize)
            (chunk codec source j).length (clock (UInt64.ofNat j))) := by
      apply flatMap_congr
      intro j mem
      have differs : j ≠ i := by
        rw [mem_range'_1] at mem
        omega
      rw [update_of_ne differs]
    rw [turned, drop_drop, ← Nat.succ_mul, following, rest, Option.map_some,
      List.range'_succ, flatMap_cons, others, update_self,
      Nat.add_right_comm i 1 count]
    rfl

theorem loop_framing (pos : 0 < codec.inputBlockSize) (clock : UInt64 → UInt64 × UInt64)
    (loop : Block → UInt64 → List UInt8 → Option (List (List UInt8) × UInt64))
    (stop : ∀ block blockId, loop block blockId [] = some ([], blockId))
    (turn : ∀ block blockId input, input ≠ [] →
      SendsChunk codec tx clock loop block blockId input) (block : Block) :
    ∃ fr : Framing codec source, loop block 0 source =
      some ((List.range (chunkCount codec source)).flatMap (fr.block tx),
        UInt64.ofNat (chunkCount codec source)) := by
  obtain ⟨data, holds, looped⟩ := loop_frames tx pos clock loop stop turn block 0
    (chunkCount codec source) (Nat.zero_add _)
  refine ⟨⟨data, fun j => clock (UInt64.ofNat j), fun i => holds i (Nat.zero_le i)⟩, ?_⟩
  rw [Nat.zero_mul, drop_zero, Nat.zero_add, ← range_eq_range'] at looped
  exact looped

theorem lawful_sizes (lawful : LawfulCodec codec) :
    0 < codec.inputBlockSize ∧ codec.outputBlockSize ≠ 0 ∧
      codec.outputBlockSize ≤ CODEC_MAX_ENCODE_BLOCK ∧ codec.outputBlockSize % PKG_SIZE = 0 ∧
      (wireShardCount codec).toNat = codec.dataShards + codec.parityShards := by
  have pos := lawful.dataPositive
  have most := lawful.shards_le
  have pkg : PKG_SIZE = 1400 := rfl
  have shards : codec.outputBlockSize / PKG_SIZE = codec.dataShards + codec.parityShards := by
    rw [lawful.outputBlockSize_eq]
    exact Nat.mul_div_cancel _ (by decide)
  refine ⟨?_, ?_, ?_, ?_, ?_⟩
  · rw [lawful.inputBlockSize_eq]
    exact Nat.mul_pos pos (by decide)
  · rw [lawful.outputBlockSize_eq, pkg]
    omega
  · rw [lawful.outputBlockSize_eq]
    have limit : CODEC_MAX_ENCODE_BLOCK = 255 * PKG_SIZE := by decide
    rw [limit]
    exact Nat.mul_le_mul_right PKG_SIZE most
  · rw [lawful.outputBlockSize_eq]
    exact Nat.mul_mod_left _ _
  · rw [wireShardCount, shards, UInt16.toNat_ofNat']
    exact Nat.mod_eq_of_lt (by omega)

theorem wireShardCount_ne_zero (lawful : LawfulCodec codec) : wireShardCount codec ≠ 0 := by
  obtain ⟨_, _, _, _, shards⟩ := lawful_sizes lawful
  have pos := lawful.dataPositive
  intro zero
  rw [zero] at shards
  have contrary : 0 = codec.dataShards + codec.parityShards := shards
  omega

variable (clock : UInt64 → UInt64 × UInt64)

omit tx clock in
theorem chunk_nonempty (pos : 0 < codec.inputBlockSize) {input : List UInt8} (more : input ≠ []) :
    ¬ (input.take codec.inputBlockSize).length = 0 := by
  rw [length_take]
  have length := length_pos_of_ne_nil more
  omega

theorem wireUdpSendLoop_turn (pos : 0 < codec.inputBlockSize) (block : Block)
    (blockId : UInt64) (input : List UInt8) (more : input ≠ []) :
    SendsChunk codec tx clock (fun block blockId input =>
      some (wireUdpSendLoop codec tx clock (wireShardCount codec) pos block blockId input))
      block blockId input := by
  let data := clearRange (readInto block (input.take codec.inputBlockSize))
    (input.take codec.inputBlockSize).length codec.inputBlockSize
  refine ⟨data, codec.encode data codec.outputBlockSize, ?_, ?_⟩
  · rw [blockBytes_clearRange, blockBytes_readInto]
  dsimp only
  rw [wireUdpSendLoop, dif_neg (chunk_nonempty pos more)]
  rfl

theorem localSourceLoop_turn (pos : 0 < codec.inputBlockSize) (block : Block)
    (blockId : UInt64) (input : List UInt8) (more : input ≠ []) :
    SendsChunk codec tx clock (fun _ blockId input =>
      some (localSourceLoop codec tx clock (wireShardCount codec) pos blockId input))
      block blockId input := by
  refine ⟨readInto zeroBlock (input.take codec.inputBlockSize), block, ?_, ?_⟩
  · rw [blockBytes_readInto]
  dsimp only
  rw [localSourceLoop, dif_neg (chunk_nonempty pos more)]
  rfl

theorem wireUdpTxSendBlock_lawful (lawful : LawfulCodec codec) (blockId : UInt64)
    (encoded : Block) (validLen : Nat) (times : UInt64 × UInt64) (nonzero : validLen ≠ 0)
    (fits : validLen ≤ codec.inputBlockSize) :
    wireUdpTxSendBlock codec tx blockId encoded validLen times =
      some (blockDatagrams tx blockId (wireShardCount codec) encoded validLen times,
        blockId + 1) := by
  obtain ⟨_⟩ := lawful_sizes lawful
  rw [wireUdpTxSendBlock, if_neg (by omega), wireShardCount]

theorem processFlowWireSend_nil (pos : 0 < codec.inputBlockSize) (work : Block) (blockId : UInt64) :
    processFlowWireSend codec tx clock pos work blockId [] = some ([], blockId) := by
  rw [processFlowWireSend, dif_neg (by rw [length_nil]; omega), sendWireTailBlock]
  rfl

theorem processFlowWireSend_turn (lawful : LawfulCodec codec)
    (pos : 0 < codec.inputBlockSize) (work : Block) (blockId : UInt64)
    (input : List UInt8) (more : input ≠ []) :
    SendsChunk codec tx clock (processFlowWireSend codec tx clock pos) work blockId
      input := by
  have length := length_pos_of_ne_nil more
  by_cases full : codec.inputBlockSize ≤ input.length
  · have whole : (input.take codec.inputBlockSize).length = codec.inputBlockSize := by
      rw [length_take]
      omega
    let data := readInto work (input.take codec.inputBlockSize)
    refine ⟨data, codec.encode data codec.outputBlockSize, ?_, ?_⟩
    · rw [blockBytes_readInto]
    rw [processFlowWireSend, dif_pos full]
    dsimp only
    rw [wireUdpTxSendBlock_lawful tx lawful _ _ _ _ (by omega) (le_refl _), whole]
    rfl
  · have short : input.take codec.inputBlockSize = input :=
      take_of_length_le (by omega)
    have rest : input.drop codec.inputBlockSize = [] := drop_of_length_le (by omega)
    refine ⟨clearRange (readInto work input) input.length codec.inputBlockSize, work, ?_, ?_⟩
    · rw [short, blockBytes_clearRange, blockBytes_readInto]
    rw [processFlowWireSend, dif_neg full, sendWireTailBlock, if_neg (by omega),
      wireUdpTxSendBlock_lawful tx lawful _ _ _ _ (by omega) (by omega), short, rest,
      processFlowWireSend_nil, Option.map_some]
    dsimp only
    rw [append_nil]

variable (file : SourceFile)

theorem wireUdpSend_frames (lawful : LawfulCodec codec) (block : Block) :
    ∃ fr : Framing codec file.bytes,
      wireUdpSend codec tx clock block file = some (fr.datagrams tx) := by
  obtain ⟨pos, _, _, _, shards⟩ := lawful_sizes lawful
  obtain ⟨fr, looped⟩ := loop_framing tx pos clock _
    (fun block blockId => by rw [wireUdpSendLoop, dif_pos (by simp)])
    (wireUdpSendLoop_turn tx clock pos) block
  refine ⟨fr, ?_⟩
  have shards_le := lawful.shards_le
  have count : ¬ (wireShardCount codec = 0 ∨ (wireShardCount codec).toNat > WIRE_MAX_SHARDS ∨
      (wireShardCount codec).toNat ≠ codec.dataShards + codec.parityShards) := by
    rw [not_or, not_or]
    refine ⟨wireShardCount_ne_zero lawful, ?_, not_not.mpr shards⟩
    rw [shards]
    exact Nat.not_lt.mpr shards_le
  rw [Option.some_inj] at looped
  rw [wireUdpSend, dif_neg (by omega)]
  rw [← wireShardCount, if_neg count, looped]
  rfl

theorem localSourceRun_frames (lawful : LawfulCodec codec) :
    ∃ fr : Framing codec file.bytes,
      localSourceRun codec tx clock file = some (fr.datagrams tx) := by
  obtain ⟨pos, _⟩ := lawful_sizes lawful
  obtain ⟨fr, looped⟩ := loop_framing tx pos clock _
    (fun block blockId => by rw [localSourceLoop, dif_pos (by simp)])
    (localSourceLoop_turn tx clock pos) zeroBlock
  refine ⟨fr, ?_⟩
  rw [Option.some_inj] at looped
  rw [localSourceRun, dif_neg (by omega)]
  dsimp only
  rw [← wireShardCount, looped]
  rfl

theorem wireFlowRunner_frames (lawful : LawfulCodec codec) (work : Block) :
    ∃ fr : Framing codec file.bytes,
      wireFlowRunner codec tx clock work file = some (fr.datagrams tx) := by
  obtain ⟨pos, _⟩ := lawful_sizes lawful
  obtain ⟨fr, looped⟩ := loop_framing tx pos clock _
    (processFlowWireSend_nil tx clock pos)
    (processFlowWireSend_turn tx clock lawful pos) work
  refine ⟨fr, ?_⟩
  rw [wireFlowRunner, dif_neg (by omega), looped, Option.bind_some]
  dsimp only
  rw [wireUdpTxSendEnd, if_neg (by omega), ← wireShardCount]
  rfl

theorem send_frames (lawful : LawfulCodec codec) (kind : SenderKind) :
    ∃ fr : Framing codec file.bytes, kind.send codec tx clock file = some (fr.datagrams tx) := by
  cases kind with
  | udpSend block => exact wireUdpSend_frames tx clock file lawful block
  | localSource => exact localSourceRun_frames tx clock file lawful
  | pipeline work => exact wireFlowRunner_frames tx clock file lawful work

end Frames

end MultiFlow.Sender
