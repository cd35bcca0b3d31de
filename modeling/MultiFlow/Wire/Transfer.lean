import MultiFlow.Wire.InOrder

/-!
# Sending a file without loss

The senders store the length of a block in the 16-bit `valid_len`, and the codec setter accepts
geometries with longer blocks.  A decoder writes the announced part of each block, which is the file
exactly when its blocks are short enough.
-/

namespace MultiFlow.Stream

open CodecApi FlowDecoder Lib RsGenerator RsRecover Sender Wire List

theorem length_chunk_full (codec : Codec) (src : List UInt8) {i : Nat}
    (pos : 0 < codec.inputBlockSize) (another : i + 1 < chunkCount codec src) :
    (chunk codec src i).length = codec.inputBlockSize := by
  rw [lt_chunkCount_iff codec src pos, Nat.succ_mul] at another
  rw [chunk, length_take, length_drop]
  omega

theorem length_chunk_le_source (codec : Codec) (src : List UInt8) (i : Nat) :
    (chunk codec src i).length ≤ src.length := by
  rw [chunk, length_take, length_drop]
  omega

theorem announcedBytes_unannounced (codec : Codec) (src : List UInt8) (i : Nat)
    (unannounced : (chunk codec src i).length % 2 ^ 16 = 0) : announcedBytes codec src i = [] := by
  rw [announcedBytes, unannounced, take_zero]

theorem announced_lt (codec : Codec) (src : List UInt8) (pos : 0 < codec.inputBlockSize)
    (longBlock : 65535 < codec.inputBlockSize) (longSource : 65535 < src.length) :
    ((List.range (chunkCount codec src)).flatMap (announcedBytes codec src)).length <
      src.length := by
  have whole : ((List.range (chunkCount codec src)).flatMap (chunk codec src)).length =
      src.length := by
    rw [flatMap_chunk, take_chunkCount codec src pos]
  rw [← whole, length_flatMap, length_flatMap]
  refine sum_lt_sum _ _ ?_ ⟨0, ?_, ?_⟩
  · intro _ _
    rw [length_announcedBytes]
    exact Nat.mod_le _ _
  · rw [mem_range, lt_chunkCount_iff codec src pos]
    omega
  · have first : 65535 < (chunk codec src 0).length := by
      rw [chunk, length_take, length_drop]
      omega
    rw [length_announcedBytes]
    omega

section Lossless

variable {cfg : WireFlowDecoderConfig} (good : GoodConfig cfg)
  (lawful : LawfulCodec cfg.codec) {src : List UInt8}
  (fr : Framing cfg.codec src) (tx : TxConfig)

include good lawful in
/-- A stream that arrives in order is written as announced, and completes if every block is
announced. -/
theorem lossless_output (fits : chunkCount cfg.codec src < 2 ^ 64)
    (fullAnnounced : cfg.codec.inputBlockSize % 2 ^ 16 ≠ 0) :
    let dec := ingestAll cfg freshDecoder ((fr.datagrams tx).filterMap recvWireDatagram)
    dec.output.flatten = (List.range (chunkCount cfg.codec src)).flatMap
        (announcedBytes cfg.codec src) ∧
      ((∀ i < chunkCount cfg.codec src, (chunk cfg.codec src i).length % 2 ^ 16 ≠ 0) →
        dec.complete = true) := by
  intro dec
  obtain ⟨pos, _⟩ := lawful_sizes lawful
  have dec_eq : dec = (wireFlowDecoderIngest cfg (ingestAll cfg freshDecoder
      ((List.range (chunkCount cfg.codec src)).flatMap (arrivedBlock tx fr)))
      (endDatagram tx cfg.codec src).1 (endDatagram tx cfg.codec src).2).2 := by
    show ingestAll cfg freshDecoder ((fr.datagrams tx).filterMap recvWireDatagram) = _
    rw [recv_datagrams tx lawful fr, ingestAll_append_singleton]
  have window := ingestAll_windowInv good
    ((List.range (chunkCount cfg.codec src)).flatMap (arrivedBlock tx fr)) freshDecoder
    (freshDecoder_windowInv cfg)
  rw [dec_eq]
  by_cases every : ∀ i < chunkCount cfg.codec src,
      (chunk cfg.codec src i).length % 2 ^ 16 ≠ 0
  · obtain ⟨clean, output_eq⟩ : Clean _ (ingestAll cfg freshDecoder
        ((List.range (chunkCount cfg.codec src)).flatMap (arrivedBlock tx fr))) ∧ _ :=
      ingestAll_blocks good lawful tx fits _ (le_refl _) every
    refine ⟨(ingest_last_output good tx window clean.empty).trans output_eq, fun _ => ?_⟩
    exact ingest_last good lawful tx window clean.notEnded clean.running clean.next_eq
  · refine ⟨?_, fun contrary => absurd contrary every⟩
    push Not at every
    obtain ⟨last, isBlock, unannounced⟩ := every
    -- only the last block can have a length that is announced as zero
    have isLast : chunkCount cfg.codec src = last + 1 := by
      by_contra another
      have full := length_chunk_full cfg.codec src pos (i := last) (by omega)
      rw [full] at unannounced
      exact fullAnnounced unannounced
    obtain ⟨clean, output_eq⟩ : Clean last (ingestAll cfg freshDecoder
        ((List.range last).flatMap (arrivedBlock tx fr))) ∧ _ :=
      ingestAll_blocks good lawful tx fits last (by omega) fun i less => by
        rw [length_chunk_full cfg.codec src pos (by omega)]
        exact fullAnnounced
    obtain ⟨stats, refused⟩ : ∃ stats, ingestAll cfg (ingestAll cfg freshDecoder
        ((List.range last).flatMap (arrivedBlock tx fr))) (arrivedBlock tx fr last) =
          { ingestAll cfg freshDecoder ((List.range last).flatMap (arrivedBlock tx fr)) with
            stats } :=
      ingestAll_unannounced tx _ last clean.running unannounced _
    have blocks_eq : ingestAll cfg freshDecoder
        ((List.range (chunkCount cfg.codec src)).flatMap (arrivedBlock tx fr)) =
        { ingestAll cfg freshDecoder ((List.range last).flatMap (arrivedBlock tx fr)) with
          stats } := by
      rw [isLast, range_succ, flatMap_append, flatMap_singleton, ingestAll, foldl_append]
      exact refused
    rw [blocks_eq] at window ⊢
    rw [ingest_last_output good tx window clean.empty, isLast, range_succ,
      flatMap_append, flatMap_singleton,
      announcedBytes_unannounced cfg.codec src last unannounced, append_nil]
    exact output_eq

include good lawful in
theorem lossless_exact_iff (fits : chunkCount cfg.codec src < 2 ^ 64)
    (fullAnnounced : cfg.codec.inputBlockSize % 2 ^ 16 ≠ 0) :
    let dec := ingestAll cfg freshDecoder ((fr.datagrams tx).filterMap recvWireDatagram)
    (dec.complete = true ∧ dec.output.flatten = src) ↔
      cfg.codec.inputBlockSize ≤ 65535 ∨ src.length ≤ 65535 := by
  intro _
  obtain ⟨pos, _⟩ := lawful_sizes lawful
  obtain ⟨output_eq, completes⟩ := lossless_output good lawful fr tx fits fullAnnounced
  constructor
  · rintro ⟨_, exact_⟩
    by_contra long
    push Not at long
    have lost := announced_lt cfg.codec src pos long.1 long.2
    rw [← output_eq] at lost
    exact Nat.lt_irrefl _ (exact_ ▸ lost)
  intro short
  have shortChunk : ∀ i, (chunk cfg.codec src i).length ≤ 65535 := by
    intro i
    have inBlock := length_chunk_le cfg.codec src i
    have inSource := length_chunk_le_source cfg.codec src i
    omega
  refine ⟨completes ?_, ?_⟩
  · intro i isBlock
    have ne := chunk_ne_nil cfg.codec src pos isBlock
    have short := shortChunk i
    omega
  · have all : (List.range (chunkCount cfg.codec src)).flatMap
        (announcedBytes cfg.codec src) =
        (List.range (chunkCount cfg.codec src)).flatMap (chunk cfg.codec src) :=
      flatMap_congr fun i _ => announcedBytes_eq _ _ i (shortChunk i)
    rw [output_eq, all, flatMap_chunk, take_chunkCount _ _ pos]

end Lossless

variable {st : RsState}

theorem rsCodecSetParams_accepted (reached : RsReachable st) {k r : UInt64}
    (noWrap : k.toNat + r.toNat < 2 ^ 64) (accepted : (rsCodecSetParams st k r).1 = 0) :
    Ready (rsCodecSetParams st k r).2 ∧
      (rsCodecSetParams st k r).2.geo = ⟨k.toNat, r.toNat, k.toNat + r.toNat, PKG_SIZE⟩ := by
  rcases rsCodecSetParamsEx_cases st (ready_of_reachable reached) k r (UInt64.ofNat PKG_SIZE)
    noWrap with ⟨_, rejected⟩ | ⟨next, set, ready, _, _, geometry⟩
  · rw [rsCodecSetParams, rejected] at accepted
    cases accepted
  · rw [rsCodecSetParams, set]
    exact ⟨ready, geometry⟩

theorem rsCodecSetParams_accepts (reached : RsReachable st) {k r : UInt64}
    (noWrap : k.toNat + r.toNat < 2 ^ 64) (valid : paramsValid k r (UInt64.ofNat PKG_SIZE) = true) :
    (rsCodecSetParams st k r).1 = 0 := by
  rcases rsCodecSetParamsEx_cases st (ready_of_reachable reached) k r (UInt64.ofNat PKG_SIZE)
    noWrap with ⟨invalid, _⟩ | ⟨next, set, _⟩
  · rw [if_neg (by decide), valid] at invalid
    cases invalid
  · rw [rsCodecSetParams, set]

theorem fullBlock_announced (ready : Ready st) (wireSize : st.geo.shardBytes = PKG_SIZE)
    (cpu : RsEncode.CpuFeatures) : (rsCodec st cpu).inputBlockSize % 2 ^ 16 ≠ 0 := by
  have pos := ready.valid.kPositive
  have inField := ready.valid.inField
  have size : (rsCodec st cpu).inputBlockSize = st.geo.k * 1400 := by
    show st.geo.k * st.geo.shardBytes = _
    rw [wireSize]
    rfl
  rw [size]
  omega

def rsConfig (state : RsState) (cpu : RsEncode.CpuFeatures) (bestEffort : Bool) :
    WireFlowDecoderConfig where
  codec := rsCodec state cpu
  expectedShards := UInt16.ofNat state.geo.n
  bestEffort := bestEffort
  inputSize := (rsCodec state cpu).inputBlockSize
  outputFn := fun _ _ => true

theorem rsConfig_good (ready : Ready st) (cpu : RsEncode.CpuFeatures) (bestEffort : Bool) :
    GoodConfig (rsConfig st cpu bestEffort) := by
  have inField := ready.valid.inField
  have total := ready.valid.n_eq
  refine ⟨fun _ _ => rfl, rfl, ?_, ready.valid.kPositive⟩
  show (UInt16.ofNat st.geo.n).toNat = st.geo.k + st.geo.r
  rw [UInt16.toNat_ofNat', total, Nat.mod_eq_of_lt (by omega)]

/-- Every sender, both modes of the decoder and every accepted geometry: a file that is
delivered in order and without loss arrives whole exactly when a block or the file fits
the 16-bit `valid_len`. -/
theorem transfer_exact_iff (state : RsState) (reached : RsReachable state) (k r : UInt64)
    (noWrap : k.toNat + r.toNat < 2 ^ 64) (accepted : (rsCodecSetParams state k r).1 = 0)
    (impl : RsEncodeImpl) (simdEnabled : Bool) (cpu : RsEncode.CpuFeatures)
    (config : WireFlowDecoderConfig) (good : GoodConfig config)
    (sameCodec : config.codec = rsCodec (rsCodecSetSimdEnabledForTests (rsCodecSetEncodeImpl
      (rsCodecSetParams state k r).2 impl) simdEnabled) cpu) (tx : TxConfig)
    (clock : UInt64 → UInt64 × UInt64) (kind : SenderKind) (file : SourceFile) :
    ∃ sent, kind.send config.codec tx clock file = some sent ∧
      let dec := ingestAll config freshDecoder (sent.filterMap recvWireDatagram)
      ((dec.complete = true ∧ dec.output.flatten = file.bytes) ↔
        k.toNat * PKG_SIZE ≤ 65535 ∨ file.bytes.length ≤ 65535) := by
  obtain ⟨ready, geometry⟩ := rsCodecSetParams_accepted reached noWrap accepted
  generalize tuned_eq : rsCodecSetSimdEnabledForTests (rsCodecSetEncodeImpl
    (rsCodecSetParams state k r).2 impl) simdEnabled = tuned at sameCodec
  have tunedReady : Ready tuned := by
    rw [← tuned_eq]
    exact { ready with }
  have tunedGeometry : tuned.geo = ⟨k.toNat, r.toNat, k.toNat + r.toNat, PKG_SIZE⟩ := by
    rw [← tuned_eq]
    exact geometry
  have wireSize : tuned.geo.shardBytes = PKG_SIZE := by rw [tunedGeometry]
  have lawful : LawfulCodec config.codec := by
    rw [sameCodec]
    exact rsCodec_lawful tuned tunedReady cpu wireSize
  have blockSize : config.codec.inputBlockSize = k.toNat * PKG_SIZE := by
    rw [sameCodec]
    show tuned.geo.k * tuned.geo.shardBytes = _
    rw [tunedGeometry]
  have fullAnnounced : config.codec.inputBlockSize % 2 ^ 16 ≠ 0 := by
    rw [sameCodec]
    exact fullBlock_announced tunedReady wireSize cpu
  obtain ⟨framing, framed⟩ := send_frames tx clock file lawful kind
  refine ⟨_, framed, ?_⟩
  have fits := chunkCount_lt config.codec (lawful_sizes lawful).1 file
  rw [← blockSize]
  exact lossless_exact_iff good lawful framing tx fits fullAnnounced

theorem transfer_exact_iff_oneOfTwo :
    ∃ sent, SenderKind.localSource.send (rsCodec (rsCodecSetSimdEnabledForTests
        (rsCodecSetEncodeImpl (rsCodecSetParams rsInit 1 1).2 .auto) true) ⟨true, true⟩) plainTx
        (fun _ => (0, 0)) plainFile = some sent ∧
      (ingestAll (rsConfig (rsCodecSetSimdEnabledForTests (rsCodecSetEncodeImpl
        (rsCodecSetParams rsInit 1 1).2 .auto) true) ⟨true, true⟩ true) freshDecoder
        (sent.filterMap recvWireDatagram)).output.flatten = [7, 8, 9] := by
  have accepted : (rsCodecSetParams rsInit 1 1).1 = 0 :=
    rsCodecSetParams_accepts .init (by decide) (by decide)
  have ready := (rsCodecSetParams_accepted .init (by decide) accepted).1
  obtain ⟨sent, sends, exactly_⟩ := transfer_exact_iff rsInit .init 1 1 (by decide) accepted .auto
    true ⟨true, true⟩ (rsConfig _ ⟨true, true⟩ true)
    (rsConfig_good { ready with } ⟨true, true⟩ true) rfl plainTx
    (fun _ => (0, 0)) .localSource plainFile
  exact ⟨sent, sends, (exactly_.mpr (.inl (by decide))).2⟩

def longFile : SourceFile where
  bytes := List.replicate 65800 7
  size_lt := by
    rw [List.length_replicate]
    decide

/-- The block of 65800 bytes is announced as 264 bytes, and no more are written. -/
theorem transfer_truncates :
    (rsCodecSetParams rsInit 47 1).1 = 0 ∧
      ∃ sent, SenderKind.localSource.send (rsCodec (rsCodecSetParams rsInit 47 1).2 ⟨true, true⟩)
          plainTx (fun _ => (0, 0)) longFile = some sent ∧
        (ingestAll (rsConfig (rsCodecSetParams rsInit 47 1).2 ⟨true, true⟩ false) freshDecoder
          (sent.filterMap recvWireDatagram)).output.flatten = List.replicate 264 7 ∧
        longFile.bytes ≠ List.replicate 264 7 := by
  have accepted : (rsCodecSetParams rsInit 47 1).1 = 0 :=
    rsCodecSetParams_accepts .init (by decide) (by decide)
  obtain ⟨ready, geometry⟩ := rsCodecSetParams_accepted .init (by decide) accepted
  refine ⟨accepted, ?_⟩
  generalize (rsCodecSetParams rsInit 47 1).2 = state at ready geometry
  have wireSize : state.geo.shardBytes = PKG_SIZE := by rw [geometry]
  have lawful := rsCodec_lawful state ready ⟨true, true⟩ wireSize
  have blockSize : (rsCodec state ⟨true, true⟩).inputBlockSize = 65800 := by
    show state.geo.k * state.geo.shardBytes = _
    rw [geometry]
    rfl
  have size : longFile.bytes.length = 65800 := List.length_replicate
  have one : chunkCount (rsCodec state ⟨true, true⟩) longFile.bytes = 1 := by
    rw [chunkCount, blockSize, size]
  have first : chunk (rsCodec state ⟨true, true⟩) longFile.bytes 0 = List.replicate 65800 7 := by
    rw [chunk, blockSize, Nat.zero_mul, List.drop_zero, List.take_of_length_le (le_of_eq size)]
    rfl
  obtain ⟨framing, framed⟩ := send_frames plainTx (fun _ => (0, 0)) longFile lawful .localSource
  refine ⟨_, framed, ?_, ?_⟩
  · have output_eq := (lossless_output (rsConfig_good ready ⟨true, true⟩ false) lawful framing
      plainTx (by
        show chunkCount (rsCodec state ⟨true, true⟩) longFile.bytes < _
        rw [one]
        decide) (fullBlock_announced ready wireSize ⟨true, true⟩)).1
    have announced : min (65800 % 2 ^ 16) 65800 = 264 := by norm_num
    refine output_eq.trans ?_
    show (List.range (chunkCount (rsCodec state ⟨true, true⟩) longFile.bytes)).flatMap
      (announcedBytes (rsCodec state ⟨true, true⟩) longFile.bytes) = _
    rw [one, List.range_one, List.flatMap_singleton, announcedBytes, first, List.length_replicate,
      List.take_replicate, announced]
  · intro same
    have lengths := congrArg List.length same
    rw [size, List.length_replicate] at lengths
    cases lengths

end MultiFlow.Stream
