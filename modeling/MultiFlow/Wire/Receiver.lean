import MultiFlow.Lib.Transition
import MultiFlow.Wire.Sender

/-!
# The receive loop of `wire_udp_recv`

The receive thread examines a datagram, finds or opens the flow of its flow id and puts the datagram
into the flow's queue; one worker for each flow feeds the flow's decoder.  In prefix mode
(`max_flows` above one) each flow id has a decoder and an output of its own.  In single-file mode
one decoder, opened at the start, is bound to the flow id of whatever datagram comes.

A wait for room in a queue is a disabled step.  Sending, sockets and the printed report are left
out, and allocations succeed.  `processed` is the history of the datagrams that were read, and
`offered` of those passed to `wire_flow_enqueue` for a flow; nothing reads them.
-/

namespace MultiFlow.WireUdp

open CodecApi FlowDecoder Lib Sender Wire

universe u

def WIRE_MAX_FLOWS : Nat := 8

def WIRE_DECODE_QUEUE_CAP : Nat := 2048

structure RecvConfig where
  codec : Codec
  bestEffort : Bool
  maxFlows : Nat
  localNodeId : UInt8
  decodeMark : Bool
  outputPath : List Char
  outSuffix : List (Option (List Char))

/-- `host` has what `inet_ntop` answers and the port, `opens` whether `fopen` succeeds, and `markLine`
formats the mark for a time, a block count and a flow id. -/
structure RecvEnv (Peer : Type u) where
  outputFn : List (List UInt8) → List UInt8 → Bool
  host : Peer → Option (List Char × UInt16)
  opens : List Char → Bool
  markLine : Nat → UInt64 → UInt32 → List UInt8

structure FlowCtx where
  flowId : UInt32
  path : List Char
  dec : WireFlowDecoder
  queue : List Datagram
  recvDone : Bool
  decodeComplete : Bool
  workerFailed : Bool
  returned : Bool
  marks : List (List UInt8)
  offered : List Datagram

def FlowCtx.output (ctx : FlowCtx) : List (List UInt8) := ctx.dec.output ++ ctx.marks

/-- Before `poll`, with a datagram to read, after the loop (by `goto cleanup` or by `break`), and
after the report. -/
inductive LoopPhase where
  | polling
  | receiving
  | left (cleanup : Bool)
  | reported
  deriving DecidableEq

structure RecvState (Peer : Type u) where
  flows : List FlowCtx
  phase : LoopPhase
  processed : List (Peer × List UInt8)

/-- What was written to a path, for each flow that has it open.  How the bytes of two of them end up
in the one file is left open. -/
def RecvState.writtenTo {Peer : Type u} (state : RecvState Peer) (path : List Char) :
    List (List (List UInt8)) :=
  (state.flows.filter fun ctx => ctx.path = path).map FlowCtx.output

inductive RecvEvent (Peer : Type u) where
  | poll (ready idle : Bool)
  | datagram (peer : Peer) (bytes : List UInt8)
  | socketFails
  | work (index : Nat)
  | report (time : Nat)

section Loop

variable {Peer : Type u} (env : RecvEnv Peer) (config : RecvConfig)

def multiMode : Bool := decide (1 < config.maxFlows)

def decoderConfig : WireFlowDecoderConfig where
  codec := config.codec
  expectedShards := UInt16.ofNat (config.codec.outputBlockSize / PKG_SIZE)
  bestEffort := config.bestEffort
  inputSize := config.codec.inputBlockSize
  outputFn := env.outputFn

def freshCtx (path : List Char) (flowId : UInt32) : FlowCtx :=
  ⟨flowId, path, freshDecoder, [], false, false, false, false, [], []⟩

def wireFlowFormatOutputTag (peer : Peer) (flowId : UInt32) : Option (List Char) :=
  (env.host peer).map fun (host, port) =>
    (['s', 'r', 'c', '_'] ++ host ++ ['_', 'p'] ++ Nat.toDigits 10 port.toNat ++
      ['_', 'f', 'l', 'o', 'w', '_'] ++ Nat.toDigits 10 flowId.toNat).take 159

def wireRecvSuffixForFlow (flowId : UInt32) : List Char :=
  (config.outSuffix[flowId.toNat]?).join.getD ['.', 't', 's']

/-- `snprintf` cuts the path to its buffer of 512 bytes, and the test of its length passes then. -/
def wireFlowOutputPath (peer : Peer) (flowId : UInt32) : Option (List Char) :=
  (wireFlowFormatOutputTag env peer flowId).map fun tag =>
    (config.outputPath ++ tag ++ wireRecvSuffixForFlow config flowId).take 511

def canOpen (peer : Peer) (flowId : UInt32) : Bool :=
  (wireFlowOutputPath env config peer flowId).any env.opens

def wireUdpRecvStart : Option (RecvState Peer) :=
  let codec := config.codec
  let shards := codec.outputBlockSize / PKG_SIZE
  if WIRE_MAX_FLOWS < config.maxFlows then none
  else if config.bestEffort ∧ !codecAllowsBestEffort codec then none
  else if codec.inputBlockSize = 0 ∨ codec.outputBlockSize = 0 ∨
      CODEC_MAX_ENCODE_BLOCK < codec.outputBlockSize ∨ codec.outputBlockSize % PKG_SIZE ≠ 0 then
    none
  else if shards = 0 ∨ WIRE_MAX_SHARDS < shards ∨ shards ≠ codec.dataShards + codec.parityShards then
    none
  else if multiMode config then some ⟨[], .polling, []⟩
  else if env.opens config.outputPath then some ⟨[freshCtx config.outputPath 0], .polling, []⟩
  else none

/-- The checks on a datagram before a flow is looked up.  `recvfrom` cuts it to its buffer. -/
def examine (bytes : List UInt8) : Option Datagram :=
  let decoder := decoderConfig env config
  let bytes := bytes.take (WIRE_HEADER_SIZE + PKG_SIZE)
  match wireHeaderDecode bytes with
  | none => none
  | some header =>
    if config.localNodeId ≠ 0 ∧ !wireHeaderIsLocal header config.localNodeId then none
    else if header.type = WIRE_TYPE_DATA then
      if bytes.length ≠ WIRE_HEADER_SIZE + header.payloadLen.toNat ∨
          header.payloadLen.toNat ≠ PKG_SIZE ∨ header.shardCount ≠ decoder.expectedShards ∨
          header.shardCount ≤ header.shardIndex ∨ header.validLen = 0 ∨
          decoder.inputSize < header.validLen.toNat then none
      else some (header, bytes.drop WIRE_HEADER_SIZE)
    else if header.type = WIRE_TYPE_END then
      if bytes.length ≠ WIRE_HEADER_SIZE ∨ header.payloadLen ≠ 0 ∨
          header.shardCount ≠ decoder.expectedShards then none
      else some (header, [])
    else none

def allComplete (flows : List FlowCtx) : Bool :=
  !flows.isEmpty && flows.all fun ctx => ctx.decodeComplete

def anyFailed (flows : List FlowCtx) : Bool := flows.any fun ctx => ctx.workerFailed

/-- The loop is left, and every worker is told that nothing more will come. -/
def leave (cleanup : Bool) (state : RecvState Peer) : RecvState Peer :=
  { state with
    flows := state.flows.map fun ctx => { ctx with recvDone := true }
    phase := .left cleanup }

def recvPoll (ready idle : Bool) (state : RecvState Peer) : RecvState Peer :=
  if anyFailed state.flows then leave true state
  else if ready then { state with phase := .receiving }
  else if allComplete state.flows || idle then leave false state
  else state

/-- `wire_flow_enqueue` for the flow at an index, and the end of a pass of the loop. -/
def recvEnqueue (state : RecvState Peer) (i : Nat) (job : Datagram) : Option (RecvState Peer) :=
  match state.flows[i]? with
  | none => none
  | some ctx =>
    if ctx.queue.length = WIRE_DECODE_QUEUE_CAP ∧ ¬ ctx.recvDone then none
    else
      let offer := fun ctx : FlowCtx => { ctx with offered := ctx.offered ++ [job] }
      if ctx.recvDone ∨ ctx.workerFailed then
        some (leave true { state with flows := state.flows.modify i offer })
      else
        let state :=
          { state with
            flows := state.flows.modify i fun ctx =>
              offer { ctx with queue := ctx.queue ++ [job] } }
        let finished :=
          if multiMode config then allComplete state.flows else ctx.decodeComplete
        some (if finished then leave false state else { state with phase := .polling })

def recvDatagram (state : RecvState Peer) (peer : Peer) (bytes : List UInt8) :
    Option (RecvState Peer) :=
  let state := { state with processed := state.processed ++ [(peer, bytes)] }
  match examine env config bytes with
  | none => some { state with phase := .polling }
  | some job =>
    match state.flows.findIdx? fun ctx => ctx.flowId = job.1.flowId with
    | some i => recvEnqueue config state i job
    | none =>
      if multiMode config then
        if !canOpen env config peer job.1.flowId ∨ config.maxFlows ≤ state.flows.length then
          some { state with phase := .polling }
        else
          let path := (wireFlowOutputPath env config peer job.1.flowId).getD []
          recvEnqueue config
            { state with flows := state.flows ++ [freshCtx path job.1.flowId] }
            state.flows.length job
      else
        recvEnqueue config
          { state with
            flows := state.flows.modify 0 fun ctx => { ctx with flowId := job.1.flowId } }
          0 job

def workerEnd (decoder : WireFlowDecoderConfig) (ctx : FlowCtx) : FlowCtx :=
  if decoder.bestEffort then
    let flushed := wireFlowDecoderFlushBestEffort decoder ctx.dec
    if flushed.1 ≠ 0 then { ctx with dec := flushed.2, workerFailed := true, returned := true }
    else
      { ctx with
        dec := flushed.2
        decodeComplete := ctx.decodeComplete || flushed.2.complete
        returned := true }
  else { ctx with returned := true }

def workerPass (decoder : WireFlowDecoderConfig) (ctx : FlowCtx) : Option FlowCtx :=
  if ctx.returned then none
  else
    match ctx.queue with
    | [] => if ctx.recvDone then some (workerEnd decoder ctx) else none
    | job :: rest =>
      let ingested := wireFlowDecoderIngest decoder ctx.dec job.1 job.2
      let ctx := { ctx with queue := rest, dec := ingested.2 }
      if ingested.1 ≠ 0 then
        some { ctx with workerFailed := true, recvDone := true, returned := true }
      else some { ctx with decodeComplete := ctx.decodeComplete || ingested.2.complete }

/-- `wire_append_decode_mark`, for a flow that is complete. -/
def appendMark (time : Nat) (ctx : FlowCtx) : FlowCtx :=
  if ctx.dec.endSeen ∧ ctx.dec.nextEmitBlock = ctx.dec.endBlockCount ∧ config.decodeMark ∧
      ctx.dec.stats.decodedBlocks ≠ 0 then
    { ctx with
      marks := ctx.marks ++ [env.markLine time ctx.dec.stats.decodedBlocks ctx.flowId] }
  else ctx

def recvStep (state : RecvState Peer) : RecvEvent Peer → Option (RecvState Peer)
  | .poll ready idle =>
    if state.phase = .polling then some (recvPoll ready idle state) else none
  | .datagram peer bytes =>
    if state.phase = .receiving then recvDatagram env config state peer bytes else none
  | .socketFails =>
    if state.phase = .polling ∨ state.phase = .receiving then some (leave true state) else none
  | .work i =>
    match (state.flows[i]?).bind (workerPass (decoderConfig env config)) with
    | none => none
    | some ctx => some { state with flows := state.flows.set i ctx }
  | .report time =>
    if state.phase = .left false ∧ state.flows.all (fun ctx => ctx.returned) then
      some { state with flows := state.flows.map (appendMark env config time), phase := .reported }
    else none

end Loop

end MultiFlow.WireUdp
