import MultiFlow.Bats.RelayLoop
import MultiFlow.Lib.FileWrites

/-!
# The destination of `bats_line`

The packet handler `dest_on_packet`, the pass of `run_dest` over an empty queue and the decode
workers.  What a thread does while it holds the mutex is one step.  A worker decodes without the
mutex and writes with as many calls of `pwrite` as it takes; other threads can run between any two
of them.  A worker that has nothing to claim sleeps, which is a disabled step.

`bats_decode`, `gf_axpy` and opening a file belong to the environment.  Allocations succeed.  A
`GenBuf` is known by its address; addresses are not used again.  `touched` and `finished` are only
used below `n_gens`.  `trace` is the history that the statements are about.
-/

namespace MultiFlow.Bats

open Lib Wire

structure DestConfig where
  K : Nat
  T : Nat
  seed : UInt64
  idleSec : Nat
  expectFlows : Nat
  deriving DecidableEq, Repr

def DestConfig.genBytes (config : DestConfig) : Nat := config.K * config.T

structure Symbol where
  batch : Nat
  index : Nat
  coded : CodedPacket
  deriving DecidableEq, Repr

inductive GenPhase where
  | filling
  | queued
  | decoding
  deriving DecidableEq, Repr

structure GenBuf where
  addr : Nat
  flowId : Nat
  genId : Nat
  phase : GenPhase
  flowI : Option Nat
  symbols : List Symbol
  deriving DecidableEq, Repr

/-- `file` is the content of the flow's output file. -/
structure DestFlow where
  flowId : Nat
  file : List UInt8
  haveMeta : Bool
  endSeen : Bool
  fileSize : Nat
  kPkts : Nat
  nBatches : Nat
  nGens : Nat
  dataPkts : Nat
  nDone : Nat
  touched : Nat → Bool
  finished : Nat → Bool

/-- Where a worker is: in its waiting loop, before `bats_decode`, between two calls of `pwrite`, or
before it takes the mutex again. -/
inductive DestWorker where
  | idle
  | decoding (addr : Nat) (flowI : Option Nat) (fileSize genId : Nat)
  | writing (addr : Nat) (flowI : Option Nat) (genId : Nat) (rest : List UInt8) (offset : Nat)
  | finishing (addr : Nat) (flowI : Option Nat) (genId : Nat) (ok : Bool)
  | returned
  deriving DecidableEq, Repr

inductive DestMark where
  | decoded (flowId genId : Nat)
  | wrote (flowId genId offset : Nat) (bytes : List UInt8)
  deriving DecidableEq, Repr

structure DestState where
  gens : List GenBuf
  nextAddr : Nat
  flows : List DestFlow
  spareFd : Bool
  stop : Bool
  failed : Bool
  workers : Nat → DestWorker
  status : LoopStatus
  trace : List DestMark

/-- `decode` returns the block and the two counts of solved symbols if it reports success. -/
structure DestEnv where
  decode : List (Nat × CodedPacket) → Nat → Nat → UInt64 → Option (List UInt8 × Nat × Nat)
  axpy : List UInt8 → List UInt8 → UInt8 → List UInt8
  opens : Nat → Bool

inductive DestEvent where
  | packet (buf : List UInt8)
  | poll (elapsedMs : Nat)
  | claim (worker : Nat)
  | decode (worker : Nat)
  | write (worker count : Nat)
  | writeFails (worker : Nat)
  | finish (worker : Nat)
  deriving DecidableEq, Repr

def DestState.initial : DestState :=
  ⟨[], 0, [], true, false, false, fun _ => .idle, .running, []⟩

def precodeParityCount (K : Nat) : Nat :=
  if K < 1 then 0
  else
    let p := (K * 2 + 97) / 98
    if p < 1 then 1 else p

def precodeK (K : Nat) : Nat := K + precodeParityCount K

def precodeCoeff (seed : UInt64) (parity info : Nat) : UInt8 :=
  let x := seed ^^^ (0x9E3779B97F4A7C15 * UInt64.ofNat (parity + 1))
  let x := x ^^^ (UInt64.ofNat info * 0xBF58476D1CE4E5B9)
  let x := x * 0x94D049BB133111EB
  let x := x ^^^ (x >>> 31)
  (x ||| 1).toUInt8

def precodeMatches (env : DestEnv) (config : DestConfig) (block : List UInt8) : Bool :=
  let packet (i : Nat) := (block.drop (i * config.T)).take config.T
  (List.range (precodeParityCount config.K)).all fun p =>
    (List.range config.K).foldl
      (fun dst i => env.axpy dst (packet i) (precodeCoeff config.seed p i))
      (List.replicate config.T 0) == packet (config.K + p)

def DestFlow.fresh (flowId : Nat) : DestFlow :=
  ⟨flowId, [], false, false, 0, 0, 0, 0, 0, 0, fun _ => false, fun _ => false⟩

/-- The flow's index.  A new flow opens its output file; flow 0 takes over the one that is open. -/
def destFlowGet (env : DestEnv) (state : DestState) (flowId : Nat) : Option (Nat × DestState) :=
  match state.flows.findIdx? fun flow => flow.flowId = flowId with
  | some i => some (i, state)
  | none =>
    let opened := { state with flows := state.flows ++ [.fresh flowId] }
    if BATS_MAX_FLOWS ≤ state.flows.length then none
    else if flowId = 0 ∧ state.spareFd then some (state.flows.length, { opened with spareFd := false })
    else if env.opens flowId then some (state.flows.length, opened)
    else none

def destBindMeta (pkt : LinePacket) (flow : DestFlow) : DestFlow :=
  if pkt.kPkts = 0 ∨ flow.haveMeta then flow
  else
    { flow with
      fileSize := pkt.fileSize
      kPkts := pkt.kPkts
      nBatches := pkt.nBatches
      nGens := pkt.nGens
      haveMeta := true
      touched := fun _ => false
      finished := fun _ => false }

def updateDestFlow (state : DestState) (i : Nat) (change : DestFlow → DestFlow) : DestState :=
  { state with flows := state.flows.modify i change }

def headerMismatch (config : DestConfig) (flow : DestFlow) : Bool :=
  flow.haveMeta && decide ((BitVec.ofNat 32 flow.kPkts).toInt ≠ (precodeK config.K : Int))

def updateGen (gens : List GenBuf) (addr : Nat) (change : GenBuf → GenBuf) : List GenBuf :=
  gens.map fun g => if g.addr = addr then change g else g

def genFind (state : DestState) (flowId genId : Nat) : GenBuf × DestState :=
  match state.gens.find? fun g => g.flowId = flowId ∧ g.genId = genId with
  | some g => (g, state)
  | none =>
    let g := ⟨state.nextAddr, flowId, genId, .filling, none, []⟩
    (g, { state with gens := g :: state.gens, nextAddr := state.nextAddr + 1 })

def genAdd (symbol : Symbol) (g : GenBuf) : GenBuf :=
  if g.symbols.any fun old => old.batch = symbol.batch ∧ old.index = symbol.index then g
  else { g with symbols := g.symbols ++ [symbol] }

def genComplete (batsM : Nat) (flow : DestFlow) (g : GenBuf) : Bool :=
  decide (0 < flow.nBatches) && decide (flow.nBatches * batsM ≤ g.symbols.length)

def countData (flow : DestFlow) : DestFlow := { flow with dataPkts := flow.dataPkts + 1 }

def touch (gen : Nat) (flow : DestFlow) : DestFlow :=
  if gen < flow.nGens then { flow with touched := Function.update flow.touched gen true } else flow

/-- The jump to the end of `run_dest` after a failure of the handler. -/
def DestState.abort (state : DestState) : DestState :=
  { state with failed := true, stop := true, status := .failed }

/-- A packet for a generation that is still being filled. -/
def destStore (batsM i : Nat) (pkt : LinePacket) (flow : DestFlow) (g : GenBuf)
    (state : DestState) : DestState :=
  let state := updateDestFlow state i fun flow => touch pkt.key.gen (countData flow)
  let filled := genAdd ⟨pkt.key.batch, pkt.index, pkt.coded⟩ { g with flowI := some i }
  let state := { state with gens := updateGen state.gens g.addr fun _ => filled }
  if genComplete batsM flow filled then
    { state with gens := updateGen state.gens g.addr fun g => { g with phase := .queued } }
  else state

def destOnData (batsM i : Nat) (pkt : LinePacket) (flow : DestFlow) (state : DestState) :
    DestState :=
  let gen := pkt.key.gen
  if gen < flow.nGens ∧ flow.finished gen then updateDestFlow state i countData
  else if 0 < flow.nGens ∧ flow.nGens ≤ gen then updateDestFlow state i countData
  else
    match genFind state pkt.key.flowId gen with
    | (g, state) =>
      if g.phase ≠ .filling then updateDestFlow state i countData
      else destStore batsM i pkt flow g state

def destOnPacket (env : DestEnv) (config : DestConfig) (batsM : Nat) (state : DestState)
    (buf : List UInt8) : DestState :=
  let pkt := lineFields batsM buf
  if buf.length < BATS_LINE_HDR ∨ field buf 0 4 ≠ BATS_LINE_MAGIC ∨
      buf.getD 4 0 ≠ BATS_LINE_VERSION then state
  else
    match destFlowGet env state pkt.key.flowId with
    | none => state.abort
    | some (i, state) =>
      if buf.getD 5 0 = BATS_LINE_END then
        let state := updateDestFlow state i fun flow =>
          { destBindMeta pkt flow with endSeen := true }
        if (state.flows[i]?).any (headerMismatch config) then state.abort else state
      else if buf.getD 5 0 ≠ BATS_LINE_DATA then state
      else if pkt.symbolSize ≠ config.T ∨ batsM ≤ pkt.index ∨
          buf.length < BATS_LINE_HDR + pkt.symbolSize then state
      else
        let state := updateDestFlow state i (destBindMeta pkt)
        match state.flows[i]? with
        | none => state
        | some flow =>
          if headerMismatch config flow then state.abort
          else destOnData batsM i pkt flow state

def destAllDone (config : DestConfig) (flows : List DestFlow) : Bool :=
  let expect := if 0 < config.expectFlows then config.expectFlows else 1
  flows.all (fun flow =>
    flow.haveMeta && decide ((flow.nDone : Int) = (BitVec.ofNat 32 flow.nGens).toInt)) &&
  decide (expect ≤ flows.length)

def destFlowsEnded (config : DestConfig) (flows : List DestFlow) : Bool :=
  let expect := if 0 < config.expectFlows then config.expectFlows else 1
  flows.all (fun flow => flow.endSeen) && decide (expect ≤ flows.length)

/-- A flow all of whose packets have come needs no END. -/
def noteAllReceived (batsM : Nat) (flow : DestFlow) : DestFlow :=
  let expectPkts := flow.nGens * flow.nBatches * batsM % 2 ^ 64
  if flow.endSeen ∨ !flow.haveMeta then flow
  else if 0 < expectPkts ∧ expectPkts ≤ flow.dataPkts then { flow with endSeen := true }
  else flow

def submitGen (batsM : Nat) (giveUp : Bool) (flows : List DestFlow) (g : GenBuf) : GenBuf :=
  if g.phase ≠ .filling then g
  else
    match g.flowI with
    | none => g
    | some i =>
      if (flows[i]?).any (fun flow => genComplete batsM flow g) || giveUp then
        { g with phase := .queued }
      else g

def destSubmit (batsM : Nat) (giveUp : Bool) (state : DestState) : DestState :=
  { state with gens := state.gens.map (submitGen batsM giveUp state.flows) }

def hasUntouched (flow : DestFlow) : Bool :=
  flow.endSeen && (List.range flow.nGens).any fun gen => !flow.touched gen

def destPoll (config : DestConfig) (batsM : Nat) (state : DestState) (elapsedMs : Nat) :
    DestState :=
  let state := { state with flows := state.flows.map (noteAllReceived batsM) }
  let ended := destFlowsEnded config state.flows
  let due := decide (0 < config.idleSec ∧ idleDeadlineMs config.idleSec ended ≤ elapsedMs)
  let state := destSubmit batsM (ended && decide (config.idleSec * 1000 ≤ elapsedMs)) state
  if state.failed then { state with stop := true, status := .failed }
  else if destAllDone config state.flows then { state with stop := true, status := .exited }
  else if due && !ended then { state with stop := true, status := .failed }
  -- The counts that `run_dest` compares after this loop cannot fall short: every flow has ended.
  else if due && state.flows.any hasUntouched then state.abort
  else state

def setDestWorker (state : DestState) (w : Nat) (worker : DestWorker) : DestState :=
  { state with workers := Function.update state.workers w worker }

def destClaim (state : DestState) (w : Nat) : Option DestState :=
  if state.stop ∨ state.failed then some (setDestWorker state w .returned)
  else
    match state.gens.find? fun g => g.phase = .queued with
    | none => none
    | some g =>
      let flowI := g.flowI.filter fun i => i < state.flows.length
      let fileSize := ((flowI.bind fun i => state.flows[i]?).map DestFlow.fileSize).getD 0
      some (setDestWorker
        { state with gens := updateGen state.gens g.addr fun g => { g with phase := .decoding } }
        w (.decoding g.addr flowI fileSize g.genId))

/-- `decode_gen` up to the write: the offset and the bytes to write. -/
def decodeGen (env : DestEnv) (config : DestConfig) (fileSize : Nat) (g : GenBuf) :
    Option (Nat × List UInt8) :=
  let codedK := precodeK config.K
  match env.decode (g.symbols.map fun s => (s.batch, s.coded)) codedK config.T config.seed with
  | none => none
  | some (block, bp, inact) =>
    if bp + inact ≠ codedK ∨ !precodeMatches env config block then none
    else
      let off := g.genId * config.genBytes
      let chunk :=
        if fileSize ≤ off then 0
        else if fileSize - off < config.genBytes then fileSize - off
        else config.genBytes
      some (off, block.take chunk)

def destDecode (env : DestEnv) (config : DestConfig) (state : DestState) (w addr : Nat)
    (flowI : Option Nat) (fileSize genId : Nat) : Option DestState :=
  match state.gens.find? fun g => g.addr = addr with
  | none => none
  | some g =>
    let state := { state with trace := state.trace ++ [.decoded g.flowId g.genId] }
    match decodeGen env config fileSize g with
    | none => some (setDestWorker state w (.finishing addr flowI genId false))
    | some (off, bytes) =>
      if bytes = [] then some (setDestWorker state w (.finishing addr flowI genId true))
      else some (setDestWorker state w (.writing addr flowI genId bytes off))

/-- One call of `pwrite`, which takes `count` bytes.  Without a flow the descriptor is -1. -/
def destWrite (state : DestState) (w count addr : Nat) (flowI : Option Nat) (genId : Nat)
    (rest : List UInt8) (offset : Nat) : Option DestState :=
  match flowI.bind fun i => (state.flows[i]?).map fun flow => (i, flow) with
  | none => some (setDestWorker state w (.finishing addr flowI genId false))
  | some (i, flow) =>
    if count = 0 ∨ rest.length < count then none
    else
      let bytes := rest.take count
      let state := updateDestFlow state i fun flow =>
        { flow with file := pwrite 0 flow.file offset bytes }
      let state :=
        { state with trace := state.trace ++ [.wrote flow.flowId genId offset bytes] }
      if rest.drop count = [] then some (setDestWorker state w (.finishing addr flowI genId true))
      else some (setDestWorker state w
        (.writing addr flowI genId (rest.drop count) (offset + count)))

def finishGen (genId : Nat) (flow : DestFlow) : DestFlow :=
  let flow := { flow with nDone := flow.nDone + 1 }
  if genId < flow.nGens then { flow with finished := Function.update flow.finished genId true }
  else flow

def destFinish (state : DestState) (w addr : Nat) (flowI : Option Nat) (genId : Nat) (ok : Bool) :
    DestState :=
  let state :=
    if ok then
      match flowI with
      | none => state
      | some i => updateDestFlow state i (finishGen genId)
    else { state with failed := true }
  setDestWorker { state with gens := state.gens.filter fun g => g.addr ≠ addr } w .idle

def destStep (env : DestEnv) (config : DestConfig) (batsM nWorkers : Nat) (state : DestState) :
    DestEvent → Option DestState
  | .packet buf =>
    if state.status ≠ .running then none else some (destOnPacket env config batsM state buf)
  | .poll elapsedMs =>
    if state.status ≠ .running then none else some (destPoll config batsM state elapsedMs)
  | .claim w =>
    if w < nWorkers ∧ state.workers w = .idle then destClaim state w else none
  | .decode w =>
    match state.workers w with
    | .decoding addr flowI fileSize genId =>
      destDecode env config state w addr flowI fileSize genId
    | _ => none
  | .write w count =>
    match state.workers w with
    | .writing addr flowI genId rest offset =>
      destWrite state w count addr flowI genId rest offset
    | _ => none
  | .writeFails w =>
    match state.workers w with
    | .writing addr flowI genId _ _ =>
      some (setDestWorker state w (.finishing addr flowI genId false))
    | _ => none
  | .finish w =>
    match state.workers w with
    | .finishing addr flowI genId ok => some (destFinish state w addr flowI genId ok)
    | _ => none

end MultiFlow.Bats
