import MultiFlow.Bats.Dest
import MultiFlow.Bats.RelayExit

/-!
# What the destination of `bats_line` writes

The invariant says of each generation of each flow whether it was never tried, is in the hands of
one worker, or is finished and written.  When all generations are finished, the output is the file.
-/

namespace MultiFlow.Bats

open Lib Wire List

def genCount (config : DestConfig) (size : Nat) : Nat :=
  if size = 0 then 0 else (size + config.genBytes - 1) / config.genBytes

def generation (config : DestConfig) (file : List UInt8) (gen : Nat) : List UInt8 :=
  (file.drop (gen * config.genBytes)).take config.genBytes

variable (cfg : DestConfig)

theorem length_generation (file : List UInt8) (gen : Nat) :
    (generation cfg file gen).length = min cfg.genBytes (file.length - gen * cfg.genBytes) := by
  unfold generation
  rw [length_take, length_drop]

variable {pos : Nat} {mark : DestMark}

theorem getElem?_generation (file : List UInt8) (gen : Nat) (low : gen * cfg.genBytes ≤ pos)
    (high : pos < gen * cfg.genBytes + (generation cfg file gen).length) :
    (generation cfg file gen)[pos - gen * cfg.genBytes]? = file[pos]? := by
  rw [length_generation] at high
  unfold generation
  rw [List.getElem?_take_of_lt (by omega), List.getElem?_drop]
  congr 1
  omega

theorem exists_generation (file : List UInt8) (positive : 0 < cfg.genBytes)
    (inside : pos < file.length) :
    ∃ gen < genCount cfg file.length, gen * cfg.genBytes ≤ pos ∧
      pos < gen * cfg.genBytes + (generation cfg file gen).length := by
  have low := Nat.div_mul_le_self pos cfg.genBytes
  have high := Nat.lt_div_mul_add positive (a := pos)
  refine ⟨pos / cfg.genBytes, ?_, low, ?_⟩
  · unfold genCount
    rw [if_neg (by omega), Nat.div_lt_iff_lt_mul positive]
    have whole := Nat.div_add_mod (file.length + cfg.genBytes - 1) cfg.genBytes
    have rest := Nat.mod_lt (file.length + cfg.genBytes - 1) positive
    rw [Nat.mul_comm] at whole
    omega
  · rw [length_generation]
    omega

theorem genCount_le (size : Nat) (pos : 0 < cfg.genBytes) : genCount cfg size ≤ size := by
  unfold genCount
  split_ifs with empty
  · omega
  refine Nat.div_le_of_le_mul ?_
  obtain ⟨more, more_eq⟩ : ∃ more, cfg.genBytes = more + 1 := ⟨cfg.genBytes - 1, by omega⟩
  obtain ⟨larger, rfl⟩ := Nat.exists_eq_succ_of_ne_zero empty
  have product : (more + 1) * (larger + 1) = more * larger + more + larger + 1 := by ring
  rw [more_eq, Nat.succ_eq_add_one, product]
  omega

def DestMark.key : DestMark → Nat × Nat
  | .decoded flowId genId => (flowId, genId)
  | .wrote flowId genId _ _ => (flowId, genId)

def attempts (trace : List DestMark) (flowId genId : Nat) : Nat :=
  trace.count (.decoded flowId genId)

def DestMark.write? (flowId genId : Nat) : DestMark → Option (Nat × List UInt8)
  | .decoded _ _ => none
  | .wrote flow gen offset bytes =>
    if flow = flowId ∧ gen = genId then some (offset, bytes) else none

def writes (trace : List DestMark) (flowId genId : Nat) : List (Nat × List UInt8) :=
  trace.filterMap (DestMark.write? flowId genId)

def Untried (trace : List DestMark) (flowId genId : Nat) : Prop :=
  attempts trace flowId genId = 0 ∧ writes trace flowId genId = []

variable {trace : List DestMark} {flowId genId : Nat}

theorem attempts_append_other (apart : mark.key ≠ (flowId, genId)) :
    attempts (trace ++ [mark]) flowId genId = attempts trace flowId genId := by
  unfold attempts
  have absent : DestMark.decoded flowId genId ∉ [mark] := by
    intro mem
    rw [← mem_singleton.mp mem] at apart
    exact apart rfl
  rw [count_append, count_eq_zero_of_not_mem absent, Nat.add_zero]

theorem writes_append_other (apart : mark.key ≠ (flowId, genId)) :
    writes (trace ++ [mark]) flowId genId = writes trace flowId genId := by
  unfold writes
  rw [filterMap_append]
  cases mark with
  | decoded => simp [DestMark.write?]
  | wrote flow gen =>
    have other : ¬ (flow = flowId ∧ gen = genId) := fun ⟨l, r⟩ => apart (by rw [l, r]; rfl)
    simp [DestMark.write?, other]

theorem attempts_append_decoded (trace : List DestMark) (flowId genId : Nat) :
    attempts (trace ++ [.decoded flowId genId]) flowId genId = attempts trace flowId genId + 1 := by
  unfold attempts
  rw [count_append, count_singleton_self]

theorem writes_append_decoded (trace : List DestMark) (flowId genId : Nat) :
    writes (trace ++ [.decoded flowId genId]) flowId genId = writes trace flowId genId := by
  unfold writes
  rw [filterMap_append]
  simp [DestMark.write?]

theorem attempts_append_wrote (trace : List DestMark) (flowId genId off : Nat)
    (bytes : List UInt8) :
    attempts (trace ++ [.wrote flowId genId off bytes]) flowId genId =
      attempts trace flowId genId := by
  unfold attempts
  have absent : DestMark.decoded flowId genId ∉ [DestMark.wrote flowId genId off bytes] := by simp
  rw [count_append, count_eq_zero_of_not_mem absent, Nat.add_zero]

theorem writes_append_wrote (trace : List DestMark) (flowId genId off : Nat) (bytes : List UInt8) :
    writes (trace ++ [.wrote flowId genId off bytes]) flowId genId =
      writes trace flowId genId ++ [(off, bytes)] := by
  unfold writes
  rw [filterMap_append]
  simp [DestMark.write?]

theorem Untried.of_unmarked (unmarked : ∀ mark ∈ trace, mark.key ≠ (flowId, genId)) :
    Untried trace flowId genId := by
  refine ⟨count_eq_zero_of_not_mem fun mem => unmarked _ mem rfl, ?_⟩
  unfold writes
  rw [filterMap_eq_nil_iff]
  intro mark mem
  cases mark with
  | decoded => rfl
  | wrote flow gen =>
    have other : ¬ (flow = flowId ∧ gen = genId) := fun ⟨l, r⟩ => unmarked _ mem (by rw [l, r]; rfl)
    simp [DestMark.write?, other]

/-- What a worker has in hand: the address of a generation, its flow and its number. -/
def DestWorker.job : DestWorker → Option (Nat × Option Nat × Nat)
  | .idle => none
  | .decoding addr flowI _ genId => some (addr, flowI, genId)
  | .writing addr flowI genId _ _ => some (addr, flowI, genId)
  | .finishing addr flowI genId _ => some (addr, flowI, genId)
  | .returned => none

section Invariant

variable (config : DestConfig) (files : Nat → List UInt8) (genuine : Nat → Nat → Symbol → Prop)

/-- A generation was decoded once, and its first bytes are in the file. -/
structure Written (trace : List DestMark) (flow : DestFlow) (gen : Nat) (done : List UInt8) :
    Prop where
  once : attempts trace flow.flowId gen = 1
  tiles : Tiles (gen * config.genBytes) (writes trace flow.flowId gen) done
  right : ∀ position, gen * config.genBytes ≤ position →
    position < gen * config.genBytes + done.length →
    flow.file[position]? = (files flow.flowId)[position]?

/-- The header fields of a flow are those of its source, which `run_source` has checked. -/
structure MetaOk (flow : DestFlow) : Prop where
  fileSize_eq : flow.fileSize = (files flow.flowId).length
  nGens_eq : flow.nGens = genCount config (files flow.flowId).length
  positive : 0 < config.genBytes
  small : (files flow.flowId).length ≤ 0x7fffffff

structure FlowOk (trace : List DestMark) (flow : DestFlow) : Prop where
  short : flow.file.length ≤ (files flow.flowId).length
  known : flow.haveMeta = true → MetaOk config files flow
  bare : flow.haveMeta = false → flow.nGens = 0 ∧ ∀ gen, flow.finished gen = false
  count : flow.nDone = ((Finset.range flow.nGens).filter fun gen => flow.finished gen = true).card
  written : ∀ gen, flow.finished gen = true →
    Written config files trace flow gen (generation config (files flow.flowId) gen)

structure Pending (flows : List DestFlow) (g : GenBuf) (i : Nat) (flow : DestFlow) : Prop where
  flow_eq : flows[i]? = some flow
  flowId_eq : flow.flowId = g.flowId
  haveMeta : flow.haveMeta = true
  inside : g.genId < flow.nGens
  unfinished : flow.finished g.genId = false
  symbols : ∀ symbol ∈ g.symbols, genuine g.flowId g.genId symbol

def GenOk (flows : List DestFlow) (g : GenBuf) : Prop :=
  match g.flowI with
  | none => g.phase = .filling ∧ g.symbols = []
  | some i => ∃ flow, Pending genuine flows g i flow

/-- A worker's job is a generation of the table that is being decoded. -/
structure Holds (state : DestState) (addr : Nat) (flowI : Option Nat) (genId i : Nat)
    (flow : DestFlow) : Prop where
  flow_eq : state.flows[i]? = some flow
  flowI_eq : flowI = some i
  gen : ∃ g ∈ state.gens, g.addr = addr ∧ g.phase = .decoding ∧ g.flowI = some i ∧ g.genId = genId

def WorkerOk (state : DestState) : DestWorker → Prop
  | .idle => True
  | .returned => True
  | .decoding addr flowI fileSize genId => ∃ i flow, Holds state addr flowI genId i flow ∧
      fileSize = (files flow.flowId).length ∧ Untried state.trace flow.flowId genId
  | .writing addr flowI genId rest offset => ∃ i flow, Holds state addr flowI genId i flow ∧
      ∃ done, generation config (files flow.flowId) genId = done ++ rest ∧
        offset = genId * config.genBytes + done.length ∧
        Written config files state.trace flow genId done
  | .finishing addr flowI genId ok => ∃ i flow, Holds state addr flowI genId i flow ∧
      (ok = true → Written config files state.trace flow genId
        (generation config (files flow.flowId) genId))

structure DestSound (state : DestState) : Prop where
  flowOk : ∀ (i : Nat) (flow : DestFlow), state.flows[i]? = some flow →
    FlowOk config files state.trace flow
  distinct : ∀ (i j : Nat) (flow other : DestFlow), state.flows[i]? = some flow →
    state.flows[j]? = some other → flow.flowId = other.flowId → i = j
  addr_lt : ∀ g ∈ state.gens, g.addr < state.nextAddr
  addrs : ∀ g ∈ state.gens, ∀ h ∈ state.gens, g.addr = h.addr → g = h
  keys : ∀ g ∈ state.gens, ∀ h ∈ state.gens, g.flowId = h.flowId → g.genId = h.genId → g = h
  genOk : ∀ g ∈ state.gens, GenOk genuine state.flows g
  working : ∀ w, WorkerOk config files state (state.workers w)
  alone : ∀ w v addr flowI flowJ genId genJ, (state.workers w).job = some (addr, flowI, genId) →
    (state.workers v).job = some (addr, flowJ, genJ) → w = v
  quiet : ∀ (i : Nat) (flow : DestFlow) (gen : Nat), state.flows[i]? = some flow →
    flow.finished gen = false → state.failed = true ∨ (∃ w addr, (state.workers w).job = some (addr, some i, gen)) ∨
      Untried state.trace flow.flowId gen
  marks : ∀ mark ∈ state.trace, ∃ (i : Nat) (flow : DestFlow), state.flows[i]? = some flow ∧
    flow.flowId = mark.key.1

theorem DestSound.initial : DestSound config files genuine .initial where
  flowOk := nofun
  distinct := nofun
  addr_lt := nofun
  addrs := nofun
  keys := nofun
  genOk := nofun
  working := fun _ => trivial
  alone := nofun
  quiet := nofun
  marks := nofun

end Invariant

section Steps

variable {config : DestConfig} {files : Nat → List UInt8} {genuine : Nat → Nat → Symbol → Prop}
  {st : DestState}

/-- A change of a flow that concerns neither its output nor its finished generations. -/
structure Keeps (config : DestConfig) (files : Nat → List UInt8) (flow after : DestFlow) :
    Prop where
  flowId_eq : after.flowId = flow.flowId
  file_eq : after.file = flow.file
  nDone_eq : after.nDone = flow.nDone
  finished_eq : ∀ gen, after.finished gen = flow.finished gen
  kept : flow.haveMeta = true →
    after.haveMeta = true ∧ after.nGens = flow.nGens ∧ after.fileSize = flow.fileSize
  known : flow.haveMeta = false → after.haveMeta = true → MetaOk config files after
  bare : after.haveMeta = false → after.nGens = flow.nGens

theorem Keeps.refl (flow : DestFlow) : Keeps config files flow flow where
  flowId_eq := rfl
  file_eq := rfl
  nDone_eq := rfl
  finished_eq := fun _ => rfl
  kept := fun known => ⟨known, rfl, rfl⟩
  known := by
    intro unknown known
    rw [unknown] at known
    cases known
  bare := fun _ => rfl

variable {trace : List DestMark} {flow after : DestFlow} {flows : List DestFlow} {g : GenBuf}
  {i batsM : Nat} {buf : List UInt8}

theorem Written.congr {gen : Nat} {done : List UInt8}
    (written : Written config files trace flow gen done) (flowId_eq : after.flowId = flow.flowId)
    (file_eq : after.file = flow.file) : Written config files trace after gen done := by
  obtain ⟨once, tiles, right⟩ := written
  refine ⟨?_, ?_, ?_⟩
  · rw [flowId_eq]
    exact once
  · rw [flowId_eq]
    exact tiles
  · rw [flowId_eq, file_eq]
    exact right

theorem FlowOk.keeps (ok : FlowOk config files trace flow) (keeps : Keeps config files flow after) :
    FlowOk config files trace after where
  short := by
    rw [keeps.file_eq, keeps.flowId_eq]
    exact ok.short
  known := by
    intro known
    cases before : flow.haveMeta with
    | false => exact keeps.known before known
    | true =>
      obtain ⟨-, nGens_eq, fileSize_eq⟩ := keeps.kept before
      obtain ⟨size, gens, pos, small⟩ := ok.known before
      rw [← keeps.flowId_eq] at size gens small
      exact ⟨fileSize_eq.trans size, nGens_eq.trans gens, pos, small⟩
  bare := by
    intro unknown
    have before : flow.haveMeta = false := by
      by_contra known
      have after_known := (keeps.kept (by simpa using known)).1
      rw [unknown] at after_known
      cases after_known
    obtain ⟨none, undone⟩ := ok.bare before
    exact ⟨(keeps.bare unknown).trans none, fun gen => (keeps.finished_eq gen).trans (undone gen)⟩
  count := by
    rw [keeps.nDone_eq, ok.count]
    cases before : flow.haveMeta with
    | false =>
      have undone := (ok.bare before).2
      simp [keeps.finished_eq, undone]
    | true =>
      rw [(keeps.kept before).2.1]
      simp only [keeps.finished_eq]
  written := by
    intro gen finished
    rw [keeps.finished_eq] at finished
    rw [keeps.flowId_eq]
    exact (ok.written gen finished).congr keeps.flowId_eq keeps.file_eq

theorem GenOk.move {after : List DestFlow} (ok : GenOk genuine flows g)
    (moved : ∀ (i : Nat) (flow : DestFlow), Pending genuine flows g i flow →
      ∃ new, after[i]? = some new ∧ new.flowId = flow.flowId ∧ new.haveMeta = true ∧
        new.nGens = flow.nGens ∧ new.finished g.genId = flow.finished g.genId) :
    GenOk genuine after g := by
  unfold GenOk at ok ⊢
  cases flowI_eq : g.flowI with
  | none =>
    rw [flowI_eq] at ok
    exact ok
  | some i =>
    rw [flowI_eq] at ok
    obtain ⟨flow, pending⟩ := ok
    obtain ⟨new, here, flowId_eq, haveMeta, nGens_eq, finished_eq⟩ := moved i flow pending
    exact ⟨new, here, flowId_eq.trans pending.flowId_eq, haveMeta, nGens_eq ▸ pending.inside,
      finished_eq.trans pending.unfinished, pending.symbols⟩

variable {worker : DestWorker} {env : DestEnv}

theorem WorkerOk.transfer {after : DestState} (ok : WorkerOk config files st worker)
    (moved : ∀ addr flowI genId i flow, worker.job = some (addr, flowI, genId) →
      Holds st addr flowI genId i flow →
      ∃ new, Holds after addr flowI genId i new ∧ new.flowId = flow.flowId ∧
        (Untried st.trace flow.flowId genId → Untried after.trace flow.flowId genId) ∧
        ∀ done, Written config files st.trace flow genId done →
          Written config files after.trace new genId done) :
    WorkerOk config files after worker := by
  cases worker with
  | idle | returned => trivial
  | decoding =>
    obtain ⟨i, flow, holds, size, untried⟩ := ok
    obtain ⟨new, holdsNew, same, untriedNew, -⟩ := moved _ _ _ i flow rfl holds
    refine ⟨i, new, holdsNew, ?_, ?_⟩
    · rw [same]
      exact size
    · rw [same]
      exact untriedNew untried
  | writing =>
    obtain ⟨i, flow, holds, done, split, offset_eq, written⟩ := ok
    obtain ⟨new, holdsNew, same, -, writtenNew⟩ := moved _ _ _ i flow rfl holds
    refine ⟨i, new, holdsNew, done, ?_, offset_eq, writtenNew done written⟩
    rw [same]
    exact split
  | finishing =>
    obtain ⟨i, flow, holds, written⟩ := ok
    obtain ⟨new, holdsNew, same, -, writtenNew⟩ := moved _ _ _ i flow rfl holds
    refine ⟨i, new, holdsNew, fun succeeded => ?_⟩
    rw [same]
    exact writtenNew _ (written succeeded)

theorem Holds.of_parts {after : DestState} {addr genId : Nat} {flowI : Option Nat}
    (holds : Holds st addr flowI genId i flow) (flows_eq : after.flows = st.flows)
    (gens_eq : after.gens = st.gens) : Holds after addr flowI genId i flow :=
  ⟨flows_eq ▸ holds.flow_eq, holds.flowI_eq, gens_eq ▸ holds.gen⟩

theorem WorkerOk.of_parts {after : DestState} (ok : WorkerOk config files st worker)
    (flows_eq : after.flows = st.flows) (gens_eq : after.gens = st.gens)
    (trace_eq : after.trace = st.trace) : WorkerOk config files after worker := by
  refine ok.transfer ?_
  intro _ _ _ _ flow _ holds
  rw [trace_eq]
  exact ⟨flow, holds.of_parts flows_eq gens_eq, rfl, id, fun _ => id⟩

section Changed

variable {change : Nat → DestFlow → DestFlow}
  (each : ∀ i : Nat, flows[i]? = (st.flows[i]?).map (change i))

include each

theorem getElem?_changed :
    (∀ (i : Nat) (old : DestFlow), st.flows[i]? = some old → flows[i]? = some (change i old)) ∧
      ∀ (i : Nat) (new : DestFlow), flows[i]? = some new →
        ∃ old, st.flows[i]? = some old ∧ change i old = new := by
  refine ⟨fun i old here => ?_, fun i new here => ?_⟩
  · rw [each, here]
    rfl
  · rw [each] at here
    exact Option.map_eq_some_iff.mp here

theorem DestSound.changed_ids (sound : DestSound config files genuine st)
    (ids : ∀ (i : Nat) (old : DestFlow), st.flows[i]? = some old →
      (change i old).flowId = old.flowId) :
    (∀ (i j : Nat) (flow other : DestFlow), flows[i]? = some flow → flows[j]? = some other →
      flow.flowId = other.flowId → i = j) ∧
    ∀ mark ∈ st.trace, ∃ (i : Nat) (flow : DestFlow), flows[i]? = some flow ∧
      flow.flowId = mark.key.1 := by
  obtain ⟨moved, origin⟩ := getElem?_changed each
  refine ⟨?_, fun mark mem => ?_⟩
  · intro i j new other here there same
    obtain ⟨flow, old, rfl⟩ := origin i new here
    obtain ⟨second, older, rfl⟩ := origin j other there
    rw [ids i flow old, ids j second older] at same
    exact sound.distinct i j flow second old older same
  · obtain ⟨i, flow, old, same⟩ := sound.marks mark mem
    exact ⟨i, change i flow, moved i flow old, (ids i flow old).trans same⟩

theorem DestSound.reflow (sound : DestSound config files genuine st)
    (keeps : ∀ (i : Nat) (flow : DestFlow), st.flows[i]? = some flow →
      Keeps config files flow (change i flow)) :
    DestSound config files genuine { st with flows } := by
  obtain ⟨moved, origin⟩ := getElem?_changed each
  obtain ⟨distinct, marks⟩ := sound.changed_ids each fun i flow here => (keeps i flow here).flowId_eq
  refine { sound with distinct, marks, flowOk := ?_, genOk := ?_, working := ?_, quiet := ?_ }
  · intro i new here
    obtain ⟨flow, old, rfl⟩ := origin i new here
    exact (sound.flowOk i flow old).keeps (keeps i flow old)
  · intro g mem
    refine (sound.genOk g mem).move fun i flow pending => ?_
    have kept := keeps i flow pending.flow_eq
    obtain ⟨known, nGens_eq, -⟩ := kept.kept pending.haveMeta
    exact ⟨_, moved i flow pending.flow_eq, kept.flowId_eq, known, nGens_eq, kept.finished_eq _⟩
  · intro w
    refine (sound.working w).transfer ?_
    intro _ _ _ i flow _ holds
    have kept := keeps i flow holds.flow_eq
    exact ⟨change i flow, ⟨moved i flow holds.flow_eq, holds.flowI_eq, holds.gen⟩, kept.flowId_eq,
      id, fun done written => written.congr kept.flowId_eq kept.file_eq⟩
  · intro i new gen here undone
    obtain ⟨flow, old, rfl⟩ := origin i new here
    have kept := keeps i flow old
    rw [kept.finished_eq] at undone
    rw [kept.flowId_eq]
    exact sound.quiet i flow gen old undone

end Changed

variable (sound : DestSound config files genuine st)
include sound

theorem DestSound.update {change : DestFlow → DestFlow}
    (keeps : ∀ flow, st.flows[i]? = some flow → Keeps config files flow (change flow)) :
    DestSound config files genuine (updateDestFlow st i change) := by
  have each : ∀ j : Nat, (st.flows.modify i change)[j]? =
      (st.flows[j]?).map fun flow => if i = j then change flow else flow :=
    fun j => List.getElem?_modify _ _ _ _
  refine sound.reflow each fun j flow here => ?_
  · split_ifs with same
    · cases same
      exact keeps flow here
    · exact Keeps.refl flow

theorem DestSound.openFlow {flowId : Nat} (unknown : ∀ flow ∈ st.flows, flow.flowId ≠ flowId)
    (spareFd : Bool) :
    DestSound config files genuine { st with flows := st.flows ++ [.fresh flowId], spareFd } := by
  have extended : ∀ (i : Nat) (flow : DestFlow), st.flows[i]? = some flow →
      (st.flows ++ [DestFlow.fresh flowId])[i]? = some flow := by
    intro i flow here
    rw [List.getElem?_append_left (List.getElem?_eq_some_iff.mp here).1]
    exact here
  have origin : ∀ (i : Nat) (flow : DestFlow),
      (st.flows ++ [DestFlow.fresh flowId])[i]? = some flow →
      st.flows[i]? = some flow ∨ (i = st.flows.length ∧ flow = .fresh flowId) := by
    intro i flow here
    by_cases old : i < st.flows.length
    · rw [List.getElem?_append_left old] at here
      exact Or.inl here
    rw [List.getElem?_append_right (Nat.not_lt.mp old)] at here
    obtain ⟨inside, same⟩ := List.getElem?_eq_some_iff.mp here
    have idx : i - st.flows.length = 0 := by simpa using inside
    refine Or.inr ⟨by omega, ?_⟩
    simpa [idx] using same.symm
  have new : ∀ (i : Nat) (flow : DestFlow), st.flows[i]? = some flow →
      flow.flowId ≠ flowId := fun i flow here =>
    unknown flow (mem_of_getElem? here)
  refine { sound with
    flowOk := ?_, distinct := ?_, genOk := ?_, working := ?_, quiet := ?_, marks := ?_ }
  · intro i flow here
    obtain old | ⟨-, rfl⟩ := origin i flow here
    · exact sound.flowOk i flow old
    · exact ⟨Nat.zero_le _, nofun, fun _ => ⟨rfl, fun _ => rfl⟩, rfl, nofun⟩
  · intro i j flow other here there same
    obtain old | ⟨rfl, rfl⟩ := origin i flow here
    · obtain older | ⟨rfl, rfl⟩ := origin j other there
      · exact sound.distinct i j flow other old older same
      · exact absurd same (new i flow old)
    · obtain older | ⟨rfl, rfl⟩ := origin j other there
      · exact absurd same.symm (new j other older)
      · rfl
  · intro g mem
    exact (sound.genOk g mem).move fun i flow pending =>
      ⟨flow, extended i flow pending.flow_eq, rfl, pending.haveMeta, rfl, rfl⟩
  · intro w
    refine (sound.working w).transfer ?_
    intro _ _ _ i flow _ holds
    exact ⟨flow, ⟨extended i flow holds.flow_eq, holds.flowI_eq, holds.gen⟩, rfl, id, fun _ => id⟩
  · intro i flow gen here undone
    obtain old | ⟨rfl, rfl⟩ := origin i flow here
    · exact sound.quiet i flow gen old undone
    refine Or.inr (Or.inr (Untried.of_unmarked ?_))
    intro mark mem same
    obtain ⟨j, other, there, known⟩ := sound.marks mark mem
    rw [same] at known
    exact new j other there known
  · intro mark mem
    obtain ⟨i, flow, old, same⟩ := sound.marks mark mem
    exact ⟨i, flow, extended i flow old, same⟩

theorem DestSound.regen (change : GenBuf → GenBuf) (same : ∀ g ∈ st.gens,
      (change g).addr = g.addr ∧ (change g).flowId = g.flowId ∧ (change g).genId = g.genId)
    (ok : ∀ g ∈ st.gens, GenOk genuine st.flows (change g))
    (fixed : ∀ g ∈ st.gens, g.phase = .decoding → change g = g) :
    DestSound config files genuine { st with gens := st.gens.map change } := by
  refine { sound with addr_lt := ?_, addrs := ?_, keys := ?_, genOk := ?_, working := ?_ }
  · intro g mem
    obtain ⟨old, there, rfl⟩ := mem_map.mp mem
    rw [(same old there).1]
    exact sound.addr_lt old there
  · intro g mem h other addr_eq
    obtain ⟨left, there, rfl⟩ := mem_map.mp mem
    obtain ⟨right, here, rfl⟩ := mem_map.mp other
    rw [(same left there).1, (same right here).1] at addr_eq
    rw [sound.addrs left there right here addr_eq]
  · intro g mem _ other flowId_eq genId_eq
    obtain ⟨left, there, rfl⟩ := mem_map.mp mem
    obtain ⟨right, here, rfl⟩ := mem_map.mp other
    rw [(same left there).2.1, (same right here).2.1] at flowId_eq
    rw [(same left there).2.2, (same right here).2.2] at genId_eq
    rw [sound.keys left there right here flowId_eq genId_eq]
  · intro g mem
    obtain ⟨old, there, rfl⟩ := mem_map.mp mem
    exact ok old there
  · intro w
    refine (sound.working w).transfer ?_
    intro _ _ _ _ flow _ holds
    obtain ⟨g, mem, addr_eq, decoding, rest⟩ := holds.gen
    refine ⟨flow, ⟨holds.flow_eq, holds.flowI_eq, g, ?_, addr_eq, decoding, rest⟩, rfl, id,
      fun _ => id⟩
    exact mem_map.mpr ⟨g, mem, fixed g mem decoding⟩

theorem DestSound.updateGen (change : GenBuf → GenBuf) {new : GenBuf} (mem : g ∈ st.gens)
    (idle : g.phase ≠ .decoding) (change_eq : change g = new)
    (same : new.addr = g.addr ∧ new.flowId = g.flowId ∧ new.genId = g.genId)
    (ok : GenOk genuine st.flows new) :
    DestSound config files genuine { st with gens := Bats.updateGen st.gens g.addr change } := by
  have only : ∀ h ∈ st.gens, h.addr = g.addr → h = g := fun h there addr_eq =>
    sound.addrs h there g mem addr_eq
  refine sound.regen (fun h => if h.addr = g.addr then change h else h) ?_ ?_ ?_
  · intro h there
    split_ifs with addr_eq
    · rw [only h there addr_eq, change_eq]
      exact same
    · exact ⟨rfl, rfl, rfl⟩
  · intro h there
    split_ifs with addr_eq
    · rw [only h there addr_eq, change_eq]
      exact ok
    · exact sound.genOk h there
  · intro h there decoding
    split_ifs with addr_eq
    · rw [only h there addr_eq] at decoding
      exact absurd decoding idle
    · rfl

theorem DestSound.genFind (flowId genId : Nat) :
    DestSound config files genuine (Bats.genFind st flowId genId).2 ∧
      (Bats.genFind st flowId genId).1 ∈ (Bats.genFind st flowId genId).2.gens ∧
      (Bats.genFind st flowId genId).1.flowId = flowId ∧
      (Bats.genFind st flowId genId).1.genId = genId ∧
      (Bats.genFind st flowId genId).2.flows = st.flows := by
  unfold Bats.genFind
  split
  next g found =>
    have key := List.find?_some found
    simp only [decide_eq_true_eq] at key
    exact ⟨sound, mem_of_find?_eq_some found, key.1, key.2, rfl⟩
  rename_i absent
  refine ⟨?_, mem_cons_self, rfl, rfl, rfl⟩
  have fresh : ∀ g ∈ st.gens, ¬ (g.flowId = flowId ∧ g.genId = genId) := by
    intro g mem
    simpa using List.find?_eq_none.mp absent g mem
  refine { sound with addr_lt := ?_, addrs := ?_, keys := ?_, genOk := ?_, working := ?_ }
  · intro g mem
    obtain rfl | old := mem_cons.mp mem
    · exact Nat.lt_succ_self _
    · exact Nat.lt_succ_of_lt (sound.addr_lt g old)
  · intro g mem h other addr_eq
    obtain rfl | left := mem_cons.mp mem
    · obtain rfl | right := mem_cons.mp other
      · rfl
      · exact absurd addr_eq (sound.addr_lt h right).ne'
    · obtain rfl | right := mem_cons.mp other
      · exact absurd addr_eq (sound.addr_lt g left).ne
      · exact sound.addrs g left h right addr_eq
  · intro g mem h other flowId_eq genId_eq
    obtain rfl | left := mem_cons.mp mem
    · obtain rfl | right := mem_cons.mp other
      · rfl
      · exact absurd ⟨flowId_eq.symm, genId_eq.symm⟩ (fresh h right)
    · obtain rfl | right := mem_cons.mp other
      · exact absurd ⟨flowId_eq, genId_eq⟩ (fresh g left)
      · exact sound.keys g left h right flowId_eq genId_eq
  · intro g mem
    obtain rfl | old := mem_cons.mp mem
    · exact ⟨rfl, rfl⟩
    · exact sound.genOk g old
  · intro w
    refine (sound.working w).transfer ?_
    intro _ _ _ _ flow _ holds
    obtain ⟨g, mem, rest⟩ := holds.gen
    exact ⟨flow, ⟨holds.flow_eq, holds.flowI_eq, g, mem_cons_of_mem _ mem, rest⟩, rfl,
      id, fun _ => id⟩

omit sound

/-- A datagram of the source of its flow: the header says the parameters that `run_source` has
checked, and DATA carries a symbol of a generation of the file. -/
structure HonestLine (config : DestConfig) (files : Nat → List UInt8)
    (genuine : Nat → Nat → Symbol → Prop) (batsM : Nat) (buf : List UInt8) : Prop where
  positive : 0 < config.K ∧ 0 < config.T
  small : (files (lineFields batsM buf).key.flowId).length ≤ 0x7fffffff
  fileSize_eq : (lineFields batsM buf).fileSize =
    (files (lineFields batsM buf).key.flowId).length
  kPkts_eq : (lineFields batsM buf).kPkts = precodeK config.K
  nGens_eq : (lineFields batsM buf).nGens =
    genCount config (files (lineFields batsM buf).key.flowId).length
  data : buf.getD 5 0 = BATS_LINE_DATA →
    (lineFields batsM buf).key.gen < (lineFields batsM buf).nGens ∧
    genuine (lineFields batsM buf).key.flowId (lineFields batsM buf).key.gen
      ⟨(lineFields batsM buf).key.batch, (lineFields batsM buf).index,
        (lineFields batsM buf).coded⟩

variable (honest : HonestLine config files genuine batsM buf)
include honest

theorem HonestLine.genBytes_pos : 0 < config.genBytes :=
  Nat.mul_pos honest.positive.1 honest.positive.2

theorem HonestLine.kPkts_ne : (lineFields batsM buf).kPkts ≠ 0 := by
  rw [honest.kPkts_eq]
  unfold precodeK
  have pos := honest.positive.1
  omega

theorem HonestLine.haveMeta_bind (flow : DestFlow) :
    (destBindMeta (lineFields batsM buf) flow).haveMeta = true := by
  unfold destBindMeta
  split_ifs with bound
  · exact bound.resolve_left honest.kPkts_ne
  · rfl

theorem HonestLine.keeps_bind (ok : FlowOk config files trace flow)
    (own : flow.flowId = (lineFields batsM buf).key.flowId) :
    Keeps config files flow (destBindMeta (lineFields batsM buf) flow) := by
  unfold destBindMeta
  split_ifs with bound
  · exact Keeps.refl flow
  obtain ⟨-, unknown⟩ := not_or.mp bound
  have unknown : flow.haveMeta = false := by simpa using unknown
  obtain ⟨-, undone⟩ := ok.bare unknown
  refine ⟨rfl, rfl, rfl, fun gen => (undone gen).symm, ?_, fun _ _ => ?_, nofun⟩
  · intro known
    rw [unknown] at known
    cases known
  refine ⟨?_, ?_, honest.genBytes_pos, ?_⟩
  · exact honest.fileSize_eq.trans (by rw [own])
  · exact honest.nGens_eq.trans (by rw [own])
  · rw [own]
    exact honest.small

omit honest

theorem Keeps.endSeen (keeps : Keeps config files flow after) (endSeen : Bool) :
    Keeps config files flow { after with endSeen } :=
  ⟨keeps.flowId_eq, keeps.file_eq, keeps.nDone_eq, keeps.finished_eq, keeps.kept,
    fun unknown known =>
      let ok := keeps.known unknown known
      { ok with },
    keeps.bare⟩

theorem keeps_countData (flow : DestFlow) : Keeps config files flow (countData flow) where
  flowId_eq := rfl
  file_eq := rfl
  nDone_eq := rfl
  finished_eq := fun _ => rfl
  kept := fun known => ⟨known, rfl, rfl⟩
  known := by
    intro unknown known
    have same : flow.haveMeta = true := known
    rw [unknown] at same
    cases same
  bare := fun _ => rfl

theorem keeps_touch (gen : Nat) (flow : DestFlow) :
    Keeps config files flow (touch gen (countData flow)) := by
  unfold touch
  split_ifs
  · have counted : Keeps config files flow (countData flow) := keeps_countData flow
    obtain ⟨flowId_eq, file_eq, nDone_eq, finished_eq, kept, known, bare⟩ := counted
    exact ⟨flowId_eq, file_eq, nDone_eq, finished_eq, kept, fun unknown after =>
      let ok := known unknown after
      { ok with }, bare⟩
  · exact keeps_countData flow

theorem keeps_noteAllReceived (batsM : Nat) (flow : DestFlow) :
    Keeps config files flow (noteAllReceived batsM flow) := by
  unfold noteAllReceived
  dsimp only
  split_ifs
  · exact Keeps.refl flow
  · exact (Keeps.refl flow).endSeen true
  · exact Keeps.refl flow

include sound

theorem DestSound.flags {failed stop : Bool} {status : LoopStatus}
    (raised : st.failed = true → failed = true) :
    DestSound config files genuine { st with failed, stop, status } :=
  { sound with
    working := fun w => (sound.working w).of_parts rfl rfl rfl
    quiet := fun i flow gen here undone => (sound.quiet i flow gen here undone).imp raised id }

theorem DestSound.abort : DestSound config files genuine st.abort := sound.flags fun _ => rfl

theorem DestSound.flowGet {flowId : Nat} {after : DestState}
    (got : destFlowGet env st flowId = some (i, after)) :
    DestSound config files genuine after ∧
      ∃ flow, after.flows[i]? = some flow ∧ flow.flowId = flowId := by
  unfold destFlowGet at got
  split at got
  next found =>
    cases got
    obtain ⟨inside, own, -⟩ := List.findIdx?_eq_some_iff_getElem.mp found
    exact ⟨sound, _, List.getElem?_eq_getElem inside, of_decide_eq_true own⟩
  rename_i absent
  have unknown : ∀ flow ∈ st.flows, flow.flowId ≠ flowId := by
    intro flow mem
    exact of_decide_eq_false (List.findIdx?_eq_none_iff.mp absent flow mem)
  have last : (st.flows ++ [DestFlow.fresh flowId])[st.flows.length]? =
      some (.fresh flowId) := List.getElem?_concat_length
  split_ifs at got
  · cases got
    exact ⟨sound.openFlow unknown false, _, last, rfl⟩
  · cases got
    exact ⟨sound.openFlow unknown st.spareFd, _, last, rfl⟩

omit sound

theorem GenOk.symbols (ok : GenOk genuine flows g) :
    ∀ symbol ∈ g.symbols, genuine g.flowId g.genId symbol := by
  unfold GenOk at ok
  split at ok
  next =>
    rw [ok.2]
    nofun
  next =>
    obtain ⟨_, pending⟩ := ok
    exact pending.symbols

theorem genAdd_fields (symbol : Symbol) (g : GenBuf) :
    (genAdd symbol g).addr = g.addr ∧ (genAdd symbol g).flowId = g.flowId ∧
      (genAdd symbol g).genId = g.genId ∧ (genAdd symbol g).flowI = g.flowI ∧
      (genAdd symbol g).phase = g.phase := by
  unfold genAdd
  split_ifs <;> exact ⟨rfl, rfl, rfl, rfl, rfl⟩

theorem mem_genAdd {symbol other : Symbol} (mem : other ∈ (genAdd symbol g).symbols) :
    other ∈ g.symbols ∨ other = symbol := by
  unfold genAdd at mem
  split_ifs at mem
  · exact Or.inl mem
  · exact (mem_append.mp mem).imp id mem_singleton.mp

theorem mem_updateGen {gens : List GenBuf} (mem : g ∈ gens) (change : GenBuf → GenBuf) :
    change g ∈ updateGen gens g.addr change :=
  mem_map.mpr ⟨g, mem, if_pos rfl⟩

include sound

theorem DestSound.store {pkt : LinePacket} (mem : g ∈ st.gens) (filling : g.phase = .filling)
    (flowId_eq : g.flowId = flow.flowId) (genId_eq : g.genId = pkt.key.gen)
    (here : st.flows[i]? = some flow) (known : flow.haveMeta = true)
    (inside : pkt.key.gen < flow.nGens) (undone : flow.finished pkt.key.gen = false)
    (symbol : genuine flow.flowId pkt.key.gen ⟨pkt.key.batch, pkt.index, pkt.coded⟩) :
    DestSound config files genuine (destStore batsM i pkt flow g st) := by
  have touched := sound.update (i := i) fun flow _ => keeps_touch pkt.key.gen flow
  unfold destStore
  dsimp only
  generalize entered : genAdd ⟨pkt.key.batch, pkt.index, pkt.coded⟩ { g with flowI := some i } =
    filled
  obtain ⟨addr_eq, flow_eq, gen_eq, flowI_eq, phase_eq⟩ :=
    genAdd_fields ⟨pkt.key.batch, pkt.index, pkt.coded⟩ { g with flowI := some i }
  rw [entered] at addr_eq flow_eq gen_eq flowI_eq phase_eq
  have there : (updateDestFlow st i fun flow => touch pkt.key.gen (countData flow)).flows[i]? =
      some (touch pkt.key.gen (countData flow)) := by
    unfold updateDestFlow
    rw [List.getElem?_modify_eq, here]
    rfl
  have keeps : Keeps config files flow (touch pkt.key.gen (countData flow)) :=
    keeps_touch pkt.key.gen flow
  have pending : ∀ phase, GenOk genuine
      (updateDestFlow st i fun flow => touch pkt.key.gen (countData flow)).flows
      { filled with phase } := by
    intro phase
    rw [flowI_eq]
    refine ⟨_, there, keeps.flowId_eq.trans (flowId_eq.symm.trans flow_eq.symm),
      (keeps.kept known).1, ?_, ?_, ?_⟩
    · rw [(keeps.kept known).2.1, gen_eq]
      exact genId_eq ▸ inside
    · rw [keeps.finished_eq, gen_eq]
      exact genId_eq ▸ undone
    · intro other stored
      rw [← entered] at stored
      rw [flow_eq, gen_eq]
      obtain old | rfl := mem_genAdd stored
      · exact (sound.genOk g mem).symbols other old
      · rw [flowId_eq, genId_eq]
        exact symbol
  have stored := touched.updateGen (fun _ => filled) mem (by rw [filling]; decide) rfl
    ⟨addr_eq, flow_eq, gen_eq⟩ (pending filled.phase)
  split_ifs
  · have inTable := mem_updateGen mem fun _ => filled
    have queued := stored.updateGen (fun g => { g with phase := .queued }) inTable
      (by rw [phase_eq]; exact filling ▸ (by decide)) rfl ⟨rfl, rfl, rfl⟩ (pending .queued)
    rw [addr_eq] at queued
    exact queued
  · exact stored

theorem DestSound.onData (honest : HonestLine config files genuine batsM buf)
    (isData : buf.getD 5 0 = BATS_LINE_DATA) (here : st.flows[i]? = some flow)
    (own : flow.flowId = (lineFields batsM buf).key.flowId) (known : flow.haveMeta = true) :
    DestSound config files genuine (destOnData batsM i (lineFields batsM buf) flow st) := by
  have counted := sound.update (i := i) fun flow _ => keeps_countData flow
  obtain ⟨-, symbol⟩ := honest.data isData
  unfold destOnData
  dsimp only
  split
  · exact counted
  rename_i finished
  split
  · exact counted
  obtain ⟨found, mem, flowId_eq, genId_eq, flows_eq⟩ :=
    sound.genFind (lineFields batsM buf).key.flowId (lineFields batsM buf).key.gen
  generalize Bats.genFind st (lineFields batsM buf).key.flowId
    (lineFields batsM buf).key.gen = res at found mem flowId_eq genId_eq flows_eq ⊢
  obtain ⟨_⟩ := res
  have inside : (lineFields batsM buf).key.gen < flow.nGens := by
    have bound := (honest.data isData).1
    have count := (sound.flowOk i flow here).known known
    rw [honest.nGens_eq, ← own, ← count.nGens_eq] at bound
    exact bound
  split
  · exact found.update fun flow _ => keeps_countData flow
  rename_i filling
  refine found.store mem (not_not.mp filling) (flowId_eq.trans own.symm) genId_eq
    (flows_eq ▸ here) known inside ?_ (own ▸ symbol)
  by_contra done
  exact finished ⟨inside, by simpa using done⟩

theorem DestSound.onPacket (honest : isLine buf → HonestLine config files genuine batsM buf) :
    DestSound config files genuine (destOnPacket env config batsM st buf) := by
  unfold destOnPacket
  dsimp only
  split
  · exact sound
  rename_i line
  have honest := honest line
  cases got : destFlowGet env st (lineFields batsM buf).key.flowId with
  | none => exact sound.abort
  | some res =>
    obtain ⟨i, opened⟩ := res
    obtain ⟨ready, flow, here, own⟩ := sound.flowGet got
    have bind : ∀ other, opened.flows[i]? = some other →
        Keeps config files other (destBindMeta (lineFields batsM buf) other) := by
      intro other there
      obtain rfl := Option.some.inj (here.symm.trans there)
      exact honest.keeps_bind (ready.flowOk i flow here) own
    dsimp only
    split
    next =>
      have noted := ready.update fun other there => (bind other there).endSeen true
      split
      next => exact noted.abort
      next => exact noted
    split
    · exact ready
    rename_i isData
    split
    · exact ready
    have bound := ready.update bind
    have there : (updateDestFlow opened i (destBindMeta (lineFields batsM buf))).flows[i]? =
        some (destBindMeta (lineFields batsM buf) flow) := by
      unfold updateDestFlow
      rw [List.getElem?_modify_eq, here]
      rfl
    rw [there]
    dsimp only
    split
    · exact bound.abort
    refine bound.onData honest (not_not.mp isData) there ?_
      (honest.haveMeta_bind flow)
    exact (bind flow here).flowId_eq.trans own

theorem DestSound.submit (batsM : Nat) (giveUp : Bool) :
    DestSound config files genuine (destSubmit batsM giveUp st) := by
  refine sound.regen (submitGen batsM giveUp st.flows) ?_ ?_ ?_
  · intro g _
    unfold submitGen
    split_ifs
    · exact ⟨rfl, rfl, rfl⟩
    split
    · exact ⟨rfl, rfl, rfl⟩
    · split_ifs <;> exact ⟨rfl, rfl, rfl⟩
  · intro g mem
    have ok := sound.genOk g mem
    unfold submitGen
    split_ifs
    · exact ok
    split
    · exact ok
    rename_i i flowI_eq
    split_ifs
    · unfold GenOk at ok ⊢
      rw [flowI_eq] at ok
      rw [flowI_eq]
      obtain ⟨flow, pending⟩ := ok
      exact ⟨flow, pending.flow_eq, pending.flowId_eq, pending.haveMeta, pending.inside,
        pending.unfinished, pending.symbols⟩
    · exact ok
  · intro _ _ decoding
    unfold submitGen
    rw [if_pos (by rw [decoding]; decide)]

theorem DestSound.poll (batsM elapsedMs : Nat) :
    DestSound config files genuine (destPoll config batsM st elapsedMs) := by
  have noted : DestSound config files genuine
      { st with flows := st.flows.map (noteAllReceived batsM) } := by
    refine sound.reflow (fun i => List.getElem?_map) ?_
    exact fun i flow _ => keeps_noteAllReceived batsM flow
  unfold destPoll
  dsimp only
  have submitted := noted.submit batsM
    (destFlowsEnded config (st.flows.map (noteAllReceived batsM)) &&
      decide (config.idleSec * 1000 ≤ elapsedMs))
  split
  · exact submitted.flags id
  split
  · exact submitted.flags id
  split
  · exact submitted.flags id
  split
  next => exact submitted.abort
  next => exact submitted

end Steps

end MultiFlow.Bats
