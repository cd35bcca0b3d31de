import MultiFlow.Bats.DestIntegrity

/-!
# The decode workers of the destination

A generation is claimed by one worker, decoded once and written at its own place.  With what the
main thread keeps this gives the output of a destination that is done.
-/

namespace MultiFlow.Bats

open Lib Wire List Function

section Workers

variable {cfg : DestConfig} {files : Nat → List UInt8} {genuine : Nat → Nat → Symbol → Prop}
  {st : DestState}

variable {worker : DestWorker} {addr genId : Nat} {flowI : Option Nat} {w i : Nat} {flow : DestFlow}
  {g : GenBuf} {after : DestState} {trace : List DestMark} {gen : Nat} {done file : List UInt8}
  {flows : List DestFlow} {env : DestEnv} {bytes later : List UInt8}

theorem holds_of_job (ok : WorkerOk cfg files st worker)
    (job : worker.job = some (addr, flowI, genId)) :
    ∃ i flow, Holds st addr flowI genId i flow := by
  cases worker with
  | idle | returned => cases job
  | decoding | writing | finishing =>
    cases job
    obtain ⟨i, flow, holds, -⟩ := ok
    exact ⟨i, flow, holds⟩

theorem job_update {workers : Nat → DestWorker} (job_eq : worker.job = (workers w).job) (v : Nat) :
    (Function.update workers w worker v).job = (workers v).job := by
  by_cases same : v = w
  · rw [same, update_self, job_eq]
  · rw [update_of_ne same]

variable (sound : DestSound cfg files genuine st)
include sound

theorem DestSound.assign (kept : ∀ job, (st.workers w).job = some job → worker.job = some job)
    (own : ∀ addr flowI genId, worker.job = some (addr, flowI, genId) →
      ∀ v flowJ genJ, (st.workers v).job = some (addr, flowJ, genJ) → v = w)
    (ok : WorkerOk cfg files st worker) :
    DestSound cfg files genuine (setDestWorker st w worker) := by
  refine { sound with working := ?_, alone := ?_, quiet := ?_ }
  · have before : ∀ v, WorkerOk cfg files st (Function.update st.workers w worker v) :=
      (forall_update_iff _ fun _ => WorkerOk cfg files st).mpr
        ⟨ok, fun v _ => sound.working v⟩
    exact fun v => WorkerOk.of_parts (before v) rfl rfl rfl
  · intro u v addr flowI flowJ genId genJ left right
    unfold setDestWorker at left right
    dsimp only at left right
    by_cases first : u = w
    · by_cases second : v = w
      · rw [first, second]
      · rw [first, update_self] at left
        rw [update_of_ne second] at right
        exact absurd (own addr flowI genId left v flowJ genJ right) second
    · rw [update_of_ne first] at left
      by_cases second : v = w
      · rw [second, update_self] at right
        exact absurd (own addr flowJ genJ right u flowI genId left) first
      · rw [update_of_ne second] at right
        exact sound.alone u v addr flowI flowJ genId genJ left right
  · intro i flow gen here undone
    refine (sound.quiet i flow gen here undone).imp_right (Or.imp_left ?_)
    rintro ⟨v, addr, job⟩
    refine ⟨v, addr, ?_⟩
    show (Function.update st.workers w worker v).job = _
    by_cases same : v = w
    · rw [same, update_self]
      exact kept _ (same ▸ job)
    · rw [update_of_ne same]
      exact job

theorem DestSound.rework (job_eq : worker.job = (st.workers w).job)
    (ok : WorkerOk cfg files st worker) :
    DestSound cfg files genuine (setDestWorker st w worker) := by
  refine sound.assign (fun job before => job_eq.trans before) ?_ ok
  intro addr flowI genId job v flowJ genJ other
  exact sound.alone v w addr flowJ flowI genJ genId other (job_eq.symm.trans job)

theorem DestSound.pending (holds : Holds st addr flowI genId i flow) :
    ∃ g ∈ st.gens, g.addr = addr ∧ g.phase = .decoding ∧ g.genId = genId ∧
      Pending genuine st.flows g i flow := by
  obtain ⟨g, mem, addr_eq, decoding, flowI_eq, genId_eq⟩ := holds.gen
  have ok := sound.genOk g mem
  unfold GenOk at ok
  rw [flowI_eq] at ok
  obtain ⟨_, pending⟩ := ok
  obtain rfl := Option.some.inj (holds.flow_eq.symm.trans pending.flow_eq)
  exact ⟨g, mem, addr_eq, decoding, genId_eq, pending⟩

theorem DestSound.apart {v : Nat} (apart : v ≠ w) {addr' genId' i' : Nat} {flowI' : Option Nat}
    {flow' : DestFlow} (job : (st.workers w).job = some (addr, flowI, genId))
    (holds : Holds st addr flowI genId i flow)
    (job' : (st.workers v).job = some (addr', flowI', genId'))
    (holds' : Holds st addr' flowI' genId' i' flow') :
    (flow.flowId, genId) ≠ (flow'.flowId, genId') := by
  intro same
  obtain ⟨flowId_eq, genId_eq⟩ := Prod.mk.inj same
  obtain ⟨g, mem, addr_eq, -, gen_eq, pending⟩ := sound.pending holds
  obtain ⟨g', member', addr_eq', -, gen_eq', pending'⟩ := sound.pending holds'
  have one : g = g' := by
    refine sound.keys g mem g' member' ?_ (gen_eq.trans (genId_eq.trans gen_eq'.symm))
    exact pending.flowId_eq.symm.trans (flowId_eq.trans pending'.flowId_eq)
  have addresses : addr' = addr := by rw [← addr_eq, ← addr_eq', one]
  rw [addresses] at job'
  exact apart (sound.alone v w addr _ _ _ _ job' job)

theorem DestSound.unheld (mem : g ∈ st.gens) (idle : g.phase ≠ .decoding)
    (pending : Pending genuine st.flows g i flow) {j : Nat} {other : DestFlow}
    (holds : Holds st addr flowI genId j other) : addr ≠ g.addr ∧ ¬ (j = i ∧ genId = g.genId) := by
  obtain ⟨h, there, addr_eq, decoding, gen_eq, pendingH⟩ := sound.pending holds
  have differ : h ≠ g := by
    rintro rfl
    exact idle decoding
  refine ⟨?_, ?_⟩
  · rintro rfl
    exact differ (sound.addrs h there g mem addr_eq)
  rintro ⟨rfl, rfl⟩
  obtain rfl := Option.some.inj (pending.flow_eq.symm.trans pendingH.flow_eq)
  exact differ (sound.keys h there g mem (pendingH.flowId_eq.symm.trans pending.flowId_eq) gen_eq)

theorem DestSound.untried (mem : g ∈ st.gens) (queued : g.phase = .queued)
    (pending : Pending genuine st.flows g i flow) (running : ¬ st.failed = true) :
    Untried st.trace flow.flowId g.genId := by
  obtain failed | ⟨v, addr, job⟩ | untried :=
    sound.quiet i flow g.genId pending.flow_eq pending.unfinished
  · exact absurd failed running
  · exfalso
    obtain ⟨_, _, holds⟩ := holds_of_job (sound.working v) job
    obtain rfl := Option.some.inj holds.flowI_eq
    exact (sound.unheld mem (by rw [queued]; decide) pending holds).2 ⟨rfl, rfl⟩
  · exact untried

theorem DestSound.claim (idle : st.workers w = .idle) (taken : destClaim st w = some after) :
    DestSound cfg files genuine after := by
  have none_before : (st.workers w).job = none := by rw [idle]; rfl
  unfold destClaim at taken
  split at taken
  next =>
    cases taken
    exact sound.rework none_before.symm trivial
  rename_i running
  obtain ⟨-, notFailed⟩ := not_or.mp running
  split at taken
  · cases taken
  rename_i g found
  cases taken
  have mem := mem_of_find?_eq_some found
  have queued : g.phase = .queued := by
    have phase := List.find?_some found
    simpa using phase
  have ok := sound.genOk g mem
  unfold GenOk at ok
  cases flowI_eq : g.flowI with
  | none =>
    rw [flowI_eq, queued] at ok
    exact absurd ok.1 (by decide)
  | some i =>
    rw [flowI_eq] at ok
    obtain ⟨flow, pending⟩ := ok
    have inside : i < st.flows.length := (List.getElem?_eq_some_iff.mp pending.flow_eq).1
    have untried := sound.untried mem queued pending notFailed
    have decodingOk : GenOk genuine st.flows { g with phase := .decoding } := by
      rw [flowI_eq]
      exact ⟨flow, pending.flow_eq, pending.flowId_eq, pending.haveMeta, pending.inside,
        pending.unfinished, pending.symbols⟩
    have idlePhase : g.phase ≠ .decoding := by rw [queued]; decide
    have marked := sound.updateGen (fun g => { g with phase := .decoding }) mem
      idlePhase rfl ⟨rfl, rfl, rfl⟩ decodingOk
    have flow_some : (some i).filter (fun i => decide (i < st.flows.length)) = some i := by
      rw [Option.filter_some, if_pos (decide_eq_true inside)]
    refine marked.assign ?_ ?_ ?_
    · intro job before
      rw [none_before] at before
      cases before
    · intro _ _ _ job v _ _ other
      cases job
      obtain ⟨_, _, holds⟩ := holds_of_job (sound.working v) other
      exact absurd rfl (sound.unheld mem idlePhase pending holds).1
    rw [flow_some]
    dsimp only [Option.bind_some]
    rw [pending.flow_eq]
    refine ⟨i, flow, ⟨pending.flow_eq, rfl, _, mem_updateGen mem _, rfl, rfl, flowI_eq,
      rfl⟩, ?_, untried⟩
    exact ((sound.flowOk i flow pending.flow_eq).known pending.haveMeta).fileSize_eq

omit sound

theorem Written.grow {mark : DestMark} {after : DestFlow}
    (written : Written cfg files trace flow gen done) (other : mark.key ≠ (flow.flowId, gen))
    (flowId_eq : after.flowId = flow.flowId)
    (right : ∀ pos : Nat, flow.file[pos]? = (files flow.flowId)[pos]? →
      after.file[pos]? = (files flow.flowId)[pos]?) :
    Written cfg files (trace ++ [mark]) after gen done := by
  obtain ⟨once, tiles, correct⟩ := written
  refine ⟨?_, ?_, ?_⟩
  · rw [flowId_eq, attempts_append_other other]
    exact once
  · rw [flowId_eq, writes_append_other other]
    exact tiles
  intro pos low high
  rw [flowId_eq]
  exact right pos (correct pos low high)

theorem FlowOk.grow {mark : DestMark} (ok : FlowOk cfg files trace flow)
    (undone : ∀ gen, mark.key = (flow.flowId, gen) → flow.finished gen = false)
    (short : file.length ≤ (files flow.flowId).length)
    (right : ∀ pos : Nat, flow.file[pos]? = (files flow.flowId)[pos]? →
      file[pos]? = (files flow.flowId)[pos]?) :
    FlowOk cfg files (trace ++ [mark]) { flow with file } where
  short := short
  known := fun known =>
    let known := ok.known known
    { known with }
  bare := ok.bare
  count := ok.count
  written := by
    intro gen finished
    refine (ok.written gen finished).grow ?_ rfl right
    intro same
    have finished : flow.finished gen = true := finished
    rw [undone gen same] at finished
    cases finished

include sound

/-- A worker adds a mark for its generation to the history and may write to its file, where it
spoils nothing. -/
theorem DestSound.mark (job : (st.workers w).job = some (addr, flowI, genId))
    (holds : Holds st addr flowI genId i flow) {mark : DestMark}
    (key_eq : mark.key = (flow.flowId, genId))
    (each : ∀ j : Nat, flows[j]? = (st.flows[j]?).map fun other =>
      { other with file := if i = j then file else other.file })
    (short : file.length ≤ (files flow.flowId).length)
    (right : ∀ pos : Nat, flow.file[pos]? = (files flow.flowId)[pos]? →
      file[pos]? = (files flow.flowId)[pos]?) (job_eq : worker.job = some (addr, flowI, genId))
    (ok : WorkerOk cfg files { st with flows, trace := st.trace ++ [mark] } worker) :
    DestSound cfg files genuine
      (setDestWorker { st with flows, trace := st.trace ++ [mark] } w worker) := by
  obtain ⟨_, _, -, -, genId_eq, pending⟩ := sound.pending holds
  obtain ⟨moved, origin⟩ := getElem?_changed each
  obtain ⟨distinct, marks⟩ := sound.changed_ids each fun _ _ _ => rfl
  -- Only the worker's own generation has this key.
  have owner : ∀ (j : Nat) (old : DestFlow) (gen : Nat), st.flows[j]? = some old →
      mark.key = (old.flowId, gen) → j = i ∧ old = flow ∧ gen = genId := by
    intro j old gen there same
    rw [key_eq] at same
    obtain ⟨flowId_eq, gen_eq⟩ := Prod.mk.inj same
    obtain rfl := sound.distinct i j flow old holds.flow_eq there flowId_eq
    exact ⟨rfl, Option.some.inj (there.symm.trans holds.flow_eq), gen_eq.symm⟩
  have spoils : ∀ (j : Nat) (old : DestFlow), st.flows[j]? = some old →
      (if i = j then file else old.file).length ≤ (files old.flowId).length ∧
      ∀ pos : Nat, old.file[pos]? = (files old.flowId)[pos]? →
        (if i = j then file else old.file)[pos]? = (files old.flowId)[pos]? := by
    intro j old there
    split_ifs with same
    · subst same
      obtain rfl := Option.some.inj (holds.flow_eq.symm.trans there)
      exact ⟨short, right⟩
    · exact ⟨(sound.flowOk j old there).short, fun _ => id⟩
  have jobs := job_update (job_eq.trans job.symm)
  refine { sound with
    distinct, flowOk := ?_, genOk := ?_, working := ?_, alone := ?_, quiet := ?_, marks := ?_ }
  · intro j new here
    obtain ⟨old, there, rfl⟩ := origin j new here
    refine (sound.flowOk j old there).grow ?_ (spoils j old there).1 (spoils j old there).2
    intro gen same
    obtain ⟨-, rfl, rfl⟩ := owner j old gen there same
    rw [← genId_eq]
    exact pending.unfinished
  · intro h there
    exact (sound.genOk h there).move fun j old pendingH =>
      ⟨_, moved j old pendingH.flow_eq, rfl, pendingH.haveMeta, rfl, rfl⟩
  · refine (forall_update_iff _ fun _ => WorkerOk cfg files _).mpr
      ⟨ok.of_parts rfl rfl rfl, fun v apart => (sound.working v).transfer ?_⟩
    intro addr' flowI' genId' j old job' holds'
    have other : mark.key ≠ (old.flowId, genId') := by
      rw [key_eq]
      exact sound.apart apart job holds job' holds'
    refine ⟨_, ⟨moved j old holds'.flow_eq, holds'.flowI_eq, holds'.gen⟩, rfl, ?_, ?_⟩
    · rintro ⟨none_tried, none_written⟩
      exact ⟨(attempts_append_other other).trans none_tried,
        (writes_append_other other).trans none_written⟩
    · intro _ written
      exact written.grow other rfl (spoils j old holds'.flow_eq).2
  · intro u v addr' flowI' flowJ genId' genJ left right
    exact sound.alone u v addr' flowI' flowJ genId' genJ ((jobs u).symm.trans left)
      ((jobs v).symm.trans right)
  · intro j new gen here undone
    obtain ⟨old, there, rfl⟩ := origin j new here
    obtain failed | ⟨v, addr', busy⟩ | ⟨none_tried, none_written⟩ :=
      sound.quiet j old gen there undone
    · exact Or.inl failed
    · exact Or.inr (Or.inl ⟨v, addr', (jobs v).trans busy⟩)
    · by_cases same : mark.key = (old.flowId, gen)
      · obtain ⟨rfl, -, rfl⟩ := owner j old gen there same
        refine Or.inr (Or.inl ⟨w, addr, (jobs w).trans ?_⟩)
        rw [job, holds.flowI_eq]
      · exact Or.inr (Or.inr ⟨(attempts_append_other same).trans none_tried,
          (writes_append_other same).trans none_written⟩)
  · intro other inTrace
    obtain old | new := mem_append.mp inTrace
    · exact marks other old
    · rw [mem_singleton.mp new, key_eq]
      exact ⟨i, _, moved i flow holds.flow_eq, rfl⟩

omit sound

/-- `bats_decode` returns the source generation, which was padded with zeros, whenever it reports
success on symbols of that generation. -/
def Decodes (env : DestEnv) (config : DestConfig) (files : Nat → List UInt8)
    (genuine : Nat → Nat → Symbol → Prop) : Prop :=
  ∀ (flowId gen : Nat) (symbols : List Symbol) (block : List UInt8) (bp inact : Nat),
    (∀ symbol ∈ symbols, genuine flowId gen symbol) →
    env.decode (symbols.map fun s => (s.batch, s.coded)) (precodeK config.K) config.T config.seed =
      some (block, bp, inact) →
    block.take config.genBytes = generation config (files flowId) gen ++
      List.replicate (config.genBytes - (generation config (files flowId) gen).length) 0

theorem decodeGen_spec (decodes : Decodes env cfg files genuine)
    (symbols : ∀ symbol ∈ g.symbols, genuine g.flowId g.genId symbol) {fileSize off : Nat}
    (size : fileSize = (files g.flowId).length)
    (decoded : decodeGen env cfg fileSize g = some (off, bytes)) :
    off = g.genId * cfg.genBytes ∧ bytes = generation cfg (files g.flowId) g.genId := by
  unfold decodeGen at decoded
  dsimp only at decoded
  split at decoded
  · cases decoded
  rename_i block bp inact ok
  have padded := decodes g.flowId g.genId g.symbols block bp inact symbols ok
  split at decoded
  · cases decoded
  cases decoded
  refine ⟨rfl, ?_⟩
  have len := length_generation cfg (files g.flowId) g.genId
  have chunk : (if fileSize ≤ g.genId * cfg.genBytes then 0
      else if fileSize - g.genId * cfg.genBytes < cfg.genBytes then
        fileSize - g.genId * cfg.genBytes
      else cfg.genBytes) = (generation cfg (files g.flowId) g.genId).length := by
    rw [len, size]
    split_ifs <;> omega
  have within : (generation cfg (files g.flowId) g.genId).length ≤ cfg.genBytes := by
    rw [len]
    exact Nat.min_le_left _ _
  rw [chunk]
  calc block.take (generation cfg (files g.flowId) g.genId).length
      = (block.take cfg.genBytes).take
          (generation cfg (files g.flowId) g.genId).length := by
        rw [take_take, Nat.min_eq_left within]
    _ = generation cfg (files g.flowId) g.genId := by rw [padded, take_left]

include sound

theorem DestSound.find_addr (holds : Holds st addr flowI genId i flow)
    (found : st.gens.find? (fun g => decide (g.addr = addr)) = some g) :
    g.genId = genId ∧ Pending genuine st.flows g i flow := by
  obtain ⟨h, mem, addr_eq, -, genId_eq, pending⟩ := sound.pending holds
  have own := List.find?_some found
  simp only [decide_eq_true_eq] at own
  obtain rfl := sound.addrs g (mem_of_find?_eq_some found) h mem (own.trans addr_eq.symm)
  exact ⟨genId_eq, pending⟩

omit sound

theorem getElem?_modify_known (here : flows[i]? = some flow) (change : DestFlow → DestFlow)
    (j : Nat) : (flows.modify i change)[j]? =
      (flows[j]?).map fun other => if i = j then change flow else other := by
  rw [List.getElem?_modify]
  by_cases same : i = j
  · rw [← same, here]
    simp
  · simp [same]

theorem getElem?_rewrite (here : flows[i]? = some flow) (write : List UInt8 → List UInt8) (j : Nat) :
    (flows.modify i fun flow => { flow with file := write flow.file })[j]? =
      (flows[j]?).map fun other =>
        { other with file := if i = j then write flow.file else other.file } := by
  rw [List.getElem?_modify]
  by_cases same : i = j
  · rw [← same, here]
    simp
  · simp [same]

include sound

theorem DestSound.decode (decodes : Decodes env cfg files genuine) {fileSize : Nat}
    (busy : st.workers w = .decoding addr flowI fileSize genId)
    (taken : destDecode env cfg st w addr flowI fileSize genId = some after) :
    DestSound cfg files genuine after := by
  have ok := sound.working w
  rw [busy] at ok
  obtain ⟨i, flow, holds, size, none_tried, none_written⟩ := ok
  have job : (st.workers w).job = some (addr, flowI, genId) := by rw [busy]; rfl
  unfold destDecode at taken
  split at taken
  · cases taken
  rename_i g found
  obtain ⟨rfl, pending⟩ := sound.find_addr holds found
  rw [← pending.flowId_eq] at taken
  have short := (sound.flowOk i flow pending.flow_eq).short
  have same := getElem?_rewrite holds.flow_eq id
  rw [show (fun flow : DestFlow => { flow with file := id flow.file }) = id from rfl,
    modify_id] at same
  have after_mark : ∀ worker : DestWorker, worker.job = some (addr, flowI, g.genId) →
      WorkerOk cfg files
        { st with trace := st.trace ++ [.decoded flow.flowId g.genId] } worker →
      DestSound cfg files genuine (setDestWorker
        { st with trace := st.trace ++ [.decoded flow.flowId g.genId] } w worker) :=
    fun worker job_eq ok => sound.mark job holds rfl same short (fun _ => id) job_eq ok
  have holdsAfter : Holds { st with trace := st.trace ++ [.decoded flow.flowId g.genId] }
      addr flowI g.genId i flow := holds.of_parts rfl rfl
  have started : Written cfg files (st.trace ++ [.decoded flow.flowId g.genId]) flow
      g.genId [] := by
    refine ⟨?_, ?_, ?_⟩
    · rw [attempts_append_decoded, none_tried]
    · rw [writes_append_decoded, none_written]
      rfl
    · intro _ low high
      exact absurd high (by simpa using low)
  split at taken
  next =>
    cases taken
    exact after_mark _ rfl ⟨i, flow, holdsAfter, nofun⟩
  rename_i decoded
  obtain ⟨rfl, bytes_eq⟩ := decodeGen_spec decodes pending.symbols
    (by rw [← pending.flowId_eq]; exact size) decoded
  rw [← pending.flowId_eq] at bytes_eq
  split at taken
  next empty =>
    cases taken
    refine after_mark _ rfl ⟨i, flow, holdsAfter, fun _ => ?_⟩
    rw [← bytes_eq, empty]
    exact started
  next =>
    cases taken
    exact after_mark _ rfl ⟨i, flow, holdsAfter, [], bytes_eq.symm, rfl, started⟩

omit sound

theorem part_of_generation (split : generation cfg file gen = done ++ (bytes ++ later))
    (pos : Nat) (low : gen * cfg.genBytes + done.length ≤ pos)
    (high : pos < gen * cfg.genBytes + done.length + bytes.length) :
    bytes[pos - (gen * cfg.genBytes + done.length)]? = file[pos]? := by
  have whole : (generation cfg file gen).length = done.length + (bytes.length + later.length) := by
    rw [split, length_append, length_append]
  rw [← getElem?_generation cfg file gen (by omega) (by omega), split,
    List.getElem?_append_right (by omega), List.getElem?_append_left (by omega)]
  congr 1
  omega

theorem part_inside (split : generation cfg file gen = done ++ (bytes ++ later))
    (ne : bytes ≠ []) : gen * cfg.genBytes + done.length + bytes.length ≤ file.length := by
  have some_byte := length_pos_of_ne_nil ne
  have whole := length_generation cfg file gen
  rw [split, length_append, length_append] at whole
  omega

theorem Written.write (written : Written cfg files trace flow gen done)
    (split : generation cfg (files flow.flowId) gen = done ++ (bytes ++ later))
    (file_eq : file = pwrite 0 flow.file (gen * cfg.genBytes + done.length) bytes)
    (right : ∀ pos : Nat, flow.file[pos]? = (files flow.flowId)[pos]? →
      file[pos]? = (files flow.flowId)[pos]?) :
    Written cfg files (trace ++ [.wrote flow.flowId gen (gen * cfg.genBytes + done.length) bytes])
      { flow with file } gen (done ++ bytes) := by
  refine ⟨?_, ?_, ?_⟩
  · exact (attempts_append_wrote trace flow.flowId gen _ bytes).trans written.once
  · rw [writes_append_wrote]
    exact written.tiles.snoc bytes
  intro pos low high
  rw [length_append] at high
  by_cases old : pos < gen * cfg.genBytes + done.length
  · exact right pos (written.right pos low old)
  · rw [file_eq, getElem?_pwrite_inside 0 flow.file _ bytes (by omega) (by omega)]
    exact part_of_generation split pos (by omega) (by omega)

include sound

theorem DestSound.write {count : Nat} {rest : List UInt8} {offset : Nat}
    (busy : st.workers w = .writing addr flowI genId rest offset)
    (taken : destWrite st w count addr flowI genId rest offset = some after) :
    DestSound cfg files genuine after := by
  have ok := sound.working w
  rw [busy] at ok
  obtain ⟨i, flow, holds, done, split, rfl, written⟩ := ok
  have job : (st.workers w).job = some (addr, flowI, genId) := by rw [busy]; rfl
  have flow_some : (flowI.bind fun i => (st.flows[i]?).map fun flow => (i, flow)) =
      some (i, flow) := by
    rw [holds.flowI_eq, Option.bind_some, holds.flow_eq]
    rfl
  unfold destWrite at taken
  rw [flow_some] at taken
  dsimp only at taken
  split at taken
  · cases taken
  have parts : rest = rest.take count ++ rest.drop count := (take_append_drop _ _).symm
  have taken_length : (rest.take count).length = count := by
    rw [length_take]
    omega
  have ne : rest.take count ≠ [] := by
    intro none
    rw [none, length_nil] at taken_length
    omega
  have whole : generation cfg (files flow.flowId) genId =
      done ++ (rest.take count ++ rest.drop count) := by rw [← parts]; exact split
  generalize file_eq : pwrite 0 flow.file (genId * cfg.genBytes + done.length)
    (rest.take count) = file
  have short : file.length ≤ (files flow.flowId).length := by
    rw [← file_eq]
    exact length_pwrite_le 0 flow.file _ _ (sound.flowOk i flow holds.flow_eq).short
      (part_inside whole ne)
  have right : ∀ pos : Nat, flow.file[pos]? = (files flow.flowId)[pos]? →
      file[pos]? = (files flow.flowId)[pos]? := by
    intro pos before
    by_cases inside : pos < (files flow.flowId).length
    · rw [← file_eq]
      exact getElem?_pwrite_of_agrees 0 (part_of_generation whole) inside before
    · rw [List.getElem?_eq_none (by omega), List.getElem?_eq_none (by omega)]
  have each := getElem?_rewrite holds.flow_eq fun file =>
    pwrite 0 file (genId * cfg.genBytes + done.length) (rest.take count)
  simp only [file_eq] at each
  have flowAfter := each i
  rw [holds.flow_eq, Option.map_some, if_pos rfl] at flowAfter
  have writtenAfter := written.write whole file_eq.symm right
  split at taken
  next finished =>
    cases taken
    refine sound.mark job holds rfl each short right rfl ?_
    refine ⟨i, _, ⟨flowAfter, holds.flowI_eq, holds.gen⟩, fun _ => ?_⟩
    have all : generation cfg (files flow.flowId) genId = done ++ rest.take count := by
      rw [whole, finished, append_nil]
    rw [all]
    exact writtenAfter
  next =>
    cases taken
    refine sound.mark job holds rfl each short right rfl ?_
    refine ⟨i, _, ⟨flowAfter, holds.flowI_eq, holds.gen⟩, done ++ rest.take count, ?_, ?_,
      writtenAfter⟩
    · rw [append_assoc]
      exact whole
    · rw [length_append, taken_length, Nat.add_assoc]

/-- A worker unlinks its generation.  Either the generation is noted as finished in its flow, or
the destination has failed. -/
theorem DestSound.retire (new : DestFlow) (job : (st.workers w).job = some (addr, flowI, genId))
    (holds : Holds st addr flowI genId i flow)
    (each : ∀ j : Nat, flows[j]? = (st.flows[j]?).map fun other => if i = j then new else other)
    (flowId_eq : new.flowId = flow.flowId) (file_eq : new.file = flow.file)
    (haveMeta_eq : new.haveMeta = flow.haveMeta) (nGens_eq : new.nGens = flow.nGens)
    (others : ∀ gen, gen ≠ genId → new.finished gen = flow.finished gen)
    (ok : FlowOk cfg files st.trace new) (settled : st.failed = true ∨ new.finished genId = true) :
    DestSound cfg files genuine
      (setDestWorker { st with flows, gens := st.gens.filter fun g => g.addr ≠ addr } w .idle) := by
  obtain ⟨g, mem, addr_eq, -, genId_eq, pending⟩ := sound.pending holds
  obtain ⟨moved, origin⟩ := getElem?_changed each
  have same_id : ∀ (j : Nat) (old : DestFlow), st.flows[j]? = some old →
      (if i = j then new else old).flowId = old.flowId ∧
        (if i = j then new else old).file = old.file := by
    intro j old there
    split_ifs with same
    · subst same
      obtain rfl := Option.some.inj (holds.flow_eq.symm.trans there)
      exact ⟨flowId_eq, file_eq⟩
    · exact ⟨rfl, rfl⟩
  obtain ⟨distinct, marks⟩ := sound.changed_ids each fun j old there => (same_id j old there).1
  have remains : ∀ h ∈ st.gens.filter (fun g => decide (g.addr ≠ addr)),
      h ∈ st.gens ∧ h.addr ≠ addr := by
    intro h there
    obtain ⟨inTable, other⟩ := mem_filter.mp there
    exact ⟨inTable, of_decide_eq_true other⟩
  have idle : ∀ x job, (Function.update st.workers w .idle x).job = some job →
      (st.workers x).job = some job :=
    (forall_update_iff _ fun x worker => ∀ job, DestWorker.job worker = some job →
      (st.workers x).job = some job).mpr ⟨nofun, fun _ _ _ => id⟩
  refine ⟨?_, distinct, fun h there => sound.addr_lt h (remains h there).1,
    fun h there k here => sound.addrs h (remains h there).1 k (remains k here).1,
    fun h there k here => sound.keys h (remains h there).1 k (remains k here).1, ?_, ?_, ?_, ?_,
    marks⟩
  · intro j after here
    obtain ⟨old, there, rfl⟩ := origin j after here
    split_ifs
    · exact ok
    · exact sound.flowOk j old there
  · intro h there
    obtain ⟨inTable, other⟩ := remains h there
    refine (sound.genOk h inTable).move fun j old pendingH =>
      ⟨_, moved j old pendingH.flow_eq, (same_id j old pendingH.flow_eq).1, ?_⟩
    split_ifs with same
    · subst same
      obtain rfl := Option.some.inj (holds.flow_eq.symm.trans pendingH.flow_eq)
      refine ⟨haveMeta_eq.trans pendingH.haveMeta, nGens_eq, others h.genId ?_⟩
      intro equal
      refine other ?_
      rw [sound.keys h inTable g mem
        (pendingH.flowId_eq.symm.trans pending.flowId_eq) (equal.trans genId_eq.symm)]
      exact addr_eq
    · exact ⟨pendingH.haveMeta, rfl, rfl⟩
  · refine (forall_update_iff _ fun _ => WorkerOk cfg files _).mpr
      ⟨trivial, fun v apart => (sound.working v).transfer ?_⟩
    intro addr' flowI' genId' j old job' holds'
    obtain ⟨h, inTable, addr_h, rest⟩ := holds'.gen
    have other : addr' ≠ addr := by
      rintro rfl
      exact apart (sound.alone v w addr' _ _ _ _ job' job)
    obtain ⟨id_eq, file_same⟩ := same_id j old holds'.flow_eq
    refine ⟨_, ⟨moved j old holds'.flow_eq, holds'.flowI_eq, h, ?_, addr_h, rest⟩, id_eq, id,
      fun done written => written.congr id_eq file_same⟩
    exact mem_filter.mpr ⟨inTable, decide_eq_true (addr_h.symm ▸ other)⟩
  · intro u v addr' flowI' flowJ genId' genJ left right
    exact sound.alone u v addr' flowI' flowJ genId' genJ (idle u _ left) (idle v _ right)
  · intro j after gen here undone
    obtain ⟨old, there, rfl⟩ := origin j after here
    rw [(same_id j old there).1]
    by_cases own : j = i ∧ gen = genId
    · obtain ⟨rfl, rfl⟩ := own
      rw [if_pos rfl] at undone
      exact Or.inl (settled.resolve_right (by rw [undone]; exact Bool.false_ne_true))
    have before : old.finished gen = false := by
      by_cases same : i = j
      · subst same
        obtain rfl := Option.some.inj (holds.flow_eq.symm.trans there)
        rw [if_pos rfl] at undone
        exact (others gen fun equal => own ⟨rfl, equal⟩).symm.trans undone
      · rw [if_neg same] at undone
        exact undone
    refine (sound.quiet j old gen there before).imp_right (Or.imp_left ?_)
    rintro ⟨v, addr', busy⟩
    refine ⟨v, addr', ?_⟩
    show (Function.update st.workers w .idle v).job = _
    have apart : v ≠ w := by
      rintro rfl
      rw [job, holds.flowI_eq] at busy
      cases busy
      exact own ⟨rfl, rfl⟩
    rw [update_of_ne apart]
    exact busy

omit sound in
theorem FlowOk.finish (ok : FlowOk cfg files trace flow) (known : flow.haveMeta = true)
    (inside : genId < flow.nGens) (undone : flow.finished genId = false)
    (written : Written cfg files trace flow genId (generation cfg (files flow.flowId) genId)) :
    FlowOk cfg files trace (finishGen genId flow) := by
  have res : finishGen genId flow =
      { flow with
        nDone := flow.nDone + 1
        finished := Function.update flow.finished genId true } := by
    exact if_pos inside
  rw [res]
  constructor
  case short => exact ok.short
  case known =>
    intro _
    have known := ok.known known
    exact { known with }
  case bare =>
    intro unknown
    have same : flow.haveMeta = false := unknown
    rw [known] at same
    cases same
  case count =>
    have more : ((Finset.range flow.nGens).filter fun gen =>
        Function.update flow.finished genId true gen = true) =
        insert genId ((Finset.range flow.nGens).filter fun gen => flow.finished gen = true) := by
      ext gen
      rw [Finset.mem_insert, Finset.mem_filter, Finset.mem_filter, Finset.mem_range]
      by_cases same : gen = genId
      · rw [same, update_self]
        exact ⟨fun _ => Or.inl rfl, fun _ => ⟨inside, rfl⟩⟩
      · rw [update_of_ne same]
        exact ⟨Or.inr, fun either => either.resolve_left same⟩
    have fresh : genId ∉ (Finset.range flow.nGens).filter fun gen => flow.finished gen = true := by
      rw [Finset.mem_filter, undone]
      exact fun both => Bool.false_ne_true both.2
    rw [more, Finset.card_insert_of_notMem fresh, ok.count]
  case written =>
    intro gen finished
    dsimp only at finished ⊢
    by_cases same : gen = genId
    · rw [same]
      exact written.congr rfl rfl
    · rw [update_of_ne same] at finished
      exact (ok.written gen finished).congr rfl rfl

theorem DestSound.finish {ok : Bool} (busy : st.workers w = .finishing addr flowI genId ok) :
    DestSound cfg files genuine (destFinish st w addr flowI genId ok) := by
  have done := sound.working w
  rw [busy] at done
  obtain ⟨i, flow, holds, written⟩ := done
  have job : (st.workers w).job = some (addr, flowI, genId) := by rw [busy]; rfl
  obtain ⟨g, -, -, -, rfl, pending⟩ := sound.pending holds
  unfold destFinish
  cases ok with
  | false =>
    have failed : DestSound cfg files genuine { st with failed := true } :=
      sound.flags fun _ => rfl
    rw [if_neg Bool.false_ne_true]
    have unchanged := getElem?_modify_known holds.flow_eq id
    rw [modify_id] at unchanged
    exact failed.retire flow job (holds.of_parts rfl rfl) unchanged rfl rfl rfl rfl
      (fun _ _ => rfl) (sound.flowOk i flow holds.flow_eq) (Or.inl rfl)
  | true =>
    have counted : finishGen g.genId flow =
        { flow with
          nDone := flow.nDone + 1
          finished := Function.update flow.finished g.genId true } := if_pos pending.inside
    rw [if_pos rfl, holds.flowI_eq]
    refine sound.retire (finishGen g.genId flow) job holds
      (getElem?_modify_known holds.flow_eq _) (by rw [counted])
      (by rw [counted]) (by rw [counted]) (by rw [counted]) ?_
      ((sound.flowOk i flow holds.flow_eq).finish pending.haveMeta pending.inside
        pending.unfinished (written rfl)) (Or.inr ?_)
    · intro _ apart
      rw [counted]
      exact update_of_ne apart _ _
    · rw [counted]
      exact update_self _ _ _

omit sound

def honestEvent (config : DestConfig) (files : Nat → List UInt8)
    (genuine : Nat → Nat → Symbol → Prop) (batsM : Nat) (_ : DestState) : DestEvent → Prop
  | .packet buf => isLine buf → HonestLine config files genuine batsM buf
  | _ => True

include sound

theorem DestSound.step (decodes : Decodes env cfg files genuine) {batsM nWorkers : Nat}
    {event : DestEvent} (honest : honestEvent cfg files genuine batsM st event)
    (taken : destStep env cfg batsM nWorkers st event = some after) :
    DestSound cfg files genuine after := by
  cases event with
  | packet =>
    unfold destStep at taken
    split_ifs at taken
    cases taken
    exact sound.onPacket honest
  | poll elapsedMs =>
    unfold destStep at taken
    split_ifs at taken
    cases taken
    exact sound.poll batsM elapsedMs
  | claim =>
    unfold destStep at taken
    dsimp only at taken
    split_ifs at taken with idle
    exact sound.claim idle.2 taken
  | decode w =>
    cases busy : st.workers w <;> simp only [destStep, busy] at taken <;> try cases taken
    exact sound.decode decodes busy taken
  | write w =>
    cases busy : st.workers w <;> simp only [destStep, busy] at taken <;> try cases taken
    exact sound.write busy taken
  | writeFails w =>
    cases busy : st.workers w <;> simp only [destStep, busy] at taken <;> try cases taken
    have ok := sound.working w
    rw [busy] at ok
    obtain ⟨i, flow, holds, -⟩ := ok
    exact sound.rework (by rw [busy]; rfl) ⟨i, flow, holds, nofun⟩
  | finish w =>
    cases busy : st.workers w <;> simp only [destStep, busy] at taken <;> try cases taken
    exact sound.finish busy

omit sound

theorem FlowOk.file_eq (ok : FlowOk cfg files trace flow) (known : MetaOk cfg files flow)
    (all : ∀ gen < flow.nGens, flow.finished gen = true) : flow.file = files flow.flowId := by
  refine ext_getElem? fun pos => ?_
  by_cases inside : pos < (files flow.flowId).length
  · obtain ⟨gen, exists_gen, low, high⟩ :=
      exists_generation cfg (files flow.flowId) known.positive inside
    rw [← known.nGens_eq] at exists_gen
    exact (ok.written gen (all gen exists_gen)).right pos low high
  · have short := ok.short
    rw [List.getElem?_eq_none (by omega), List.getElem?_eq_none (by omega)]

theorem FlowOk.all_finished (ok : FlowOk cfg files trace flow) (known : MetaOk cfg files flow)
    (counted : (flow.nDone : Int) = (BitVec.ofNat 32 flow.nGens).toInt) :
    ∀ gen < flow.nGens, flow.finished gen = true := by
  have few : flow.nGens ≤ 0x7fffffff := by
    rw [known.nGens_eq]
    exact (genCount_le cfg _ known.positive).trans known.small
  have value : (BitVec.ofNat 32 flow.nGens).toNat = flow.nGens := by
    rw [BitVec.toNat_ofNat]
    exact Nat.mod_eq_of_lt (by omega)
  rw [BitVec.toInt_eq_toNat_of_lt (by omega), value] at counted
  have full : ((Finset.range flow.nGens).filter fun gen => flow.finished gen = true).card =
      (Finset.range flow.nGens).card := by
    rw [← ok.count, Finset.card_range]
    exact_mod_cast counted
  intro gen inside
  exact Finset.filter_card_eq full gen (Finset.mem_range.mpr inside)

/-- In every run over honest packets, once `dest_all_done` holds there are at least as many flows as
expected, and for each flow every generation was decoded once, its writes follow each other from its
own offset on and make up its bytes, and the output is the source file. -/
theorem dest_output_complete (env : DestEnv) (config : DestConfig) (batsM nWorkers : Nat)
    (files : Nat → List UInt8) (genuine : Nat → Nat → Symbol → Prop)
    (decodes : Decodes env config files genuine) (state : DestState)
    (run : Reaches (destStep env config batsM nWorkers) (honestEvent config files genuine batsM)
      .initial state) (done : destAllDone config state.flows = true) :
    (1 ≤ state.flows.length ∧ config.expectFlows ≤ state.flows.length) ∧
      (state.flows.map DestFlow.flowId).Nodup ∧
      ∀ flow ∈ state.flows, flow.file = files flow.flowId ∧
        ∀ gen < genCount config (files flow.flowId).length,
          attempts state.trace flow.flowId gen = 1 ∧
          Tiles (gen * config.genBytes) (writes state.trace flow.flowId gen)
            (generation config (files flow.flowId) gen) := by
  have sound : DestSound config files genuine state :=
    run.invariant (DestSound config files genuine) (DestSound.initial config files genuine)
      fun _ _ _ sound honest taken => sound.step decodes honest taken
  unfold destAllDone at done
  rw [Bool.and_eq_true, List.all_eq_true, decide_eq_true_eq] at done
  obtain ⟨every, enough⟩ := done
  refine ⟨by split_ifs at enough <;> omega, ?_, ?_⟩
  · refine List.nodup_iff_getElem?_ne_getElem?.mpr ?_
    intro i j less inside same
    rw [List.length_map] at inside
    rw [List.getElem?_map, List.getElem?_map,
      List.getElem?_eq_getElem (less.trans inside), List.getElem?_eq_getElem inside] at same
    exact less.ne (sound.distinct i j _ _ (List.getElem?_eq_getElem _)
      (List.getElem?_eq_getElem _) (Option.some.inj same))
  intro flow member
  obtain ⟨i, inside, here⟩ := List.mem_iff_getElem.mp member
  have ok : FlowOk config files state.trace flow :=
    sound.flowOk i flow (by rw [List.getElem?_eq_getElem inside, here])
  have test := every flow member
  rw [Bool.and_eq_true, decide_eq_true_eq] at test
  have known := ok.known test.1
  have all := ok.all_finished known test.2
  refine ⟨ok.file_eq known all, ?_⟩
  intro gen exists_gen
  rw [← known.nGens_eq] at exists_gen
  have written := ok.written gen (all gen exists_gen)
  exact ⟨written.once, written.tiles⟩

end Workers

instance (config : DestConfig) (files : Nat → List UInt8) (genuine : Nat → Nat → Symbol → Prop)
    [∀ flowId gen symbol, Decidable (genuine flowId gen symbol)] (batsM : Nat)
    (buf : List UInt8) : Decidable (HonestLine config files genuine batsM buf) :=
  let pkt := lineFields batsM buf
  decidable_of_iff ((0 < config.K ∧ 0 < config.T) ∧ (files pkt.key.flowId).length ≤ 0x7fffffff ∧
      pkt.fileSize = (files pkt.key.flowId).length ∧ pkt.kPkts = precodeK config.K ∧
      pkt.nGens = genCount config (files pkt.key.flowId).length ∧
      (buf.getD 5 0 = BATS_LINE_DATA → pkt.key.gen < pkt.nGens ∧
        genuine pkt.key.flowId pkt.key.gen ⟨pkt.key.batch, pkt.index, pkt.coded⟩))
    ⟨fun ⟨positive, small, size, k, gens, data⟩ => ⟨positive, small, size, k, gens, data⟩,
      fun ⟨positive, small, size, k, gens, data⟩ => ⟨positive, small, size, k, gens, data⟩⟩

instance (config : DestConfig) (files : Nat → List UInt8) (genuine : Nat → Nat → Symbol → Prop)
    [∀ flowId gen symbol, Decidable (genuine flowId gen symbol)] (batsM : Nat) (state : DestState)
    (event : DestEvent) : Decidable (honestEvent config files genuine batsM state event) :=
  match event with
  | .packet buf =>
    inferInstanceAs (Decidable (isLine buf → HonestLine config files genuine batsM buf))
  | .poll _ | .claim _ | .decode _ | .write _ _ | .writeFails _ | .finish _ =>
    inferInstanceAs (Decidable True)

/-- Decoding for files of one byte: the payload of any symbol is the generation, and the parity
packet is a copy of it. -/
def copyEnv : DestEnv where
  decode := fun symbols _ _ _ =>
    symbols.head?.map fun symbol => (symbol.2.payload ++ symbol.2.payload, 2, 0)
  axpy := fun _ packet _ => packet
  opens := fun _ => true

def copySymbol (_ gen : Nat) (symbol : Symbol) : Prop :=
  gen = 0 ∧ symbol.coded.payload = [100]

instance (flowId gen : Nat) (symbol : Symbol) : Decidable (copySymbol flowId gen symbol) :=
  inferInstanceAs (Decidable (_ ∧ _))

theorem copyEnv_decodes : Decodes copyEnv ⟨1, 1, 0, 1, 1⟩ (fun _ => [100]) copySymbol := by
  intro _ _ symbols block bp inact all decoded
  cases symbols with
  | nil => cases decoded
  | cons symbol =>
    obtain ⟨rfl, body⟩ := all symbol mem_cons_self
    have res : some (symbol.coded.payload ++ symbol.coded.payload, 2, 0) =
      some (block, bp, inact) := decoded
    rw [body] at res
    cases res
    rfl

/-- One packet and the END arrive, the generation is given up waiting for, and a worker writes it. -/
theorem dest_output_complete_sample :
    ∃ state, Reaches (destStep copyEnv ⟨1, 1, 0, 1, 1⟩ 2 1)
        (honestEvent ⟨1, 1, 0, 1, 1⟩ (fun _ => [100]) copySymbol 2) .initial state ∧
      destAllDone ⟨1, 1, 0, 1, 1⟩ state.flows = true ∧ 1 ≤ state.flows.length ∧
      ∀ flow ∈ state.flows, flow.file = [100] ∧ attempts state.trace flow.flowId 0 = 1 := by
  obtain ⟨state, run, done⟩ : ∃ state, Reaches (destStep copyEnv ⟨1, 1, 0, 1, 1⟩ 2 1)
        (honestEvent ⟨1, 1, 0, 1, 1⟩ (fun _ => [100]) copySymbol 2) .initial state ∧
      destAllDone ⟨1, 1, 0, 1, 1⟩ state.flows = true :=
    Reaches.exists_of_actions
      [.packet ((sampleData 0).set 23 1), .packet (sampleEnd.set 23 1), .poll 1000, .claim 0,
        .decode 0, .write 0 1, .finish 0] _ (by decide +kernel)
  obtain ⟨known, _, complete⟩ := dest_output_complete copyEnv ⟨1, 1, 0, 1, 1⟩ 2 1 (fun _ => [100])
    copySymbol copyEnv_decodes state run done
  refine ⟨state, run, done, known.1, fun flow member => ?_⟩
  obtain ⟨written, each⟩ := complete flow member
  exact ⟨written, (each 0 (by decide)).1⟩

end MultiFlow.Bats
