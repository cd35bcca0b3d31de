import Mathlib.Data.List.TakeWhile
import MultiFlow.Wire.Accounting
import MultiFlow.Wire.Receiver

/-!
# What a flow's output depends on

A worker feeds its decoder with what was offered to its flow, in order, up to the first failure.
So a returned worker has written a function of that history.  In prefix mode the history of a flow
is a function of the datagrams of its own flow id; in single-file mode it is everything that came.
-/

namespace MultiFlow.WireUdp

open CodecApi FlowDecoder Lib Sender MultiFlow.Stream Wire List

universe u

/-- The decoder after a queue of datagrams, and whether one of them failed. -/
def runJobs (decoder : WireFlowDecoderConfig) :
    List Datagram → WireFlowDecoder → Bool × WireFlowDecoder
  | [], dec => (false, dec)
  | job :: rest, dec =>
    let ingested := wireFlowDecoderIngest decoder dec job.1 job.2
    if ingested.1 ≠ 0 then (true, ingested.2) else runJobs decoder rest ingested.2

theorem runJobs_append (decoder : WireFlowDecoderConfig) (jobs more : List Datagram)
    (dec : WireFlowDecoder) :
    runJobs decoder (jobs ++ more) dec =
      if (runJobs decoder jobs dec).1 then runJobs decoder jobs dec
      else runJobs decoder more (runJobs decoder jobs dec).2 := by
  induction jobs generalizing dec with
  | nil => rfl
  | cons job _ ih =>
    rw [cons_append, runJobs, runJobs]
    by_cases failed : (wireFlowDecoderIngest decoder dec job.1 job.2).1 ≠ 0
    · simp only [if_pos failed, if_true]
    · simp only [if_neg failed]
      exact ih _

def finalDecoder (decoder : WireFlowDecoderConfig) (offered : List Datagram) : WireFlowDecoder :=
  let result := runJobs decoder offered freshDecoder
  if result.1 then result.2
  else if decoder.bestEffort then (wireFlowDecoderFlushBestEffort decoder result.2).2
  else result.2

theorem finalDecoder_of_failed {dec : WireFlowDecoderConfig} {offered : List Datagram}
    (failed : (runJobs dec offered freshDecoder).1 = true) (more : List Datagram) :
    (runJobs dec (offered ++ more) freshDecoder).1 = true ∧
      finalDecoder dec (offered ++ more) = (runJobs dec offered freshDecoder).2 := by
  have same : runJobs dec (offered ++ more) freshDecoder =
      runJobs dec offered freshDecoder := by
    rw [runJobs_append, if_pos failed]
  refine ⟨by rw [same]; exact failed, ?_⟩
  unfold finalDecoder
  rw [same, if_pos failed]

/-- A flow between two steps.  While the loop runs, only a failed worker closes its queue. -/
structure CtxOk (decoder : WireFlowDecoderConfig) (running : Bool) (ctx : FlowCtx) : Prop where
  done_of_returned : ctx.returned = true → ctx.recvDone = true
  done_of_failed : ctx.workerFailed = true → ctx.recvDone = true
  fed : ctx.returned = false → ∃ taken, ctx.offered = taken ++ ctx.queue ∧
    runJobs decoder taken freshDecoder = (false, ctx.dec)
  closed : ctx.returned = true → ctx.dec = finalDecoder decoder ctx.offered
  lost : running = true → ctx.recvDone = true → ctx.returned = true ∧
    (runJobs decoder ctx.offered freshDecoder).1 = true
  unmarked : ctx.marks = []

section Worker

variable {dec : WireFlowDecoderConfig} {running : Bool} {ctx after : FlowCtx}

theorem CtxOk.fresh (path : List Char) (flowId : UInt32) : CtxOk dec running (freshCtx path flowId) where
  done_of_returned := nofun
  done_of_failed := nofun
  fed := fun _ => ⟨[], rfl, rfl⟩
  closed := nofun
  lost := nofun
  unmarked := rfl

variable (ok : CtxOk dec running ctx)
include ok

theorem CtxOk.leave : CtxOk dec false { ctx with recvDone := true } :=
  { ok with done_of_returned := fun _ => rfl, done_of_failed := fun _ => rfl, lost := nofun }

theorem CtxOk.rebind (flowId : UInt32) : CtxOk dec running { ctx with flowId } :=
  { ok with }

theorem CtxOk.push (isOpen : ctx.recvDone = false) (job : Datagram) :
    CtxOk dec running
      { ctx with queue := ctx.queue ++ [job], offered := ctx.offered ++ [job] } := by
  have working : ctx.returned = false := by
    refine Bool.eq_false_of_not_eq_true fun returned => ?_
    cases isOpen.symm.trans (ok.done_of_returned returned)
  refine { ok with fed := ?_, closed := ?_, lost := ?_ }
  · intro _
    obtain ⟨taken, split, fed⟩ := ok.fed working
    refine ⟨taken, ?_, fed⟩
    rw [split, append_assoc]
  · intro returned
    cases working.symm.trans returned
  · intro _ done
    cases isOpen.symm.trans done

omit ok

theorem CtxOk.refuse (ok : CtxOk dec true ctx)
    (closed : ctx.recvDone = true ∨ ctx.workerFailed = true) (job : Datagram) :
    CtxOk dec true { ctx with offered := ctx.offered ++ [job] } := by
  have done : ctx.recvDone = true := closed.elim id ok.done_of_failed
  obtain ⟨returned, failed⟩ := ok.lost rfl done
  obtain ⟨failedAfter, same⟩ := finalDecoder_of_failed failed [job]
  refine { ok with fed := ?_, closed := ?_, lost := fun _ _ => ⟨returned, failedAfter⟩ }
  · intro working
    cases returned.symm.trans working
  intro _
  rw [same, ok.closed returned]
  unfold finalDecoder
  rw [if_pos failed]

theorem workerEnd_history (ctx : FlowCtx) :
    (workerEnd dec ctx).flowId = ctx.flowId ∧ (workerEnd dec ctx).offered = ctx.offered ∧
      (workerEnd dec ctx).marks = ctx.marks ∧ (workerEnd dec ctx).path = ctx.path := by
  unfold workerEnd
  dsimp only
  split
  · split <;> exact ⟨rfl, rfl, rfl, rfl⟩
  · exact ⟨rfl, rfl, rfl, rfl⟩

theorem workerPass_history (taken : workerPass dec ctx = some after) :
    after.flowId = ctx.flowId ∧ after.offered = ctx.offered ∧ after.marks = ctx.marks ∧
      after.path = ctx.path := by
  unfold workerPass at taken
  split at taken
  · cases taken
  split at taken
  next =>
    split at taken
    next =>
      cases taken
      exact workerEnd_history ctx
    next => cases taken
  next =>
    dsimp only at taken
    split at taken
    all_goals
      next =>
        cases taken
        exact ⟨rfl, rfl, rfl, rfl⟩

include ok

theorem CtxOk.end_ (working : ctx.returned = false) (empty : ctx.queue = [])
    (done : ctx.recvDone = true) : CtxOk dec running (workerEnd dec ctx) := by
  have left : running = false := by
    refine Bool.eq_false_of_not_eq_true fun runs => ?_
    cases working.symm.trans (ok.lost runs done).1
  obtain ⟨_, split, fed⟩ := ok.fed working
  rw [empty, append_nil] at split
  subst left
  have res : (workerEnd dec ctx).dec = finalDecoder dec ctx.offered ∧
      (workerEnd dec ctx).returned = true ∧ (workerEnd dec ctx).recvDone = true := by
    unfold workerEnd finalDecoder
    rw [split, fed]
    dsimp only
    split_ifs <;> simp_all
  obtain ⟨dec_eq, returned, doneAfter⟩ := res
  obtain ⟨-, offered_eq, marks_eq, -⟩ := (workerEnd_history ctx : (workerEnd dec ctx).flowId = _ ∧ _ ∧ _)
  refine ⟨fun _ => doneAfter, fun _ => doneAfter, fun working => ?_, fun _ => ?_, nofun, ?_⟩
  · rw [returned] at working
    cases working
  · rw [dec_eq, offered_eq]
  · rw [marks_eq]
    exact ok.unmarked

theorem CtxOk.pass (taken : workerPass dec ctx = some after) : CtxOk dec running after := by
  unfold workerPass at taken
  split at taken
  · cases taken
  rename_i notReturned
  have working : ctx.returned = false := by simpa using notReturned
  split at taken
  next empty =>
    split at taken
    next done =>
      cases taken
      exact ok.end_ working empty done
    next => cases taken
  rename_i job rest queue_eq
  obtain ⟨fed, split, res⟩ := ok.fed working
  rw [queue_eq] at split
  have next : runJobs dec (fed ++ [job]) freshDecoder =
      runJobs dec [job] ctx.dec := by
    rw [runJobs_append, res]
    rfl
  have offered_eq : ctx.offered = (fed ++ [job]) ++ rest := by
    rw [split, append_assoc]
    rfl
  dsimp only at taken
  split at taken
  next failed =>
    cases taken
    have now : runJobs dec (fed ++ [job]) freshDecoder =
        (true, (wireFlowDecoderIngest dec ctx.dec job.1 job.2).2) := by
      rw [next, runJobs, if_pos failed]
    have fails : (runJobs dec (fed ++ [job]) freshDecoder).1 = true := by rw [now]
    obtain ⟨failedAfter, final⟩ := finalDecoder_of_failed fails rest
    refine ⟨fun _ => rfl, fun _ => rfl, nofun, fun _ => ?_, fun _ _ => ⟨rfl, ?_⟩,
      ok.unmarked⟩
    · rw [offered_eq, final, now]
    · rw [offered_eq]
      exact failedAfter
  next succeeded =>
    cases taken
    refine { ok with fed := fun _ => ?_, closed := ?_, lost := ?_ }
    · refine ⟨fed ++ [job], offered_eq, ?_⟩
      rw [next, runJobs, if_neg succeeded]
      rfl
    · intro returned
      cases working.symm.trans returned
    · exact ok.lost

end Worker

def LoopPhase.running : LoopPhase → Bool
  | .polling => true
  | .receiving => true
  | .left _ => false
  | .reported => false

section Flows

variable {Peer : Type u} {env : RecvEnv Peer} {config : RecvConfig}

def FlowsOk (env : RecvEnv Peer) (config : RecvConfig) (running : Bool)
    (flows : List FlowCtx) : Prop :=
  ∀ ctx ∈ flows, CtxOk (decoderConfig env config) running ctx

def RecvSound (env : RecvEnv Peer) (config : RecvConfig) (state : RecvState Peer) : Prop :=
  FlowsOk env config state.phase.running state.flows

theorem FlowsOk.modify {running : Bool} {flows : List FlowCtx} {i : Nat} {f : FlowCtx → FlowCtx}
    (ok : FlowsOk env config running flows)
    (keeps : ∀ ctx, flows[i]? = some ctx → CtxOk (decoderConfig env config) running (f ctx)) :
    FlowsOk env config running (flows.modify i f) := by
  intro _ mem
  obtain ⟨j, there⟩ := mem_iff_getElem?.mp mem
  rw [List.getElem?_modify, Option.map_eq_map, Option.map_eq_some_iff] at there
  obtain ⟨old, here, changed⟩ := there
  by_cases same : i = j
  · rw [if_pos same] at changed
    rw [← changed]
    exact keeps old (same ▸ here)
  · rw [if_neg same] at changed
    rw [← changed]
    exact ok old (mem_of_getElem? here)

variable {st after : RecvState Peer}

theorem FlowsOk.leave {running : Bool} (ok : FlowsOk env config running st.flows)
    (cleanup : Bool) : RecvSound env config (leave cleanup st) := by
  intro _ mem
  obtain ⟨old, here, rfl⟩ := mem_map.mp mem
  exact (ok old here).leave

theorem FlowsOk.enqueue {i : Nat} {job : Datagram} (ok : FlowsOk env config true st.flows)
    (taken : recvEnqueue config st i job = some after) : RecvSound env config after := by
  unfold recvEnqueue at taken
  split at taken
  · cases taken
  rename_i ctx here
  split at taken
  · cases taken
  dsimp only at taken
  split at taken
  next closed =>
    cases taken
    refine FlowsOk.leave (ok.modify fun found there => ?_) true
    obtain rfl := Option.some.inj (here.symm.trans there)
    exact (ok ctx (mem_of_getElem? here)).refuse closed job
  rename_i isOpen
  have pushed : FlowsOk env config true (st.flows.modify i fun ctx =>
      { ctx with queue := ctx.queue ++ [job], offered := ctx.offered ++ [job] }) := by
    refine ok.modify fun found there => ?_
    obtain rfl := Option.some.inj (here.symm.trans there)
    have stillOpen : ctx.recvDone = false := by simpa using (not_or.mp isOpen).1
    exact (ok ctx (mem_of_getElem? here)).push stillOpen job
  generalize (if multiMode config = true then _ else ctx.decodeComplete) = finished at taken
  cases Option.some.inj taken
  cases finished with
  | true => exact FlowsOk.leave pushed false
  | false => exact pushed

theorem FlowsOk.datagram {peer : Peer} {bytes : List UInt8}
    (ok : FlowsOk env config true st.flows)
    (taken : recvDatagram env config st peer bytes = some after) :
    RecvSound env config after := by
  unfold recvDatagram at taken
  dsimp only at taken
  split at taken
  next =>
    cases taken
    exact ok
  split at taken
  next =>
    refine FlowsOk.enqueue ?_ taken
    exact ok
  split at taken
  next =>
    split at taken
    next =>
      cases taken
      exact ok
    refine FlowsOk.enqueue ?_ taken
    intro ctx mem
    rcases mem_append.mp mem with old | new
    · exact ok ctx old
    · rw [mem_singleton.mp new]
      exact CtxOk.fresh _ _
  next =>
    refine FlowsOk.enqueue (ok.modify fun ctx here => ?_) taken
    exact (ok ctx (mem_of_getElem? here)).rebind _

theorem appendMark_off (off : config.decodeMark = false) (time : Nat) (ctx : FlowCtx) :
    appendMark env config time ctx = ctx := by
  unfold appendMark
  rw [if_neg]
  simp [off]

theorem RecvSound.step {event : RecvEvent Peer} (off : config.decodeMark = false)
    (sound : RecvSound env config st) (taken : recvStep env config st event = some after) :
    RecvSound env config after := by
  cases event <;> rw [recvStep] at taken <;> split at taken <;> try cases taken
  next polling => -- poll
    unfold recvPoll
    split
    · exact FlowsOk.leave sound true
    have ok : FlowsOk env config true st.flows := by
      unfold RecvSound at sound
      rwa [polling] at sound
    split
    · exact ok
    split
    next => exact FlowsOk.leave sound false
    next => exact sound
  next receiving => -- datagram
    unfold RecvSound at sound
    rw [receiving] at sound
    exact FlowsOk.datagram sound taken
  next => exact FlowsOk.leave sound true -- socketFails
  next found => -- work
    obtain ⟨old, here, passed⟩ := Option.bind_eq_some_iff.mp found
    intro other mem
    rcases mem_or_eq_of_mem_set mem with kept | rfl
    · exact sound other kept
    · exact (sound old (mem_of_getElem? here)).pass passed
  next finished => -- report
    have ok : FlowsOk env config false st.flows := by
      unfold RecvSound at sound
      rwa [finished.1] at sound
    intro _ mem
    obtain ⟨old, here, rfl⟩ := mem_map.mp mem
    rw [appendMark_off off]
    exact ok old here

theorem recvSound_start {start : RecvState Peer}
    (started : wireUdpRecvStart env config = some start) : RecvSound env config start := by
  have flows_eq : start.flows = [] ∨ start.flows = [freshCtx config.outputPath 0] := by
    unfold wireUdpRecvStart at started
    dsimp only at started
    split_ifs at started <;> cases started <;> simp
  intro _ mem
  rcases flows_eq with none_ | one
  · rw [none_] at mem
    cases mem
  rw [one, mem_singleton] at mem
  rw [mem]
  exact CtxOk.fresh _ _

end Flows

section History

variable {Peer : Type u} (env : RecvEnv Peer) (config : RecvConfig)

def flowDatagrams (flowId : UInt32) (processed : List (Peer × List UInt8)) :
    List (Peer × Datagram) :=
  processed.filterMap fun read =>
    match examine env config read.2 with
    | none => none
    | some job => if job.1.flowId = flowId then some (read.1, job) else none

/-- What a flow of prefix mode is offered: everything from the first datagram that can open it. -/
def offeredTo (flowId : UInt32) (processed : List (Peer × List UInt8)) : List Datagram :=
  ((flowDatagrams env config flowId processed).dropWhile
    fun read => !canOpen env config read.1 flowId).map Prod.snd

def acceptedJobs (processed : List (Peer × List UInt8)) : List Datagram :=
  processed.filterMap fun read => examine env config read.2

/-- A row of the flow table: where the flow writes and all that it was offered. -/
structure FlowEntry where
  flowId : UInt32
  path : List Char
  offered : List Datagram

def flowEntry (ctx : FlowCtx) : FlowEntry := ⟨ctx.flowId, ctx.path, ctx.offered⟩

def FlowEntry.offer (job : Datagram) (entry : FlowEntry) : FlowEntry :=
  { entry with offered := entry.offered ++ [job] }

/-- What reading a datagram does to the flow table. -/
inductive TableStep (peer : Peer) (bytes : List UInt8) (entries : List FlowEntry) :
    List FlowEntry → Prop
  | dropped : examine env config bytes = none → TableStep peer bytes entries entries
  | found {job : Datagram} {i : Nat} {entry : FlowEntry} :
      examine env config bytes = some job → entries[i]? = some entry →
      entry.flowId = job.1.flowId → TableStep peer bytes entries (entries.modify i (.offer job))
  | refused {job : Datagram} :
      examine env config bytes = some job → (∀ entry ∈ entries, job.1.flowId ≠ entry.flowId) →
      multiMode config = true →
      (canOpen env config peer job.1.flowId = false ∨ config.maxFlows ≤ entries.length) →
      TableStep peer bytes entries entries
  | opened {job : Datagram} {path : List Char} :
      examine env config bytes = some job → (∀ entry ∈ entries, job.1.flowId ≠ entry.flowId) →
      multiMode config = true → wireFlowOutputPath env config peer job.1.flowId = some path →
      env.opens path = true → entries.length < config.maxFlows →
      TableStep peer bytes entries (entries ++ [⟨job.1.flowId, path, [job]⟩])
  | rebound {job : Datagram} :
      examine env config bytes = some job → multiMode config = false →
      TableStep peer bytes entries
        (entries.modify 0 fun entry => .offer job { entry with flowId := job.1.flowId })

/-- The flow table of prefix mode and the datagrams that were read. -/
structure PrefixHistory (entries : List FlowEntry) (processed : List (Peer × List UInt8)) :
    Prop where
  distinct : (entries.map FlowEntry.flowId).Nodup
  offered : ∀ entry ∈ entries,
    entry.offered = offeredTo env config entry.flowId processed ∧ entry.offered ≠ []
  unopened : entries.length < config.maxFlows → ∀ flowId ∉ entries.map FlowEntry.flowId,
    offeredTo env config flowId processed = []

def SingleHistory (entries : List FlowEntry) (processed : List (Peer × List UInt8)) : Prop :=
  ∃ flowId path, entries = [⟨flowId, path, acceptedJobs env config processed⟩]

variable {env config}

variable {peer : Peer} {bytes : List UInt8} {flowId : UInt32} {job : Datagram}
  {after : RecvState Peer} {flows : List FlowCtx} {i : Nat} {state start : RecvState Peer}
  {allowed : RecvState Peer → RecvEvent Peer → Prop} {ctx : FlowCtx}

theorem map_modify {α β : Type} {items : List α} {view : α → β} {f : α → α} {g : β → β}
    (same : ∀ item, view (f item) = g (view item)) :
    (items.modify i f).map view = (items.map view).modify i g := by
  refine ext_getElem? fun j => ?_
  rw [List.getElem?_map, List.getElem?_modify, List.getElem?_modify, List.getElem?_map]
  cases items[j]? with
  | none => rfl
  | some =>
    by_cases here : i = j
    · simp only [if_pos here, Option.map_eq_map, Option.map_some, same]
    · simp only [if_neg here, Option.map_eq_map, Option.map_some]

theorem map_modify_same {α β : Type} {items : List α} {view : α → β} {f : α → α}
    (same : ∀ item, view (f item) = view item) : (items.modify i f).map view = items.map view :=
  (map_modify (g := id) same).trans (modify_id _ _)

section Table

variable {processed : List (Peer × List UInt8)} {entries later : List FlowEntry}

theorem offeredTo_dropped (flowId : UInt32) (dropped : examine env config bytes = none) :
    offeredTo env config flowId (processed ++ [(peer, bytes)]) =
      offeredTo env config flowId processed := by
  simp [offeredTo, flowDatagrams, filterMap_append, dropped]

theorem offeredTo_other (accepted : examine env config bytes = some job)
    (other : job.1.flowId ≠ flowId) :
    offeredTo env config flowId (processed ++ [(peer, bytes)]) =
      offeredTo env config flowId processed := by
  simp [offeredTo, flowDatagrams, filterMap_append, accepted, other]

theorem offeredTo_own (accepted : examine env config bytes = some job) :
    offeredTo env config job.1.flowId (processed ++ [(peer, bytes)]) =
      if offeredTo env config job.1.flowId processed = [] then
        if canOpen env config peer job.1.flowId then [job] else []
      else offeredTo env config job.1.flowId processed ++ [job] := by
  have own : flowDatagrams env config job.1.flowId (processed ++ [(peer, bytes)]) =
      flowDatagrams env config job.1.flowId processed ++ [(peer, job)] := by
    simp [flowDatagrams, filterMap_append, accepted]
  unfold offeredTo
  rw [own, dropWhile_append]
  simp only [List.isEmpty_iff, map_eq_nil_iff]
  split
  · cases opens : canOpen env config peer job.1.flowId <;> simp [opens]
  · rw [map_append, map_singleton]

theorem PrefixHistory.step (multi : multiMode config = true)
    (history : PrefixHistory env config entries processed)
    (step : TableStep env config peer bytes entries later) :
    PrefixHistory env config later (processed ++ [(peer, bytes)]) := by
  obtain ⟨distinct, offered, unopened⟩ := history
  cases step with
  | dropped dropped =>
    refine ⟨distinct, fun entry mem => ?_, fun room flowId missing => ?_⟩
    · rw [offeredTo_dropped _ dropped]
      exact offered entry mem
    · rw [offeredTo_dropped _ dropped]
      exact unopened room flowId missing
  | @refused job accepted absent _ refused =>
    refine ⟨distinct, fun entry mem => ?_, fun room flowId missing => ?_⟩
    · rw [offeredTo_other accepted (absent entry mem)]
      exact offered entry mem
    by_cases own : job.1.flowId = flowId
    · subst own
      have closed := refused.resolve_right (Nat.not_le.mpr room)
      rw [offeredTo_own accepted, if_pos (unopened room _ missing), closed]
      rfl
    · rw [offeredTo_other accepted own]
      exact unopened room flowId missing
  | @opened job path accepted absent _ formed opens room =>
    have new : job.1.flowId ∉ entries.map FlowEntry.flowId := by
      intro mem
      obtain ⟨entry, isEntry, same⟩ := mem_map.mp mem
      exact absent entry isEntry same.symm
    refine ⟨?_, fun entry mem => ?_, fun _ flowId missing => ?_⟩
    · rw [map_append]
      exact distinct.append (nodup_singleton _) (by simpa using new)
    · obtain old | last := mem_append.mp mem
      · rw [offeredTo_other accepted (absent entry old)]
        exact offered entry old
      rw [mem_singleton.mp last, offeredTo_own accepted, if_pos (unopened room _ new), canOpen,
        formed, Option.any_some, opens]
      exact ⟨rfl, cons_ne_nil _ _⟩
    · rw [map_append, mem_append, not_or, map_singleton, mem_singleton] at missing
      rw [offeredTo_other accepted (Ne.symm missing.2)]
      exact unopened room flowId missing.1
  | rebound _ single =>
    rw [multi] at single
    cases single
  | @found job i entry accepted here own =>
    have ids : (entries.modify i (.offer job)).map FlowEntry.flowId =
        entries.map FlowEntry.flowId := map_modify_same fun _ => rfl
    refine ⟨ids ▸ distinct, fun changed mem => ?_, fun room flowId missing => ?_⟩
    · obtain ⟨j, there⟩ := mem_iff_getElem?.mp mem
      rw [getElem?_modify, Option.map_eq_map, Option.map_eq_some_iff] at there
      obtain ⟨old, there, rfl⟩ := there
      obtain ⟨offered_eq, ne⟩ := offered old (mem_of_getElem? there)
      by_cases same : i = j
      · subst same
        cases here.symm.trans there
        rw [if_pos rfl]
        refine ⟨?_, append_ne_nil_of_right_ne_nil _ (cons_ne_nil _ _)⟩
        rw [FlowEntry.offer, own, offeredTo_own accepted, ← own, ← offered_eq, if_neg ne]
      · have other : job.1.flowId ≠ old.flowId := by
          rw [← own]
          intro equal
          have bound : i < (entries.map FlowEntry.flowId).length := by
            rw [length_map]
            exact (List.getElem?_eq_some_iff.mp here).1
          refine same ((getElem?_inj bound distinct).mp ?_)
          rw [getElem?_map, getElem?_map, here, there, Option.map_some, equal, Option.map_some]
        rw [if_neg same, offeredTo_other accepted other]
        exact ⟨offered_eq, ne⟩
    · rw [ids] at missing
      rw [length_modify] at room
      have other : job.1.flowId ≠ flowId := by
        rintro rfl
        exact missing (mem_map.mpr ⟨entry, mem_of_getElem? here, own⟩)
      rw [offeredTo_other accepted other]
      exact unopened room flowId missing

theorem SingleHistory.step (single : multiMode config = false)
    (history : SingleHistory env config entries processed)
    (step : TableStep env config peer bytes entries later) :
    SingleHistory env config later (processed ++ [(peer, bytes)]) := by
  unfold SingleHistory acceptedJobs at history ⊢
  obtain ⟨flowId, path, rfl⟩ := history
  rw [filterMap_append]
  cases step with
  | dropped dropped => simp [dropped]
  | @found _ i _ accepted here =>
    cases i with
    | zero => simp [accepted, FlowEntry.offer]
    | succ => cases here
  | refused _ _ multi | opened _ _ multi =>
    rw [single] at multi
    cases multi
  | rebound accepted => simp [accepted, FlowEntry.offer]

/-- Flows that are opened on paths of their own stay apart. -/
theorem TableStep.apart (step : TableStep env config peer bytes entries later)
    (own : ∀ job ∈ examine env config bytes, multiMode config = true →
      (∀ entry ∈ entries, job.1.flowId ≠ entry.flowId) →
      ∀ entry ∈ entries, wireFlowOutputPath env config peer job.1.flowId ≠ some entry.path)
    (apart : (entries.map FlowEntry.path).Nodup) : (later.map FlowEntry.path).Nodup := by
  cases step with
  | dropped | refused => exact apart
  | @found job i =>
    have kept : (entries.modify i (.offer job)).map FlowEntry.path = _ :=
      map_modify_same fun _ => rfl
    rwa [kept]
  | @rebound job =>
    have kept : (entries.modify 0 fun entry => .offer job { entry with flowId := job.1.flowId }).map
        FlowEntry.path = _ := map_modify_same fun _ => rfl
    rwa [kept]
  | opened accepted absent multi formed =>
    rw [map_append]
    refine apart.append (nodup_singleton _) ?_
    rw [map_singleton, disjoint_singleton, mem_map]
    rintro ⟨entry, mem, same⟩
    exact own _ accepted multi absent entry mem (formed.trans (congrArg some same.symm))

end Table

theorem map_flowEntry_leave (cleanup : Bool) (st : RecvState Peer) :
    (leave cleanup st).flows.map flowEntry = st.flows.map flowEntry := by
  unfold leave
  rw [map_map]
  rfl

theorem recvEnqueue_entries (taken : recvEnqueue config state i job = some after) :
    after.flows.map flowEntry = (state.flows.map flowEntry).modify i (.offer job) ∧
      after.processed = state.processed := by
  unfold recvEnqueue at taken
  split at taken
  · cases taken
  rename_i ctx _
  split at taken
  · cases taken
  dsimp only at taken
  split at taken
  next =>
    cases taken
    refine ⟨?_, rfl⟩
    rw [map_flowEntry_leave]
    exact map_modify fun _ => rfl
  generalize (if multiMode config = true then _ else ctx.decodeComplete) = finished at taken
  cases Option.some.inj taken
  cases finished with
  | true =>
    refine ⟨?_, rfl⟩
    rw [if_pos rfl, map_flowEntry_leave]
    exact map_modify fun _ => rfl
  | false => exact ⟨map_modify fun _ => rfl, rfl⟩

theorem map_flowEntry_work {dec : WireFlowDecoderConfig} {old new : FlowCtx}
    (here : flows[i]? = some old) (passed : workerPass dec old = some new) :
    (flows.set i new).map flowEntry = flows.map flowEntry := by
  obtain ⟨id_eq, offered_eq, _, path_eq⟩ := workerPass_history passed
  have same : flowEntry new = flowEntry old := by
    unfold flowEntry
    rw [id_eq, offered_eq, path_eq]
  refine ext_getElem? fun j => ?_
  rw [List.getElem?_map, List.getElem?_map, List.getElem?_set]
  by_cases at_ : i = j
  · subst at_
    have bound : i < flows.length := (List.getElem?_eq_some_iff.mp here).1
    rw [if_pos rfl, if_pos bound, here, Option.map_some, Option.map_some, same]
  · rw [if_neg at_]

theorem modify_concat_length {α : Type u} (f : α → α) (items : List α) (last : α) :
    (items ++ [last]).modify items.length f = items ++ [f last] := by
  induction items with
  | nil => rfl
  | cons _ _ ih => rw [cons_append, length_cons, modify_succ_cons, ih, cons_append]

theorem recvDatagram_table (taken : recvDatagram env config state peer bytes = some after) :
    after.processed = state.processed ++ [(peer, bytes)] ∧
      TableStep env config peer bytes (state.flows.map flowEntry) (after.flows.map flowEntry) := by
  unfold recvDatagram at taken
  dsimp only at taken
  split at taken
  next dropped =>
    cases taken
    exact ⟨rfl, .dropped dropped⟩
  rename_i job accepted
  split at taken
  next i found =>
    obtain ⟨entries_eq, processed_eq⟩ := recvEnqueue_entries taken
    obtain ⟨bound, same, _⟩ := List.findIdx?_eq_some_iff_getElem.mp found
    have here : (state.flows.map flowEntry)[i]? = some (flowEntry state.flows[i]) := by
      rw [getElem?_map, getElem?_eq_getElem bound, Option.map_some]
    exact ⟨processed_eq, entries_eq ▸ .found accepted here (of_decide_eq_true same)⟩
  rename_i missing
  have absent : ∀ entry ∈ state.flows.map flowEntry, job.1.flowId ≠ entry.flowId := by
    intro entry mem same
    obtain ⟨ctx, isFlow, rfl⟩ := mem_map.mp mem
    have other := List.findIdx?_eq_none_iff.mp missing ctx isFlow
    exact of_decide_eq_false other same.symm
  split at taken
  next multi =>
    split at taken
    next refused =>
      cases taken
      refine ⟨rfl, .refused accepted absent multi ?_⟩
      rw [length_map]
      simpa using refused
    rename_i opened
    obtain ⟨opens, room⟩ := not_or.mp opened
    obtain ⟨path, formed, opens⟩ : ∃ path, wireFlowOutputPath env config peer job.1.flowId =
        some path ∧ env.opens path = true := by
      simpa [canOpen, Option.any_eq_true] using opens
    obtain ⟨entries_eq, processed_eq⟩ := recvEnqueue_entries taken
    have place : state.flows.length = (state.flows.map flowEntry).length := (length_map _).symm
    rw [map_append, map_singleton, place, modify_concat_length, formed] at entries_eq
    refine ⟨processed_eq, entries_eq ▸ .opened accepted absent multi formed opens ?_⟩
    rw [length_map]
    exact Nat.not_le.mp room
  next single =>
    obtain ⟨entries_eq, processed_eq⟩ := recvEnqueue_entries taken
    have rebound : (state.flows.modify 0 fun ctx => { ctx with flowId := job.1.flowId }).map
        flowEntry = (state.flows.map flowEntry).modify 0 fun entry =>
          { entry with flowId := job.1.flowId } :=
      map_modify fun _ => rfl
    rw [rebound, modify_modify_eq] at entries_eq
    exact ⟨processed_eq, entries_eq ▸ .rebound accepted (Bool.eq_false_of_not_eq_true single)⟩

/-- Only reading a datagram changes the flow table. -/
theorem recvStep_table {event : RecvEvent Peer}
    (taken : recvStep env config state event = some after) :
    (after.flows.map flowEntry = state.flows.map flowEntry ∧ after.processed = state.processed) ∨
      ∃ peer bytes, event = .datagram peer bytes ∧
        after.processed = state.processed ++ [(peer, bytes)] ∧
        TableStep env config peer bytes (state.flows.map flowEntry)
          (after.flows.map flowEntry) := by
  cases event <;> rw [recvStep] at taken <;> split at taken <;> try cases taken
  next => -- poll
    unfold recvPoll
    split
    · exact Or.inl ⟨map_flowEntry_leave _ _, rfl⟩
    split
    · exact Or.inl ⟨rfl, rfl⟩
    split
    next => exact Or.inl ⟨map_flowEntry_leave _ _, rfl⟩
    next => exact Or.inl ⟨rfl, rfl⟩
  next peer bytes _ => exact Or.inr ⟨peer, bytes, rfl, recvDatagram_table taken⟩
  next => exact Or.inl ⟨map_flowEntry_leave _ _, rfl⟩ -- socketFails
  next ctx found => -- work
    obtain ⟨_, here, passed⟩ := Option.bind_eq_some_iff.mp found
    exact Or.inl ⟨map_flowEntry_work here passed, rfl⟩
  next time _ => -- report
    refine Or.inl ⟨?_, rfl⟩
    rw [map_map]
    refine map_congr_left fun ctx _ => ?_
    show flowEntry (appendMark env config time ctx) = flowEntry ctx
    unfold appendMark
    split
    · rfl
    · rfl

theorem start_table (started : wireUdpRecvStart env config = some start) :
    start.processed = [] ∧
      start.flows = if multiMode config = true then [] else [freshCtx config.outputPath 0] := by
  unfold wireUdpRecvStart at started
  dsimp only at started
  split_ifs at started with _ _ _ _ multi
  · cases started
    exact ⟨rfl, (if_pos multi).symm⟩
  · cases started
    exact ⟨rfl, (if_neg multi).symm⟩

/-- What every datagram keeps of the table and the datagrams read, every run keeps. -/
theorem history_reaches (History : List FlowEntry → List (Peer × List UInt8) → Prop)
    (run : Reaches (recvStep env config) allowed start state)
    (initially : History (start.flows.map flowEntry) start.processed)
    (step : ∀ {peer bytes entries processed later}, History entries processed →
      TableStep env config peer bytes entries later →
        History later (processed ++ [(peer, bytes)])) :
    History (state.flows.map flowEntry) state.processed := by
  refine run.invariant (fun state => History (state.flows.map flowEntry) state.processed)
    initially ?_
  intro _ _ _ history _ taken
  rcases recvStep_table taken with ⟨entries_eq, processed_eq⟩ | ⟨_, _, _, processed_eq, table⟩
  · rwa [entries_eq, processed_eq]
  · rw [processed_eq]
    exact step history table

theorem prefixHistory_reaches (multi : multiMode config = true)
    (started : wireUdpRecvStart env config = some start)
    (run : Reaches (recvStep env config) allowed start state) :
    PrefixHistory env config (state.flows.map flowEntry) state.processed := by
  refine history_reaches _ run ?_ (.step multi)
  obtain ⟨processed_eq, flows_eq⟩ := start_table started
  rw [processed_eq, flows_eq, if_pos multi]
  exact ⟨nodup_nil, nofun, fun _ _ _ => rfl⟩

theorem singleHistory_reaches (single : multiMode config = false)
    (started : wireUdpRecvStart env config = some start)
    (run : Reaches (recvStep env config) allowed start state) :
    SingleHistory env config (state.flows.map flowEntry) state.processed := by
  refine history_reaches _ run ?_ (.step single)
  obtain ⟨processed_eq, flows_eq⟩ := start_table started
  rw [processed_eq, flows_eq, single]
  exact ⟨0, config.outputPath, rfl⟩

/-- In single-file mode only datagrams of the one flow id come; in prefix mode a flow that is opened
has another path than the open ones. -/
def ownDatagrams (env : RecvEnv Peer) (config : RecvConfig) (flowId : UInt32)
    (state : RecvState Peer) : RecvEvent Peer → Prop
  | .datagram peer bytes => ∀ job ∈ examine env config bytes,
    if 1 < config.maxFlows then
      (∃ ctx ∈ state.flows, ctx.flowId = job.1.flowId) ∨
        ∀ ctx ∈ state.flows, wireFlowOutputPath env config peer job.1.flowId ≠ some ctx.path
    else job.1.flowId = flowId
  | _ => True

instance : (event : RecvEvent Peer) → Decidable (ownDatagrams env config flowId state event)
  | .datagram _ _ => by
    dsimp only [ownDatagrams]
    infer_instance
  | .poll _ _ | .socketFails | .work _ | .report _ => instDecidableTrue

theorem acceptedJobs_of_own (single : multiMode config = false)
    (started : wireUdpRecvStart env config = some start)
    (run : Reaches (recvStep env config) (ownDatagrams env config flowId) start state) :
    acceptedJobs env config state.processed =
      (flowDatagrams env config flowId state.processed).map Prod.snd := by
  have few : ¬ 1 < config.maxFlows := of_decide_eq_false single
  induction run with
  | start =>
    rw [(start_table started).1]
    rfl
  | next _ _ permitted taken ih =>
    rcases recvStep_table taken with ⟨_, processed_eq⟩ | ⟨_, bytes, rfl, processed_eq, _⟩
    · rw [processed_eq, ih]
    unfold acceptedJobs flowDatagrams at ih ⊢
    rw [processed_eq, filterMap_append, filterMap_append, map_append, ih]
    congr 1
    cases accepted : examine env config bytes with
    | none => simp [accepted]
    | some job => simp [accepted, (if_neg few).mp (permitted job accepted)]

theorem offered_eq_own (started : wireUdpRecvStart env config = some start)
    (run : Reaches (recvStep env config) (ownDatagrams env config flowId) start state)
    (isFlow : ctx ∈ state.flows) (named : ctx.flowId = flowId) :
    ctx.offered = if multiMode config = true then
        ((flowDatagrams env config flowId state.processed).dropWhile
          fun read => !canOpen env config read.1 flowId).map Prod.snd
      else (flowDatagrams env config flowId state.processed).map Prod.snd := by
  have listed : flowEntry ctx ∈ state.flows.map flowEntry := mem_map_of_mem isFlow
  cases mode : multiMode config with
  | true =>
    rw [if_pos rfl, ← named]
    exact ((prefixHistory_reaches mode started run).offered _ listed).1
  | false =>
    obtain ⟨_, _, entries_eq⟩ := singleHistory_reaches mode started run
    rw [entries_eq, mem_singleton] at listed
    rw [if_neg Bool.false_ne_true, ← acceptedJobs_of_own mode started run]
    exact congrArg FlowEntry.offered listed

theorem output_of_returned (off : config.decodeMark = false)
    (started : wireUdpRecvStart env config = some start)
    (run : Reaches (recvStep env config) allowed start state) (isFlow : ctx ∈ state.flows)
    (returned : ctx.returned = true) :
    ctx.output = (finalDecoder (decoderConfig env config) ctx.offered).output := by
  have sound : RecvSound env config state := by
    refine run.invariant (RecvSound env config) (recvSound_start started) ?_
    intro _ _ _ sound _ taken
    exact sound.step off taken
  have ok := sound ctx isFlow
  rw [FlowCtx.output, ok.unmarked, append_nil, ok.closed returned]

theorem paths_apart (started : wireUdpRecvStart env config = some start)
    (run : Reaches (recvStep env config) (ownDatagrams env config flowId) start state) :
    ((state.flows.map flowEntry).map FlowEntry.path).Nodup := by
  refine run.invariant (fun state => ((state.flows.map flowEntry).map FlowEntry.path).Nodup) ?_ ?_
  · rw [(start_table started).2]
    split <;> simp
  intro before event _ apart permitted taken
  rcases recvStep_table taken with ⟨entries_eq, _⟩ | ⟨_, _, rfl, _, table⟩
  · rwa [entries_eq]
  refine table.apart (fun job accepted multi absent entry mem => ?_) apart
  obtain ⟨ctx, isFlow, rfl⟩ := mem_map.mp mem
  refine ((if_pos (of_decide_eq_true multi)).mp (permitted job accepted)).resolve_left ?_ ctx isFlow
  rintro ⟨other, isOther, same⟩
  exact absent _ (mem_map_of_mem isOther) same.symm

theorem writtenTo_own (apart : ((state.flows.map flowEntry).map FlowEntry.path).Nodup)
    (isFlow : ctx ∈ state.flows) : state.writtenTo ctx.path = [ctx.output] := by
  obtain ⟨front, back, parts⟩ := append_of_mem isFlow
  have paths_eq : (state.flows.map flowEntry).map FlowEntry.path = state.flows.map FlowCtx.path :=
    map_map
  rw [paths_eq, parts, map_append, map_cons, nodup_middle, nodup_cons, ← map_append] at apart
  have others : ∀ other ∈ front ++ back, other.path ≠ ctx.path := fun other mem same =>
    apart.1 (same ▸ mem_map_of_mem mem)
  rw [forall_mem_append] at others
  rw [RecvState.writtenTo, parts, filter_append, filter_cons_of_pos (by simp),
    filter_eq_nil_iff.mpr (by simpa using others.1), filter_eq_nil_iff.mpr (by simpa using others.2)]
  rfl

/-- Without decode marks, with only the flow's own datagrams in single-file mode, and with flows on
different paths in prefix mode, two runs that read the same datagrams of a flow write the same to
its output, whatever else they read and however the workers are scheduled. -/
theorem recv_flow_isolation (env : RecvEnv Peer) (config : RecvConfig) (flowId : UInt32)
    (off : config.decodeMark = false) (start left right : RecvState Peer)
    (started : wireUdpRecvStart env config = some start)
    (leftRun : Reaches (recvStep env config) (ownDatagrams env config flowId) start left)
    (rightRun : Reaches (recvStep env config) (ownDatagrams env config flowId) start right)
    (same : flowDatagrams env config flowId left.processed =
      flowDatagrams env config flowId right.processed) (leftCtx rightCtx : FlowCtx)
    (leftFlow : leftCtx ∈ left.flows ∧ leftCtx.flowId = flowId ∧ leftCtx.returned = true)
    (rightFlow : rightCtx ∈ right.flows ∧ rightCtx.flowId = flowId ∧ rightCtx.returned = true) :
    left.writtenTo leftCtx.path = right.writtenTo rightCtx.path := by
  obtain ⟨leftMem, leftNamed, leftReturned⟩ := leftFlow
  obtain ⟨rightMem, rightNamed, rightReturned⟩ := rightFlow
  have offered : leftCtx.offered = rightCtx.offered := by
    rw [offered_eq_own started leftRun leftMem leftNamed,
      offered_eq_own started rightRun rightMem rightNamed, same]
  rw [writtenTo_own (paths_apart started leftRun) leftMem,
    writtenTo_own (paths_apart started rightRun) rightMem,
    output_of_returned off started leftRun leftMem leftReturned,
    output_of_returned off started rightRun rightMem rightReturned, offered]

def workLeft (ctx : FlowCtx) : Nat := if ctx.returned then 0 else ctx.queue.length + 1

theorem workerPass_lowers {dec : WireFlowDecoderConfig} (working : ctx.returned = false)
    (done : ctx.recvDone = true) :
    ∃ after, workerPass dec ctx = some after ∧ after.recvDone = true ∧
      workLeft after < workLeft ctx := by
  have before : workLeft ctx = ctx.queue.length + 1 := by
    rw [workLeft, working]
    rfl
  rw [workerPass, if_neg (by rw [working]; exact Bool.false_ne_true)]
  cases queue_eq : ctx.queue with
  | nil =>
    refine ⟨_, if_pos done, ?_, ?_⟩
    · unfold workerEnd
      dsimp only
      split_ifs <;> exact done
    have ended : workLeft (workerEnd dec ctx) = 0 := by
      unfold workerEnd
      dsimp only
      split_ifs <;> rfl
    omega
  | cons job =>
    rw [queue_eq, length_cons] at before
    by_cases failed : (wireFlowDecoderIngest dec ctx.dec job.1 job.2).1 ≠ 0
    · refine ⟨_, if_pos failed, rfl, ?_⟩
      rw [before]
      exact Nat.succ_pos _
    · refine ⟨_, if_neg failed, done, ?_⟩
      rw [before, workLeft]
      simp [working]

theorem sum_set_lt {α : Type u} (weight : α → Nat) {items : List α} {old new : α}
    (here : items[i]? = some old) (less : weight new < weight old) :
    ((items.set i new).map weight).sum < (items.map weight).sum := by
  induction items generalizing i with
  | nil => cases here
  | cons _ _ ih =>
    cases i with
    | zero =>
      cases here
      simpa using less
    | succ => simpa using ih here

theorem workers_return (free : ∀ st i, allowed st (.work i)) (st : RecvState Peer)
    (done : ∀ ctx ∈ st.flows, ctx.recvDone = true) :
    ∃ last, Reaches (recvStep env config) allowed st last ∧
      last.flows.map flowEntry = st.flows.map flowEntry ∧ last.processed = st.processed ∧
      ∀ ctx ∈ last.flows, ctx.returned = true := by
  induction measure : (st.flows.map workLeft).sum using Nat.strong_induction_on
    generalizing st with
  | _ bound ih =>
    by_cases all : ∀ ctx ∈ st.flows, ctx.returned = true
    · exact ⟨st, .start, rfl, rfl, all⟩
    obtain ⟨ctx, isFlow, notReturned⟩ : ∃ ctx ∈ st.flows, ¬ ctx.returned = true := by
      simpa using all
    obtain ⟨i, here⟩ := mem_iff_getElem?.mp isFlow
    obtain ⟨after, passed, stillDone, less⟩ :=
      workerPass_lowers (by simpa using notReturned) (done ctx isFlow)
    have taken : recvStep env config st (.work i) =
        some { st with flows := st.flows.set i after } := by
      rw [recvStep, here, Option.bind_some, passed]
    have lower := sum_set_lt workLeft here less
    rw [measure] at lower
    obtain ⟨last, run, entries_eq, processed_eq, returned⟩ :=
      ih _ lower { st with flows := st.flows.set i after } (by
        intro other mem
        rcases mem_or_eq_of_mem_set mem with kept | rfl
        · exact done other kept
        · exact stillDone) rfl
    refine ⟨last, run.prepend _ (free st i) taken, ?_, processed_eq, returned⟩
    rw [entries_eq]
    exact map_flowEntry_work here passed

end History

/-- One peer, every file can be opened, and every write succeeds. -/
def openEnv : RecvEnv Unit :=
  ⟨fun _ _ => true, fun _ => some (['h'], 1), fun _ => true, fun _ _ _ => []⟩

def plainRecv (maxFlows : Nat) : RecvConfig := ⟨noneCodec, false, maxFlows, 0, false, ['o'], []⟩

def flowTx (flowId : UInt32) : TxConfig := ⟨1, 8, flowId, plainTx.finalDst_ne, plainTx.ttl_ne⟩

def packageBytes (flowId : UInt32) : List UInt8 :=
  sendWireDatagram (dataHeader (flowTx flowId) (UInt64.ofNat 0) (UInt16.ofNat 0)
    (wireShardCount noneCodec) (chunk noneCodec (sevens 1) 0).length (0, 0))
    (shardPayload (noneCodec.encode ((sevensFraming 1).data 0) noneCodec.outputBlockSize) 0)

def emptyEndBytes (flowId : UInt32) : List UInt8 :=
  Framing.last (flowTx flowId) noneCodec (sevens 0)

/-- Everything is read before a worker runs; then the line is idle. -/
def feed (reads : List (Unit × List UInt8)) : List (RecvEvent Unit) :=
  reads.flatMap (fun read => [.poll true false, .datagram read.1 read.2]) ++ [.poll false true]

def fedCheck (flowIds : List UInt32) (reads : List (Unit × List UInt8))
    (state : RecvState Unit) : Bool :=
  decide (state.flows.map FlowCtx.flowId = flowIds) && decide (state.processed = reads) &&
    state.flows.all fun ctx => ctx.recvDone

def fedRun (allowed : RecvState Unit → RecvEvent Unit → Prop)
    [∀ state event, Decidable (allowed state event)] (maxFlows : Nat) (start : RecvState Unit)
    (flowIds : List UInt32) (reads : List (Unit × List UInt8)) : Option Bool :=
  ((feed reads).foldlM (fun state event => if allowed state event then
    recvStep openEnv (plainRecv maxFlows) state event else none) start).map
      (fedCheck flowIds reads)

/-- The receiver of the one package, and the one that first sees the END of an empty flow 9. -/
def ownReads : List (Unit × List UInt8) := [((), packageBytes 7)]

def mixedReads : List (Unit × List UInt8) := [((), emptyEndBytes 9), ((), packageBytes 7)]

theorem flowDatagrams_mixed (maxFlows : Nat) :
    flowDatagrams openEnv (plainRecv maxFlows) 7 mixedReads =
      flowDatagrams openEnv (plainRecv maxFlows) 7 ownReads := by
  show flowDatagrams openEnv (plainRecv 1) 7 mixedReads =
    flowDatagrams openEnv (plainRecv 1) 7 ownReads
  decide +kernel

theorem decoderConfig_plain (maxFlows : Nat) :
    decoderConfig openEnv (plainRecv maxFlows) = plainConfig false := by
  have shards : UInt16.ofNat (noneCodec.outputBlockSize / PKG_SIZE) = 1 := by decide
  show WireFlowDecoderConfig.mk noneCodec (UInt16.ofNat (noneCodec.outputBlockSize / PKG_SIZE))
    false PKG_SIZE (fun _ _ => true) = _
  rw [shards]
  rfl

theorem acceptedJobs_own :
    acceptedJobs openEnv (plainRecv 1) ownReads =
      [shardDatagram (flowTx 7) (sevensFraming 1) 0 0] := by
  decide +kernel

theorem acceptedJobs_mixed :
    acceptedJobs openEnv (plainRecv 1) mixedReads = [endDatagram (flowTx 9) noneCodec (sevens 0),
        shardDatagram (flowTx 7) (sevensFraming 1) 0 0] := by
  decide +kernel

theorem finalDecoder_strict (jobs : List Datagram) :
    finalDecoder (plainConfig false) jobs = (runJobs (plainConfig false) jobs freshDecoder).2 := by
  unfold finalDecoder
  dsimp only
  split
  · rfl
  · rfl

theorem runJobs_single (decoder : WireFlowDecoderConfig) (job : Datagram) (dec : WireFlowDecoder) :
    (runJobs decoder [job] dec).2 = (wireFlowDecoderIngest decoder dec job.1 job.2).2 := by
  rw [runJobs]
  split
  · rfl
  · rfl

theorem length_chunk_sevens {count i : Nat} (isBlock : i < count) :
    (chunk noneCodec (sevens count) i).length = 1400 := by
  rw [chunk_sevens, length_replicate]
  show min 1400 (count * 1400 - i * 1400) = 1400
  omega

theorem package_written {count : Nat} (some_ : 0 < count) :
    (finalDecoder (plainConfig false)
      [shardDatagram (flowTx 7) (sevensFraming count) 0 0]).output.flatten ≠ [] := by
  rw [finalDecoder_strict, runJobs_single]
  have window := freshDecoder_windowInv (plainConfig false)
  have next := ingest_windowInv (plainConfig_good false)
    (shardDatagram (flowTx 7) (sevensFraming count) 0 0) _ window
  have isBlock : 0 < chunkCount (plainConfig false).codec (sevens count) := by
    show 0 < chunkCount noneCodec (sevens count)
    rw [chunkCount_sevens]
    exact some_
  have length_eq := length_chunk_sevens some_
  have announced : (chunk (plainConfig false).codec (sevens count) 0).length % 2 ^ 16 ≠ 0 := by
    show (chunk noneCodec (sevens count) 0).length % 2 ^ 16 ≠ 0
    omega
  cases freshDecoder_clean.ingest (plainConfig_good false) noneCodec_lawful (flowTx 7) window
    isBlock announced with
  | filling slot filling _ _ =>
    exact absurd filling (Filling.incomplete (plainConfig_good false) next)
  | written _ output_eq _ =>
    intro empty
    have none_ : [announcedBytes noneCodec (sevens count) 0].flatten = [] :=
      (congrArg List.flatten output_eq).symm.trans empty
    rw [flatten_singleton, announcedBytes_eq _ _ _ (by omega)] at none_
    rw [none_] at length_eq
    cases length_eq

theorem package_ignored (job : Datagram) :
    (finalDecoder (plainConfig false)
      [endDatagram (flowTx 9) noneCodec (sevens 0), job]).output.flatten = [] := by
  have good := plainConfig_good false
  have lawful : LawfulCodec (plainConfig false).codec := noneCodec_lawful
  have none_ : chunkCount (plainConfig false).codec (sevens 0) = 0 := chunkCount_sevens 0
  have complete : (wireFlowDecoderIngest (plainConfig false) freshDecoder
      (endDatagram (flowTx 9) noneCodec (sevens 0)).1
      (endDatagram (flowTx 9) noneCodec (sevens 0)).2).2.complete = true :=
    ingest_last good lawful (flowTx 9) (freshDecoder_windowInv _) rfl rfl (by rw [none_]; rfl)
  have honest : ∀ datagram ∈ [endDatagram (flowTx 9) noneCodec (sevens 0)],
      Honest (flowTx 9) (sevensFraming 0) datagram := by
    intro _ mem
    rw [mem_singleton.mp mem]
    exact .finish
  have inv := ingestAll_strictInv good lawful (by decide) (by rw [none_]; decide) rfl _ honest
  have nothing : sevens 0 = [] := by
    rw [sevens, Nat.zero_mul]
    rfl
  have only : (runJobs (plainConfig false)
      [endDatagram (flowTx 9) noneCodec (sevens 0), job] freshDecoder).2 =
      ingestAll (plainConfig false) freshDecoder
        [endDatagram (flowTx 9) noneCodec (sevens 0)] := by
    rw [runJobs]
    split
    · rfl
    · rw [runJobs_single, wireFlowDecoderIngest, if_pos complete]
      rfl
  rw [finalDecoder_strict, only, inv.output_eq, nothing, take_nil]

theorem fed_returned {allowed : RecvState Unit → RecvEvent Unit → Prop}
    [∀ state event, Decidable (allowed state event)] (free : ∀ st i, allowed st (.work i))
    {maxFlows : Nat} {start : RecvState Unit} {flowIds : List UInt32}
    {reads : List (Unit × List UInt8)}
    (fed : fedRun allowed maxFlows start flowIds reads = some true)
    {flowId : UInt32} (named : flowId ∈ flowIds) :
    ∃ st, Reaches (recvStep openEnv (plainRecv maxFlows)) allowed start st ∧
      st.processed = reads ∧
      ∃ ctx ∈ st.flows, ctx.flowId = flowId ∧ ctx.returned = true := by
  obtain ⟨mid, toMiddle, checked⟩ := Reaches.exists_of_actions (feed reads) _ fed
  unfold fedCheck at checked
  simp only [Bool.and_eq_true, decide_eq_true_eq, all_eq_true] at checked
  obtain ⟨⟨ids_eq, processed_eq⟩, done⟩ := checked
  obtain ⟨st, toState, entries_eq, same, returned⟩ := workers_return free mid done
  have ids_same : st.flows.map FlowCtx.flowId = flowIds := by
    have firsts := congrArg (List.map FlowEntry.flowId) entries_eq
    rw [map_map, map_map] at firsts
    exact firsts.trans ids_eq
  rw [← ids_same] at named
  obtain ⟨ctx, isFlow, ctx_eq⟩ := mem_map.mp named
  exact ⟨st, toMiddle.trans toState, same.trans processed_eq, ctx, isFlow, ctx_eq,
    returned ctx isFlow⟩

def singleStart : RecvState Unit := ⟨[freshCtx ['o'] 0], .polling, []⟩

def prefixStart : RecvState Unit := ⟨[], .polling, []⟩

theorem singleStart_eq : wireUdpRecvStart openEnv (plainRecv 1) = some singleStart := rfl

theorem prefixStart_eq : wireUdpRecvStart openEnv (plainRecv 2) = some prefixStart := rfl

theorem recv_flow_isolation_mixed :
    ∃ left right : RecvState Unit,
      Reaches (recvStep openEnv (plainRecv 2)) (ownDatagrams openEnv (plainRecv 2) 7) prefixStart
        left ∧
      Reaches (recvStep openEnv (plainRecv 2)) (ownDatagrams openEnv (plainRecv 2) 7) prefixStart
        right ∧
      left.processed = mixedReads ∧ right.processed = ownReads ∧
      ∃ leftCtx ∈ left.flows, ∃ rightCtx ∈ right.flows, leftCtx.flowId = 7 ∧ rightCtx.flowId = 7 ∧
          left.writtenTo leftCtx.path = right.writtenTo rightCtx.path := by
  have leftFed : fedRun (ownDatagrams openEnv (plainRecv 2) 7) 2 prefixStart [9, 7] mixedReads =
      some true := by decide +kernel
  have rightFed : fedRun (ownDatagrams openEnv (plainRecv 2) 7) 2 prefixStart [7] ownReads =
      some true := by decide +kernel
  obtain ⟨left, leftRun, leftReads, leftCtx, leftMem, leftNamed, leftReturned⟩ :=
    fed_returned (fun _ _ => trivial) leftFed (show (7 : UInt32) ∈ [9, 7] by decide)
  obtain ⟨right, rightRun, rightReads, rightCtx, rightMem, rightNamed, rightReturned⟩ :=
    fed_returned (fun _ _ => trivial) rightFed (show (7 : UInt32) ∈ [7] by decide)
  refine ⟨left, right, leftRun, rightRun, leftReads, rightReads, leftCtx, leftMem, rightCtx,
    rightMem, leftNamed, rightNamed, ?_⟩
  refine recv_flow_isolation openEnv (plainRecv 2) 7 rfl prefixStart left right prefixStart_eq
    leftRun rightRun ?_ leftCtx rightCtx
    ⟨leftMem, leftNamed, leftReturned⟩ ⟨rightMem, rightNamed, rightReturned⟩
  rw [leftReads, rightReads]
  exact flowDatagrams_mixed 2

theorem single_output {st : RecvState Unit} {ctx : FlowCtx}
    (run : Reaches (recvStep openEnv (plainRecv 1)) anyStep singleStart st)
    (isFlow : ctx ∈ st.flows) (returned : ctx.returned = true) :
    st.writtenTo ctx.path = [(finalDecoder (plainConfig false)
      (acceptedJobs openEnv (plainRecv 1) st.processed)).output] := by
  obtain ⟨_, _, entries_eq⟩ := singleHistory_reaches rfl singleStart_eq run
  have apart : ((st.flows.map flowEntry).map FlowEntry.path).Nodup := by
    rw [entries_eq]
    exact nodup_singleton _
  have listed : flowEntry ctx ∈ st.flows.map flowEntry := mem_map_of_mem isFlow
  rw [entries_eq, mem_singleton] at listed
  have offered_eq : ctx.offered = acceptedJobs openEnv (plainRecv 1) st.processed :=
    congrArg FlowEntry.offered listed
  rw [writtenTo_own apart isFlow, output_of_returned rfl singleStart_eq run isFlow returned,
    offered_eq, decoderConfig_plain]

/-- In single-file mode what a flow writes depends on the datagrams of another flow. -/
theorem single_file_mixes_flows :
    ∃ left right : RecvState Unit, wireUdpRecvStart openEnv (plainRecv 1) = some singleStart ∧
      Reaches (recvStep openEnv (plainRecv 1)) anyStep singleStart left ∧
      Reaches (recvStep openEnv (plainRecv 1)) anyStep singleStart right ∧
      flowDatagrams openEnv (plainRecv 1) 7 left.processed =
        flowDatagrams openEnv (plainRecv 1) 7 right.processed ∧
      ∃ leftCtx ∈ left.flows, ∃ rightCtx ∈ right.flows,
        (leftCtx.flowId = 7 ∧ leftCtx.returned = true) ∧
        (rightCtx.flowId = 7 ∧ rightCtx.returned = true) ∧
        (left.writtenTo leftCtx.path).map List.flatten ≠
          (right.writtenTo rightCtx.path).map List.flatten := by
  have leftFed : fedRun anyStep 1 singleStart [7] mixedReads = some true := by decide +kernel
  have rightFed : fedRun anyStep 1 singleStart [7] ownReads = some true := by decide +kernel
  obtain ⟨left, leftRun, leftReads, leftCtx, leftMem, leftNamed, leftReturned⟩ :=
    fed_returned (fun _ _ => trivial) leftFed (show (7 : UInt32) ∈ [7] by decide)
  obtain ⟨right, rightRun, rightReads, rightCtx, rightMem, rightNamed, rightReturned⟩ :=
    fed_returned (fun _ _ => trivial) rightFed (show (7 : UInt32) ∈ [7] by decide)
  refine ⟨left, right, singleStart_eq, leftRun, rightRun, ?_, leftCtx, leftMem, rightCtx, rightMem,
    ⟨leftNamed, leftReturned⟩, ⟨rightNamed, rightReturned⟩, ?_⟩
  · rw [leftReads, rightReads]
    exact flowDatagrams_mixed 1
  · rw [single_output leftRun leftMem leftReturned, single_output rightRun rightMem rightReturned,
      leftReads, rightReads, acceptedJobs_own, acceptedJobs_mixed, map_singleton, map_singleton,
      package_ignored]
    intro same
    exact package_written Nat.one_pos (singleton_injective same).symm

end MultiFlow.WireUdp
