import MultiFlow.Lib.Bits
import MultiFlow.Lib.Transition
import MultiFlow.Bats.Relay

/-!
# Each batch is recoded once, from its own packets

The slot of a batch holds what was processed for its key, the map of flushed batches holds the
keys that have been recoded, and no key is in both.
-/

namespace MultiFlow.Bats

open Function Lib List

theorem getD_set_byte (bits : List (BitVec 8)) {place : Nat} (inside : place < bits.length)
    (value : BitVec 8) (i : Nat) :
    (bits.set place value).getD i 0#8 = if i = place then value else bits.getD i 0#8 := by
  grind

theorem getD_append_zeros (bits : List (BitVec 8)) (count i : Nat) :
    (bits ++ List.replicate count 0#8).getD i 0#8 = bits.getD i 0#8 := by
  grind

theorem FlushedGen.test_eq (map : FlushedGen) (batch : Nat) :
    map.test batch = (map.bits.getD (batch / 8) 0#8).getLsbD (batch % 8) := by
  unfold test
  split_ifs with short
  · rw [getD_eq_default _ _ short]
    exact BitVec.getLsbD_zero.symm
  · rfl

theorem FlushedGen.test_mark (map : FlushedGen) (marked batch : Nat) :
    (map.mark marked).test batch = (decide (batch = marked) || map.test batch) := by
  have inside : marked / 8 <
      (map.bits ++ List.replicate (marked / 8 + 1 - map.bits.length) 0#8).length := by
    rw [length_append, length_replicate]
    omega
  rw [test_eq, test_eq]
  unfold mark
  rw [getD_set_byte _ inside, getD_append_zeros, getD_append_zeros]
  by_cases same : batch / 8 = marked / 8
  · rw [if_pos same, same, getLsbD_setBit _ _ (Nat.mod_lt _ (by decide))]
    by_cases bit : batch % 8 = marked % 8
    · have whole : batch = marked := by omega
      simp [whole]
    have other : batch ≠ marked := by
      rintro rfl
      exact bit rfl
    simp [bit, other]
  · have other : batch ≠ marked := by
      rintro rfl
      exact same rfl
    simp [same, other]

theorem batchWasFlushed_markFlushed (maps : List FlushedGen) (marked key : BatchKey) :
    batchWasFlushed (markFlushed maps marked) key =
      (decide (key = marked) || batchWasFlushed maps key) := by
  obtain ⟨flowId, gen, batch⟩ := key
  obtain ⟨markedFlow, markedGen, markedBatch⟩ := marked
  induction maps with
  | nil =>
    by_cases same : markedFlow = flowId ∧ markedGen = gen
    · obtain ⟨rfl, rfl⟩ := same
      have fresh := FlushedGen.test_mark ⟨markedFlow, markedGen, []⟩ markedBatch batch
      simp [batchWasFlushed, markFlushed, FlushedGen.mark] at fresh ⊢
      rw [fresh]
      simp [FlushedGen.test]
    · have other : ¬ (flowId = markedFlow ∧ gen = markedGen) := fun ⟨l, r⟩ => same ⟨l.symm, r.symm⟩
      simp [batchWasFlushed, markFlushed, FlushedGen.mark, same]
      intro l r
      exact absurd ⟨l, r⟩ other
  | cons map _ ih =>
    unfold markFlushed
    unfold batchWasFlushed at ih ⊢
    by_cases home : map.flowId = markedFlow ∧ map.gen = markedGen
    · rw [if_pos home]
      obtain ⟨rfl, rfl⟩ := home
      by_cases here : map.flowId = flowId ∧ map.gen = gen
      · obtain ⟨rfl, rfl⟩ := here
        have marked := FlushedGen.test_mark map markedBatch batch
        simp [FlushedGen.mark] at marked ⊢
        exact marked
      have other : ¬ (flowId = map.flowId ∧ gen = map.gen) :=
        fun ⟨l, r⟩ => here ⟨l.symm, r.symm⟩
      simp only [List.find?_cons, FlushedGen.mark, here, decide_false]
      simp only [BatchKey.mk.injEq]
      have apart : decide (flowId = map.flowId ∧ gen = map.gen ∧ batch = markedBatch) = false :=
        decide_eq_false fun ⟨l, r, _⟩ => other ⟨l, r⟩
      rw [apart, Bool.false_or]
    · rw [if_neg home]
      by_cases here : map.flowId = flowId ∧ map.gen = gen
      · obtain ⟨rfl, rfl⟩ := here
        have apart : decide ((⟨map.flowId, map.gen, batch⟩ : BatchKey) =
            ⟨markedFlow, markedGen, markedBatch⟩) = false := by
          refine decide_eq_false ?_
          intro same
          cases same
          exact home ⟨rfl, rfl⟩
        rw [apart, Bool.false_or]
        simp
      · simp only [List.find?_cons, here, decide_false]
        exact ih

section History

variable (batsM : Nat) (source : BatchKey → Nat → CodedPacket)

/-- The packets of a key, one for each index that a history has processed. -/
def inputsOf (trace : List RelayEvent) (key : BatchKey) : List CodedPacket :=
  (List.range batsM).filterMap fun index =>
    if .processed key index ∈ trace then some (source key index) else none

/-- A key is recoded from exactly what was processed for it before, and for the first time. -/
def Faithful (trace : List RelayEvent) : Prop :=
  ∀ before key inputs after, trace = before ++ .recoded key inputs :: after →
    inputs = inputsOf batsM source before key ∧ ∀ other, .recoded key other ∉ before

variable {batsM source} {trace : List RelayEvent}

theorem Faithful.nil : Faithful batsM source [] := by
  intro _ _ _ _ split
  exact absurd split (by simp)

theorem Faithful.append (faithful : Faithful batsM source trace) {event : RelayEvent}
    (last : ∀ key inputs, event = .recoded key inputs →
      inputs = inputsOf batsM source trace key ∧ ∀ other, .recoded key other ∉ trace) :
    Faithful batsM source (trace ++ [event]) := by
  intro before key inputs after split
  rcases eq_nil_or_concat after with rfl | ⟨rest, final, rfl⟩
  · obtain ⟨rfl, same⟩ := append_inj' split rfl
    exact last key inputs (List.cons.inj same).1
  rw [concat_eq_append, ← cons_append, ← append_assoc] at split
  obtain ⟨earlier, -⟩ := append_inj' split rfl
  exact faithful before key inputs rest earlier

theorem Faithful.once (faithful : Faithful batsM source trace) {before after : List RelayEvent}
    {key : BatchKey} {inputs : List CodedPacket}
    (split : trace = before ++ .recoded key inputs :: after) :
    ∀ other, .recoded key other ∉ after := by
  intro other again
  obtain ⟨between, rest, rfl⟩ := append_of_mem again
  have later := faithful (before ++ .recoded key inputs :: between) key other rest
    (by rw [split, append_assoc, cons_append])
  exact later.2 inputs (by simp)

end History

section Integrity

variable (nSlots batsM : Nat) (sizes : BatchKey → Nat) (source : BatchKey → Nat → CodedPacket)

/-- A slot in use: its key has not been recoded, and it holds what was processed for it. -/
structure SlotSound (state : RelayState) (i : Nat) (slot : RelaySlot) : Prop where
  inside : i < nSlots
  fresh : batchWasFlushed state.maps slot.key = false
  size_eq : slot.symbolSize = sizes slot.key
  seen_eq : ∀ index, slot.seen index =
    if .processed slot.key index ∈ state.trace then some (source slot.key index) else none
  count_eq : slot.n = (slot.inputs batsM).length
  nonempty : 0 < slot.n
  known : (findFlow state.flows slot.key.flowId).isSome

structure Integrity (state : RelayState) : Prop where
  faithful : Faithful batsM source state.trace
  flushed : ∀ key, batchWasFlushed state.maps key = true ↔
    ∃ inputs, .recoded key inputs ∈ state.trace
  sound : ∀ i slot, state.slots i = some slot → SlotSound nSlots batsM sizes source state i slot
  unique : ∀ i j left right, state.slots i = some left → state.slots j = some right →
    left.key = right.key → i = j
  accounted : ∀ key index, .processed key index ∈ state.trace →
    batchWasFlushed state.maps key = true ∨ ∃ i slot, state.slots i = some slot ∧ slot.key = key
  bounded : ∀ key index, .processed key index ∈ state.trace → index < batsM

variable {nSlots batsM sizes source} {st after : RelayState}

theorem Integrity.initial : Integrity nSlots batsM sizes source .initial where
  faithful := Faithful.nil
  flushed := fun key => by simp [batchWasFlushed, RelayState.initial]
  sound := nofun
  unique := nofun
  accounted := nofun
  bounded := nofun

theorem findFlow_map_isSome (flows : List FlowRx) (wanted : Nat) (change : FlowRx → FlowRx)
    (keeps : ∀ flow, (change flow).flowId = flow.flowId) :
    (findFlow (flows.map change) wanted).isSome = (findFlow flows wanted).isSome := by
  induction flows with
  | nil => rfl
  | cons flow _ ih =>
    unfold findFlow at ih ⊢
    rw [map_cons, List.find?_cons, List.find?_cons, keeps]
    by_cases here : flow.flowId = wanted
    · simp [here]
    · simp only [here, decide_false]
      exact ih

theorem findFlow_updateFlow_isSome (flows : List FlowRx) (flowId wanted : Nat)
    (change : FlowRx → FlowRx) (keeps : ∀ flow, (change flow).flowId = flow.flowId) :
    (findFlow (updateFlow flows flowId change) wanted).isSome = (findFlow flows wanted).isSome := by
  refine findFlow_map_isSome flows wanted _ ?_
  intro flow
  split_ifs
  · exact keeps flow
  · rfl

theorem flowId_flowNoteComplete (flow : FlowRx) : (flowNoteComplete flow).flowId = flow.flowId := by
  unfold flowNoteComplete
  dsimp only
  split_ifs <;> rfl

theorem flowId_flowNoteMeta (pkt : LinePacket) (flow : FlowRx) :
    (flowNoteMeta pkt flow).flowId = flow.flowId := by
  unfold flowNoteMeta
  split_ifs <;> rfl

structure Flushes (batsM : Nat) (state : RelayState) (i : Nat) (slot : RelaySlot)
    (after : RelayState) : Prop where
  slots_eq : after.slots = update state.slots i none
  maps_eq : after.maps = markFlushed state.maps slot.key
  trace_eq : after.trace = state.trace ++ [.recoded slot.key (slot.inputs batsM)]
  flows_eq : ∀ flowId, (findFlow after.flows flowId).isSome = (findFlow state.flows flowId).isSome

variable {env : RelayEnv} {i : Nat} {slot : RelaySlot} {force : Bool} {pkt : LinePacket}

theorem flushSlot_flushes (ne : (slot.inputs batsM).length ≠ 0)
    (flushed : flushSlot env batsM st i slot = some after) :
    Flushes batsM st i slot after := by
  unfold flushSlot at flushed
  split at flushed
  · cases flushed
  rename_i flow _
  rw [if_neg ne] at flushed
  split at flushed
  · cases flushed
  split at flushed
  · cases flushed
  split at flushed
  · cases flushed
  cases flushed
  refine ⟨rfl, rfl, rfl, ?_⟩
  intro _
  exact findFlow_updateFlow_isSome _ _ _ _ fun flow => flowId_flowNoteComplete _

variable (integrity : Integrity nSlots batsM sizes source st)
include integrity

theorem Integrity.flush (here : st.slots i = some slot)
    (flushes : Flushes batsM st i slot after) : Integrity nSlots batsM sizes source after := by
  have sound := integrity.sound i slot here
  have slots : ∀ j other, after.slots j = some other → j ≠ i ∧ st.slots j = some other := by
    intro j other there
    rw [flushes.slots_eq] at there
    exact (of_update there).resolve_left nofun
  have processed : ∀ key idx, .processed key idx ∈ after.trace ↔
      .processed key idx ∈ st.trace := by
    intro key idx
    rw [flushes.trace_eq]
    simp
  have flushed : ∀ key, batchWasFlushed after.maps key = true ↔
      key = slot.key ∨ batchWasFlushed st.maps key = true := by
    intro key
    rw [flushes.maps_eq, batchWasFlushed_markFlushed, Bool.or_eq_true, decide_eq_true_iff]
  refine ⟨?_, ?_, ?_, ?_, ?_, ?_⟩
  · rw [flushes.trace_eq]
    refine integrity.faithful.append ?_
    intro key inputs same
    cases same
    refine ⟨?_, ?_⟩
    · exact filterMap_congr fun idx _ => sound.seen_eq idx
    intro other earlier
    have again := (integrity.flushed slot.key).mpr ⟨other, earlier⟩
    rw [sound.fresh] at again
    cases again
  · intro key
    rw [flushed, integrity.flushed, flushes.trace_eq]
    constructor
    · rintro (rfl | ⟨inputs, earlier⟩)
      · exact ⟨slot.inputs batsM, by simp⟩
      · exact ⟨inputs, by simp [earlier]⟩
    rintro ⟨inputs, present⟩
    rw [mem_append, mem_singleton] at present
    obtain earlier | same := present
    · exact Or.inr ⟨inputs, earlier⟩
    · cases same
      exact Or.inl rfl
  · intro j other there
    obtain ⟨apart, there⟩ := slots j other there
    have old := integrity.sound j other there
    refine { old with fresh := ?_, seen_eq := ?_, known := ?_ }
    · rw [Bool.eq_false_iff]
      intro marked
      obtain same | marked := (flushed _).mp marked
      · exact apart (integrity.unique j i other slot there here same)
      · rw [old.fresh] at marked
        cases marked
    · intro idx
      simp only [processed]
      exact old.seen_eq idx
    · rw [flushes.flows_eq]
      exact old.known
  · intro j k left right first second same
    exact integrity.unique j k left right (slots j left first).2 (slots k right second).2 same
  · intro key idx present
    rw [flushed]
    obtain done | ⟨j, other, there, same⟩ :=
      integrity.accounted key idx ((processed key idx).mp present)
    · exact Or.inl (Or.inr done)
    · by_cases home : j = i
      · subst home
        rw [here] at there
        cases there
        exact Or.inl (Or.inl same.symm)
      · refine Or.inr ⟨j, other, ?_, same⟩
        rw [flushes.slots_eq, update_of_ne home]
        exact there
  · intro key idx present
    exact integrity.bounded key idx ((processed key idx).mp present)

omit integrity

theorem readyStep_cases (force : Bool) (slots : Nat → Option RelaySlot)
    (best : Option (Nat × RelaySlot)) (j : Nat) :
    (readyStep batsM force slots best j = best ∧
      (best = none → ∀ slot, slots j = some slot → slot.ready batsM force = false)) ∨
      ∃ slot, slots j = some slot ∧ slot.ready batsM force = true ∧
        readyStep batsM force slots best j = some (j, slot) := by
  unfold readyStep
  cases slots j with
  | none => exact Or.inl ⟨rfl, nofun⟩
  | some slot =>
    cases ready : slot.ready batsM force with
    | false =>
      refine Or.inl ⟨by simp [ready], fun _ other same => ?_⟩
      cases same
      exact ready
    | true =>
      refine best.casesOn (Or.inr ⟨slot, rfl, ready, by simp [ready]⟩) fun old => ?_
      by_cases sooner : slot.before old.2 = true
      · exact Or.inr ⟨slot, rfl, ready, by simp [ready, sooner]⟩
      · exact Or.inl ⟨by simp [ready, sooner], nofun⟩

theorem bestReady_fold (force : Bool) (slots : Nat → Option RelaySlot) (order : List Nat)
    (best : Option (Nat × RelaySlot))
    (found : order.foldl (readyStep batsM force slots) best = some (i, slot)) :
    best = some (i, slot) ∨
      (i ∈ order ∧ slots i = some slot ∧ slot.ready batsM force = true) := by
  induction order generalizing best with
  | nil => exact Or.inl found
  | cons j _ ih =>
    obtain earlier | ⟨mem, here, ready⟩ := ih _ found
    · obtain ⟨same, -⟩ | ⟨other, there, ready, changed⟩ := readyStep_cases force slots best j
      · exact Or.inl (same.symm.trans earlier)
      · rw [changed] at earlier
        cases earlier
        exact Or.inr ⟨mem_cons_self, there, ready⟩
    · exact Or.inr ⟨mem_cons_of_mem j mem, here, ready⟩

theorem bestReady_some {slots : Nat → Option RelaySlot}
    (found : bestReady nSlots batsM force slots = some (i, slot)) :
    i < nSlots ∧ slots i = some slot ∧ slot.ready batsM force = true := by
  obtain nothing | ⟨mem, here, ready⟩ := bestReady_fold force slots _ none found
  · cases nothing
  · exact ⟨mem_range.mp mem, here, ready⟩

/-- What flushing leaves: no new slots, no packet processed, and a key is flushed only out of its
slot. -/
structure Drains (state after : RelayState) : Prop where
  slots_sub : ∀ i slot, after.slots i = some slot → state.slots i = some slot
  flushed_from : ∀ key, batchWasFlushed after.maps key = true →
    batchWasFlushed state.maps key = true ∨ ∃ i slot, state.slots i = some slot ∧ slot.key = key
  processed_eq : ∀ key index, .processed key index ∈ after.trace ↔
    .processed key index ∈ state.trace
  flows_eq : ∀ flowId, (findFlow after.flows flowId).isSome = (findFlow state.flows flowId).isSome

theorem Drains.refl (st : RelayState) : Drains st st where
  slots_sub := fun _ _ here => here
  flushed_from := fun _ flushed => Or.inl flushed
  processed_eq := fun _ _ => Iff.rfl
  flows_eq := fun _ => rfl

theorem Drains.trans {mid : RelayState} (first : Drains st mid)
    (second : Drains mid after) : Drains st after where
  slots_sub := fun i slot here => first.slots_sub i slot (second.slots_sub i slot here)
  flushed_from := by
    intro key flushed
    obtain flushed | ⟨i, slot, here, same⟩ := second.flushed_from key flushed
    · exact first.flushed_from key flushed
    · exact Or.inr ⟨i, slot, first.slots_sub i slot here, same⟩
  processed_eq := fun key idx => (second.processed_eq key idx).trans (first.processed_eq key idx)
  flows_eq := fun flowId => (second.flows_eq flowId).trans (first.flows_eq flowId)

theorem Flushes.drains (here : st.slots i = some slot)
    (flushes : Flushes batsM st i slot after) : Drains st after where
  slots_sub := by
    intro j other there
    rw [flushes.slots_eq] at there
    exact ((of_update there).resolve_left nofun).2
  flushed_from := by
    intro key flushed
    rw [flushes.maps_eq, batchWasFlushed_markFlushed, Bool.or_eq_true, decide_eq_true_iff] at flushed
    obtain rfl | flushed := flushed
    · exact Or.inr ⟨i, slot, here, rfl⟩
    · exact Or.inl flushed
  processed_eq := by
    intro key idx
    rw [flushes.trace_eq]
    simp
  flows_eq := flushes.flows_eq

include integrity

theorem Integrity.flushReadyLoop {fuel : Nat}
    (flushed : flushReadyLoop env nSlots batsM force fuel st = some after) :
    Integrity nSlots batsM sizes source after ∧ Drains st after := by
  induction fuel generalizing st with
  | zero =>
    cases flushed
    exact ⟨integrity, Drains.refl _⟩
  | succ _ ih =>
    unfold Bats.flushReadyLoop at flushed
    split at flushed
    next =>
      cases flushed
      exact ⟨integrity, Drains.refl _⟩
    rename_i i slot found
    obtain ⟨_, first, rest⟩ := Option.bind_eq_some_iff.mp flushed
    obtain ⟨-, here, -⟩ := bestReady_some found
    have sound := integrity.sound i slot here
    have flushes := flushSlot_flushes (by rw [← sound.count_eq]; exact sound.nonempty.ne') first
    obtain ⟨done, drains⟩ := ih (integrity.flush here flushes) rest
    exact ⟨done, (flushes.drains here).trans drains⟩

theorem Integrity.flushReady (flushed : Bats.flushReady env nSlots batsM force st = some after) :
    Integrity nSlots batsM sizes source after ∧ Drains st after :=
  integrity.flushReadyLoop flushed

omit integrity

/-- A slot that `take_slot` answers: the one of the key, or a free one if the key has none. -/
structure Offers (nSlots : Nat) (state : RelayState) (key : BatchKey) (i : Nat) : Prop where
  inside : i < nSlots
  fresh : batchWasFlushed state.maps key = false
  place : (∃ slot, state.slots i = some slot ∧ slot.key = key) ∨
    (state.slots i = none ∧ ∀ j slot, state.slots j = some slot → slot.key ≠ key)

include integrity

theorem Integrity.absent_of_slotOfKey {key : BatchKey}
    (missing : slotOfKey nSlots st.slots key = none) :
    ∀ j slot, st.slots j = some slot → slot.key ≠ key := by
  intro j slot here same
  have absent := firstIndex_none _ missing j (integrity.sound j slot here).inside
  rw [here] at absent
  simp [same] at absent

theorem Integrity.takeSlot {key : BatchKey} {choice : SlotChoice}
    (fresh : batchWasFlushed st.maps key = false)
    (taken : Bats.takeSlot env nSlots batsM st key = some (choice, after)) :
    Integrity nSlots batsM sizes source after ∧ Drains st after ∧
      ∀ i, choice = .slot i → Offers nSlots after key i := by
  unfold Bats.takeSlot at taken
  split at taken
  next i found =>
    cases taken
    refine ⟨integrity, Drains.refl _, ?_⟩
    intro j same
    cases same
    obtain ⟨inside, matched⟩ := firstIndex_some _ found
    refine ⟨inside, fresh, Or.inl ?_⟩
    obtain ⟨slot, here, same⟩ := (Option.any_eq_true _ _).mp matched
    exact ⟨slot, here, of_decide_eq_true same⟩
  rename_i missing
  have absent := integrity.absent_of_slotOfKey missing
  split at taken
  next i found =>
    cases taken
    refine ⟨integrity, Drains.refl _, ?_⟩
    intro j same
    cases same
    obtain ⟨inside, free⟩ := firstIndex_some _ found
    exact ⟨inside, fresh, Or.inr ⟨Option.isNone_iff_eq_none.mp free, absent⟩⟩
  obtain ⟨flushed, flushing, answer⟩ := Option.map_eq_some_iff.mp taken
  obtain ⟨kept, drains⟩ := integrity.flushReady flushing
  have still : batchWasFlushed flushed.maps key = false := by
    rw [Bool.eq_false_iff]
    intro marked
    obtain marked | ⟨j, slot, here, same⟩ := drains.flushed_from key marked
    · rw [fresh] at marked
      cases marked
    · exact absent j slot here same
  split at answer
  next found =>
    cases answer
    refine ⟨kept, drains, ?_⟩
    intro _ same
    cases same
    obtain ⟨inside, free⟩ := firstIndex_some _ found
    refine ⟨inside, still, Or.inr ⟨Option.isNone_iff_eq_none.mp free, ?_⟩⟩
    exact fun k slot here => absent k slot (drains.slots_sub k slot here)
  next =>
    cases answer
    exact ⟨kept, drains, nofun⟩

omit integrity

theorem length_filterMap_update (seen : Nat → Option CodedPacket) {idx : Nat}
    (bound : idx < batsM) (new : seen idx = none) (coded : CodedPacket) :
    ((List.range batsM).filterMap (update seen idx (some coded))).length =
      ((List.range batsM).filterMap seen).length + 1 := by
  induction batsM with
  | zero => omega
  | succ count ih =>
    rw [range_succ, filterMap_append, filterMap_append, length_append, length_append]
    by_cases last : idx = count
    · subst last
      have below : (List.range idx).filterMap (update seen idx (some coded)) =
          (List.range idx).filterMap seen := by
        refine filterMap_congr ?_
        intro j mem
        exact update_of_ne (mem_range.mp mem).ne _ _
      rw [below]
      simp [new]
    · rw [ih (by omega)]
      have same : [count].filterMap (update seen idx (some coded)) =
          [count].filterMap seen := by
        refine filterMap_congr ?_
        intro _ mem
        rw [mem_singleton.mp mem]
        exact update_of_ne (Ne.symm last) _ _
      rw [same]
      omega

/-- A packet that says the truth about its batch. -/
structure Honest (batsM : Nat) (sizes : BatchKey → Nat) (source : BatchKey → Nat → CodedPacket)
    (pkt : LinePacket) : Prop where
  size_eq : pkt.symbolSize = sizes pkt.key
  coded_eq : pkt.coded = source pkt.key pkt.index
  bound : pkt.index < batsM

instance (batsM : Nat) (sizes : BatchKey → Nat) (source : BatchKey → Nat → CodedPacket)
    (pkt : LinePacket) : Decidable (Honest batsM sizes source pkt) :=
  decidable_of_iff
    (pkt.symbolSize = sizes pkt.key ∧ pkt.coded = source pkt.key pkt.index ∧ pkt.index < batsM)
    ⟨fun ⟨size_eq, coded_eq, bound⟩ => ⟨size_eq, coded_eq, bound⟩,
      fun honest => ⟨honest.size_eq, honest.coded_eq, honest.bound⟩⟩

theorem mem_noteProcessed (st : RelayState) (pkt : LinePacket) (key : BatchKey) (idx : Nat) :
    .processed key idx ∈ (noteProcessed st pkt).trace ↔
      .processed key idx ∈ st.trace ∨ (key = pkt.key ∧ idx = pkt.index) := by
  simp [noteProcessed]

theorem recoded_mem_noteProcessed (st : RelayState) (pkt : LinePacket) (key : BatchKey)
    (inputs : List CodedPacket) :
    .recoded key inputs ∈ (noteProcessed st pkt).trace ↔ .recoded key inputs ∈ st.trace := by
  simp [noteProcessed]

include integrity

theorem Integrity.note (bound : pkt.index < batsM)
    (placed : batchWasFlushed st.maps pkt.key = true ∨
      ∃ i slot, st.slots i = some slot ∧ slot.key = pkt.key ∧
        slot.seen pkt.index = some (source pkt.key pkt.index)) :
    Integrity nSlots batsM sizes source (noteProcessed st pkt) := by
  refine ⟨integrity.faithful.append nofun, ?_, ?_, integrity.unique, ?_, ?_⟩
  · intro key
    simp only [recoded_mem_noteProcessed]
    exact integrity.flushed key
  · intro i slot here
    have sound := integrity.sound i slot here
    refine { sound with seen_eq := fun idx => ?_ }
    rw [sound.seen_eq idx]
    simp only [mem_noteProcessed]
    by_cases old : RelayEvent.processed slot.key idx ∈ st.trace
    · rw [if_pos old, if_pos (Or.inl old)]
    rw [if_neg old]
    by_cases this : slot.key = pkt.key ∧ idx = pkt.index
    · -- The packet is in its slot, so it was processed before.
      exfalso
      obtain ⟨same, rfl⟩ := this
      obtain flushed | ⟨j, other, there, key_eq, seen⟩ := placed
      · rw [← same, sound.fresh] at flushed
        cases flushed
      have home := integrity.unique i j slot other here there (same.trans key_eq.symm)
      subst home
      obtain rfl := Option.some.inj (there.symm.trans here)
      rw [sound.seen_eq, if_neg old] at seen
      cases seen
    · rw [if_neg (not_or.mpr ⟨old, this⟩)]
  · intro key idx present
    obtain old | ⟨rfl, rfl⟩ := (mem_noteProcessed st pkt key idx).mp present
    · exact integrity.accounted key idx old
    obtain flushed | ⟨i, slot, here, same, -⟩ := placed
    · exact Or.inl flushed
    · exact Or.inr ⟨i, slot, here, same⟩
  · intro key idx present
    obtain old | ⟨-, rfl⟩ := (mem_noteProcessed st pkt key idx).mp present
    · exact integrity.bounded key idx old
    · exact bound

/-- The slot as `relay_on_data` finds it: empty, or with the packets of the key so far. -/
def slotFor (st : RelayState) (i : Nat) (pkt : LinePacket) : RelaySlot :=
  (st.slots i).getD ⟨pkt.key, pkt.symbolSize, 0, fun _ => none⟩

theorem Integrity.slotFor_sound (honest : Honest batsM sizes source pkt)
    (offers : Offers nSlots st pkt.key i) :
    (slotFor st i pkt).key = pkt.key ∧ (slotFor st i pkt).symbolSize = sizes pkt.key ∧
      (∀ idx, (slotFor st i pkt).seen idx =
        if .processed pkt.key idx ∈ st.trace then some (source pkt.key idx) else none) ∧
      (slotFor st i pkt).n = ((slotFor st i pkt).inputs batsM).length := by
  unfold slotFor
  obtain ⟨slot, here, same⟩ | ⟨free, absent⟩ := offers.place
  · have sound := integrity.sound i slot here
    rw [here, ← same]
    exact ⟨rfl, sound.size_eq, sound.seen_eq, sound.count_eq⟩
  rw [free]
  refine ⟨rfl, honest.size_eq, fun idx => ?_, by simp [RelaySlot.inputs]⟩
  refine (if_neg fun present => ?_).symm
  obtain flushed | ⟨j, slot, here, same⟩ := integrity.accounted pkt.key idx present
  · rw [offers.fresh] at flushed
    cases flushed
  · exact absent j slot here same

theorem Integrity.key_elsewhere (offers : Offers nSlots st pkt.key i) :
    ∀ j slot, j ≠ i → st.slots j = some slot → slot.key ≠ pkt.key := by
  intro j slot apart here same
  obtain ⟨mine, there, mine_key⟩ | ⟨-, absent⟩ := offers.place
  · exact apart (integrity.unique j i slot mine here there (same.trans mine_key.symm))
  · exact absent j slot here same

theorem Integrity.store (honest : Honest batsM sizes source pkt)
    (offers : Offers nSlots st pkt.key i) (known : (findFlow st.flows pkt.key.flowId).isSome)
    (new : ∀ slot, st.slots i = some slot → slot.seen pkt.index = none) :
    Integrity nSlots batsM sizes source (noteProcessed (storeInSlot st i pkt) pkt) := by
  obtain ⟨start_key, start_size, start_seen, start_count⟩ := integrity.slotFor_sound honest offers
  have others := integrity.key_elsewhere offers
  have start_new : (slotFor st i pkt).seen pkt.index = none := by
    unfold slotFor
    cases here : st.slots i with
    | none => rfl
    | some slot => exact new slot here
  have stored : (storeInSlot st i pkt).slots = update st.slots i (some { slotFor st i pkt with
        n := (slotFor st i pkt).n + 1
        seen := update (slotFor st i pkt).seen pkt.index (some pkt.coded) }) := rfl
  generalize slotFor st i pkt = start at *
  refine ⟨integrity.faithful.append nofun, ?_, ?_, ?_, ?_, ?_⟩
  · intro key
    simp only [recoded_mem_noteProcessed]
    exact integrity.flushed key
  · intro j slot here
    change (storeInSlot st i pkt).slots j = some slot at here
    rw [stored] at here
    obtain ⟨rfl, made⟩ | ⟨same, here⟩ := of_update here
    · cases made
      refine ⟨offers.inside, ?_, ?_, ?_, ?_, Nat.succ_pos _, ?_⟩
      · rw [start_key]
        exact offers.fresh
      · rw [start_key]
        exact start_size
      · intro idx
        simp only [mem_noteProcessed, start_key, true_and]
        by_cases this : idx = pkt.index
        · subst this
          rw [update_self, if_pos (Or.inr rfl), honest.coded_eq]
        rw [update_of_ne this, start_seen]
        simp only [this, or_false]
        rfl
      · dsimp only [RelaySlot.inputs]
        rw [length_filterMap_update _ honest.bound start_new, start_count]
        rfl
      · rw [start_key]
        exact known
    · have sound := integrity.sound j slot here
      have apart := others j slot same here
      refine { sound with seen_eq := fun idx => ?_ }
      rw [sound.seen_eq idx]
      simp only [mem_noteProcessed, apart, false_and, or_false]
      rfl
  · intro j k left right first second same
    change (storeInSlot st i pkt).slots j = some left at first
    change (storeInSlot st i pkt).slots k = some right at second
    rw [stored] at first second
    obtain ⟨rfl, made⟩ | ⟨hereJ, wasJ⟩ := of_update first
    · obtain ⟨rfl, -⟩ | ⟨hereK, wasK⟩ := of_update second
      · rfl
      · cases made
        exact absurd (same.symm.trans start_key) (others k right hereK wasK)
    · obtain ⟨rfl, made⟩ | ⟨-, wasK⟩ := of_update second
      · cases made
        exact absurd (same.trans start_key) (others j left hereJ wasJ)
      · exact integrity.unique j k left right wasJ wasK same
  · intro key idx present
    have mine : ∃ j slot, (storeInSlot st i pkt).slots j = some slot ∧ slot.key = pkt.key := by
      have here : (storeInSlot st i pkt).slots i = some
          { start with
            n := start.n + 1, seen := update start.seen pkt.index (some pkt.coded) } := by
        rw [stored, update_self]
      exact ⟨i, _, here, start_key⟩
    obtain old | ⟨rfl, -⟩ := (mem_noteProcessed _ pkt key idx).mp present
    · obtain flushed | ⟨j, slot, here, same⟩ := integrity.accounted key idx old
      · exact Or.inl flushed
      · by_cases home : j = i
        · subst home
          have key_eq : key = pkt.key := by
            obtain ⟨mine, there, mine_key⟩ | ⟨free, -⟩ := offers.place
            · rw [here] at there
              cases there
              exact same.symm.trans mine_key
            · rw [free] at here
              cases here
          rw [key_eq]
          exact Or.inr mine
        · refine Or.inr ⟨j, slot, ?_, same⟩
          change (storeInSlot st i pkt).slots j = some slot
          rw [stored, update_of_ne home]
          exact here
    · exact Or.inr mine
  · intro key idx present
    obtain old | ⟨-, rfl⟩ := (mem_noteProcessed _ pkt key idx).mp present
    · exact integrity.bounded key idx old
    · exact honest.bound

theorem Integrity.reflow {flows : List FlowRx}
    (keeps : ∀ flowId, (findFlow st.flows flowId).isSome → (findFlow flows flowId).isSome) :
    Integrity nSlots batsM sizes source { st with flows } :=
  { integrity with
    sound := fun i slot here =>
      { integrity.sound i slot here with known := keeps _ (integrity.sound i slot here).known } }

omit integrity in
theorem flowGet_spec {flows created : List FlowRx} {flowId : Nat}
    (got : flowGet env flows flowId = some created) :
    (findFlow created flowId).isSome ∧
      ∀ other, (findFlow flows other).isSome → (findFlow created other).isSome := by
  unfold flowGet at got
  split_ifs at got with present room
  · cases got
    exact ⟨present, fun _ known => known⟩
  cases got
  unfold findFlow at present ⊢
  refine ⟨?_, ?_⟩
  · rw [List.find?_append, Option.isSome_or]
    simp [newFlow]
  · intro _ known
    rw [List.find?_append, Option.isSome_or, known, Bool.true_or]

theorem Integrity.onPacket {verdict : RelayVerdict} (honest : Honest batsM sizes source pkt)
    (taken : relayOnPacket env nSlots batsM st pkt = some (verdict, after)) :
    Integrity nSlots batsM sizes source after := by
  obtain ⟨flows, got, taken⟩ := Option.bind_eq_some_iff.mp taken
  obtain ⟨known, keeps⟩ := flowGet_spec got
  have noted : ∀ flowId, (findFlow (updateFlow flows pkt.key.flowId (flowNoteMeta pkt)) flowId).isSome =
      (findFlow flows flowId).isSome :=
    fun flowId => findFlow_updateFlow_isSome _ _ _ _ (flowId_flowNoteMeta pkt)
  have opened := integrity.reflow fun flowId old => (noted flowId).symm ▸ keeps flowId old
  dsimp only at taken
  split at taken
  next flushed =>
    cases taken
    exact opened.note honest.bound (Or.inl flushed)
  rename_i notFlushed
  obtain ⟨⟨choice, reserved⟩, choosing, answer⟩ := Option.map_eq_some_iff.mp taken
  have fresh := Bool.eq_false_of_not_eq_true notFlushed
  obtain ⟨kept, drains, offered⟩ := opened.takeSlot fresh choosing
  cases choice with
  | full =>
    cases answer
    exact kept
  | slot i =>
    have offers := offered i rfl
    dsimp only at answer
    split at answer
    next stale =>
      cases answer
      -- An honest packet has the size and the flow of its slot, so its index is there.
      obtain ⟨slot, here, old⟩ := (Option.any_eq_true _ _).mp stale
      have key_eq : slot.key = pkt.key := by
        obtain ⟨_, there, mine_key⟩ | ⟨free, -⟩ := offers.place
        · rw [here] at there
          cases there
          exact mine_key
        · rw [free] at here
          cases here
      have sound := kept.sound i slot here
      have seen : (slot.seen pkt.index).isSome = true := by
        rw [Bool.or_eq_true, decide_eq_true_iff] at old
        obtain (size | flow) | seen := old
        · exact absurd (by rw [sound.size_eq, honest.size_eq, key_eq]) size
        · exact absurd (by rw [key_eq]) flow
        · exact seen
      refine kept.note honest.bound (Or.inr ⟨i, slot, here, key_eq, ?_⟩)
      by_cases present : RelayEvent.processed slot.key pkt.index ∈ reserved.trace
      · rw [sound.seen_eq, if_pos present, key_eq]
      · rw [sound.seen_eq, if_neg present] at seen
        cases seen
    next usable =>
      cases answer
      have clean := usable
      refine kept.store honest offers ?_ ?_
      · rw [drains.flows_eq, noted]
        exact known
      intro slot here
      rw [here] at clean
      cases seen : slot.seen pkt.index with
      | none => rfl
      | some => simp [seen] at clean

end Integrity

inductive RelayCall where
  | data (buf : List UInt8)
  | flush (force : Bool)

/-- The calls that `run_relay` makes, in any order.  A failed call ends the run. -/
def relayStep (env : RelayEnv) (nSlots batsM : Nat) (state : RelayState) :
    RelayCall → Option RelayState
  | .data buf => (relayOnData env nSlots batsM state buf).map Prod.snd
  | .flush force => flushReady env nSlots batsM force state

def honestCall (batsM : Nat) (sizes : BatchKey → Nat) (source : BatchKey → Nat → CodedPacket)
    (_ : RelayState) : RelayCall → Prop
  | .data buf => ∀ pkt ∈ parseData batsM buf, Honest batsM sizes source pkt
  | .flush _ => True

instance (batsM : Nat) (sizes : BatchKey → Nat) (source : BatchKey → Nat → CodedPacket)
    (state : RelayState) (call : RelayCall) : Decidable (honestCall batsM sizes source state call) := by
  unfold honestCall
  split <;> infer_instance

theorem Integrity.step {nSlots batsM : Nat} {sizes : BatchKey → Nat}
    {src : BatchKey → Nat → CodedPacket} {st after : RelayState} {env : RelayEnv}
    (integrity : Integrity nSlots batsM sizes src st) {call : RelayCall}
    (honest : honestCall batsM sizes src st call)
    (taken : relayStep env nSlots batsM st call = some after) :
    Integrity nSlots batsM sizes src after := by
  cases call with
  | data =>
    obtain ⟨⟨_⟩, answered, rfl⟩ := Option.map_eq_some_iff.mp taken
    unfold relayOnData at answered
    split at answered
    next =>
      cases answered
      exact integrity
    next pkt parsed => exact integrity.onPacket (honest pkt parsed) answered
  | flush => exact (integrity.flushReady taken).1

/-- In every run over honest packets a key is recoded at most once, from exactly one packet for
each of its indices that was processed before, and from nothing else. -/
theorem relay_recodes_once (env : RelayEnv) (batsM : Nat) (sizes : BatchKey → Nat)
    (source : BatchKey → Nat → CodedPacket) (state : RelayState)
    (run : Reaches (relayStep env RELAY_SLOTS batsM) (honestCall batsM sizes source) .initial state)
    (before : List RelayEvent) (key : BatchKey) (inputs : List CodedPacket)
    (after : List RelayEvent) (split : state.trace = before ++ .recoded key inputs :: after) :
    inputs = inputsOf batsM source before key ∧
      (∀ other, .recoded key other ∉ before) ∧ ∀ other, .recoded key other ∉ after := by
  have integrity : Integrity RELAY_SLOTS batsM sizes source state :=
    run.invariant (Integrity RELAY_SLOTS batsM sizes source) Integrity.initial
      fun _ _ _ integrity honest taken => integrity.step honest taken
  obtain ⟨inputs_eq, first⟩ := integrity.faithful before key inputs after split
  exact ⟨inputs_eq, first, integrity.faithful.once split⟩

def echoEnv : RelayEnv := ⟨0, fun inputs _ state => some (inputs, state), fun _ _ _ => true⟩

/-- The DATA datagram of packet `index` of batch 0 in generation 0 of flow 1, for two packets of
one byte in a batch. -/
def sampleData (index : UInt8) : List UInt8 :=
  [0x42, 0x41, 0x54, 0x53, 1, 1, 0, 1, 0, 0, 0, 0, 0, 0, 0, 0, 0, index, 0, 1,
    0, 0, 0, 2, 0, 0, 0, 2, 0, 0, 0, 1, 0, 0, 0, 1, index, 7, 0, 0, 0, 0, 0, 0, 100 + index]

def sampleSource (_ : BatchKey) (index : Nat) : CodedPacket :=
  ⟨[UInt8.ofNat index, 7], [100 + UInt8.ofNat index]⟩

/-- Packets 1, 1 again and 0 arrive, the batch is flushed, and a late copy of 1 is ignored. -/
theorem relay_recodes_once_sample :
    ∃ state, Reaches (relayStep echoEnv RELAY_SLOTS 2) (honestCall 2 (fun _ => 1) sampleSource)
        .initial state ∧
      state.trace = [.processed ⟨1, 0, 0⟩ 1, .processed ⟨1, 0, 0⟩ 1, .processed ⟨1, 0, 0⟩ 0] ++
          .recoded ⟨1, 0, 0⟩ [⟨[0, 7], [100]⟩, ⟨[1, 7], [101]⟩] :: [.processed ⟨1, 0, 0⟩ 1] ∧
      ∀ other, .recoded ⟨1, 0, 0⟩ other ∉ [RelayEvent.processed ⟨1, 0, 0⟩ 1] := by
  obtain ⟨state, run, seen⟩ : ∃ state,
      Reaches (relayStep echoEnv RELAY_SLOTS 2) (honestCall 2 (fun _ => 1) sampleSource)
        .initial state ∧
      decide (state.trace =
        [.processed ⟨1, 0, 0⟩ 1, .processed ⟨1, 0, 0⟩ 1, .processed ⟨1, 0, 0⟩ 0] ++
          .recoded ⟨1, 0, 0⟩ [⟨[0, 7], [100]⟩, ⟨[1, 7], [101]⟩] ::
            [.processed ⟨1, 0, 0⟩ 1]) = true :=
    Reaches.exists_of_actions
      [.data (sampleData 1), .data (sampleData 1), .data (sampleData 0), .flush false,
        .data (sampleData 1)] _ (by decide +kernel)
  have split := of_decide_eq_true seen
  exact ⟨state, run, split,
    (relay_recodes_once echoEnv 2 (fun _ => 1) sampleSource state run _ _ _ _ split).2.2⟩

end MultiFlow.Bats
