import MultiFlow.Wire.Progress

/-!
# Every datagram is counted once

Recovery, emission and making room leave the counters of arrivals alone, so a datagram that is
ingested without an output error changes one of them.
-/

namespace MultiFlow.FlowDecoder

open CodecApi Lib Wire

structure Arrivals where
  seen : UInt64
  received : UInt64
  duplicate : UInt64
  late : UInt64
  overflow : UInt64
  malformed : UInt64

def WireFlowDecoder.arrivals (dec : WireFlowDecoder) : Arrivals :=
  ⟨dec.stats.seenDatagrams, dec.stats.receivedDatagrams, dec.stats.duplicateDatagrams,
    dec.stats.lateDatagrams, dec.stats.windowOverflow, dec.stats.malformedDatagrams⟩

inductive Fate where
  | received
  | duplicate
  | late
  | overflow
  | malformed

def Arrivals.count (arrivals : Arrivals) : Fate → Arrivals
  | .received => { arrivals with received := arrivals.received + 1 }
  | .duplicate => { arrivals with duplicate := arrivals.duplicate + 1 }
  | .late => { arrivals with late := arrivals.late + 1 }
  | .overflow => { arrivals with overflow := arrivals.overflow + 1 }
  | .malformed => { arrivals with malformed := arrivals.malformed + 1 }

section Kept

variable (cfg : WireFlowDecoderConfig) (dec : WireFlowDecoder) {slot : Slot}

theorem recoveryMissed_arrivals (finalizeAtEnd : Bool) :
    (recoveryMissed dec slot finalizeAtEnd).2.arrivals = dec.arrivals := by
  cases finalizeAtEnd <;> rfl

theorem tryRecoverGroup_arrivals (finalizeAtEnd : Bool) :
    (tryRecoverGroup cfg dec slot finalizeAtEnd).2.arrivals = dec.arrivals := by
  unfold tryRecoverGroup
  split
  case h_5 =>
    unfold recoverActiveGroup
    dsimp only
    split_ifs
    · rfl
    · rfl
    · exact recoveryMissed_arrivals _ finalizeAtEnd
    · rfl
    split
    · rfl
    all_goals exact recoveryMissed_arrivals _ finalizeAtEnd
  all_goals rfl

theorem emitHead_arrivals : (emitHead cfg dec slot).2.arrivals = dec.arrivals := by
  unfold emitHead writeDecodedGroup
  dsimp only
  split_ifs <;> rfl

theorem writeBestEffortGroup_arrivals :
    (writeBestEffortGroup cfg dec slot).2.arrivals = dec.arrivals := by
  unfold writeBestEffortGroup
  dsimp only
  split
  · rfl
  split
  · rfl
  split
  · rfl
  generalize (if cfg.codec.isSystematic = true then _ else _) = data
  have kept := forRange_induction cfg.codec.dataShards
    ((0 : Int), (dec.groups slot).validLen.toNat,
      dec.setGroup slot { dec.groups slot with data })
    (writeBestEffortShard cfg { dec.groups slot with data })
    (fun _ cur => cur.2.2.arrivals = dec.arrivals) rfl (by
      intro _ _ _ same
      unfold writeBestEffortShard WireFlowDecoder.arrivals
      dsimp only
      split_ifs <;> exact same)
  generalize forRange cfg.codec.dataShards _ _ = looped at kept ⊢
  obtain ⟨_⟩ := looped
  split <;> exact kept

theorem skipUnrecoverableHead_arrivals (head : Option Slot) :
    (skipUnrecoverableHead cfg dec head).2.arrivals = dec.arrivals := by
  have written : ∀ slot, (writeBestEffortGroup cfg dec slot).2.arrivals = dec.arrivals :=
    fun _ => writeBestEffortGroup_arrivals cfg dec
  unfold skipUnrecoverableHead
  cases head with
  | none => rfl
  | some slot =>
    dsimp only
    split
    next => split <;> exact written slot
    next => rfl

theorem moveHead_arrivals (head : Option Slot) :
    (moveHead cfg dec head).2.2.arrivals = dec.arrivals := by
  have attempted : ∀ slot, (tryRecoverGroup cfg dec slot true).2.arrivals = dec.arrivals :=
    fun _ => tryRecoverGroup_arrivals cfg dec true
  unfold moveHead
  cases head with
  | none => exact skipUnrecoverableHead_arrivals cfg dec none
  | some slot =>
    dsimp only
    split_ifs
    · exact emitHead_arrivals cfg dec
    · exact (emitHead_arrivals cfg _).trans (attempted slot)
    · exact (skipUnrecoverableHead_arrivals cfg _ _).trans (attempted slot)
    · exact skipUnrecoverableHead_arrivals cfg dec _

theorem makeRoomForBlock_arrivals (blockId : UInt64) :
    (makeRoomForBlock cfg dec blockId).2.arrivals = dec.arrivals := by
  unfold makeRoomForBlock
  split
  · rfl
  refine loop_induction (fun cur => cur.1.arrivals = dec.arrivals)
    (fun res : Int × WireFlowDecoder => res.2.arrivals = dec.arrivals) ?_ ?_ (dec, 0) rfl
  all_goals
    intro cur _ same moved
    have kept := (moveHead_arrivals cfg cur.1
      (findGroup cur.1.groups cur.1.nextEmitBlock)).trans same
    unfold makeRoomStep at moved
    dsimp only at moved
    split_ifs at moved <;> cases moved <;> first | exact kept | exact same

theorem tryEmitFromHead_arrivals : (tryEmitFromHead cfg dec).2.arrivals = dec.arrivals := by
  refine loop_induction (fun cur => cur.arrivals = dec.arrivals)
    (fun res : Int × WireFlowDecoder => res.2.arrivals = dec.arrivals) ?_ ?_ dec rfl
  all_goals
    intro cur _ same moved
    have kept := (moveHead_arrivals cfg cur (findGroup cur.groups cur.nextEmitBlock)).trans same
    unfold tryEmitStep at moved
    dsimp only at moved
    split_ifs at moved <;> cases moved <;> first | exact kept | exact same

theorem finalizeActiveGroups_arrivals : (finalizeActiveGroups cfg dec).arrivals = dec.arrivals := by
  unfold finalizeActiveGroups
  induction List.finRange WIRE_FLOW_GROUP_WINDOW generalizing dec with
  | nil => rfl
  | cons _ _ ih =>
    rw [List.foldl_cons, ih]
    unfold finalizeGroup
    split
    · exact tryRecoverGroup_arrivals cfg dec true
    · rfl

theorem finalized_arrivals :
    (tryEmitFromHead cfg (finalizeActiveGroups cfg dec)).2.arrivals = dec.arrivals :=
  (tryEmitFromHead_arrivals cfg _).trans (finalizeActiveGroups_arrivals cfg dec)

theorem flush_arrivals : (wireFlowDecoderFlushBestEffort cfg dec).2.arrivals = dec.arrivals := by
  have kept := finalized_arrivals cfg dec
  unfold wireFlowDecoderFlushBestEffort
  generalize tryEmitFromHead cfg (finalizeActiveGroups cfg dec) = moved at kept ⊢
  dsimp only
  split_ifs <;> first | rfl | exact kept

theorem ingestEnd_seen (hdr : WireHeader) :
    (ingestEnd cfg dec hdr).2.arrivals.seen = dec.arrivals.seen := by
  unfold ingestEnd
  split
  · rfl
  have kept := finalized_arrivals cfg
    { dec with endSeen := true, endBlockCount := hdr.blockId }
  dsimp only
  generalize tryEmitFromHead cfg (finalizeActiveGroups cfg _) = moved at kept ⊢
  have flushed := (flush_arrivals cfg (refreshPendingSnapshot moved.2)).trans kept
  generalize wireFlowDecoderFlushBestEffort cfg (refreshPendingSnapshot moved.2) = done
    at flushed ⊢
  split_ifs <;> first
    | exact congrArg Arrivals.seen kept
    | exact congrArg Arrivals.seen flushed

end Kept

section Ingested

variable {cfg : WireFlowDecoderConfig} {dec : WireFlowDecoder}

theorem openGroup_arrivals {hdr : WireHeader} {slot : Slot} {opened : WireFlowDecoder}
    (found : openGroup dec hdr = some (slot, opened)) : opened.arrivals = dec.arrivals := by
  unfold openGroup at found
  split at found
  next =>
    cases found
    rfl
  split at found
  next => cases found
  next =>
    cases found
    rfl

theorem ingestShard_counted (slot : Slot) (hdr : WireHeader) (body : List UInt8) :
    ∃ fate, (ingestShard cfg dec slot hdr body).2.arrivals = dec.arrivals.count fate := by
  have stored : ∀ shard, (tryEmitFromHead cfg (tryRecoverGroup cfg
      (storeShard dec slot shard body) slot false).2).2.arrivals =
        dec.arrivals.count .received :=
    fun _ => (tryEmitFromHead_arrivals cfg _).trans (tryRecoverGroup_arrivals cfg _ false)
  unfold ingestShard
  dsimp only
  split_ifs
  · exact ⟨.duplicate, rfl⟩
  · exact ⟨.malformed, rfl⟩
  · exact ⟨.duplicate, rfl⟩
  all_goals exact ⟨.received, stored _⟩

theorem placeDatagram_counted (hdr : WireHeader) (body : List UInt8)
    (ok : (placeDatagram cfg dec hdr body).1 = 0) :
    ∃ fate, (placeDatagram cfg dec hdr body).2.arrivals = dec.arrivals.count fate := by
  have room := makeRoomForBlock_arrivals cfg dec hdr.blockId
  unfold placeDatagram at ok ⊢
  generalize makeRoomForBlock cfg dec hdr.blockId = made at room ok ⊢
  obtain ⟨_, roomy⟩ := made
  dsimp only at room ok ⊢
  split at ok
  next late =>
    rw [if_pos late]
    exact ⟨.late, rfl⟩
  rename_i inTime
  rw [if_neg inTime, ← room]
  split_ifs at ok ⊢
  · cases ok
  · exact ⟨.late, rfl⟩
  · exact ⟨.overflow, rfl⟩
  cases found : openGroup roomy hdr with
  | none => exact ⟨.overflow, rfl⟩
  | some place =>
    obtain ⟨slot, _⟩ := place
    rw [found] at ok
    rw [← openGroup_arrivals found]
    exact ingestShard_counted slot hdr body

end Ingested

/-- Without an output error, a datagram that is no END and finds an incomplete decoder is counted
as exactly one of received, duplicate, late, beyond the window and malformed, and it is counted as
seen if and only if it passes the shape check; nothing else is counted as seen. -/
theorem datagram_counted_once (config : WireFlowDecoderConfig) (dec : WireFlowDecoder)
    (header : WireHeader) (payload : List UInt8)
    (ok : (wireFlowDecoderIngest config dec header payload).1 = 0) :
    if dec.complete = false ∧ header.type ≠ WIRE_TYPE_END then
      ∃ fate, (wireFlowDecoderIngest config dec header payload).2.arrivals =
        (if dataMalformed config header payload then dec.arrivals
          else { dec.arrivals with seen := dec.arrivals.seen + 1 }).count fate
    else (wireFlowDecoderIngest config dec header payload).2.arrivals.seen = dec.arrivals.seen := by
  unfold wireFlowDecoderIngest at ok ⊢
  cases complete : dec.complete with
  | true =>
    rw [if_pos rfl, if_neg (fun both => Bool.noConfusion both.1)]
  | false =>
    rw [complete, if_neg Bool.false_ne_true] at ok
    rw [if_neg Bool.false_ne_true]
    by_cases isEnd : header.type = WIRE_TYPE_END
    · rw [if_pos isEnd, if_neg (fun both => both.2 isEnd)]
      exact ingestEnd_seen config dec header
    rw [if_neg isEnd] at ok ⊢
    rw [if_pos ⟨rfl, isEnd⟩]
    unfold ingestData at ok ⊢
    split at ok
    next malformed =>
      rw [if_pos malformed, if_pos malformed]
      exact ⟨.malformed, rfl⟩
    next wellFormed =>
      rw [if_neg wellFormed, if_neg wellFormed]
      exact placeDatagram_counted header payload ok

theorem datagram_counted_once_data :
    ∃ fate, (wireFlowDecoderIngest (plainConfig true) freshDecoder (plainData 5).1
      (plainData 5).2).2.arrivals = { freshDecoder.arrivals with seen := 1 }.count fate := by
  obtain ⟨_, done, _⟩ := ingest_moves (plainConfig_good true) (plainData 5) freshDecoder
    (freshDecoder_windowInv _)
  have counted := datagram_counted_once (plainConfig true) freshDecoder (plainData 5).1
    (plainData 5).2 (by rw [done])
  have wellFormed : dataMalformed (plainConfig true) (plainData 5).1 (plainData 5).2 = false := by
    decide +kernel
  rw [if_pos ⟨rfl, by decide⟩, wellFormed, if_neg Bool.false_ne_true] at counted
  exact counted

end MultiFlow.FlowDecoder
