import MultiFlow.Wirehair.ProtocolReceiver
import Mathlib.Data.Finset.Card

/-!
# The head of the receiver's window

The emission loop makes `window` passes.  Each of them empties a slot, so after the loop no
complete segment waits at the head.
-/

namespace MultiFlow.Wirehair

open Wire

variable {codec : WirehairCodec} {ω : Type} {cbs : ReceiverCallbacks ω}
  {receiver : WirehairSegmentReceiver codec}

def occupied (receiver : WirehairSegmentReceiver codec) : Finset Nat :=
  (Finset.range receiver.window).filter fun index => (receiver.slots index).isSome

theorem card_occupied_le (receiver : WirehairSegmentReceiver codec) :
    (occupied receiver).card ≤ receiver.window :=
  (Finset.card_filter_le _ _).trans (Finset.card_range _).le

variable {idx : Nat} {slot : WirehairSegmentSlot codec}

theorem mem_occupied (inside : idx < receiver.window) (stored : receiver.slots idx = some slot) :
    idx ∈ occupied receiver :=
  Finset.mem_filter.mpr ⟨Finset.mem_range.mpr inside, by rw [stored]; rfl⟩

theorem card_occupied_passOn (inside : idx < receiver.window)
    (stored : receiver.slots idx = some slot) :
    (occupied (passOn receiver idx slot)).card < (occupied receiver).card := by
  refine Finset.card_lt_card (Finset.ssubset_iff_of_subset ?_ |>.mpr
    ⟨idx, mem_occupied inside stored, ?_⟩)
  · intro place mem
    obtain ⟨range, kept⟩ := Finset.mem_filter.mp mem
    obtain ⟨_, remains⟩ := Option.isSome_iff_exists.mp kept
    rcases setReceiverSlot_cases remains with ⟨_, ⟨⟩⟩ | ⟨_, old⟩
    exact Finset.mem_filter.mpr ⟨range, by rw [old]; rfl⟩
  · intro mem
    obtain ⟨_, remains⟩ := Option.isSome_iff_exists.mp (Finset.mem_filter.mp mem).2
    rcases setReceiverSlot_cases remains with ⟨_, ⟨⟩⟩ | ⟨elsewhere, _⟩
    exact elsewhere rfl

theorem emitSegments_head (succeeds : cbs.Succeeds) (passes : Nat)
    (receiver : WirehairSegmentReceiver codec) (env : ω)
    (enough : (occupied receiver).card ≤ passes) (idx : Nat) (slot : WirehairSegmentSlot codec)
    (found : findSlot (emitSegments cbs passes receiver env).2.1
      (emitSegments cbs passes receiver env).2.1.nextEmitSegment = some (idx, slot)) :
    slot.state ≠ .recovered := by
  induction passes generalizing receiver env with
  | zero =>
    obtain ⟨inside, stored, _⟩ := findSlot_some found
    have mem : idx ∈ occupied receiver := mem_occupied inside stored
    have empty : occupied receiver = ∅ := Finset.card_eq_zero.mp (Nat.le_zero.mp enough)
    rw [empty] at mem
    cases mem
  | succ passes ih =>
    by_cases ready : ∃ place head,
        findSlot receiver receiver.nextEmitSegment = some (place, head) ∧
          head.state = .recovered
    · obtain ⟨_, _, first, complete⟩ := ready
      obtain ⟨inside, stored, _⟩ := findSlot_some first
      have fewer := card_occupied_passOn inside stored
      rw [emitSegments_passed succeeds passes env first complete] at found
      exact ih _ _ (by omega) found
    · push Not at ready
      rw [emitSegments_stopped _ env ready] at found
      exact ready idx slot found

theorem settled_of_find (windowed : Windowed receiver)
    (head : ∀ idx slot, findSlot receiver receiver.nextEmitSegment = some (idx, slot) →
      slot.state ≠ .recovered) : Settled receiver := by
  intro idx slot stored id
  cases found : findSlot receiver receiver.nextEmitSegment with
  | none => exact absurd id (findSlot_none found (windowed.index_lt stored) stored)
  | some entry =>
    obtain ⟨_⟩ := entry
    obtain ⟨_, held, same⟩ := findSlot_some found
    have here := windowed.distinct stored held (id.trans same.symm)
    subst here
    rw [stored] at held
    cases held
    exact head idx slot found

theorem emitReadySegments_settled (succeeds : cbs.Succeeds) (env : ω)
    (windowed : Windowed (emitReadySegments cbs receiver env).2.1) :
    Settled (emitReadySegments cbs receiver env).2.1 := by
  have head := emitSegments_head succeeds receiver.window receiver env (card_occupied_le receiver)
  revert windowed
  unfold emitReadySegments
  revert head
  rcases emitSegments cbs receiver.window receiver env with ⟨answer, last, envAfter⟩
  intro head
  dsimp only
  split_ifs
  · exact fun windowed => settled_of_find windowed head
  · intro windowed
    have settled : Settled last := settled_of_find (windowed.congr rfl rfl rfl rfl) head
    exact settled
  · exact fun windowed => settled_of_find windowed head

theorem Settled.store {kept : WirehairSegmentSlot codec} (settled : Settled receiver)
    (collecting : kept.state ≠ .recovered) :
    Settled (setReceiverSlot receiver idx (some kept)) := by
  intro place held stored id
  rcases setReceiverSlot_cases stored with ⟨_, ⟨⟩⟩ | ⟨_, old⟩
  · exact collecting
  · exact settled place held old id

theorem collectPacket_settled (succeeds : cbs.Succeeds) {hdr : WireHeader} {body : List UInt8}
    (env : ω) (settled : Settled receiver)
    (windowed : Windowed (collectPacket cbs receiver hdr body idx slot env).2.1) :
    Settled (collectPacket cbs receiver hdr body idx slot env).2.1 := by
  revert windowed
  unfold collectPacket
  by_cases complete : slot.state = .recovered
  · rw [if_pos complete]
    exact fun _ => settled
  rw [if_neg complete]
  rcases codec.decode slot.decoder hdr.shardIndex.toNat body with ⟨res, dec⟩
  dsimp only
  split_ifs
  · exact fun _ => settled.store complete
  · exact fun _ => settled.store complete
  cases codec.recover dec with
  | none => exact fun _ => settled.store complete
  | some msg =>
    have known := setReceiverSlot_recovered receiver idx slot dec msg
    have acked : (emitAck cbs (setReceiverSlot receiver idx (some (finishSlot slot dec msg)))
          (finishSlot slot dec msg) env).1 = 0 ∧
        ReceiverMoves cbs hdr body _ _ := emitAck_moves succeeds _ env known
    dsimp only
    split_ifs with refused
    · exact absurd acked.1 refused
    · exact emitReadySegments_settled succeeds _

theorem ingest_settled (succeeds : cbs.Succeeds) (hdr : WireHeader)
    (body : List UInt8) (env : ω) (settled : Settled receiver)
    (windowed : Windowed (wirehairSegmentReceiverIngest cbs receiver hdr body env).2.1) :
    Settled (wirehairSegmentReceiverIngest cbs receiver hdr body env).2.1 := by
  revert windowed
  unfold wirehairSegmentReceiverIngest
  cases examine receiver hdr body with
  | finish => exact emitReadySegments_settled succeeds env
  | late =>
    dsimp only
    split_ifs
    all_goals exact fun _ => settled
  | collect => exact collectPacket_settled succeeds env settled
  | _ => exact fun _ => settled

end MultiFlow.Wirehair
