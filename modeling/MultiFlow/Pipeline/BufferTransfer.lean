import Mathlib.Dynamics.PeriodicPts.Defs

/-!
# Moving bytes between two segmented buffers

`BufferTransfer_pump` copies from the head of one ring of segments to the tail of another, in runs
that end where a segment of either ends.  A place is a segment and an offset in it.
-/

namespace MultiFlow.BufferTransfer

open Function

inductive OverflowPolicy where
  | reject
  | overwrite
  deriving DecidableEq

inductive TransferStatus where
  | ok
  | srcEmpty
  | dstFull

structure CircularBuffer where
  segCapacity : Nat → Nat
  next : Nat → Nat
  data : Nat → Nat → UInt8
  head : Nat × Nat
  tail : Nat × Nat
  size : Nat
  capacity : Nat
  overflowPolicy : OverflowPolicy

namespace CircularBuffer

def forward (buf : CircularBuffer) (chunk : Nat) (place : Nat × Nat) : Nat × Nat :=
  if place.2 + chunk = buf.segCapacity place.1 then (buf.next place.1, 0)
  else (place.1, place.2 + chunk)

def byteAt (buf : CircularBuffer) (i : Nat) : UInt8 :=
  let place := (buf.forward 1)^[i] buf.head
  buf.data place.1 place.2

def content (buf : CircularBuffer) : List UInt8 := (List.range buf.size).map buf.byteAt

/-- The segments form a ring of `capacity` places. -/
structure WellFormed (buf : CircularBuffer) : Prop where
  segments : ∀ seg, 0 < buf.segCapacity seg
  positive : 0 < buf.capacity
  ring : minimalPeriod (buf.forward 1) buf.head = buf.capacity
  inside : buf.head.2 < buf.segCapacity buf.head.1
  tail_eq : (buf.forward 1)^[buf.size] buf.head = buf.tail
  size_le : buf.size ≤ buf.capacity

end CircularBuffer

open CircularBuffer

def moveChunk (chunk : Nat) (src dst : CircularBuffer) : CircularBuffer × CircularBuffer :=
  ({ src with head := src.forward chunk src.head, size := src.size - chunk },
    { dst with
      data := fun seg off =>
        if seg = dst.tail.1 ∧ dst.tail.2 ≤ off ∧ off < dst.tail.2 + chunk then
          src.data src.head.1 (src.head.2 + (off - dst.tail.2))
        else dst.data seg off
      tail := dst.forward chunk dst.tail
      size := dst.size + chunk })

/-- The loop of the pump.  Each turn moves a byte, so as many turns as bytes are enough. -/
def moveLoop : Nat → Nat → CircularBuffer → CircularBuffer → CircularBuffer × CircularBuffer
  | 0, _, src, dst => (src, dst)
  | turns + 1, remaining, src, dst =>
    if remaining = 0 then (src, dst)
    else
      let srcChunk := src.segCapacity src.head.1 - src.head.2
      let dstChunk := dst.segCapacity dst.tail.1 - dst.tail.2
      let chunk := min remaining (min srcChunk dstChunk)
      let moved := moveChunk chunk src dst
      moveLoop turns (remaining - chunk) moved.1 moved.2

def amount (src dst : CircularBuffer) (maxBytes : Nat) : Except TransferStatus Nat :=
  if src.size = 0 then .error .srcEmpty
  else if 0 < maxBytes then
    if src.size < maxBytes then .error .srcEmpty
    else if dst.overflowPolicy ≠ .overwrite ∧ dst.capacity - dst.size < maxBytes then
      .error .dstFull
    else .ok maxBytes
  else if dst.overflowPolicy = .overwrite then .ok src.size
  else
    let n := min src.size (dst.capacity - dst.size)
    if n = 0 then .error .dstFull else .ok n

def bufferTransferPump (src dst : CircularBuffer) (maxBytes : Nat) :
    TransferStatus × Nat × CircularBuffer × CircularBuffer :=
  match amount src dst maxBytes with
  | .error status => (status, 0, src, dst)
  | .ok n =>
    let moved := moveLoop n n src dst
    (.ok, n, if moved.1.size = 0 then { moved.1 with head := moved.1.tail } else moved.1, moved.2)

section Places

variable {buf src dst : CircularBuffer} {chunk n : Nat} {place : Nat × Nat}

theorem forward_inside (segments : ∀ seg, 0 < buf.segCapacity seg)
    (fits : place.2 + chunk ≤ buf.segCapacity place.1) :
    (buf.forward chunk place).2 < buf.segCapacity (buf.forward chunk place).1 := by
  unfold forward
  split
  · exact segments _
  · dsimp only
    omega

theorem iterate_within (short : place.2 + n < buf.segCapacity place.1) :
    (buf.forward 1)^[n] place = (place.1, place.2 + n) := by
  induction n with
  | zero => rfl
  | succ n ih =>
    rw [iterate_succ_apply', ih (by omega), forward, if_neg (by dsimp only; omega)]
    rfl

theorem iterate_forward (moves : 0 < chunk) (fits : place.2 + chunk ≤ buf.segCapacity place.1) :
    (buf.forward 1)^[chunk] place = buf.forward chunk place := by
  obtain ⟨n, rfl⟩ := Nat.exists_eq_add_of_lt moves
  rw [Nat.zero_add, iterate_succ_apply', iterate_within (by omega)]
  rfl

namespace CircularBuffer.WellFormed

theorem place_inside (wf : buf.WellFormed) (n : Nat) :
    ((buf.forward 1)^[n] buf.head).2 < buf.segCapacity ((buf.forward 1)^[n] buf.head).1 := by
  induction n with
  | zero => exact wf.inside
  | succ n ih =>
    rw [iterate_succ_apply']
    exact forward_inside wf.segments ih

theorem tail_inside (wf : buf.WellFormed) : buf.tail.2 < buf.segCapacity buf.tail.1 :=
  wf.tail_eq ▸ wf.place_inside buf.size

theorem consume (wf : src.WellFormed) (dst : CircularBuffer) (moves : 0 < chunk)
    (held : chunk ≤ src.size) (fits : src.head.2 + chunk ≤ src.segCapacity src.head.1) :
    (moveChunk chunk src dst).1.WellFormed ∧
      (moveChunk chunk src dst).1.content = src.content.drop chunk := by
  have moved := iterate_forward moves fits
  have periodic : src.head ∈ periodicPts (src.forward 1) :=
    minimalPeriod_pos_iff_mem_periodicPts.mp (wf.ring ▸ wf.positive)
  refine ⟨⟨wf.segments, wf.positive, ?_, forward_inside wf.segments fits, ?_,
    (Nat.sub_le _ _).trans wf.size_le⟩, ?_⟩
  · exact (moved ▸ minimalPeriod_apply_iterate periodic chunk).trans wf.ring
  · show (src.forward 1)^[src.size - chunk] (src.forward chunk src.head) = src.tail
    rw [← moved, ← iterate_add_apply, Nat.sub_add_cancel held, wf.tail_eq]
  · refine List.ext_getElem (by simp [content, moveChunk]) fun i _ _ => ?_
    simp only [content, List.getElem_map, List.getElem_range, List.getElem_drop]
    show _ = src.byteAt (chunk + i)
    rw [byteAt, byteAt, Nat.add_comm chunk, iterate_add_apply, moved]
    rfl

theorem fill (wf : dst.WellFormed) (src : CircularBuffer) (moves : 0 < chunk)
    (room : dst.size + chunk ≤ dst.capacity) (held : chunk ≤ src.size)
    (run : src.head.2 + chunk ≤ src.segCapacity src.head.1)
    (fits : dst.tail.2 + chunk ≤ dst.segCapacity dst.tail.1) :
    (moveChunk chunk src dst).2.WellFormed ∧
      (moveChunk chunk src dst).2.content = dst.content ++ src.content.take chunk := by
  have written : ∀ j < chunk, (dst.forward 1)^[dst.size + j] dst.head =
      (dst.tail.1, dst.tail.2 + j) := by
    intro j short
    rw [Nat.add_comm, iterate_add_apply, wf.tail_eq, iterate_within (by omega)]
  refine ⟨{ wf with tail_eq := ?_, size_le := room }, ?_⟩
  · show (dst.forward 1)^[dst.size + chunk] dst.head = dst.forward chunk dst.tail
    rw [Nat.add_comm, iterate_add_apply, wf.tail_eq, iterate_forward moves fits]
  refine List.ext_getElem (by simp [content, moveChunk, held]) fun i inside _ => ?_
  have bound : i < dst.size + chunk := by simpa [content, moveChunk] using inside
  simp only [content, List.getElem_map, List.getElem_range]
  show (if _ ∧ _ then _ else dst.byteAt i) = _
  by_cases old : i < dst.size
  · rw [List.getElem_append_left (by simpa using old), if_neg]
    · simp
    · rintro ⟨seg_eq, low, high⟩
      -- a place of the run comes `size` or more places after the head
      obtain ⟨j, off_eq⟩ := Nat.exists_eq_add_of_le low
      have same := written j (by omega)
      rw [← off_eq, ← seg_eq] at same
      have distinct := (iterate_eq_iterate_iff_of_lt_minimalPeriod
        (f := dst.forward 1) (x := dst.head) (m := dst.size + j) (n := i)
        (by rw [wf.ring]; omega) (by rw [wf.ring]; omega)).mp same
      omega
  · obtain ⟨j, rfl⟩ := Nat.exists_eq_add_of_le (Nat.le_of_not_lt old)
    have short : j < chunk := by omega
    have here : ((moveChunk chunk src dst).2.forward 1)^[dst.size + j]
        (moveChunk chunk src dst).2.head = _ := written j short
    have there : (src.forward 1)^[j] src.head = _ := iterate_within (by omega)
    rw [List.getElem_append_right (by simp)]
    simp [byteAt, here, there, short]

end CircularBuffer.WellFormed

end Places

theorem moveLoop_moves {turns remaining : Nat} {src dst : CircularBuffer}
    (wfSrc : src.WellFormed) (wfDst : dst.WellFormed) (enough : remaining ≤ turns)
    (held : remaining ≤ src.size) (room : dst.size + remaining ≤ dst.capacity) :
    let moved := moveLoop turns remaining src dst
    moved.1.WellFormed ∧ moved.2.WellFormed ∧ moved.1.content = src.content.drop remaining ∧
      moved.2.content = dst.content ++ src.content.take remaining := by
  induction turns generalizing remaining src dst with
  | zero =>
    obtain rfl := Nat.le_zero.mp enough
    simp [moveLoop, wfSrc, wfDst]
  | succ turns ih =>
    rw [moveLoop]
    split
    next none =>
      subst none
      simp [wfSrc, wfDst]
    have srcInside := wfSrc.inside
    have dstInside := wfDst.tail_inside
    dsimp only
    generalize chunk_eq : min remaining (min (src.segCapacity src.head.1 - src.head.2)
      (dst.segCapacity dst.tail.1 - dst.tail.2)) = chunk
    have moves : 0 < chunk := by omega
    obtain ⟨wfTaken, taken⟩ := wfSrc.consume dst moves (by omega) (by omega)
    obtain ⟨wfFilled, filled⟩ :=
      wfDst.fill src moves (by omega) (by omega) (by omega) (by omega)
    obtain ⟨wfEnd, wfFull, rest, appended⟩ := ih wfTaken wfFilled
      (show remaining - chunk ≤ turns by omega) (show _ ≤ src.size - chunk by omega)
      (show dst.size + chunk + _ ≤ dst.capacity by omega)
    have whole : remaining = chunk + (remaining - chunk) := by omega
    refine ⟨wfEnd, wfFull, ?_, ?_⟩
    · rw [rest, taken, List.drop_drop, ← whole]
    · rw [appended, filled, taken, List.append_assoc, ← List.take_add, ← whole]

theorem moveLoop_capacity (turns remaining : Nat) (src dst : CircularBuffer) :
    (moveLoop turns remaining src dst).2.capacity = dst.capacity := by
  induction turns generalizing remaining src dst with
  | zero => rfl
  | succ turns ih =>
    rw [moveLoop]
    split
    · rfl
    · exact ih _ _ _

/-- What the pump has to do: nothing, or move the first `n` bytes of the source to the end of the
destination. -/
structure Pumped (src dst : CircularBuffer)
    (result : TransferStatus × Nat × CircularBuffer × CircularBuffer) : Prop where
  failed : result.1 ≠ .ok → result.2 = (0, src, dst)
  held : result.2.1 ≤ src.size
  wfSrc : result.2.2.1.WellFormed
  wfDst : result.2.2.2.WellFormed
  taken : result.2.2.1.content = src.content.drop result.2.1
  appended : result.2.2.2.content = dst.content ++ src.content.take result.2.1

theorem pumped_of_room {src dst : CircularBuffer} {maxBytes n : Nat} (wfSrc : src.WellFormed)
    (wfDst : dst.WellFormed) (planned : amount src dst maxBytes = .ok n) (held : n ≤ src.size)
    (room : dst.size + n ≤ dst.capacity) : Pumped src dst (bufferTransferPump src dst maxBytes) := by
  obtain ⟨wfTaken, wfFilled, rest, appended⟩ :=
    moveLoop_moves wfSrc wfDst (Nat.le_refl n) held room
  unfold bufferTransferPump
  rw [planned]
  dsimp only
  generalize moveLoop n n src dst = moved at wfTaken wfFilled rest appended ⊢
  split
  next empty =>
    -- the head of an empty buffer is at its tail already
    have same := wfTaken.tail_eq
    rw [empty, iterate_zero_apply] at same
    have reset : { moved.1 with head := moved.1.tail } = moved.1 :=
      congrArg (fun head => { moved.1 with head }) same.symm
    rw [reset]
    exact ⟨fun failed => absurd rfl failed, held, wfTaken, wfFilled, rest, appended⟩
  next => exact ⟨fun failed => absurd rfl failed, held, wfTaken, wfFilled, rest, appended⟩

/-- The destination keeps its capacity, so bytes that were appended had room in it. -/
theorem room_of_pumped {src dst : CircularBuffer} {maxBytes n : Nat}
    (planned : amount src dst maxBytes = .ok n)
    (pumped : Pumped src dst (bufferTransferPump src dst maxBytes)) :
    dst.size + n ≤ dst.capacity := by
  obtain ⟨-, held, -, wfFilled, -, appended⟩ := pumped
  unfold bufferTransferPump at held wfFilled appended
  rw [planned] at held wfFilled appended
  change n ≤ src.size at held
  have size_eq := congrArg List.length appended
  have bound := wfFilled.size_le
  simp only [content, List.length_append, List.length_map, List.length_range, List.length_take,
    moveLoop_capacity] at size_eq bound
  omega

/-- The pump does its work exactly when the destination does not overwrite, or the source is too
short, or the bytes fit in the free space. -/
theorem pump_moves_bytes_iff (src dst : CircularBuffer) (maxBytes : Nat)
    (wfSrc : src.WellFormed) (wfDst : dst.WellFormed) :
    Pumped src dst (bufferTransferPump src dst maxBytes) ↔
      (dst.overflowPolicy = .overwrite → src.size < maxBytes ∨
        dst.size + (if 0 < maxBytes then maxBytes else src.size) ≤ dst.capacity) := by
  have size_le := wfDst.size_le
  cases planned : amount src dst maxBytes with
  | error status =>
    refine iff_of_true ?_ ?_
    · unfold bufferTransferPump
      rw [planned]
      exact ⟨fun _ => rfl, Nat.zero_le _, wfSrc, wfDst, rfl, (List.append_nil _).symm⟩
    · intro overwrites
      unfold amount at planned
      grind
  | ok n =>
    have held : n ≤ src.size := by
      unfold amount at planned
      grind
    have room : dst.size + n ≤ dst.capacity ↔ (dst.overflowPolicy = .overwrite →
        src.size < maxBytes ∨
          dst.size + (if 0 < maxBytes then maxBytes else src.size) ≤ dst.capacity) := by
      unfold amount at planned
      grind
    rw [← room]
    exact ⟨room_of_pumped planned, pumped_of_room wfSrc wfDst planned held⟩

def oneByte (byte : UInt8) (size : Nat) (policy : OverflowPolicy) : CircularBuffer :=
  ⟨fun _ => 1, fun _ => 0, fun _ _ => byte, (0, 0), (0, 0), size, 1, policy⟩

theorem oneByte_wellFormed (byte : UInt8) {size : Nat} (policy : OverflowPolicy)
    (small : size ≤ 1) : (oneByte byte size policy).WellFormed := by
  have fixed : IsFixedPt ((oneByte byte size policy).forward 1) (0, 0) := rfl
  exact ⟨fun _ => Nat.one_pos, Nat.one_pos, minimalPeriod_eq_one_iff_isFixedPt.mpr fixed,
    Nat.one_pos, fixed.iterate size, small⟩

theorem pump_moves_bytes_once :
    Pumped (oneByte 7 1 .reject) (oneByte 0 0 .overwrite)
      (bufferTransferPump (oneByte 7 1 .reject) (oneByte 0 0 .overwrite) 1) :=
  (pump_moves_bytes_iff _ _ 1 (oneByte_wellFormed 7 .reject (Nat.le_refl 1))
    (oneByte_wellFormed 0 .overwrite Nat.one_pos.le)).mpr fun _ => Or.inr (Nat.le_refl 1)

/-- A full destination that overwrites ends with more bytes than its capacity. -/
theorem pump_overfills :
    (oneByte 7 1 .reject).WellFormed ∧ (oneByte 0 1 .overwrite).WellFormed ∧
      let after := (bufferTransferPump (oneByte 7 1 .reject) (oneByte 0 1 .overwrite) 1).2.2.2
      after.size = 2 ∧ after.capacity = 1 :=
  ⟨oneByte_wellFormed 7 .reject (Nat.le_refl 1), oneByte_wellFormed 0 .overwrite (Nat.le_refl 1),
    rfl, rfl⟩

end MultiFlow.BufferTransfer
