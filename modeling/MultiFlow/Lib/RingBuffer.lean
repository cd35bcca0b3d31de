import MultiFlow.Lib.Loop

/-!
# Ring buffers

A ring of fixed capacity with a head, a tail and a count.  `toList` is its content in FIFO
order: a push appends to it and a pop removes its first element.
-/

namespace MultiFlow.Lib

open Function List

universe u

structure RingBuffer (α : Type u) where
  slots : Nat → α
  capacity : Nat
  head : Nat
  tail : Nat
  count : Nat
  positive : 0 < capacity
  head_lt : head < capacity
  tail_eq : tail = (head + count) % capacity
  count_le : count ≤ capacity

namespace RingBuffer

variable {α : Type u}

def empty (filler : α) (capacity : Nat) (positive : 0 < capacity) : RingBuffer α where
  slots := fun _ => filler
  capacity := capacity
  head := 0
  tail := 0
  count := 0
  positive := positive
  head_lt := positive
  tail_eq := (Nat.zero_mod _).symm
  count_le := Nat.zero_le _

def toList (ring : RingBuffer α) : List α :=
  (List.range ring.count).map fun offset => ring.slots ((ring.head + offset) % ring.capacity)

/-- A push into a ring without room does nothing; every caller tests for room first. -/
def push (ring : RingBuffer α) (item : α) : RingBuffer α :=
  if room : ring.count < ring.capacity then
    { ring with
      slots := update ring.slots ring.tail item
      tail := (ring.tail + 1) % ring.capacity
      count := ring.count + 1
      tail_eq := by rw [ring.tail_eq, Nat.mod_add_mod, Nat.add_assoc]
      count_le := room }
  else ring

/-- A push in front of the oldest element; without room it does nothing. -/
def pushFront (ring : RingBuffer α) (item : α) : RingBuffer α :=
  if room : ring.count < ring.capacity then
    { ring with
      slots := update ring.slots ((ring.head + ring.capacity - 1) % ring.capacity) item
      head := (ring.head + ring.capacity - 1) % ring.capacity
      count := ring.count + 1
      head_lt := Nat.mod_lt _ ring.positive
      tail_eq := by
        have positive := ring.positive
        rw [ring.tail_eq, Nat.mod_add_mod, ← Nat.add_mod_right]
        congr 1
        omega
      count_le := room }
  else ring

def reset (ring : RingBuffer α) : RingBuffer α :=
  { ring with
    head := 0
    tail := 0
    count := 0
    head_lt := ring.positive
    tail_eq := (Nat.zero_mod _).symm
    count_le := Nat.zero_le _ }

def front (ring : RingBuffer α) : α := ring.slots ring.head

/-- A pop from an empty ring does nothing; every caller tests the count first. -/
def pop (ring : RingBuffer α) : RingBuffer α :=
  if nonempty : 0 < ring.count then
    { ring with
      head := (ring.head + 1) % ring.capacity
      count := ring.count - 1
      head_lt := Nat.mod_lt _ ring.positive
      tail_eq := by
        rw [ring.tail_eq, Nat.mod_add_mod]
        congr 1
        omega
      count_le := (Nat.sub_le _ _).trans ring.count_le }
  else ring

@[simp] theorem length_toList (ring : RingBuffer α) : ring.toList.length = ring.count := by
  simp [toList]

@[simp] theorem capacity_push (ring : RingBuffer α) (item : α) :
    (ring.push item).capacity = ring.capacity := by
  unfold push
  split <;> rfl

@[simp] theorem capacity_pop (ring : RingBuffer α) : ring.pop.capacity = ring.capacity := by
  unfold pop
  split <;> rfl

variable {ring : RingBuffer α}

theorem count_push (item : α) (room : ring.count < ring.capacity) :
    (ring.push item).count = ring.count + 1 := by
  unfold push
  rw [dif_pos room]

theorem count_push_le (ring : RingBuffer α) (item : α) : (ring.push item).count ≤ ring.count + 1 := by
  by_cases room : ring.count < ring.capacity
  · exact (count_push item room).le
  unfold push
  rw [dif_neg room]
  exact Nat.le_succ _

theorem count_pop (ring : RingBuffer α) : ring.pop.count = ring.count - 1 := by
  unfold pop
  split
  · rfl
  · omega

theorem slot_ne (head : Nat) {off count capacity : Nat} (before : off < count)
    (fits : count < capacity) : (head + off) % capacity ≠ (head + count) % capacity := by
  intro same
  have offsets : off % capacity = count % capacity := Nat.ModEq.add_left_cancel' head same
  rw [Nat.mod_eq_of_lt (before.trans fits), Nat.mod_eq_of_lt fits] at offsets
  exact before.ne offsets

theorem toList_push (item : α) (room : ring.count < ring.capacity) :
    (ring.push item).toList = ring.toList ++ [item] := by
  unfold push toList
  rw [dif_pos room]
  dsimp only
  rw [range_succ, map_append, map_singleton, ← ring.tail_eq, update_self]
  congr 1
  refine map_congr_left ?_
  intro off mem
  have apart := slot_ne ring.head (mem_range.mp mem) room
  rw [← ring.tail_eq] at apart
  exact update_of_ne apart _ _

theorem count_pushFront (item : α) (room : ring.count < ring.capacity) :
    (ring.pushFront item).count = ring.count + 1 := by
  unfold pushFront
  rw [dif_pos room]

/-- The slot before the head is the last one of the turn, so no element of the content is there. -/
theorem toList_pushFront (item : α) (room : ring.count < ring.capacity) :
    (ring.pushFront item).toList = item :: ring.toList := by
  have pos := ring.positive
  have below := ring.head_lt
  unfold pushFront toList
  rw [dif_pos room]
  dsimp only
  rw [range_succ_eq_map, map_cons, map_map, Nat.add_zero, Nat.mod_mod, update_self]
  refine congrArg _ (map_congr_left ?_)
  intro off mem
  have early : off < ring.capacity - 1 := by
    have inside := mem_range.mp mem
    omega
  have shifted : ((ring.head + ring.capacity - 1) % ring.capacity + (off + 1)) % ring.capacity =
      (ring.head + off) % ring.capacity := by
    rw [Nat.mod_add_mod, ← Nat.add_mod_right (ring.head + off)]
    congr 1
    omega
  have apart : (ring.head + off) % ring.capacity ≠
      (ring.head + ring.capacity - 1) % ring.capacity := by
    rw [Nat.add_sub_assoc pos]
    exact slot_ne ring.head early (by omega)
  rw [Function.comp_apply, Nat.succ_eq_add_one, shifted]
  exact update_of_ne apart _ _

theorem toList_pop (ne : 0 < ring.count) : ring.toList = ring.front :: ring.pop.toList := by
  obtain ⟨count, count_eq⟩ := Nat.exists_eq_succ_of_ne_zero ne.ne'
  unfold pop toList front
  rw [dif_pos ne]
  dsimp only
  rw [count_eq, range_succ_eq_map, map_cons, map_map, Nat.add_zero,
    Nat.mod_eq_of_lt ring.head_lt, Nat.succ_sub_one]
  refine congrArg _ (map_congr_left ?_)
  intro off _
  rw [Function.comp_apply, Nat.mod_add_mod]
  congr 2
  omega

/-- The first elements of a list fill the ring one after the other. -/
theorem toList_foldl_push (items : List α) (ring : RingBuffer α)
    (room : ring.count + items.length ≤ ring.capacity) :
    (items.foldl push ring).toList = ring.toList ++ items ∧
      (items.foldl push ring).count = ring.count + items.length ∧
      (items.foldl push ring).capacity = ring.capacity := by
  induction items generalizing ring with
  | nil => exact ⟨(append_nil _).symm, rfl, rfl⟩
  | cons item rest ih =>
    rw [length_cons] at room
    have fits : ring.count < ring.capacity := by omega
    obtain ⟨list_eq, count_eq, capacity_eq⟩ := ih (ring.push item)
      (by rw [count_push item fits, capacity_push]; omega)
    rw [foldl_cons, list_eq, count_eq, capacity_eq, toList_push item fits,
      count_push item fits, capacity_push, append_assoc, length_cons]
    exact ⟨rfl, by omega, rfl⟩

/-- Pops until `most` elements are out or the ring is empty. -/
def popMany : Nat → RingBuffer α → List α × RingBuffer α
  | 0, ring => ([], ring)
  | most + 1, ring =>
    if 0 < ring.count then
      let (rest, popped) := popMany most ring.pop
      (ring.front :: rest, popped)
    else ([], ring)

theorem popMany_succ (most : Nat) (ne : 0 < ring.count) :
    ring.popMany (most + 1) =
      (ring.front :: (ring.pop.popMany most).1, (ring.pop.popMany most).2) := by
  rw [popMany, if_pos ne]

theorem popMany_empty (most : Nat) (empty : ring.count = 0) : ring.popMany most = ([], ring) := by
  cases most with
  | zero => rfl
  | succ most => rw [popMany, if_neg (by omega)]

theorem toList_popMany (most : Nat) (ring : RingBuffer α) :
    ring.toList = (ring.popMany most).1 ++ (ring.popMany most).2.toList := by
  induction most generalizing ring with
  | zero => rfl
  | succ most ih =>
    by_cases ne : 0 < ring.count
    · rw [popMany_succ most ne, cons_append, ← ih ring.pop, ← toList_pop ne]
    · rw [popMany_empty _ (by omega), nil_append]

theorem capacity_popMany (most : Nat) (ring : RingBuffer α) :
    (ring.popMany most).2.capacity = ring.capacity := by
  induction most generalizing ring with
  | zero => rfl
  | succ most ih =>
    by_cases ne : 0 < ring.count
    · rw [popMany_succ most ne, ih ring.pop, capacity_pop]
    · rw [popMany_empty _ (by omega)]

theorem count_popMany (most : Nat) (ring : RingBuffer α) :
    (ring.popMany most).2.count = ring.count - most := by
  induction most generalizing ring with
  | zero => rfl
  | succ most ih =>
    by_cases ne : 0 < ring.count
    · rw [popMany_succ most ne, ih ring.pop, count_pop]
      omega
    · have empty : ring.count = 0 := by omega
      rw [popMany_empty _ empty, empty, Nat.zero_sub]

theorem popMany_eq_nil_iff {most : Nat} (pos : 0 < most) :
    (ring.popMany most).1 = [] ↔ ring.count = 0 := by
  obtain ⟨fewer, rfl⟩ := Nat.exists_eq_succ_of_ne_zero pos.ne'
  by_cases ne : 0 < ring.count
  · rw [popMany_succ fewer ne]
    exact iff_of_false (cons_ne_nil _ _) ne.ne'
  have empty : ring.count = 0 := by omega
  rw [popMany_empty _ empty]
  exact iff_of_true rfl empty

end RingBuffer

end MultiFlow.Lib
