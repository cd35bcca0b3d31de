import MultiFlow.Lib.Loop

/-!
# Loops over a two-dimensional array

A grid is read and written by row and column.  `modify` applies an update to every
cell of a region.  A loop whose iterations modify disjoint regions modifies their
union, in whatever order the cells are visited.
-/

namespace MultiFlow.Lib

universe u

abbrev Grid (α : Type u) := Nat → Nat → α

namespace Grid

variable {α : Type u}

def store (grid : Grid α) (row column : Nat) (value : α) : Grid α := fun i j =>
  if i = row ∧ j = column then value else grid i j

def modify (region : Nat → Nat → Prop) [∀ i j, Decidable (region i j)]
    (update : Nat → Nat → α → α) (grid : Grid α) : Grid α := fun i j =>
  if region i j then update i j (grid i j) else grid i j

variable (update : Nat → Nat → α → α)

variable {region : Nat → Nat → Prop}

theorem modify_outside [∀ i j, Decidable (region i j)] (grid : Grid α) {i j : Nat}
    (outside : ¬ region i j) : modify region update grid i j = grid i j :=
  if_neg outside

theorem modify_inside [∀ i j, Decidable (region i j)] (grid : Grid α) {i j : Nat}
    (inside : region i j) : modify region update grid i j = update i j (grid i j) :=
  if_pos inside

theorem store_eq_modify (grid : Grid α) (row col : Nat) :
    store grid row col (update row col (grid row col)) =
      modify (fun i j => i = row ∧ j = col) update grid := by
  funext i j
  by_cases here : i = row ∧ j = col
  · obtain ⟨rfl, rfl⟩ := here
    rw [modify_inside update grid ⟨rfl, rfl⟩, store, if_pos ⟨rfl, rfl⟩]
  · rw [modify_outside update grid here, store, if_neg here]

/-- The partition rule: each cell of the whole is visited by exactly one iteration. -/
theorem forRange_modify (count : Nat) (grid : Grid α) (update : Nat → Nat → α → α)
    (part : Nat → Nat → Nat → Prop) [∀ t i j, Decidable (part t i j)]
    (whole : Nat → Nat → Prop) [∀ i j, Decidable (whole i j)]
    (covers : ∀ i j, whole i j ↔ ∃ t < count, part t i j)
    (disjoint : ∀ i j, ∀ s < count, ∀ t < count, part s i j → part t i j → s = t) :
    forRange count grid (fun cur t => modify (part t) update cur) =
      modify whole update grid := by
  have visited : ∀ i j,
      ((∃ t < count, part t i j) → forRange count grid
        (fun cur t => modify (part t) update cur) i j = update i j (grid i j)) ∧
      ((¬ ∃ t < count, part t i j) → forRange count grid
        (fun cur t => modify (part t) update cur) i j = grid i j) := by
    clear covers
    induction count with
    | zero =>
      intro i j
      exact ⟨fun ⟨t, tLt, _⟩ => absurd tLt (Nat.not_lt_zero t), fun _ => rfl⟩
    | succ count ih =>
      have earlier := ih fun i j s sLt t tLt => disjoint i j s (by omega) t (by omega)
      intro i j
      rw [forRange_succ]
      by_cases last : part count i j
      · have fresh : ¬ ∃ t < count, part t i j := by
          rintro ⟨t, tLt, inPart⟩
          have := disjoint i j t (by omega) count (by omega) inPart last
          omega
        refine ⟨fun _ => ?_, fun never => absurd ⟨count, by omega, last⟩ never⟩
        rw [modify_inside update _ last, (earlier i j).2 fresh]
      · rw [modify_outside update _ last]
        refine ⟨fun ⟨t, tLt, inPart⟩ => (earlier i j).1 ⟨t, ?_, inPart⟩,
          fun never => (earlier i j).2 fun ⟨t, tLt, inPart⟩ => never ⟨t, by omega, inPart⟩⟩
        rcases Nat.lt_succ_iff_lt_or_eq.mp tLt with lower | rfl
        · exact lower
        · exact absurd inPart last
  funext i j
  by_cases inside : whole i j
  · rw [modify_inside update grid inside, (visited i j).1 ((covers i j).mp inside)]
  · rw [modify_outside update grid inside,
      (visited i j).2 fun some => inside ((covers i j).mpr some)]

theorem forRange_rows_columns (rows columns base : Nat) (grid : Grid α)
    (update : Nat → Nat → α → α) :
    (forRange rows grid fun current row => forRange columns current fun current col =>
      store current (base + row) col (update (base + row) col (current (base + row) col))) =
      modify (fun i j => base ≤ i ∧ i < base + rows ∧ j < columns) update grid := by
  have inner : ∀ (current : Grid α) (row : Nat), (forRange columns current fun current col =>
      store current (base + row) col (update (base + row) col (current (base + row) col))) =
      modify (fun i j => i = base + row ∧ j < columns) update current := by
    intro current _
    simp only [store_eq_modify]
    refine forRange_modify columns current update _ _ ?_ ?_
    · intro i j
      exact ⟨fun ⟨here, jLt⟩ => ⟨j, jLt, here, rfl⟩, fun ⟨t, tLt, here, same⟩ => ⟨here, by omega⟩⟩
    · intro i j s _ t _ first second
      omega
  simp only [inner]
  refine forRange_modify rows grid update _ _ ?_ ?_
  · intro i j
    exact ⟨fun ⟨low, high, jLt⟩ => ⟨i - base, by omega, by omega, jLt⟩,
      fun ⟨t, tLt, here, jLt⟩ => ⟨by omega, by omega, jLt⟩⟩
  · intro _ _ _ _ _ _ _ _
    omega

theorem forRange_column (rows base col : Nat) (grid : Grid α) (update : Nat → Nat → α → α) :
    (forRange rows grid fun cur row =>
      store cur (base + row) col (update (base + row) col (cur (base + row) col))) =
      modify (fun i j => base ≤ i ∧ i < base + rows ∧ j = col) update grid := by
  simp only [store_eq_modify]
  refine forRange_modify rows grid update _ _ ?_ ?_
  · intro i j
    exact ⟨fun ⟨low, high, here⟩ => ⟨i - base, by omega, by omega, here⟩,
      fun ⟨t, tLt, here, same⟩ => ⟨by omega, by omega, same⟩⟩
  · intro _ _ _ _ _ _ _ _
    omega

theorem forRange_columns_rows (rows columns base : Nat) (grid : Grid α)
    (update : Nat → Nat → α → α) :
    (forRange columns grid fun current col => forRange rows current fun current row =>
      store current (base + row) col (update (base + row) col (current (base + row) col))) =
      modify (fun i j => base ≤ i ∧ i < base + rows ∧ j < columns) update grid := by
  simp only [forRange_column]
  refine forRange_modify columns grid update _ _ ?_ ?_
  · intro i j
    exact ⟨fun ⟨low, high, jLt⟩ => ⟨j, jLt, low, high, rfl⟩,
      fun ⟨t, tLt, low, high, same⟩ => ⟨low, high, by omega⟩⟩
  · intro _ _ _ _ _ _ _ _
    omega

end Grid

end MultiFlow.Lib
