import Mathlib.Data.List.Basic
import Mathlib.Tactic

/-!
# Writes at an offset

A file is the list of its bytes.  `pwrite` replaces the bytes from an offset on and fills a gap
before it; a sequence of writes tiles a content if each of them starts where the one before ended.
-/

namespace MultiFlow.Lib

universe u

variable {α : Type u}

def pwrite (fill : α) (file : List α) (offset : Nat) (bytes : List α) : List α :=
  (file ++ List.replicate (offset - file.length) fill).take offset ++
    (bytes ++ file.drop (offset + bytes.length))

section Pwrite

variable (fill : α) (file : List α) (offset : Nat) (bytes : List α)

theorem length_pwrite_front :
    ((file ++ List.replicate (offset - file.length) fill).take offset).length = offset := by
  rw [List.length_take, List.length_append, List.length_replicate]
  omega

theorem length_pwrite_le {bound : Nat} (short : file.length ≤ bound)
    (inside : offset + bytes.length ≤ bound) : (pwrite fill file offset bytes).length ≤ bound := by
  unfold pwrite
  rw [List.length_append, length_pwrite_front, List.length_append, List.length_drop]
  omega

theorem getElem?_pwrite_inside {pos : Nat} (low : offset ≤ pos)
    (high : pos < offset + bytes.length) :
    (pwrite fill file offset bytes)[pos]? = bytes[pos - offset]? := by
  have front := length_pwrite_front fill file offset
  unfold pwrite
  rw [List.getElem?_append_right (by omega), front, List.getElem?_append_left (by omega)]

theorem getElem?_pwrite_outside {pos : Nat} (present : pos < file.length)
    (apart : pos < offset ∨ offset + bytes.length ≤ pos) :
    (pwrite fill file offset bytes)[pos]? = file[pos]? := by
  have front := length_pwrite_front fill file offset
  unfold pwrite
  obtain below | above := apart
  · rw [List.getElem?_append_left (by omega), List.getElem?_take_of_lt below,
      List.getElem?_append_left present]
  · rw [List.getElem?_append_right (by omega), front, List.getElem?_append_right (by omega),
      List.getElem?_drop]
    congr 1
    omega

end Pwrite

/-- A write of bytes of the target at their own offset keeps what already agrees with it. -/
theorem getElem?_pwrite_of_agrees (fill : α) {file target bytes : List α} {offset : Nat}
    (own : ∀ pos, offset ≤ pos → pos < offset + bytes.length →
      bytes[pos - offset]? = target[pos]?) {pos : Nat}
    (inside : pos < target.length) (agrees : file[pos]? = target[pos]?) :
    (pwrite fill file offset bytes)[pos]? = target[pos]? := by
  have present : pos < file.length := by
    by_contra beyond
    rw [List.getElem?_eq_none (Nat.not_lt.mp beyond), List.getElem?_eq_getElem inside] at agrees
    cases agrees
  by_cases within : offset ≤ pos ∧ pos < offset + bytes.length
  · rw [getElem?_pwrite_inside fill file offset bytes within.1 within.2]
    exact own pos within.1 within.2
  · rw [getElem?_pwrite_outside fill file offset bytes present (by omega)]
    exact agrees

/-- The writes follow each other from `start` on and make up the content. -/
def Tiles : Nat → List (Nat × List α) → List α → Prop
  | _, [], content => content = []
  | start, (offset, bytes) :: writes, content =>
    offset = start ∧ ∃ later, content = bytes ++ later ∧
      Tiles (start + bytes.length) writes later

theorem Tiles.snoc {start : Nat} {writes : List (Nat × List α)} {content : List α}
    (tiles : Tiles start writes content) (bytes : List α) :
    Tiles start (writes ++ [(start + content.length, bytes)]) (content ++ bytes) := by
  induction writes generalizing start content with
  | nil =>
    obtain rfl : content = [] := tiles
    exact ⟨by simp, [], by simp, rfl⟩
  | cons write _ ih =>
    obtain ⟨_⟩ := write
    obtain ⟨here, later, rfl, rest⟩ := tiles
    refine ⟨here, later ++ bytes, by rw [List.append_assoc], ?_⟩
    have extended := ih rest
    rw [List.length_append, ← Nat.add_assoc]
    exact extended

end MultiFlow.Lib
