import Mathlib.Data.List.Basic
import Mathlib.Data.List.Nodup
import Mathlib.Tactic

/-!
# Doubly linked lists

A doubly linked list is a pair of partial successor functions with a head and a tail.  `Spells`
says which list of nodes it holds; unlinking a node erases it from that list and linking a new
node in front adds it there.
-/

namespace MultiFlow.Lib

open Function List

universe u

variable {κ : Type u}

structure Links (κ : Type u) where
  head : Option κ
  tail : Option κ
  next : κ → Option κ
  prev : κ → Option κ

/-- The nodes met from a start on, following one of the two links. -/
def follow (link : κ → Option κ) : Nat → Option κ → List κ
  | 0, _ => []
  | _ + 1, none => []
  | steps + 1, some node => node :: follow link steps (link node)

namespace Links

def empty : Links κ := ⟨none, none, fun _ => none, fun _ => none⟩

/-- The nodes of the list in order, without repetition, each linked to its two neighbours. -/
structure Spells (links : Links κ) (nodes : List κ) : Prop where
  nodup : nodes.Nodup
  head_eq : links.head = nodes.head?
  tail_eq : links.tail = nodes.getLast?
  around : ∀ before node after, nodes = before ++ node :: after →
    links.prev node = before.getLast? ∧ links.next node = after.head?

variable {links : Links κ} {nodes before after : List κ} {node : κ}

theorem spells_empty : (empty : Links κ).Spells [] where
  nodup := nodup_nil
  head_eq := rfl
  tail_eq := rfl
  around := by
    intro before node after split
    simp at split

variable (spells : links.Spells (before ++ node :: after))
include spells

theorem Spells.sides : node ∉ before ∧ node ∉ after ∧ ∀ other ∈ before, other ∉ after := by
  have nodup := spells.nodup
  rw [nodup_append, nodup_cons] at nodup
  obtain ⟨-, ⟨notAfter, -⟩, apart⟩ := nodup
  refine ⟨?_, notAfter, ?_⟩
  · intro mem
    exact apart node mem node mem_cons_self rfl
  · intro other mem memberToo
    exact apart other mem other (mem_cons_of_mem _ memberToo) rfl

omit spells

variable [DecidableEq κ]

def unlink (links : Links κ) (node : κ) : Links κ where
  head := if (links.prev node).isSome then links.head else links.next node
  tail := if (links.next node).isSome then links.tail else links.prev node
  next := fun other =>
    if other = node then none
    else if links.prev node = some other then links.next node else links.next other
  prev := fun other =>
    if other = node then none
    else if links.next node = some other then links.prev node else links.prev other

def pushFront (links : Links κ) (node : κ) : Links κ where
  head := some node
  tail := if links.head.isSome then links.tail else some node
  next := update links.next node links.head
  prev := fun other =>
    if links.head = some other then some node
    else if other = node then none else links.prev other

include spells

variable {other : κ} {steps : Nat}

theorem Spells.unlink_before {left right : List κ} (split : before = left ++ other :: right) :
    (links.unlink node).prev other = left.getLast? ∧
      (links.unlink node).next other = (right ++ after).head? := by
  subst split
  obtain ⟨notBefore, -, apart⟩ := spells.sides
  obtain ⟨prev_node, next_node⟩ := spells.around _ node after rfl
  obtain ⟨prev_other, next_other⟩ := spells.around left other (right ++ node :: after) (by simp)
  have mem : other ∈ left ++ other :: right := by simp
  have different : other ≠ node := by
    rintro rfl
    exact notBefore mem
  have notNext : ¬links.next node = some other := by
    intro same
    exact apart other mem (mem_of_mem_head? (next_node ▸ same))
  unfold unlink
  dsimp only
  rw [if_neg different, if_neg notNext, if_neg different, prev_other]
  refine ⟨rfl, ?_⟩
  cases right with
  | nil =>
    have last : links.prev node = some other := by simp [prev_node]
    rw [if_pos last, next_node, nil_append]
  | cons first rest =>
    have notLast : ¬links.prev node = some other := by
      intro same
      have inRest : other ∈ first :: rest := by
        have last : (first :: rest).getLast? = some other := by simpa [prev_node] using same
        exact mem_of_getLast? last
      have nodup := spells.nodup
      simp only [append_assoc, cons_append, nodup_append, nodup_cons] at nodup
      exact nodup.2.1.1 (by simpa using Or.imp id Or.inl (mem_cons.mp inRest))
    rw [if_neg notLast, next_other]
    rfl

theorem Spells.unlink_after {left right : List κ} (split : after = left ++ other :: right) :
    (links.unlink node).prev other = (before ++ left).getLast? ∧
      (links.unlink node).next other = right.head? := by
  subst split
  obtain ⟨-, notAfter, apart⟩ := spells.sides
  obtain ⟨prev_node, next_node⟩ := spells.around before node _ rfl
  obtain ⟨prev_other, next_other⟩ := spells.around (before ++ node :: left) other right (by simp)
  have mem : other ∈ left ++ other :: right := by simp
  have different : other ≠ node := by
    rintro rfl
    exact notAfter mem
  have notPrev : ¬links.prev node = some other := by
    intro same
    exact apart other (mem_of_getLast? (prev_node ▸ same)) mem
  unfold unlink
  dsimp only
  rw [if_neg different, if_neg different, if_neg notPrev, next_other]
  refine ⟨?_, rfl⟩
  cases left with
  | nil =>
    have first : links.next node = some other := by simp [next_node]
    rw [if_pos first, prev_node, append_nil]
  | cons first =>
    have notFirst : ¬links.next node = some other := by
      intro same
      have sameFirst : first = other := by simpa [next_node] using same
      subst sameFirst
      have nodup := spells.nodup
      simp [nodup_append] at nodup
    rw [if_neg notFirst, prev_other]
    simp

theorem Spells.unlink : (links.unlink node).Spells (before ++ after) := by
  obtain ⟨prev_node, next_node⟩ := spells.around before node after rfl
  constructor
  · exact spells.nodup.sublist (by simp)
  · change (if (links.prev node).isSome then links.head else links.next node) = _
    rw [prev_node, next_node, spells.head_eq]
    cases before <;> simp
  · change (if (links.next node).isSome then links.tail else links.prev node) = _
    rw [prev_node, next_node, spells.tail_eq]
    cases after <;> simp
  intro left other right split
  rcases append_eq_append_iff.mp split with
    ⟨mid, left_eq, after_eq⟩ | ⟨mid, before_eq, right_eq⟩
  · rw [left_eq]
    exact spells.unlink_after after_eq
  · cases mid with
    | nil =>
      rw [nil_append] at right_eq
      rw [append_nil] at before_eq
      rw [← before_eq]
      have at_front : after = [] ++ other :: right := right_eq.symm
      simpa using spells.unlink_after at_front
    | cons =>
      obtain ⟨rfl, rfl⟩ := List.cons.inj right_eq
      exact spells.unlink_before before_eq

omit spells

theorem Spells.pushFront (spells : links.Spells nodes) (fresh : node ∉ nodes) :
    (links.pushFront node).Spells (node :: nodes) := by
  have notHead : ¬links.head = some node := by
    intro same
    exact fresh (mem_of_mem_head? (spells.head_eq ▸ same))
  constructor
  · exact nodup_cons.mpr ⟨fresh, spells.nodup⟩
  · rfl
  · change (if links.head.isSome then links.tail else some node) = _
    rw [spells.head_eq, spells.tail_eq]
    cases nodes <;> simp
  intro left other right split
  cases left with
  | nil =>
    obtain ⟨rfl, rfl⟩ := List.cons.inj split
    refine ⟨?_, ?_⟩
    · change (if links.head = some node then some node else if node = node then none else _) = _
      rw [if_neg notHead, if_pos rfl]
      rfl
    · change update links.next node links.head node = _
      rw [update_self, spells.head_eq]
  | cons _ rest =>
    obtain ⟨rfl, rest_eq⟩ := List.cons.inj split
    have nodes_eq : nodes = rest ++ other :: right := rest_eq
    obtain ⟨prev_other, next_other⟩ := spells.around rest other right nodes_eq
    have apart : other ≠ node := by
      rintro rfl
      exact fresh (by simp [nodes_eq])
    refine ⟨?_, ?_⟩
    · change (if links.head = some other then some node
        else if other = node then none else links.prev other) = _
      rw [if_neg apart, prev_other, spells.head_eq, nodes_eq]
      cases rest with
      | nil => simp
      | cons second =>
        have notFirst : second ≠ other := by
          rintro rfl
          have nodup := spells.nodup
          rw [nodes_eq] at nodup
          simp at nodup
        simp [notFirst]
    · change update links.next node links.head other = _
      rw [update_of_ne apart, next_other]

omit [DecidableEq κ] in
theorem Spells.follow_next (spells : links.Spells (before ++ after)) (enough : after.length ≤ steps) :
    follow links.next steps after.head? = after := by
  induction after generalizing before steps with
  | nil => cases steps <;> rfl
  | cons first rest ih =>
    cases steps with
    | zero => simp at enough
    | succ steps =>
      have next_first := (spells.around before first rest rfl).2
      change first :: follow links.next steps (links.next first) = _
      have shifted : links.Spells ((before ++ [first]) ++ rest) := by simpa using spells
      rw [next_first, ih shifted (by simpa using enough)]

omit [DecidableEq κ] in
theorem Spells.follow_prev (spells : links.Spells (before ++ after))
    (enough : before.length ≤ steps) :
    follow links.prev steps before.getLast? = before.reverse := by
  induction before using List.reverseRecOn generalizing after steps with
  | nil => cases steps <;> rfl
  | append_singleton rest last ih =>
    cases steps with
    | zero => simp at enough
    | succ steps =>
      have prev_last := (spells.around rest last after (by simp)).1
      rw [List.getLast?_append_cons, List.getLast?_singleton, reverse_append]
      change last :: follow links.prev steps (links.prev last) = last :: rest.reverse
      have shifted : links.Spells (rest ++ (last :: after)) := by simpa using spells
      rw [prev_last, ih shifted (by simpa using enough)]

end Links

end MultiFlow.Lib
