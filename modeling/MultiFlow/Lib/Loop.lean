import Mathlib.Order.Basic
import Mathlib.Tactic

/-!
# Counted and conditional loops as total functions

`forRange` is a counted loop over a state, `forRangeOption` the same with a failing exit, and `loop`
an unbounded loop whose body either leaves with a result or continues; it carries its variant, so it
is a total function.  An invariant that the body preserves holds at the exit.
-/

namespace MultiFlow.Lib

universe u v

variable {σ : Type u} {ρ : Type v}

def forRange (count : Nat) (state : σ) (body : σ → Nat → σ) : σ :=
  (List.range count).foldl body state

@[simp] theorem forRange_zero (state : σ) (body : σ → Nat → σ) :
    forRange 0 state body = state := rfl

theorem forRange_succ (count : Nat) (st : σ) (body : σ → Nat → σ) :
    forRange (count + 1) st body = body (forRange count st body) count := by
  simp [forRange, List.range_succ]

theorem forRange_induction (count : Nat) (st : σ) (body : σ → Nat → σ)
    (inv : Nat → σ → Prop) (start : inv 0 st)
    (step : ∀ idx < count, ∀ cur, inv idx cur → inv (idx + 1) (body cur idx)) :
    inv count (forRange count st body) := by
  induction count with
  | zero => exact start
  | succ count ih =>
    rw [forRange_succ]
    apply step count (by omega)
    exact ih fun idx less => step idx (by omega)

def forRangeOption (count : Nat) (state : σ) (body : σ → Nat → Option σ) : Option σ :=
  (List.range count).foldlM body state

theorem forRangeOption_succ (count : Nat) (st : σ) (body : σ → Nat → Option σ) :
    forRangeOption (count + 1) st body =
      (forRangeOption count st body).bind fun cur => body cur count := by
  simp [forRangeOption, List.range_succ]

/-- A counted loop none of whose iterations fails runs to its end. -/
theorem forRangeOption_induction (count : Nat) (st : σ) (body : σ → Nat → Option σ)
    (inv : Nat → σ → Prop) (start : inv 0 st) (step : ∀ idx < count, ∀ cur, inv idx cur →
      ∃ next, body cur idx = some next ∧ inv (idx + 1) next) :
    ∃ final, forRangeOption count st body = some final ∧ inv count final := by
  induction count with
  | zero => exact ⟨st, rfl, start⟩
  | succ count ih =>
    obtain ⟨cur, reached, holds⟩ := ih fun idx less => step idx (by omega)
    obtain ⟨next, advanced, preserved⟩ := step count (by omega) cur holds
    refine ⟨next, ?_, preserved⟩
    rw [forRangeOption_succ, reached]
    exact advanced

inductive Step (σ : Type u) (ρ : Type v) where
  | done (result : ρ)
  | next (state : σ)

section Unbounded

universe w

variable {β : Type w} [WellFoundedRelation β]

/-- Runs the body until it leaves; the variant decreases whenever it does not. -/
def loop (body : σ → Step σ ρ) (variant : σ → β)
    (decreases : ∀ state later, body state = .next later →
      WellFoundedRelation.rel (variant later) (variant state)) (state : σ) : ρ :=
  match _move : body state with
  | .done result => result
  | .next later => loop body variant decreases later
termination_by variant state
decreasing_by exact decreases state later _move

variable {body : σ → Step σ ρ} {variant : σ → β}
  {decreases : ∀ state later, body state = .next later →
    WellFoundedRelation.rel (variant later) (variant state)}

theorem loop_done {st : σ} {result : ρ} (left : body st = .done result) :
    loop body variant decreases st = result := by
  rw [loop]
  split
  · rename_i same
    rw [left] at same
    exact (Step.done.inj same).symm
  · rename_i same
    rw [left] at same
    cases same

theorem loop_next {st later : σ} (continued : body st = .next later) :
    loop body variant decreases st = loop body variant decreases later := by
  rw [loop]
  split
  · rename_i same
    rw [continued] at same
    cases same
  · rename_i same
    rw [continued] at same
    rw [Step.next.inj same]

theorem loop_induction (inv : σ → Prop) (post : ρ → Prop)
    (step : ∀ st later, inv st → body st = .next later → inv later)
    (exit : ∀ st res, inv st → body st = .done res → post res)
    (st : σ) (start : inv st) : post (loop body variant decreases st) := by
  have all : ∀ value, ∀ st, variant st = value → inv st →
      post (loop body variant decreases st) := by
    have founded : WellFounded (WellFoundedRelation.rel : β → β → Prop) := WellFoundedRelation.wf
    intro value
    induction value using founded.induction with
    | _ value ih =>
      intro st measured start
      cases move : body st with
      | done res =>
        rw [loop_done move]
        exact exit st res start move
      | next later =>
        rw [loop_next move]
        refine ih (variant later) ?_ later rfl (step st later start move)
        rw [← measured]
        exact decreases st later move
  exact all (variant st) st rfl start

end Unbounded

end MultiFlow.Lib
