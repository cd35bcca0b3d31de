import Mathlib.Algebra.BigOperators.Fin
import Mathlib.Algebra.BigOperators.Ring.Finset
import Mathlib.Data.Fintype.BigOperators

/-!
# Runs of a transition system

A system of several parties is a partial step function: an action names the party that runs and
carries every choice the scheduler or the environment makes.  `Reaches` is the set of states of
its runs whose steps all satisfy a condition on the state before the step.
-/

namespace MultiFlow.Lib

universe u v

variable {σ : Type u} {α : Type v}

inductive Reaches (step : σ → α → Option σ) (allowed : σ → α → Prop) (start : σ) : σ → Prop where
  | start : Reaches step allowed start start
  | next {state after : σ} (action : α) (earlier : Reaches step allowed start state)
      (permitted : allowed state action) (taken : step state action = some after) :
      Reaches step allowed start after

def anyStep (_ : σ) (_ : α) : Prop := True

instance (state : σ) (action : α) : Decidable (anyStep state action) :=
  inferInstanceAs (Decidable True)

namespace Reaches

variable {step : σ → α → Option σ} {allowed : σ → α → Prop} {start state : σ}

theorem invariant (Inv : σ → Prop) (initially : Inv start)
    (preserved : ∀ before action after, Inv before → allowed before action →
      step before action = some after → Inv after)
    (run : Reaches step allowed start state) : Inv state := by
  induction run with
  | start => exact initially
  | next action _ permitted taken ih => exact preserved _ action _ ih permitted taken

theorem prepend {middle : σ} (action : α) (permitted : allowed start action)
    (taken : step start action = some middle) (run : Reaches step allowed middle state) :
    Reaches step allowed start state := by
  induction run with
  | start => exact .next action .start permitted taken
  | next later _ permittedLater takenLater ih => exact .next later ih permittedLater takenLater

theorem trans {middle : σ} (first : Reaches step allowed start middle)
    (second : Reaches step allowed middle state) : Reaches step allowed start state := by
  induction second with
  | start => exact first
  | next action _ permitted taken ih => exact .next action ih permitted taken

theorem lift {step' : σ → α → Option σ} {allowed' : σ → α → Prop}
    (steps : ∀ before action after, allowed before action → step before action = some after →
      allowed' before action ∧ step' before action = some after)
    (run : Reaches step allowed start state) : Reaches step' allowed' start state := by
  induction run with
  | start => exact .start
  | next action _ permitted taken ih =>
    obtain ⟨permitted', taken'⟩ := steps _ action _ permitted taken
    exact .next action ih permitted' taken'

/-- A list of actions that can be taken one after the other is a run. -/
theorem of_actions [∀ before action, Decidable (allowed before action)] (actions : List α)
    (taken : actions.foldlM
      (fun before action => if allowed before action then step before action else none) start =
        some state) : Reaches step allowed start state := by
  induction actions generalizing start with
  | nil =>
    cases taken
    exact .start
  | cons action rest ih =>
    rw [List.foldlM_cons] at taken
    obtain ⟨middle, first, remaining⟩ := Option.bind_eq_some_iff.mp taken
    by_cases permitted : allowed start action
    · rw [if_pos permitted] at first
      exact prepend action permitted first (ih remaining)
    · rw [if_neg permitted] at first
      cases first

/-- A test passed by the state after a list of actions is passed by a reachable state. -/
theorem exists_of_actions [∀ before action, Decidable (allowed before action)] (actions : List α)
    (check : σ → Bool) (passed : (actions.foldlM
      (fun before action => if allowed before action then step before action else none) start).map
        check = some true) : ∃ last, Reaches step allowed start last ∧ check last = true := by
  obtain ⟨last, taken, holds⟩ := Option.map_eq_some_iff.mp passed
  exact ⟨last, of_actions actions taken, holds⟩

end Reaches

variable {ι : Type u} {β : Type v}

section Update

variable [DecidableEq ι] {family : ι → β} {i j : ι} {new : β} {p : β → Prop}

theorem update_cases (holds : p (Function.update family i new j)) :
    j = i ∧ p new ∨ j ≠ i ∧ p (family j) := by
  by_cases same : j = i
  · rw [same, Function.update_self] at holds
    exact Or.inl ⟨same, holds⟩
  · rw [Function.update_of_ne same] at holds
    exact Or.inr ⟨same, holds⟩

/-- What a family holds after a change at one place is the new value there, or was held before. -/
theorem of_update {value : β} (held : Function.update family i new j = value) :
    j = i ∧ new = value ∨ j ≠ i ∧ family j = value :=
  update_cases (p := (· = value)) held

theorem update_skip (fails : ¬ p new) (holds : p (Function.update family i new j)) :
    j ≠ i ∧ p (family j) :=
  (update_cases holds).resolve_left fun here => fails here.2

theorem update_keep (fails : ¬ p (family i)) (holds : p (family j)) :
    p (Function.update family i new j) := by
  rwa [Function.update_of_ne]
  rintro rfl
  exact fails holds

theorem update_iff (same : p new ↔ p (family i)) :
    p (Function.update family i new j) ↔ p (family j) := by
  by_cases here : j = i
  · rw [here, Function.update_self]
    exact same
  · rw [Function.update_of_ne here]

/-- Entries in use with distinct keys stay so when an entry with a key of its own is written. -/
theorem update_distinct {κ : Type*} (used : β → Prop) (key : β → κ) {inside : ι → Prop}
    (distinct : ∀ j, inside j → ∀ k, inside k → used (family j) → used (family k) →
      key (family j) = key (family k) → j = k)
    (alone : ∀ j, inside j → j ≠ i → used (family j) → used new → key (family j) ≠ key new) :
    ∀ j, inside j → ∀ k, inside k → used (Function.update family i new j) →
      used (Function.update family i new k) →
      key (Function.update family i new j) = key (Function.update family i new k) → j = k := by
  intro j jIn k kIn jUsed kUsed same
  by_cases jHere : j = i <;> by_cases kHere : k = i
  · exact jHere.trans kHere.symm
  · rw [jHere, Function.update_self] at jUsed same
    rw [Function.update_of_ne kHere] at kUsed same
    exact absurd same.symm (alone k kIn kHere kUsed jUsed)
  · rw [kHere, Function.update_self] at kUsed same
    rw [Function.update_of_ne jHere] at jUsed same
    exact absurd same (alone j jIn jHere jUsed kUsed)
  · rw [Function.update_of_ne jHere] at jUsed same
    rw [Function.update_of_ne kHere] at kUsed same
    exact distinct j jIn k kIn jUsed kUsed same

end Update

/-- Changing one party changes a sum over all of them by the difference at that party. -/
theorem sum_update [DecidableEq ι] (weight : β → Nat) (parties : ι → β) {all : Finset ι} {party : ι}
    (member : party ∈ all) (value : β) :
    ∑ i ∈ all, weight (Function.update parties party value i) + weight (parties party) =
      ∑ i ∈ all, weight (parties i) + weight value := by
  have others : ∑ i ∈ all.erase party, weight (Function.update parties party value i) =
      ∑ i ∈ all.erase party, weight (parties i) := by
    refine Finset.sum_congr rfl ?_
    intro i other
    rw [Function.update_of_ne (Finset.ne_of_mem_erase other)]
  rw [← Finset.add_sum_erase _ _ member, others, Function.update_self,
    ← Finset.add_sum_erase _ (fun i => weight (parties i)) member]
  omega

end MultiFlow.Lib
