import Mathlib.Logic.Relation
import Mathlib.Order.WellFounded
import Mathlib.Tactic.Common

/-! Loops of a partial step function: `none` is the exit of the loop. -/
namespace HomeMonitor.Machine

variable {β : Type*} (step : β → Option β)

/-- The loop started in the first state ends in the second. -/
inductive Loop : β → β → Prop
  | exit {b : β} (h : step b = none) : Loop b b
  | next {b b' r : β} (h : step b = some b') (rest : Loop b' r) : Loop b r

variable {step}

theorem Loop.unique {b r r' : β} (h : Loop step b r) (h' : Loop step b r') : r = r' := by
  induction h with
  | exit hb =>
    cases h' with
    | exit => rfl
    | next hb' => rw [hb] at hb'; cases hb'
  | next hb _ ih =>
    cases h' with
    | exit hb' => rw [hb] at hb'; cases hb'
    | next hb' rest' =>
      rw [hb] at hb'
      cases hb'
      exact ih rest'

theorem Loop.invariant {I : β → Prop} (keeps : ∀ b b', I b → step b = some b' → I b') {b r : β}
    (h : Loop step b r) (hb : I b) : I r ∧ step r = none := by
  induction h with
  | exit hexit => exact ⟨hb, hexit⟩
  | next hstep _ ih => exact ih (keeps _ _ hb hstep)

/-- A loop whose step lowers a rank ends. -/
theorem Loop.exists_of_rank {γ : Type*} [LT γ] [WellFoundedLT γ] {I : γ → β → Prop}
    (lowers : ∀ g b b', I g b → step b = some b' → ∃ g' < g, I g' b') {g : γ} {b : β} (hb : I g b) :
    ∃ r, Loop step b r := by
  induction g using WellFoundedLT.induction generalizing b with
  | ind g ih =>
    cases hstep : step b with
    | none => exact ⟨b, .exit hstep⟩
    | some b' =>
      obtain ⟨g', hlt, hb'⟩ := lowers g b b' hb hstep
      obtain ⟨r, hr⟩ := ih g' hlt hb'
      exact ⟨r, .next hstep hr⟩

abbrev Reaches (step : β → Option β) : β → β → Prop :=
  Relation.ReflTransGen fun b b' => step b = some b'

theorem Loop.iff_of_reaches {b b' r : β} (h : Reaches step b b') :
    Loop step b r ↔ Loop step b' r := by
  induction h using Relation.ReflTransGen.head_induction_on with
  | refl => exact Iff.rfl
  | head hstep _ ih =>
    rw [← ih]
    constructor
    · intro hloop
      cases hloop with
      | exit hexit => rw [hstep] at hexit; cases hexit
      | next hstep' hrest =>
        rw [hstep] at hstep'
        cases hstep'
        exact hrest
    · exact .next hstep

/-- A loop whose step keeps an invariant and never exits under it does not end. -/
theorem Loop.not_of_invariant {I : β → Prop} (keeps : ∀ b, I b → ∃ b', step b = some b' ∧ I b')
    {b r : β} (hb : I b) : ¬ Loop step b r := by
  intro h
  induction h with
  | exit hexit =>
    obtain ⟨b', hb', -⟩ := keeps _ hb
    rw [hexit] at hb'
    cases hb'
  | next hstep _ ih =>
    obtain ⟨b', hb', hI⟩ := keeps _ hb
    rw [hstep] at hb'
    cases hb'
    exact ih hI

end HomeMonitor.Machine
