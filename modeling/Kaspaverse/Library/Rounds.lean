import Mathlib.Data.Nat.Notation
import Mathlib.Logic.Basic

namespace Kaspaverse.Rounds

variable {σ ρ : Type*}

/-- A loop that breaks at the first round with nothing to do, cut off after `fuel` rounds. -/
def rounds (round : σ → Option σ) : ℕ → σ → σ
  | 0, s => s
  | fuel + 1, s =>
    match round s with
    | none => s
    | some next => rounds round fuel next

theorem rounds_stopped {round : σ → Option σ} {s : σ} (fuel : ℕ) (h : round s = none) :
    rounds round fuel s = s := by
  cases fuel with
  | zero => rfl
  | succ fuel => simp only [rounds, h]

theorem rounds_succ {round : σ → Option σ} {s next : σ} (fuel : ℕ) (h : round s = some next) :
    rounds round (fuel + 1) s = rounds round fuel next := by
  simp only [rounds, h]

theorem rounds_invariant {round : σ → Option σ} {inv : σ → Prop}
    (keeps : ∀ s next, inv s → round s = some next → inv next) (fuel : ℕ) {s : σ} (start : inv s) :
    inv (rounds round fuel s) := by
  induction fuel generalizing s with
  | zero => exact start
  | succ fuel ih =>
    cases h : round s with
    | none => rw [rounds_stopped _ h]; exact start
    | some next => rw [rounds_succ _ h]; exact ih (keeps s next start h)

/-- A loop whose every round shrinks a measure has broken once its fuel covers the measure. -/
theorem rounds_break {round : σ → Option σ} (size : σ → ℕ)
    (shrinks : ∀ s next, round s = some next → size next < size s)
    {fuel : ℕ} {s : σ} (enough : size s ≤ fuel) : round (rounds round fuel s) = none := by
  induction fuel generalizing s with
  | zero =>
    cases h : round s with
    | none => exact h
    | some next =>
      have less := shrinks s next h
      omega
  | succ fuel ih =>
    cases h : round s with
    | none => rw [rounds_stopped _ h]; exact h
    | some next =>
      rw [rounds_succ _ h]
      have less := shrinks s next h
      exact ih (by omega)

/-- Fuel past the measure changes nothing. -/
theorem rounds_fuel {round : σ → Option σ} (size : σ → ℕ)
    (shrinks : ∀ s next, round s = some next → size next < size s)
    {fuel more : ℕ} {s : σ} (enough : size s ≤ fuel) (past : fuel ≤ more) :
    rounds round more s = rounds round fuel s := by
  induction fuel generalizing s more with
  | zero =>
    have stopped : round s = none := rounds_break size shrinks enough
    rw [rounds_stopped _ stopped, rounds_stopped _ stopped]
  | succ fuel ih =>
    obtain ⟨more, rfl⟩ : ∃ m, more = m + 1 := ⟨more - 1, by omega⟩
    cases h : round s with
    | none => rw [rounds_stopped _ h, rounds_stopped _ h]
    | some next =>
      rw [rounds_succ _ h, rounds_succ _ h]
      have less := shrinks s next h
      exact ih (by omega) (by omega)

/-- Two loops whose rounds keep step with one another end in related states. -/
theorem rounds_related {round : σ → Option σ} {other : ρ → Option ρ} {rel : σ → ρ → Prop}
    (both : ∀ s t, rel s t → (round s = none ∧ other t = none) ∨
      ∃ next follow, round s = some next ∧ other t = some follow ∧ rel next follow)
    (fuel : ℕ) {s : σ} {t : ρ} (start : rel s t) :
    rel (rounds round fuel s) (rounds other fuel t) := by
  induction fuel generalizing s t with
  | zero => exact start
  | succ fuel ih =>
    rcases both s t start with ⟨left, right⟩ | ⟨next, follow, left, right, related⟩
    · rw [rounds_stopped _ left, rounds_stopped _ right]
      exact start
    · rw [rounds_succ _ left, rounds_succ _ right]
      exact ih related

end Kaspaverse.Rounds
