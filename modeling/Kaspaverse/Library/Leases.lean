import Mathlib
import Kaspaverse.Library.Emitted

namespace Kaspaverse.Leases

variable {α : Type*}

/-- A lease is granted up to a deadline, or anew to another one, or it is given back. -/
inductive Change (α : Type*)
  | grant (a : α) (deadline : ℕ)
  | giveBack (a : α)

def Change.of : Change α → α
  | grant a _ | giveBack a => a

abbrev Held (α : Type*) := α → Option ℕ

section Held

variable [DecidableEq α]

def Change.apply (held : Held α) : Change α → Held α
  | grant a deadline => Function.update held a (some deadline)
  | giveBack a => Function.update held a none

theorem Change.apply_other (held : Held α) {change : Change α} {a : α} (other : change.of ≠ a) :
    change.apply held a = held a := by
  cases change <;> exact Function.update_of_ne (Ne.symm other) _ _

/-- The leases out after the changes, each with its deadline. -/
def held (changes : List (Change α)) : Held α := changes.foldl Change.apply fun _ => none

@[simp] theorem held_nil (a : α) : held [] a = none := rfl

theorem held_snoc (changes : List (Change α)) (last : Change α) :
    held (changes ++ [last]) = last.apply (held changes) := by
  simp [held]

/-- A lease is out up to the deadline it was granted last, unless it has been given back since. -/
theorem held_some_iff {changes : List (Change α)} {a : α} {deadline : ℕ} :
    held changes a = some deadline ↔
      ∃ before after, changes = before ++ .grant a deadline :: after ∧ ∀ change ∈ after, change.of ≠ a := by
  induction changes using List.reverseRecOn with
  | nil => simp
  | append_singleton changes last ih =>
    rw [held_snoc]
    simp only [Machine.snoc_eq_append_cons]
    by_cases about : last.of = a
    · have ends : (∃ before after, (changes = before ∧ last = .grant a deadline ∧ after = [] ∨
          ∃ early, after = early ++ [last] ∧ changes = before ++ .grant a deadline :: early) ∧
          ∀ change ∈ after, change.of ≠ a) ↔ last = .grant a deadline := by
        constructor
        · rintro ⟨before, after, ⟨-, same, -⟩ | ⟨early, rfl, -⟩, later⟩
          · exact same
          · exact absurd about (later last (by simp))
        · intro same
          exact ⟨changes, [], .inl ⟨rfl, same, rfl⟩, by simp⟩
      rw [ends]
      cases last <;> simp only [Change.of] at about <;> simp [Change.apply, about]
    · rw [Change.apply_other _ about, ih]
      constructor
      · rintro ⟨before, after, rfl, later⟩
        refine ⟨before, after ++ [last], .inr ⟨after, rfl, rfl⟩, ?_⟩
        intro change member
        rcases List.mem_append.mp member with old | new
        · exact later change old
        · rw [List.mem_singleton.mp new]
          exact about
      · rintro ⟨before, after, ⟨-, same, -⟩ | ⟨early, rfl, rfl⟩, later⟩
        · rw [same] at about
          exact absurd rfl about
        · exact ⟨before, early, rfl, fun change member => later change (by simp [member])⟩

end Held

end Kaspaverse.Leases
