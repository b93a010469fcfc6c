import Mathlib.Order.Bounds.Basic
import Mathlib.Order.Lattice.Nat

namespace Kaspaverse

/-- The greatest member of a set of numbers, or nothing of the empty one. -/
def GreatestOf (s : Set Nat) : Option Nat → Prop
  | none => s = ∅
  | some n => IsGreatest s n

/-- A running maximum takes one more number. -/
def raise (highest : Option Nat) (n : Nat) : Option Nat := some (highest.elim n (max · n))

theorem GreatestOf.raise {s : Set Nat} {highest : Option Nat} (greatest : GreatestOf s highest) (n : Nat) :
    GreatestOf (s ∪ {n}) (raise highest n) := by
  cases highest with
  | none =>
    have empty : s = ∅ := greatest
    simp [Kaspaverse.raise, GreatestOf, empty]
  | some m => exact IsGreatest.union greatest isGreatest_singleton

theorem GreatestOf.join {s t : Set Nat} {highest found : Option Nat} (greatest : GreatestOf s highest)
    (part : GreatestOf t found) : GreatestOf (s ∪ t) (found.elim highest (Kaspaverse.raise highest)) := by
  cases found with
  | none =>
    have empty : t = ∅ := part
    simpa [empty] using greatest
  | some n =>
    cases highest with
    | none =>
      have empty : s = ∅ := greatest
      simpa [Kaspaverse.raise, GreatestOf, empty] using part
    | some m => exact IsGreatest.union greatest part

/-- A fold that takes in the numbers some of a list's elements name. -/
theorem greatest_foldl {α : Type*} (named : α → Option Nat) (l : List α) (s : Set Nat) (highest : Option Nat)
    (greatest : GreatestOf s highest) :
    GreatestOf (s ∪ {n | ∃ a ∈ l, named a = some n})
      (l.foldl (fun highest a => (named a).elim highest (raise highest)) highest) := by
  induction l generalizing s highest with
  | nil => simpa using greatest
  | cons a l ih =>
    have first : GreatestOf {n | named a = some n} (named a) := by
      cases named a with
      | none => simp [GreatestOf]
      | some n => simp [GreatestOf, IsGreatest, upperBounds]
    have whole := ih _ _ (greatest.join first)
    have split : s ∪ {n | ∃ b ∈ a :: l, named b = some n} =
        s ∪ {n | named a = some n} ∪ {n | ∃ b ∈ l, named b = some n} := by
      ext n
      simp only [Set.mem_union, Set.mem_ofPred_eq, List.mem_cons, exists_eq_or_imp, or_assoc]
    rw [split]
    exact whole

end Kaspaverse
