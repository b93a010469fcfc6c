import Mathlib.Data.Nat.Basic

namespace Kaspaverse

/-- How one size did. -/
inductive Probe (β : Type*)
  | tooFew
  | fits (found : β)
  | tooMany

variable {ε β : Type*}

/-- Bisect for the largest size that fits. Sizes are positive, so a window that shrinks from above
    never wraps. -/
def bisect (probe : Nat → Except ε (Probe β)) (lo hi : Nat) (positive : 0 < lo) (best : Option (Nat × β)) :
    Except ε (Option (Nat × β)) :=
  if lo ≤ hi then
    match probe (lo + (hi - lo) / 2) with
    | .error e => .error e
    | .ok (.fits found) =>
      bisect probe (lo + (hi - lo) / 2 + 1) hi (Nat.succ_pos _) (some (lo + (hi - lo) / 2, found))
    | .ok .tooMany => bisect probe lo (lo + (hi - lo) / 2 - 1) positive best
    | .ok .tooFew => bisect probe (lo + (hi - lo) / 2 + 1) hi (Nat.succ_pos _) best
  else .ok best
termination_by hi + 1 - lo

/-- The sizes of a range do too little up to one size, fit up to another and do too much behind it. -/
structure Thresholds (probe : Nat → Except ε (Probe β)) (floor top below last : Nat) : Prop where
  few : ∀ size, floor ≤ size → size ≤ top → size ≤ below → probe size = .ok .tooFew
  fit : ∀ size, floor ≤ size → size ≤ top → below < size → size ≤ last → ∃ found, probe size = .ok (.fits found)
  many : ∀ size, floor ≤ size → size ≤ top → below < size → last < size → probe size = .ok .tooMany

variable {probe : Nat → Except ε (Probe β)} {floor top below last : Nat}

theorem Thresholds.answers (thresholds : Thresholds probe floor top below last) (size : Nat) (low : floor ≤ size)
    (high : size ≤ top) :
    (size ≤ below ∧ probe size = .ok .tooFew) ∨
      (below < size ∧ size ≤ last ∧ ∃ found, probe size = .ok (.fits found)) ∨
      (below < size ∧ last < size ∧ probe size = .ok .tooMany) := by
  rcases Nat.lt_or_ge below size with enough | few
  · rcases Nat.lt_or_ge last size with late | early
    · exact .inr (.inr ⟨enough, late, thresholds.many size low high enough late⟩)
    · exact .inr (.inl ⟨enough, early, thresholds.fit size low high enough early⟩)
  · exact .inl ⟨few, thresholds.few size low high few⟩

/-- What a bisection has found so far, below its window. -/
def FoundBelow (probe : Nat → Except ε (Probe β)) (floor top lo : Nat) : Option (Nat × β) → Prop
  | none => ∀ size, floor ≤ size → size < lo → probe size = .ok .tooFew
  | some (size, found) => floor ≤ size ∧ size ≤ top ∧ size + 1 = lo ∧ probe size = .ok (.fits found)

/-- The largest size that fits, where one does. -/
def IsLargest (probe : Nat → Except ε (Probe β)) (floor top : Nat) : Option (Nat × β) → Prop
  | none => ∀ size, floor ≤ size → size ≤ top → ∀ found, probe size ≠ .ok (.fits found)
  | some (size, found) => floor ≤ size ∧ size ≤ top ∧ probe size = .ok (.fits found) ∧
    ∀ more, size < more → more ≤ top → ∀ other, probe more ≠ .ok (.fits other)

theorem bisect_window (thresholds : Thresholds probe floor top below last) {lo hi : Nat} (positive : 0 < lo)
    {best : Option (Nat × β)} (above : floor ≤ lo) (inside : hi ≤ top)
    (behind : ∀ size, floor ≤ size → size ≤ top → hi < size → probe size = .ok .tooMany)
    (found : FoundBelow probe floor top lo best) :
    ∃ result, bisect probe lo hi positive best = .ok result ∧ IsLargest probe floor top result := by
  fun_induction bisect probe lo hi positive best with
  | case1 lo hi positive best window e failed =>
    -- none of the three answers is an error
    obtain ⟨_, few⟩ | ⟨_, _, other, fits⟩ | ⟨_, _, many⟩ := thresholds.answers (lo + (hi - lo) / 2) (by omega) (by omega)
    · cases failed.symm.trans few
    · cases failed.symm.trans fits
    · cases failed.symm.trans many
  | case2 lo hi positive best window other fits ih =>
    exact ih (by omega) inside behind ⟨by omega, by omega, rfl, fits⟩
  | case3 lo hi positive best window many ih =>
    refine ih above (by omega) ?_ found
    intro size low high past
    obtain ⟨_, few⟩ | ⟨_, _, other, fits⟩ | ⟨enough, late, _⟩ :=
      thresholds.answers (lo + (hi - lo) / 2) (by omega) (by omega)
    · cases many.symm.trans few
    · cases many.symm.trans fits
    · exact thresholds.many size low high (by omega) (by omega)
  | case4 lo hi positive best window few ih =>
    refine ih (by omega) inside behind ?_
    have early : lo + (hi - lo) / 2 ≤ below := by
      obtain ⟨early, _⟩ | ⟨_, _, other, fits⟩ | ⟨_, _, many⟩ :=
        thresholds.answers (lo + (hi - lo) / 2) (by omega) (by omega)
      · exact early
      · cases few.symm.trans fits
      · cases few.symm.trans many
    cases best with
    | none =>
      intro size low under
      exact thresholds.few size low (by omega) (by omega)
    | some pair =>
      -- a smaller size does too little as well, so it is none that fits
      obtain ⟨size, held⟩ := pair
      obtain ⟨low, high, next, fits⟩ := found
      rw [thresholds.few size low (by omega) (by omega)] at fits
      cases fits
  | case5 lo hi positive best window =>
    refine ⟨best, rfl, ?_⟩
    cases best with
    | none =>
      intro size low high other fits
      rcases Nat.lt_or_ge size lo with early | late
      · rw [found size low early] at fits
        cases fits
      · rw [behind size low high (by omega)] at fits
        cases fits
    | some pair =>
      obtain ⟨size, held⟩ := pair
      obtain ⟨low, high, next, fits⟩ := found
      refine ⟨low, high, fits, ?_⟩
      intro more past below other same
      rw [behind more (by omega) below (by omega)] at same
      cases same

theorem bisect_largest (thresholds : Thresholds probe floor top below last) (positive : 0 < floor) :
    ∃ result, bisect probe floor top positive none = .ok result ∧ IsLargest probe floor top result := by
  refine bisect_window thresholds positive (le_refl _) (le_refl _) ?_ ?_
  · intro size _ high past
    omega
  · intro size low under
    omega

end Kaspaverse
