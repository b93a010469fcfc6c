import Mathlib.Data.List.Induction

namespace Kaspaverse.Cooldown

/-- A strike and its time, or the strikes before it cleared. -/
inductive Mark
  | struck (at_ : Nat)
  | cleared
deriving DecidableEq

def Mark.time : Mark → Option Nat
  | struck at_ => some at_
  | cleared => none

def times (marks : List Mark) : List Nat := marks.filterMap Mark.time

section

variable (dedup window cooldown : Nat)

/-- Counts a strike in, latest first, unless it comes within `dedup` of the last one counted since a clearing. -/
def count : List Mark → Mark → List Mark
  | .struck last :: earlier, .struck now =>
    if now - last < dedup then .struck last :: earlier else .struck now :: .struck last :: earlier
  | marks, mark => mark :: marks

def counted (marks : List Mark) : List Mark := marks.foldl (count dedup) []

/-- The strike at `s` comes within `window` of one before it, with no clearing between them. -/
def Condemned (marks : List Mark) (s : Nat) : Prop :=
  ∃ later between earlier s',
    marks = later ++ .struck s :: (between ++ .struck s' :: earlier) ∧ .cleared ∉ between ∧ s ≤ s' + window

/-- The end of the latest cooldown, 0 where there was none. -/
def cooldownEnd : List Mark → Nat
  | .struck s :: .struck s' :: earlier =>
    if s ≤ s' + window then s + cooldown else cooldownEnd (.struck s' :: earlier)
  | _ :: earlier => cooldownEnd earlier
  | [] => 0

end

variable {dedup window cooldown : Nat}

@[simp] theorem count_cleared (marks : List Mark) : count dedup marks .cleared = .cleared :: marks := by
  rcases marks with _ | ⟨_ | _, earlier⟩ <;> rfl

theorem counted_snoc (marks : List Mark) (mark : Mark) :
    counted dedup (marks ++ [mark]) = count dedup (counted dedup marks) mark := by
  simp [counted]

theorem count_eq (dedup : Nat) (marks : List Mark) (mark : Mark) :
    count dedup marks mark = marks ∨ count dedup marks mark = mark :: marks := by
  unfold count
  grind

theorem mem_times_counted {marks : List Mark} {s : Nat} (member : s ∈ times (counted dedup marks)) : s ∈ times marks := by
  induction marks using List.reverseRecOn with
  | nil => exact member
  | append_singleton marks mark ih =>
    rw [times, List.filterMap_append]
    rw [counted_snoc] at member
    rcases count_eq dedup (counted dedup marks) mark with same | grown
    · rw [same] at member
      exact List.mem_append_left _ (ih member)
    · rw [grown, times, List.filterMap_cons] at member
      cases mark with
      | cleared => exact List.mem_append_left _ (ih member)
      | struck now =>
        rcases List.mem_cons.mp member with rfl | before
        · exact List.mem_append_right _ (by simp [Mark.time])
        · exact List.mem_append_left _ (ih before)

theorem falling_counted {marks : List Mark} (rising : (times marks).Pairwise (· ≤ ·)) :
    (times (counted dedup marks)).Pairwise (· ≥ ·) := by
  induction marks using List.reverseRecOn with
  | nil => exact List.Pairwise.nil
  | append_singleton marks mark ih =>
    rw [times, List.filterMap_append, List.pairwise_append] at rising
    obtain ⟨before, -, ordered⟩ := rising
    rw [counted_snoc]
    rcases count_eq dedup (counted dedup marks) mark with same | grown
    · rw [same]
      exact ih before
    · rw [grown]
      cases mark with
      | cleared => exact ih before
      | struck now =>
        have latest : ∀ s ∈ times (counted dedup marks), s ≤ now := by
          intro s member
          exact ordered s (mem_times_counted member) now (by simp [Mark.time])
        exact List.Pairwise.cons latest (ih before)

theorem Condemned.cons {marks : List Mark} {s : Nat} (condemned : Condemned window marks s) (mark : Mark) :
    Condemned window (mark :: marks) s := by
  obtain ⟨later, between, earlier, s', rfl, clear, close⟩ := condemned
  exact ⟨mark :: later, between, earlier, s', rfl, clear, close⟩

theorem Condemned.mem {marks : List Mark} {s : Nat} (condemned : Condemned window marks s) : s ∈ times marks := by
  obtain ⟨later, between, earlier, s', rfl, -, -⟩ := condemned
  simp [times, Mark.time]

theorem condemned_cons {marks : List Mark} {mark : Mark} {s : Nat} (condemned : Condemned window (mark :: marks) s) :
    (mark = .struck s ∧ ∃ between earlier s',
      marks = between ++ .struck s' :: earlier ∧ .cleared ∉ between ∧ s ≤ s' + window) ∨ Condemned window marks s := by
  obtain ⟨later, between, earlier, s', split, clear, close⟩ := condemned
  cases later with
  | nil =>
    obtain ⟨rfl, rfl⟩ := List.cons.inj split
    exact Or.inl ⟨rfl, between, earlier, s', rfl, clear, close⟩
  | cons first later =>
    obtain ⟨-, rfl⟩ := List.cons.inj split
    exact Or.inr ⟨later, between, earlier, s', rfl, clear, close⟩

theorem falling_tail {mark : Mark} {marks : List Mark} (falling : (times (mark :: marks)).Pairwise (· ≥ ·)) :
    (times marks).Pairwise (· ≥ ·) := by
  cases mark with
  | cleared => exact falling
  | struck s => exact (List.pairwise_cons.mp falling).2

theorem le_head {marks : List Mark} {s x : Nat} (falling : (times (.struck s :: marks)).Pairwise (· ≥ ·))
    (member : x ∈ times (.struck s :: marks)) : x ≤ s := by
  rcases List.mem_cons.mp member with rfl | later
  · exact Nat.le_refl _
  · exact (List.pairwise_cons.mp falling).1 x later

/-- A cooldown lasts exactly where a condemned strike started one that is not yet past. -/
theorem lt_cooldownEnd_iff {marks : List Mark} (falling : (times marks).Pairwise (· ≥ ·)) (t : Nat) :
    t < cooldownEnd window cooldown marks ↔ ∃ s, Condemned window marks s ∧ t < s + cooldown := by
  fun_induction cooldownEnd window cooldown marks with
  | case1 s s' earlier close =>
    constructor
    · intro early
      exact ⟨s, ⟨[], [], earlier, s', rfl, by simp, close⟩, early⟩
    · rintro ⟨x, condemned, early⟩
      have bound := le_head falling condemned.mem
      omega
  | case2 s s' earlier far ih =>
    have rest := falling_tail falling
    rw [ih rest]
    constructor
    · rintro ⟨x, condemned, early⟩
      exact ⟨x, condemned.cons _, early⟩
    · rintro ⟨x, condemned, early⟩
      rcases condemned_cons condemned with ⟨same, between, before, s'', split, -, close⟩ | deeper
      · -- The strike before the head is the closest to it, and already too far.
        cases same
        have member : s'' ∈ times (.struck s' :: earlier) := by
          rw [split]
          simp [times, Mark.time]
        have bound := le_head rest member
        omega
      · exact ⟨x, deeper, early⟩
  | case3 mark earlier lone ih =>
    rw [ih (falling_tail falling)]
    constructor
    · rintro ⟨x, condemned, early⟩
      exact ⟨x, condemned.cons _, early⟩
    · rintro ⟨x, condemned, early⟩
      rcases condemned_cons condemned with ⟨rfl, between, before, s'', rfl, clear, -⟩ | deeper
      · -- What stands right before a lone strike is a clearing.
        cases between with
        | nil => exact absurd rfl (lone x s'' before rfl)
        | cons first between =>
          cases first with
          | cleared => exact absurd List.mem_cons_self clear
          | struck y => exact absurd rfl (lone x y _ rfl)
      · exact ⟨x, deeper, early⟩
  | case4 =>
    constructor
    · intro early
      exact absurd early (Nat.not_lt_zero t)
    · rintro ⟨x, ⟨later, between, earlier, s', split, -⟩, -⟩
      simp at split

end Kaspaverse.Cooldown
