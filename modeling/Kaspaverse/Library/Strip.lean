import Mathlib.Data.List.DropRight

namespace Kaspaverse

variable {α : Type*} (p : α → Bool)

/-- A list without the elements of one kind at its two ends. -/
def strip (l : List α) : List α := (l.dropWhile p).rdropWhile p

/-- Neither end is of the kind. -/
def Bare (l : List α) : Prop := (∀ a, l.head? = some a → p a = false) ∧ ∀ a, l.getLast? = some a → p a = false

variable {p}

theorem strip_of_bare {l : List α} (bare : Bare p l) : strip p l = l := by
  have front : l.dropWhile p = l := by
    cases l with
    | nil => rfl
    | cons a rest => exact List.dropWhile_cons_of_neg (by simp [bare.1 a rfl])
  rw [strip, front, List.rdropWhile_eq_self_iff]
  intro filled
  have last := bare.2 (l.getLast filled) (List.getLast?_eq_getLast_of_ne_nil filled)
  simp [last]

theorem bare_strip (l : List α) : Bare p (strip p l) := by
  constructor
  · intro a first
    have start : (strip p l).head? = (l.dropWhile p).head? := by
      obtain ⟨behind, split⟩ := List.rdropWhile_prefix p (l := l.dropWhile p)
      cases cut : strip p l with
      | nil =>
        rw [cut] at first
        cases first
      | cons b rest =>
        rw [strip] at cut
        rw [← split, cut]
        rfl
    rw [start] at first
    cases dropped : l.dropWhile p with
    | nil =>
      rw [dropped] at first
      cases first
    | cons b rest =>
      rw [dropped] at first
      cases first
      have kept := List.head_dropWhile_not p (l := l) (by rw [dropped]; simp)
      simpa [dropped] using kept
  · intro a last
    have filled : strip p l ≠ [] := by
      intro empty
      rw [empty] at last
      cases last
    have kept := List.rdropWhile_last_not p (l.dropWhile p) filled
    rw [List.getLast?_eq_getLast_of_ne_nil filled] at last
    cases last
    simpa [strip] using kept

/-- What is stripped off is of the kind. -/
theorem strip_split (l : List α) :
    ∃ before behind, l = before ++ strip p l ++ behind ∧ (∀ a ∈ before, p a = true) ∧ ∀ a ∈ behind, p a = true := by
  refine ⟨l.takeWhile p, (l.dropWhile p).rtakeWhile p, ?_, fun a there => List.mem_takeWhile_imp there,
    fun a there => List.mem_rtakeWhile_imp there⟩
  have halves : strip p l ++ (l.dropWhile p).rtakeWhile p = l.dropWhile p := List.rdropWhile_append_rtakeWhile
  rw [List.append_assoc, halves, List.takeWhile_append_dropWhile]

/-- An element that lies neither in what stands before a middle nor in what stands behind it. -/
theorem within {before middle behind left right : List α} {c : α}
    (whole : before ++ middle ++ behind = left ++ c :: right) (early : ∀ rest, before ≠ left ++ c :: rest)
    (late : ∀ rest, behind ≠ rest ++ c :: right) :
    ∃ x y, left = before ++ x ∧ right = y ++ behind ∧ middle = x ++ c :: y := by
  rw [List.append_assoc, List.append_eq_append_iff] at whole
  have onward (x : List α) (same : middle ++ behind = x ++ c :: right) :
      ∃ y, right = y ++ behind ∧ middle = x ++ c :: y := by
    rcases List.append_eq_append_iff.1 same with ⟨more, _, rest⟩ | ⟨more, rfl, rest⟩
    · exact absurd rest (late more)
    · cases more with
      | nil => exact absurd rest.symm (late [])
      | cons d more =>
        rw [List.cons_append, List.cons.injEq] at rest
        obtain ⟨rfl, rfl⟩ := rest
        exact ⟨more, rfl, rfl⟩
  rcases whole with ⟨x, rfl, same⟩ | ⟨more, rfl, same⟩
  · obtain ⟨y, right', middle'⟩ := onward x same
    exact ⟨x, y, rfl, right', middle'⟩
  · cases more with
    | nil =>
      obtain ⟨y, right', middle'⟩ := onward [] same.symm
      exact ⟨[], y, by simp, right', middle'⟩
    | cons d more =>
      rw [List.cons_append, List.cons.injEq] at same
      obtain ⟨rfl, _⟩ := same
      exact absurd rfl (early more)

end Kaspaverse
