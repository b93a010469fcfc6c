import Mathlib

namespace Kaspaverse.Latest

variable {α τ : Type*} [LinearOrder τ] (has : α → Bool) (at_ : α → τ)

/-- Go through a list and take every element that has what the held one lacks, or has it later. -/
def pick (held : α) : List α → α
  | [] => held
  | a :: rest => pick (if has a = true ∧ (has held = false ∨ at_ held < at_ a) then a else held) rest

/-- The first of the latest elements of a list. -/
def Leads (list : List α) (a : α) : Prop :=
  ∃ before after, list = before ++ a :: after ∧ has a = true ∧
    (∀ b ∈ before, has b = true → at_ b < at_ a) ∧ ∀ b ∈ after, has b = true → at_ b ≤ at_ a

variable {has at_} {list : List α} {a b : α}

theorem Leads.mem (leads : Leads has at_ list a) : a ∈ list := by
  obtain ⟨before, after, rfl, _⟩ := leads
  simp

theorem Leads.holds (leads : Leads has at_ list a) : has a = true := leads.choose_spec.choose_spec.2.1

theorem Leads.latest (leads : Leads has at_ list a) (member : b ∈ list) (holds : has b = true) : at_ b ≤ at_ a := by
  obtain ⟨before, after, rfl, _, earlier, later⟩ := leads
  rcases List.mem_append.mp member with front | back
  · exact le_of_lt (earlier b front holds)
  · rcases List.mem_cons.mp back with rfl | behind
    · exact le_refl _
    · exact later b behind holds

theorem Leads.unique (one : Leads has at_ list a) (other : Leads has at_ list b) : a = b := by
  obtain ⟨before, after, rfl, holds, earlier, later⟩ := one
  obtain ⟨before', after', same, holds', earlier', later'⟩ := other
  rcases List.append_eq_append_iff.mp same with ⟨between, rfl, tail⟩ | ⟨between, rfl, tail⟩
  · cases between with
    | nil =>
      rw [List.nil_append] at tail
      exact (List.cons_eq_cons.mp tail).1
    | cons c between =>
      obtain ⟨rfl, rfl⟩ := List.cons_eq_cons.mp tail
      have early := earlier' a (by simp) holds
      have late := later b (by simp) holds'
      exact absurd early (not_lt_of_ge late)
  · cases between with
    | nil =>
      rw [List.nil_append] at tail
      exact (List.cons_eq_cons.mp tail).1.symm
    | cons c between =>
      obtain ⟨rfl, rfl⟩ := List.cons_eq_cons.mp tail
      have early := earlier b (by simp) holds'
      have late := later' a (by simp) holds
      exact absurd early (not_lt_of_ge late)

theorem Leads.tail (leads : Leads has at_ list b) (behind : has a = true → at_ a < at_ b) :
    Leads has at_ (a :: list) b := by
  obtain ⟨before, after, rfl, holds, earlier, later⟩ := leads
  refine ⟨a :: before, after, rfl, holds, ?_, later⟩
  intro c member
  rcases List.mem_cons.mp member with rfl | member
  · exact behind
  · exact earlier c member

theorem pick_mem (held : α) (list : List α) : pick has at_ held list ∈ held :: list := by
  induction list generalizing held with
  | nil => exact List.mem_cons_self
  | cons a rest ih =>
    unfold pick
    split
    · exact List.mem_cons_of_mem _ (ih a)
    · rcases List.mem_cons.mp (ih held) with same | member
      · exact List.mem_cons.mpr (.inl same)
      · exact List.mem_cons_of_mem _ (List.mem_cons_of_mem _ member)

/-- The element picked leads, where any has what is looked for. -/
theorem pick_leads {held : α} (some_ : ∃ b ∈ held :: list, has b = true) :
    Leads has at_ (held :: list) (pick has at_ held list) := by
  induction list generalizing held with
  | nil =>
    obtain ⟨b, member, holds⟩ := some_
    rw [List.mem_singleton.mp member] at holds
    exact ⟨[], [], rfl, holds, fun _ h => (nomatch h), fun _ h => (nomatch h)⟩
  | cons a rest ih =>
    unfold pick
    by_cases takes : has a = true ∧ (has held = false ∨ at_ held < at_ a)
    · rw [if_pos takes]
      have leads := ih ⟨a, List.mem_cons_self, takes.1⟩
      apply leads.tail
      intro holds
      have behind : at_ held < at_ a := by
        rcases takes.2 with lacks | behind
        · rw [holds] at lacks
          cases lacks
        · exact behind
      -- the picked one is no earlier than the one it was picked over
      obtain ⟨before, after, shape, _, earlier, later⟩ := leads
      cases before with
      | nil =>
        rw [List.nil_append] at shape
        rw [← (List.cons_eq_cons.mp shape).1]
        exact behind
      | cons c before =>
        rw [List.cons_append] at shape
        obtain ⟨rfl, _⟩ := List.cons_eq_cons.mp shape
        exact lt_trans behind (earlier a List.mem_cons_self takes.1)
    · rw [if_neg takes]
      have remains : ∃ b ∈ held :: rest, has b = true := by
        obtain ⟨b, member, holds⟩ := some_
        rcases List.mem_cons.mp member with rfl | member
        · exact ⟨b, List.mem_cons_self, holds⟩
        · rcases List.mem_cons.mp member with rfl | member
          · refine ⟨held, List.mem_cons_self, ?_⟩
            by_contra lacks
            exact takes ⟨holds, .inl (by simpa using lacks)⟩
          · exact ⟨b, List.mem_cons_of_mem _ member, holds⟩
      have leads := ih remains
      have low : has a = true → has held = true ∧ at_ a ≤ at_ held := by
        intro holds
        refine ⟨?_, ?_⟩
        · by_contra lacks
          exact takes ⟨holds, .inl (by simpa using lacks)⟩
        · by_contra high
          exact takes ⟨holds, .inr (not_le.mp high)⟩
      obtain ⟨before, after, shape, holds, earlier, later⟩ := leads
      cases before with
      | nil =>
        rw [List.nil_append] at shape
        obtain ⟨same, rfl⟩ := List.cons_eq_cons.mp shape
        rw [← same] at later ⊢
        refine ⟨[], a :: rest, rfl, ?_, fun _ h => (nomatch h), ?_⟩
        · rw [same]
          exact holds
        · intro b member has_b
          rcases List.mem_cons.mp member with rfl | member
          · exact (low has_b).2
          · exact later b member has_b
      | cons c before =>
        rw [List.cons_append] at shape
        obtain ⟨rfl, tail⟩ := List.cons_eq_cons.mp shape
        refine ⟨held :: a :: before, after, ?_, holds, ?_, later⟩
        · rw [List.cons_append, List.cons_append, ← tail]
        · intro b member has_b
          rcases List.mem_cons.mp member with rfl | member
          · exact earlier _ List.mem_cons_self has_b
          · rcases List.mem_cons.mp member with rfl | member
            · obtain ⟨held_has, below⟩ := low has_b
              exact lt_of_le_of_lt below (earlier held List.mem_cons_self held_has)
            · exact earlier b (List.mem_cons_of_mem _ member) has_b

theorem pick_held {held : α} (none_ : ∀ b ∈ list, has b = false) : pick has at_ held list = held := by
  induction list generalizing held with
  | nil => rfl
  | cons a rest ih =>
    unfold pick
    have lacks := none_ a List.mem_cons_self
    rw [if_neg (by rw [lacks]; simp)]
    exact ih fun b member => none_ b (List.mem_cons_of_mem _ member)

end Kaspaverse.Latest
