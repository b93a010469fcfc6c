import Mathlib.Data.Set.Insert
import Mathlib.Data.Set.Lattice

namespace Kaspaverse.Ledger

/-- What each transaction spends and creates, fixed once and for all. -/
structure World (τ κ : Type*) where
  inputs : τ → Set κ
  outputs : τ → Set κ
  creator : κ → τ
  creator_of_output : ∀ {t c}, c ∈ outputs t → creator c = t

variable {τ κ : Type*} (w : World τ κ)

def created (accepted : Set τ) : Set κ := {c | ∃ t ∈ accepted, c ∈ w.outputs t}

def spent (accepted : Set τ) : Set κ := {c | ∃ t ∈ accepted, c ∈ w.inputs t}

def unspent (accepted : Set τ) : Set κ := created w accepted \ spent w accepted

/-- A transaction is accepted only once, and only over inputs created and unspent. -/
inductive Extends (start : Set τ) : Set τ → Prop
  | refl : Extends start start
  | accept {now : Set τ} {t : τ} (prior : Extends start now) (fresh : t ∉ now)
      (available : w.inputs t ⊆ unspent w now) : Extends start (insert t now)

/-- Accepted, or accepted by no extension. -/
def Settled (accepted : Set τ) (t : τ) : Prop :=
  t ∈ accepted ∨ ∀ later, Extends w accepted later → t ∉ later

variable {w}

theorem spent_mono {a b : Set τ} (h : a ⊆ b) : spent w a ⊆ spent w b :=
  fun _ ⟨t, member, input⟩ => ⟨t, h member, input⟩

theorem Extends.subset {a b : Set τ} (h : Extends w a b) : a ⊆ b := by
  induction h with
  | refl => exact subset_rfl
  | accept _ _ _ ih => exact ih.trans (Set.subset_insert _ _)

theorem Extends.trans {a b c : Set τ} (ab : Extends w a b) (bc : Extends w b c) :
    Extends w a c := by
  induction bc with
  | refl => exact ab
  | accept _ fresh available ih => exact ih.accept fresh available

theorem Extends.accepted_at {a b : Set τ} (h : Extends w a b) {t : τ} (member : t ∈ b)
    (absent : t ∉ a) : ∃ now, Extends w a now ∧ now ⊆ b ∧ t ∉ now ∧ w.inputs t ⊆ unspent w now := by
  induction h with
  | refl => exact absurd member absent
  | @accept now u prior fresh available ih =>
    rcases Set.mem_insert_iff.mp member with rfl | earlier
    · exact ⟨now, prior, Set.subset_insert _ _, fresh, available⟩
    · obtain ⟨at_, reached, within, notYet, inputs⟩ := ih earlier
      exact ⟨at_, reached, within.trans (Set.subset_insert _ _), notYet, inputs⟩

theorem settled_of_spent {a : Set τ} {t : τ} {c : κ} (input : c ∈ w.inputs t)
    (gone : c ∈ spent w a) : Settled w a t := by
  by_cases member : t ∈ a
  · exact Or.inl member
  · refine Or.inr fun later extension accepted => ?_
    obtain ⟨now, reached, _, _, available⟩ := extension.accepted_at accepted member
    exact (available input).2 (spent_mono reached.subset gone)

theorem settled_of_never_created {a : Set τ} {t : τ} {c : κ} (input : c ∈ w.inputs t)
    (never : ∀ later, Extends w a later → c ∉ created w later) : Settled w a t := by
  by_cases member : t ∈ a
  · exact Or.inl member
  · refine Or.inr fun later extension accepted => ?_
    obtain ⟨now, reached, _, _, available⟩ := extension.accepted_at accepted member
    exact never now reached (available input).1

theorem creator_mem_of_created {a : Set τ} {c : κ} (h : c ∈ created w a) : w.creator c ∈ a := by
  obtain ⟨t, member, output⟩ := h
  rw [w.creator_of_output output]
  exact member

theorem created_of_creator_mem {a b : Set τ} {c : κ} (member : w.creator c ∈ a)
    (h : c ∈ created w b) : c ∈ created w a := by
  obtain ⟨t, _, output⟩ := h
  exact ⟨t, by rw [← w.creator_of_output output]; exact member, output⟩

theorem settled_of_settled_creator {a : Set τ} {t : τ} {c : κ} (input : c ∈ w.inputs t)
    (creator : Settled w a (w.creator c)) (absent : c ∉ unspent w a) : Settled w a t := by
  rcases creator with landed | dead
  · by_cases made : c ∈ created w a
    · refine settled_of_spent input ?_
      by_contra unspentStill
      exact absent ⟨made, unspentStill⟩
    · exact settled_of_never_created input fun later _ h => made (created_of_creator_mem landed h)
  · exact settled_of_never_created input fun later extension h =>
      dead later extension (creator_mem_of_created h)

/-- No two accepted transactions of a ledger grown from nothing share an input. -/
theorem Extends.no_double_spend {a : Set τ} (h : Extends w ∅ a) {t u : τ} (ht : t ∈ a) (hu : u ∈ a)
    {c : κ} (spendsT : c ∈ w.inputs t) (spendsU : c ∈ w.inputs u) : t = u := by
  induction h with
  | refl => exact absurd ht (Set.notMem_empty t)
  | @accept now v _ _ available ih =>
    rcases Set.mem_insert_iff.mp ht with sameT | oldT
    · rcases Set.mem_insert_iff.mp hu with sameU | oldU
      · exact sameT.trans sameU.symm
      · subst sameT
        exact absurd ⟨u, oldU, spendsU⟩ (available spendsT).2
    · rcases Set.mem_insert_iff.mp hu with sameU | oldU
      · subst sameU
        exact absurd ⟨t, oldT, spendsT⟩ (available spendsU).2
      · exact ih oldT oldU

end Kaspaverse.Ledger
