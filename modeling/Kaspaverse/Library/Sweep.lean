import Mathlib.Data.Finset.Basic
import Kaspaverse.Library.KeyedMap
import Kaspaverse.Library.Rounds

namespace Kaspaverse.Sweeping

open Rounds

variable {κ υ : Type*} [DecidableEq κ]

/-- What still stands, and every key swept so far. -/
structure Sweep (κ υ : Type*) where
  standing : KeyMap κ υ
  swept : Finset κ

/-- The keys `fires` names, given what was swept before. -/
def firing (fires : Finset κ → κ → υ → Bool) (s : Sweep κ υ) : List κ :=
  (s.standing.entries.filter fun e => fires s.swept e.1 e.2).map Sigma.fst

/-- Sweep everything that fires, at once; nothing is left to do when nothing fires. -/
def sweepRound (fires : Finset κ → κ → υ → Bool) (s : Sweep κ υ) : Option (Sweep κ υ) :=
  if firing fires s = [] then none
  else some ⟨s.standing.retain fun k v => !fires s.swept k v, s.swept ∪ (firing fires s).toFinset⟩

/-- Rounds until nothing fires. -/
def sweepAll (fires : Finset κ → κ → υ → Bool) (s : Sweep κ υ) : Sweep κ υ :=
  rounds (sweepRound fires) s.standing.entries.length s

theorem mem_firing {fires : Finset κ → κ → υ → Bool} {s : Sweep κ υ} {k : κ} :
    k ∈ firing fires s ↔ ∃ v, s.standing.lookup k = some v ∧ fires s.swept k v = true := by
  simp only [firing, List.mem_map, List.mem_filter]
  constructor
  · intro ⟨⟨k', v⟩, ⟨member, fired⟩, same⟩
    cases same
    exact ⟨v, KeyMap.mem_entries_iff.mp member, fired⟩
  · intro ⟨v, found, fired⟩
    exact ⟨⟨k, v⟩, ⟨KeyMap.mem_entries_iff.mpr found, fired⟩, rfl⟩

theorem sweepRound_some {fires : Finset κ → κ → υ → Bool} {s next : Sweep κ υ}
    (h : sweepRound fires s = some next) : firing fires s ≠ [] ∧
      next = ⟨s.standing.retain fun k v => !fires s.swept k v,
        s.swept ∪ (firing fires s).toFinset⟩ := by
  unfold sweepRound at h
  split at h
  · cases h
  · rename_i some_
    exact ⟨some_, (Option.some.inj h).symm⟩

theorem sweepRound_shrinks {fires : Finset κ → κ → υ → Bool} (s next : Sweep κ υ)
    (h : sweepRound fires s = some next) :
    next.standing.entries.length < s.standing.entries.length := by
  obtain ⟨some_, rfl⟩ := sweepRound_some h
  obtain ⟨k, fired⟩ := List.exists_mem_of_ne_nil _ some_
  obtain ⟨v, found, holds⟩ := mem_firing.mp fired
  rw [KeyMap.entries_retain]
  apply List.length_filter_lt_length_iff_exists.mpr
  exact ⟨⟨k, v⟩, KeyMap.mem_entries_iff.mpr found, by simp [holds]⟩

theorem sweepAll_stops (fires : Finset κ → κ → υ → Bool) (s : Sweep κ υ) :
    sweepRound fires (sweepAll fires s) = none :=
  rounds_break (fun s => s.standing.entries.length) sweepRound_shrinks le_rfl

/-- **What `sound` holds of at the start, and whatever fires over sound keys alone, is sound.** -/
theorem sweepAll_sound (fires : Finset κ → κ → υ → Bool) (sound : κ → Prop) (s : Sweep κ υ)
    (start : ∀ k ∈ s.swept, sound k)
    (fired : ∀ swept k v, (∀ k ∈ swept, sound k) → s.standing.lookup k = some v →
      fires swept k v = true → sound k) : ∀ k ∈ (sweepAll fires s).swept, sound k := by
  let inv : Sweep κ υ → Prop := fun t => (∀ k ∈ t.swept, sound k) ∧
    ∀ k v, t.standing.lookup k = some v → s.standing.lookup k = some v
  have keeps : ∀ t next, inv t → sweepRound fires t = some next → inv next := by
    intro t next ⟨ok, within⟩ h
    obtain ⟨_, rfl⟩ := sweepRound_some h
    constructor
    · intro k member
      rcases Finset.mem_union.mp member with old | new
      · exact ok k old
      · obtain ⟨v, found, holds⟩ := mem_firing.mp (List.mem_toFinset.mp new)
        exact fired t.swept k v ok (within k v found) holds
    · intro k v found
      exact within k v (KeyMap.lookup_retain_some.mp found).1
  have all : inv (sweepAll fires s) := rounds_invariant keeps _ ⟨start, fun _ _ h => h⟩
  exact all.1

/-- Two sweeps of the same keys, in any order, over values no rule tells apart. -/
structure Alike {ω : Type*} (same : υ → ω → Prop) (s : Sweep κ υ) (t : Sweep κ ω) : Prop where
  swept : s.swept = t.swept
  standing : ∀ k, Option.Rel same (s.standing.lookup k) (t.standing.lookup k)

theorem Alike.firing_iff {ω : Type*} {same : υ → ω → Prop} {fires : Finset κ → κ → υ → Bool}
    {fires' : Finset κ → κ → ω → Bool}
    (agree : ∀ swept k v w, same v w → fires swept k v = fires' swept k w)
    {s : Sweep κ υ} {t : Sweep κ ω} (alike : Alike same s t) (k : κ) :
    k ∈ firing fires s ↔ k ∈ firing fires' t := by
  have related := alike.standing k
  rw [mem_firing, mem_firing, alike.swept]
  constructor
  · intro ⟨v, found, fired⟩
    rw [found] at related
    cases hw : t.standing.lookup k with
    | none => rw [hw] at related; cases related
    | some w =>
      rw [hw] at related
      cases related with
      | some both => exact ⟨w, rfl, by rw [← agree _ _ _ _ both]; exact fired⟩
  · intro ⟨w, found, fired⟩
    rw [found] at related
    cases hv : s.standing.lookup k with
    | none => rw [hv] at related; cases related
    | some v =>
      rw [hv] at related
      cases related with
      | some both => exact ⟨v, rfl, by rw [agree _ _ _ _ both]; exact fired⟩

/-- **The order of the map decides nothing.** -/
theorem sweepAll_alike {ω : Type*} {same : υ → ω → Prop} {fires : Finset κ → κ → υ → Bool}
    {fires' : Finset κ → κ → ω → Bool}
    (agree : ∀ swept k v w, same v w → fires swept k v = fires' swept k w)
    {s : Sweep κ υ} {t : Sweep κ ω} (alike : Alike same s t) :
    Alike same (sweepAll fires s) (sweepAll fires' t) := by
  let fuel := max s.standing.entries.length t.standing.entries.length
  have left : sweepAll fires s = rounds (sweepRound fires) fuel s :=
    (rounds_fuel (fun s : Sweep κ υ => s.standing.entries.length) sweepRound_shrinks le_rfl
      (Nat.le_max_left _ _)).symm
  have right : sweepAll fires' t = rounds (sweepRound fires') fuel t :=
    (rounds_fuel (fun s : Sweep κ ω => s.standing.entries.length) sweepRound_shrinks le_rfl
      (Nat.le_max_right _ _)).symm
  rw [left, right]
  apply rounds_related _ fuel alike
  intro a b both
  have members := both.firing_iff agree
  by_cases none_ : firing fires a = []
  · have none' : firing fires' b = [] := by
      apply List.eq_nil_iff_forall_not_mem.mpr
      intro k member
      have back := (members k).mpr member
      rw [none_] at back
      cases back
    exact Or.inl ⟨if_pos none_, if_pos none'⟩
  · have some' : firing fires' b ≠ [] := by
      obtain ⟨k, member⟩ := List.exists_mem_of_ne_nil _ none_
      exact List.ne_nil_of_mem ((members k).mp member)
    refine Or.inr ⟨_, _, if_neg none_, if_neg some', ?_, ?_⟩
    · have keys : (firing fires a).toFinset = (firing fires' b).toFinset := by
        ext k
        rw [List.mem_toFinset, List.mem_toFinset]
        exact members k
      simp only [both.swept, keys]
    · intro k
      have related := both.standing k
      simp only [KeyMap.lookup_retain]
      cases hv : a.standing.lookup k with
      | none =>
        cases hw : b.standing.lookup k with
        | none => exact Option.Rel.none
        | some w => rw [hv, hw] at related; cases related
      | some v =>
        cases hw : b.standing.lookup k with
        | none => rw [hv, hw] at related; cases related
        | some w =>
          rw [hv, hw] at related
          cases related with
          | some pair =>
            have fired := agree b.swept k v w pair
            simp only [Option.filter, both.swept, fired]
            split
            · exact Option.Rel.some pair
            · exact Option.Rel.none

end Kaspaverse.Sweeping
