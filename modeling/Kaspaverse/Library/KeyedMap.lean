import Mathlib.Data.List.AList
import Mathlib.Data.List.Induction

namespace Kaspaverse

/-- A map with at most one value for a key. The order of its entries is the order an iteration
    meets them in, which nothing fixes. -/
abbrev KeyMap (κ υ : Type*) := AList fun _ : κ => υ

namespace KeyMap

variable {κ υ : Type*}

def values (m : KeyMap κ υ) : List υ := m.entries.map Sigma.snd

/-- Keep the entries `keep` accepts. -/
def retain (keep : κ → υ → Bool) (m : KeyMap κ υ) : KeyMap κ υ :=
  ⟨m.entries.filter fun e => keep e.1 e.2, m.nodupKeys.sublist List.filter_sublist⟩

/-- Rewrite every value in place. -/
def adjust (f : υ → υ) (m : KeyMap κ υ) : KeyMap κ υ :=
  ⟨m.entries.map fun e => ⟨e.1, f e.2⟩, List.NodupKeys.map₂ (fun _ => f) _ m.nodupKeys⟩

@[simp] theorem entries_retain (keep : κ → υ → Bool) (m : KeyMap κ υ) :
    (m.retain keep).entries = m.entries.filter fun e => keep e.1 e.2 := rfl

@[simp] theorem entries_adjust (f : υ → υ) (m : KeyMap κ υ) :
    (m.adjust f).entries = m.entries.map fun e => ⟨e.1, f e.2⟩ := rfl

variable [DecidableEq κ]

theorem mem_entries_iff {m : KeyMap κ υ} {k : κ} {v : υ} :
    (⟨k, v⟩ : Sigma fun _ : κ => υ) ∈ m.entries ↔ m.lookup k = some v := by
  rw [← Option.mem_def]
  exact AList.mem_lookup_iff.symm

theorem mem_iff_lookup {m : KeyMap κ υ} {k : κ} : k ∈ m ↔ ∃ v, m.lookup k = some v := by
  rw [← AList.lookup_isSome, Option.isSome_iff_exists]

theorem mem_of_lookup {m : KeyMap κ υ} {k : κ} {v : υ} (h : m.lookup k = some v) : k ∈ m :=
  mem_iff_lookup.mpr ⟨v, h⟩

theorem mem_values_iff {m : KeyMap κ υ} {v : υ} : v ∈ m.values ↔ ∃ k, m.lookup k = some v := by
  simp only [values, List.mem_map]
  constructor
  · rintro ⟨⟨k, v'⟩, member, rfl⟩
    exact ⟨k, mem_entries_iff.mp member⟩
  · rintro ⟨k, found⟩
    exact ⟨⟨k, v⟩, mem_entries_iff.mpr found, rfl⟩

theorem keys_map_lookup (m : KeyMap κ υ) (absent : υ) :
    (m.keys.map fun k => (m.lookup k).getD absent) = m.values := by
  change (m.entries.map Sigma.fst).map _ = m.entries.map Sigma.snd
  rw [List.map_map]
  apply List.map_congr_left
  intro entry member
  have found : m.lookup entry.1 = some entry.2 := mem_entries_iff.mp member
  simp [found]

theorem values_perm {m : KeyMap κ υ} {keys : List κ} (nodup : keys.Nodup)
    (same : ∀ k, k ∈ keys ↔ k ∈ m) (absent : υ) :
    m.values.Perm (keys.map fun k => (m.lookup k).getD absent) := by
  have perm : m.keys.Perm keys := by
    apply (List.perm_ext_iff_of_nodup m.keys_nodup nodup).mpr
    intro k
    rw [same, AList.mem_keys]
  rw [← keys_map_lookup m absent]
  exact perm.map _

theorem lookup_ext {m m' : KeyMap κ υ} {k : κ}
    (h : ∀ v, m.lookup k = some v ↔ m'.lookup k = some v) : m.lookup k = m'.lookup k :=
  Option.ext h

theorem lookup_retain (keep : κ → υ → Bool) (m : KeyMap κ υ) (k : κ) :
    (m.retain keep).lookup k = (m.lookup k).filter (keep k) := by
  apply Option.ext
  intro v
  rw [Option.filter_eq_some_iff, ← mem_entries_iff, ← mem_entries_iff, entries_retain,
    List.mem_filter]

theorem lookup_retain_some {keep : κ → υ → Bool} {m : KeyMap κ υ} {k : κ} {v : υ} :
    (m.retain keep).lookup k = some v ↔ m.lookup k = some v ∧ keep k v = true := by
  rw [lookup_retain, Option.filter_eq_some_iff]

theorem lookup_adjust (f : υ → υ) (m : KeyMap κ υ) (k : κ) :
    (m.adjust f).lookup k = (m.lookup k).map f :=
  List.dlookup_map₂ (f := fun _ => f) k

theorem lookup_insert_some {m : KeyMap κ υ} {k k' : κ} {v w : υ} :
    (m.insert k' w).lookup k = some v ↔ (k = k' ∧ w = v) ∨ (k ≠ k' ∧ m.lookup k = some v) := by
  by_cases same : k = k'
  · subst same
    simp
  · rw [AList.lookup_insert_ne same]
    simp [same]

theorem lookup_erase_some {m : KeyMap κ υ} {k k' : κ} {v : υ} :
    (m.erase k').lookup k = some v ↔ k ≠ k' ∧ m.lookup k = some v := by
  by_cases same : k = k'
  · subst same
    simp
  · rw [AList.lookup_erase_ne same]
    simp [same]

theorem lookup_insert_eq_update (m : KeyMap κ υ) (k : κ) (v : υ) :
    (m.insert k v).lookup = Function.update m.lookup k (some v) := by
  funext other
  by_cases same : other = k
  · subst same
    simp
  · rw [AList.lookup_insert_ne same, Function.update_of_ne same]

theorem lookup_erase_eq_update (m : KeyMap κ υ) (k : κ) :
    (m.erase k).lookup = Function.update m.lookup k none := by
  funext other
  by_cases same : other = k
  · subst same
    simp
  · rw [AList.lookup_erase_ne same, Function.update_of_ne same]

theorem lookup_eq_of_subset {m m' : KeyMap κ υ}
    (inside : ∀ k v, m.lookup k = some v → m'.lookup k = some v)
    (size : m.entries.length = m'.entries.length) : m.lookup = m'.lookup := by
  have sub : m.entries ⊆ m'.entries := by
    rintro ⟨k, v⟩ member
    exact mem_entries_iff.mpr (inside k v (mem_entries_iff.mp member))
  have perm : m.entries.Perm m'.entries :=
    (List.subperm_of_subset m.nodupKeys.nodup sub).perm_of_length_le (le_of_eq size.symm)
  funext k
  apply lookup_ext
  intro v
  rw [← mem_entries_iff, ← mem_entries_iff, perm.mem_iff]

/-- The map rows inserted one after the other make. -/
def ofRows (rows : List (κ × υ)) : KeyMap κ υ := rows.foldl (fun m row => m.insert row.1 row.2) ∅

theorem lookup_ofRows {rows : List (κ × υ)} (distinct : (rows.map Prod.fst).Nodup) {k : κ} {v : υ} :
    (ofRows rows).lookup k = some v ↔ (k, v) ∈ rows := by
  induction rows using List.reverseRecOn with
  | nil => simp [ofRows]
  | append_singleton rows last ih =>
    rw [List.map_append, List.nodup_append] at distinct
    obtain ⟨before, -, apart⟩ := distinct
    have fresh : ∀ w, (last.1, w) ∉ rows := by
      intro w member
      exact apart last.1 (List.mem_map.mpr ⟨_, member, rfl⟩) last.1 (by simp) rfl
    have grown : ofRows (rows ++ [last]) = (ofRows rows).insert last.1 last.2 := by
      simp [ofRows]
    rw [grown, lookup_insert_some, ih before, List.mem_append, List.mem_singleton]
    constructor
    · rintro (⟨rfl, rfl⟩ | ⟨-, member⟩)
      · exact Or.inr rfl
      · exact Or.inl member
    · rintro (member | rfl)
      · refine Or.inr ⟨?_, member⟩
        rintro rfl
        exact fresh v member
      · exact Or.inl ⟨rfl, rfl⟩

end KeyMap

end Kaspaverse
