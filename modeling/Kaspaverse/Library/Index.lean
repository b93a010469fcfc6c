import Mathlib.Data.List.Induction
import Kaspaverse.Library.KeyedMap

namespace Kaspaverse.Index

variable {β κ : Type*} [DecidableEq β]

/-- What an index lists under `b`. -/
def listed (index : KeyMap β (List κ)) (b : β) : List κ := (index.lookup b).getD []

/-- List `k` under `b`, last. -/
def enlist (index : KeyMap β (List κ)) (b : β) (k : κ) : KeyMap β (List κ) :=
  index.insert b (listed index b ++ [k])

/-- What is left under `b`, or no entry where nothing is. -/
def keep (index : KeyMap β (List κ)) (b : β) (left : List κ) : KeyMap β (List κ) :=
  if left = [] then index.erase b else index.insert b left

/-- Take `k` from under `b`. -/
def unlist [DecidableEq κ] (index : KeyMap β (List κ)) (b : β) (k : κ) : KeyMap β (List κ) :=
  match index.lookup b with
  | none => index
  | some there => keep index b (there.filter (· != k))

/-- The index of `items`, each listed under its place where it has one. -/
def build {α : Type*} (key : α → κ) (place : α → Option β) (items : List α) : KeyMap β (List κ) :=
  items.foldl (fun index item =>
    match place item with
    | some b => enlist index b (key item)
    | none => index) ∅

/-- The index lists each key once, under its place and nowhere else, and keeps no empty list. -/
structure Mirrors (index : KeyMap β (List κ)) (place : κ → Option β) : Prop where
  mem : ∀ b k, k ∈ listed index b ↔ place k = some b
  once : ∀ b, (listed index b).Nodup
  nonempty : ∀ b, index.lookup b ≠ some []

@[simp] theorem listed_insert (index : KeyMap β (List κ)) (b b' : β) (there : List κ) :
    listed (index.insert b there) b' = if b' = b then there else listed index b' := by
  unfold listed
  by_cases same : b' = b
  · rw [if_pos same, same, AList.lookup_insert]
    rfl
  · rw [if_neg same, AList.lookup_insert_ne same]

@[simp] theorem listed_erase (index : KeyMap β (List κ)) (b b' : β) :
    listed (index.erase b) b' = if b' = b then [] else listed index b' := by
  unfold listed
  by_cases same : b' = b
  · rw [if_pos same, same, AList.lookup_erase]
    rfl
  · rw [if_neg same, AList.lookup_erase_ne same]

@[simp] theorem listed_keep (index : KeyMap β (List κ)) (b b' : β) (left : List κ) :
    listed (keep index b left) b' = if b' = b then left else listed index b' := by
  unfold keep
  split
  · rename_i none
    rw [listed_erase, none]
  · rw [listed_insert]

theorem listed_unlist [DecidableEq κ] (index : KeyMap β (List κ)) (b b' : β) (k : κ) :
    listed (unlist index b k) b' =
      if b' = b then (listed index b).filter (· != k) else listed index b' := by
  unfold unlist
  cases found : index.lookup b with
  | none =>
    by_cases same : b' = b
    · rw [if_pos same, same, listed, found]
      rfl
    · rw [if_neg same]
  | some there =>
    simp only [listed_keep]
    by_cases same : b' = b
    · simp [same, listed, found]
    · rw [if_neg same, if_neg same]

theorem mirrors_empty : Mirrors (∅ : KeyMap β (List κ)) fun _ => none := by
  refine ⟨?_, ?_, ?_⟩
  · intro b k
    simp [listed]
  · intro b
    simp [listed]
  · intro b
    simp

/-- What is kept of one list is kept as it was, and the rest has no place. -/
theorem Mirrors.keep [DecidableEq κ] {index : KeyMap β (List κ)} {place after : κ → Option β}
    (mirrors : Mirrors index place) (b : β) {left : List κ} (fewer : left.Sublist (listed index b))
    (there : ∀ k ∈ listed index b, after k = if k ∈ left then some b else none)
    (elsewhere : ∀ k, k ∉ listed index b → after k = place k) : Mirrors (Index.keep index b left) after := by
  refine ⟨?_, ?_, ?_⟩
  · intro b' k
    rw [listed_keep]
    by_cases member : k ∈ listed index b
    · have place_ := (mirrors.mem b k).mp member
      rw [there k member]
      by_cases same : b' = b
      · subst same
        simp
      · rw [if_neg same, mirrors.mem, place_]
        by_cases kept : k ∈ left
        · simp [kept]
        · rw [if_neg kept]
          simp only [Option.some.injEq, reduceCtorEq, iff_false]
          exact fun equal => same equal.symm
    · rw [elsewhere k member]
      by_cases same : b' = b
      · subst same
        rw [if_pos rfl, ← mirrors.mem]
        exact iff_of_false (fun kept => member (fewer.subset kept)) member
      · rw [if_neg same]
        exact mirrors.mem b' k
  · intro b'
    rw [listed_keep]
    by_cases same : b' = b
    · rw [if_pos same]
      exact (mirrors.once b).sublist fewer
    · rw [if_neg same]
      exact mirrors.once b'
  · intro b'
    unfold Index.keep
    split
    · by_cases same : b' = b
      · rw [same, AList.lookup_erase]
        exact Option.some_ne_none _ |>.symm
      · rw [AList.lookup_erase_ne same]
        exact mirrors.nonempty b'
    · rename_i some_
      by_cases same : b' = b
      · rw [same, AList.lookup_insert]
        exact fun none => some_ (Option.some.inj none)
      · rw [AList.lookup_insert_ne same]
        exact mirrors.nonempty b'

theorem Mirrors.unlist [DecidableEq κ] {index : KeyMap β (List κ)} {place : κ → Option β}
    (mirrors : Mirrors index place) {b : β} {k : κ} (at_ : place k = some b) :
    Mirrors (Index.unlist index b k) (Function.update place k none) := by
  have member := (mirrors.mem b k).mpr at_
  have found : index.lookup b = some (listed index b) := by
    cases present : index.lookup b with
    | none =>
      rw [listed, present] at member
      cases member
    | some there => rw [listed, present, Option.getD_some]
  rw [Index.unlist, found]
  apply mirrors.keep b List.filter_sublist
  · intro k' there
    by_cases same : k' = k
    · subst same
      simp
    · rw [Function.update_of_ne same, (mirrors.mem b k').mp there, if_pos]
      exact List.mem_filter.mpr ⟨there, bne_iff_ne.mpr same⟩
  · intro k' absent
    apply Function.update_of_ne
    rintro rfl
    exact absent member

theorem Mirrors.enlist [DecidableEq κ] {index : KeyMap β (List κ)} {place : κ → Option β}
    (mirrors : Mirrors index place) (b : β) {k : κ} (free : place k = none) :
    Mirrors (Index.enlist index b k) (Function.update place k (some b)) := by
  have absent : ∀ b', k ∉ listed index b' := by
    intro b' member
    rw [mirrors.mem, free] at member
    cases member
  refine ⟨?_, ?_, ?_⟩
  · intro b' k'
    rw [Index.enlist, listed_insert]
    by_cases same : k' = k
    · subst same
      rw [Function.update_self]
      by_cases there : b' = b
      · simp [there]
      · rw [if_neg there]
        exact iff_of_false (absent b') fun equal => there (Option.some.inj equal).symm
    · rw [Function.update_of_ne same]
      by_cases there : b' = b
      · subst there
        rw [if_pos rfl, List.mem_append, List.mem_singleton, or_iff_left same]
        exact mirrors.mem b' k'
      · rw [if_neg there]
        exact mirrors.mem b' k'
  · intro b'
    rw [Index.enlist, listed_insert]
    by_cases there : b' = b
    · rw [if_pos there]
      rw [← List.concat_eq_append]
      exact (mirrors.once b).concat (absent b)
    · rw [if_neg there]
      exact mirrors.once b'
  · intro b'
    by_cases there : b' = b
    · rw [Index.enlist, there, AList.lookup_insert]
      simp
    · rw [Index.enlist, AList.lookup_insert_ne there]
      exact mirrors.nonempty b'

theorem Mirrors.congr {index : KeyMap β (List κ)} {place after : κ → Option β}
    (mirrors : Mirrors index place) (same : ∀ k, after k = place k) : Mirrors index after := by
  have equal : after = place := funext same
  rw [equal]
  exact mirrors

theorem mirrors_build [DecidableEq κ] {α : Type*} {key : α → κ} {place : α → Option β}
    {items : List α} (once : (items.map key).Nodup) {where_ : κ → Option β}
    (there : ∀ item ∈ items, where_ (key item) = place item)
    (nowhere : ∀ k ∉ items.map key, where_ k = none) : Mirrors (build key place items) where_ := by
  induction items using List.reverseRecOn generalizing where_ with
  | nil => exact mirrors_empty.congr fun k => nowhere k List.not_mem_nil
  | append_singleton items last ih =>
    rw [List.map_append, List.map_singleton] at once nowhere
    obtain ⟨onceItems, _, apart⟩ := List.nodup_append.mp once
    have before := @ih onceItems (Function.update where_ (key last) none) (by
      intro item member
      have other : key item ≠ key last :=
        apart _ (List.mem_map_of_mem member) _ (List.mem_singleton_self _)
      rw [Function.update_of_ne other]
      exact there item (List.mem_append_left _ member)) (by
      intro k absent
      by_cases same : k = key last
      · rw [same, Function.update_self]
      · rw [Function.update_of_ne same]
        apply nowhere
        simp only [List.mem_append, List.mem_singleton, not_or]
        exact ⟨absent, same⟩)
    have placeLast := there last (List.mem_append_right _ (List.mem_singleton_self _))
    rw [build, List.foldl_append]
    change Mirrors (match place last with
      | some b => Index.enlist (build key place items) b (key last)
      | none => build key place items) where_
    cases at_ : place last with
    | some b =>
      apply (before.enlist b (Function.update_self ..)).congr
      intro k
      rw [Function.update_idem]
      by_cases same : k = key last
      · rw [same, Function.update_self, placeLast, at_]
      · rw [Function.update_of_ne same]
    | none =>
      apply before.congr
      intro k
      by_cases same : k = key last
      · rw [same, Function.update_self, placeLast, at_]
      · rw [Function.update_of_ne same]

theorem Mirrors.count [DecidableEq κ] {index : KeyMap β (List κ)} {place : κ → Option β}
    (mirrors : Mirrors index place) (b : β) (k : κ) :
    (listed index b).count k = if place k = some b then 1 else 0 := by
  split
  · rename_i there
    exact List.count_eq_one_of_mem (mirrors.once b) ((mirrors.mem b k).mpr there)
  · rename_i elsewhere
    exact List.count_eq_zero_of_not_mem fun member => elsewhere ((mirrors.mem b k).mp member)

end Kaspaverse.Index
