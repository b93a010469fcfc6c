import Mathlib.Data.List.Basic

namespace Kaspaverse

/-- The first `size` entries at or above a cursor, of a listing in ascending order. -/
def pageAt {α : Type*} (key : α → Nat) (size cursor : Nat) (listing : List α) : List α :=
  (listing.filter fun entry => cursor ≤ key entry).take size

variable {α : Type*} {key : α → Nat} {size cursor : Nat} {listing : List α}

theorem pageAt_pairwise (ascending : listing.Pairwise fun a b => key a ≤ key b) :
    (pageAt key size cursor listing).Pairwise fun a b => key a ≤ key b :=
  (ascending.sublist List.filter_sublist).sublist (List.take_sublist _ _)

theorem le_key_of_mem_pageAt {entry : α} (member : entry ∈ pageAt key size cursor listing) :
    cursor ≤ key entry := by
  have kept := List.mem_of_mem_take member
  simpa using (List.mem_filter.mp kept).2

theorem mem_of_mem_pageAt {entry : α} (member : entry ∈ pageAt key size cursor listing) : entry ∈ listing :=
  List.mem_of_mem_filter (List.mem_of_mem_take member)

theorem mem_pageAt_of_short (short : (pageAt key size cursor listing).length < size) {entry : α}
    (listed : entry ∈ listing) (above : cursor ≤ key entry) : entry ∈ pageAt key size cursor listing := by
  unfold pageAt at short ⊢
  rw [List.length_take] at short
  rw [List.take_of_length_le (by omega)]
  exact List.mem_filter.mpr ⟨listed, decide_eq_true above⟩

/-- A page holds every entry between its cursor and any of its own. -/
theorem mem_pageAt_of_lt (ascending : listing.Pairwise fun a b => key a ≤ key b) {served entry : α}
    (member : served ∈ pageAt key size cursor listing) (listed : entry ∈ listing) (above : cursor ≤ key entry)
    (below : key entry < key served) : entry ∈ pageAt key size cursor listing := by
  have kept : entry ∈ listing.filter fun entry => cursor ≤ key entry :=
    List.mem_filter.mpr ⟨listed, decide_eq_true above⟩
  rw [← List.take_append_drop size (listing.filter fun entry => cursor ≤ key entry)] at kept
  have ordered := ascending.sublist (List.filter_sublist (p := fun entry => cursor ≤ key entry))
  rw [← List.take_append_drop size (listing.filter fun entry => cursor ≤ key entry)] at ordered
  have apart := (List.pairwise_append.mp ordered).2.2
  obtain early | late := List.mem_append.mp kept
  · exact early
  · have after := apart served member entry late
    omega

end Kaspaverse
