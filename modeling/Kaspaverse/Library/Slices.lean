import Mathlib.Data.List.Basic
import Mathlib.Data.Nat.Basic

namespace Kaspaverse

variable {α : Type*} {size : Nat}

/-- A list in runs of one size, the last of them shorter where it does not come out even. -/
def chunks (size : Nat) (xs : List α) : List (List α) :=
  (List.range ((xs.length + (size - 1)) / size)).map fun i => (xs.drop (size * i)).take size

@[simp] theorem chunks_nil (positive : 0 < size) : chunks size ([] : List α) = [] := by
  unfold chunks
  rw [List.length_nil, Nat.zero_add, Nat.div_eq_of_lt (by omega)]
  rfl

theorem chunks_short {xs : List α} (some_ : xs ≠ []) (short : xs.length ≤ size) : chunks size xs = [xs] := by
  have one : 0 < xs.length := List.length_pos_iff.mpr some_
  unfold chunks
  rw [Nat.div_eq_of_lt_le (k := 1) (by omega) (by omega)]
  simp only [List.range_one, List.map_singleton, Nat.mul_zero, List.drop_zero, List.take_of_length_le short]

theorem chunks_append {piece : List α} (full : piece.length = size) (positive : 0 < size) (rest : List α) :
    chunks size (piece ++ rest) = piece :: chunks size rest := by
  unfold chunks
  have count : ((piece ++ rest).length + (size - 1)) / size = (rest.length + (size - 1)) / size + 1 := by
    rw [List.length_append, full, Nat.add_assoc, Nat.add_comm, Nat.add_div_right _ positive]
  rw [count, List.range_succ_eq_map, List.map_cons, List.map_map, Nat.mul_zero, List.drop_zero]
  congr 1
  · exact List.take_left' full
  · apply List.map_congr_left
    intro i _
    show ((piece ++ rest).drop (size * (i + 1))).take size = (rest.drop (size * i)).take size
    rw [Nat.mul_succ, Nat.add_comm, ← List.drop_drop, List.drop_left' full]

/-- What holds of no more than one run, and of a list behind a whole run where it holds of the list,
    holds of every list. -/
theorem chunks_induction (size : Nat) {p : List α → Prop} (positive : 0 < size) (nil : p [])
    (short : ∀ xs, xs ≠ [] → xs.length < size → p xs)
    (full : ∀ piece rest, piece.length = size → p rest → p (piece ++ rest)) (xs : List α) : p xs := by
  induction measured : xs.length using Nat.strong_induction_on generalizing xs with
  | _ n ih =>
    subst measured
    by_cases empty : xs = []
    · exact empty ▸ nil
    · rcases Nat.lt_or_ge xs.length size with less | enough
      · exact short xs empty less
      · have split := List.take_append_drop size xs
        rw [← split]
        apply full
        · rw [List.length_take, Nat.min_eq_left enough]
        · refine ih _ ?_ _ rfl
          rw [List.length_drop]
          omega

section Prefix

variable [DecidableEq α]

/-- What stands behind a head, where the list starts with it. -/
def stripPrefix (head xs : List α) : Option (List α) :=
  if head <+: xs then some (xs.drop head.length) else none

theorem stripPrefix_append (head rest : List α) : stripPrefix head (head ++ rest) = some rest := by
  unfold stripPrefix
  rw [if_pos (List.prefix_append head rest), List.drop_left]

theorem stripPrefix_some {head xs rest : List α} (found : stripPrefix head xs = some rest) : xs = head ++ rest := by
  unfold stripPrefix at found
  split at found
  next starts =>
    obtain ⟨behind, rfl⟩ := starts
    rw [List.drop_left] at found
    exact congrArg (head ++ ·) (Option.some.inj found)
  · cases found

/-- An element that the head does not have ends the search for it. -/
theorem stripPrefix_behind {head : List α} {stop : α} (foreign : stop ∉ head) (xs behind : List α) :
    stripPrefix head (xs ++ stop :: behind) = (stripPrefix head xs).map (· ++ stop :: behind) := by
  induction head generalizing xs with
  | nil => rfl
  | cons first head ih =>
    rw [List.mem_cons, not_or] at foreign
    cases xs with
    | nil =>
      have apart : ¬first :: head <+: stop :: behind := fun starts =>
        foreign.1 (List.cons_prefix_cons.mp starts).1.symm
      have short : ¬first :: head <+: [] := fun starts => by simp at starts
      unfold stripPrefix
      rw [List.nil_append, if_neg apart, if_neg short]
      rfl
    | cons x xs =>
      have step (ys : List α) : stripPrefix (first :: head) (x :: ys) =
          if first = x then stripPrefix head ys else none := by
        unfold stripPrefix
        simp only [List.cons_prefix_cons, List.length_cons, List.drop_succ_cons]
        split_ifs <;> tauto
      rw [List.cons_append, step, step, ih foreign.2]
      split_ifs
      · rfl
      · rfl

end Prefix

theorem takeWhile_behind {p : α → Bool} {stop : α} (stops : p stop = false) (xs behind : List α) :
    (xs ++ stop :: behind).takeWhile p = xs.takeWhile p := by
  induction xs with
  | nil => rw [List.nil_append, List.takeWhile_cons, stops]; rfl
  | cons x xs ih =>
    rw [List.cons_append, List.takeWhile_cons, List.takeWhile_cons, ih]

end Kaspaverse
