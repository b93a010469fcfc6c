import Mathlib.Data.List.Infix
import Kaspaverse.Library.Rounds

namespace Kaspaverse.Scrub

variable {α : Type*} [DecidableEq α]

section Runs

variable (starts : List (List α)) (stops : α → Bool) (mark : α)

/-- One of the starts stands here. -/
def opens (text : List α) : Bool := starts.any (·.isPrefixOf text)

/-- A run goes from a start up to the next stop, and one mark stands for it. -/
def runsFrom : Bool → List α → List α
  | _, [] => []
  | inside, c :: rest =>
    if inside && !stops c then runsFrom true rest
    else if opens starts (c :: rest) then mark :: runsFrom true rest
    else c :: runsFrom false rest

def replaceRuns (text : List α) : List α := runsFrom starts stops mark false text

end Runs

variable {starts : List (List α)} {stops : α → Bool} {mark : α}

theorem isPrefixOf_behind {pattern : List α} {stop : α} (foreign : stop ∉ pattern) (some_ : pattern ≠ [])
    (before behind : List α) : pattern.isPrefixOf (before ++ stop :: behind) = pattern.isPrefixOf before := by
  induction pattern generalizing before with
  | nil => exact absurd rfl some_
  | cons a pattern ih =>
    have apart : (a == stop) = false := by
      simp only [beq_eq_false_iff_ne]
      rintro rfl
      exact foreign List.mem_cons_self
    cases before with
    | nil => simp [List.isPrefixOf, apart]
    | cons b before =>
      by_cases last : pattern = []
      · simp [List.isPrefixOf, last]
      · rw [List.cons_append, List.isPrefixOf, List.isPrefixOf,
          ih (fun member => foreign (List.mem_cons_of_mem _ member)) last]

/-- A start holds no stop and is not empty. -/
def Sharp (starts : List (List α)) (stop : α) : Prop := ∀ start ∈ starts, stop ∉ start ∧ start ≠ []

instance (starts : List (List α)) (stop : α) : Decidable (Sharp starts stop) :=
  inferInstanceAs (Decidable (∀ start ∈ starts, stop ∉ start ∧ start ≠ []))

theorem opens_behind {stop : α} (sharp : Sharp starts stop) (before behind : List α) :
    opens starts (before ++ stop :: behind) = opens starts before := by
  have each : ∀ start ∈ starts, start.isPrefixOf (before ++ stop :: behind) = start.isPrefixOf before := by
    intro start member
    exact isPrefixOf_behind (sharp start member).1 (sharp start member).2 before behind
  rw [opens, opens, Bool.eq_iff_iff, List.any_eq_true, List.any_eq_true]
  constructor
  · rintro ⟨start, member, here⟩
    exact ⟨start, member, (each start member).symm.trans here⟩
  · rintro ⟨start, member, here⟩
    exact ⟨start, member, (each start member).trans here⟩

/-- What stands behind a stop is rewritten on its own. -/
theorem runsFrom_behind {stop : α} (stopped : stops stop = true) (sharp : Sharp starts stop) (inside : Bool)
    (before behind : List α) :
    runsFrom starts stops mark inside (before ++ stop :: behind) =
      runsFrom starts stops mark inside before ++ stop :: replaceRuns starts stops mark behind := by
  induction before generalizing inside with
  | nil =>
    have shut : opens starts (stop :: behind) = false := by
      have empty := opens_behind sharp [] behind
      rw [List.nil_append] at empty
      rw [empty]
      simp only [opens, List.any_eq_false]
      intro start member
      simp [(sharp start member).2]
    simp [runsFrom, stopped, shut, replaceRuns]
  | cons c before ih =>
    have same := opens_behind sharp (c :: before) behind
    rw [List.cons_append] at same
    simp only [List.cons_append, runsFrom, same]
    split
    · exact ih true
    · split
      · rw [ih true, List.cons_append]
      · rw [ih false, List.cons_append]

theorem runsFrom_inside {text : List α} (unstopped : ∀ c ∈ text, stops c = false) :
    runsFrom starts stops mark true text = [] := by
  induction text with
  | nil => rfl
  | cons c text ih =>
    have here := unstopped c List.mem_cons_self
    simp [runsFrom, here, ih fun d member => unstopped d (List.mem_cons_of_mem _ member)]

/-- A text that opens a run nothing stops is the mark alone. -/
theorem replaceRuns_whole {text : List α} (opened : opens starts text = true) (some_ : text ≠ [])
    (unstopped : ∀ c ∈ text, stops c = false) : replaceRuns starts stops mark text = [mark] := by
  cases text with
  | nil => exact absurd rfl some_
  | cons c rest =>
    have behind : runsFrom starts stops mark true rest = [] :=
      runsFrom_inside fun d member => unstopped d (List.mem_cons_of_mem c member)
    simp [replaceRuns, runsFrom, opened, behind]

theorem runsFrom_subset {inside : Bool} {text : List α} {a : α} (member : a ∈ runsFrom starts stops mark inside text) :
    a ∈ text ∨ a = mark := by
  induction text generalizing inside with
  | nil => cases member
  | cons c rest ih =>
    simp only [runsFrom] at member
    split at member
    · exact (ih member).imp_left (List.mem_cons_of_mem c)
    · split at member
      · rcases List.mem_cons.mp member with same | later
        · exact Or.inr same
        · exact (ih later).imp_left (List.mem_cons_of_mem c)
      · rcases List.mem_cons.mp member with rfl | later
        · exact Or.inl List.mem_cons_self
        · exact (ih later).imp_left (List.mem_cons_of_mem c)

/-- Where no mark shows, nothing was replaced. -/
theorem replaceRuns_unmarked {text : List α} (unmarked : mark ∉ replaceRuns starts stops mark text) :
    replaceRuns starts stops mark text = text := by
  unfold replaceRuns at unmarked ⊢
  induction text with
  | nil => rfl
  | cons c rest ih =>
    simp only [runsFrom, Bool.false_and, Bool.false_eq_true, if_false] at unmarked ⊢
    split at unmarked
    · exact absurd List.mem_cons_self unmarked
    · next shut =>
      rw [if_neg shut, ih fun later => unmarked (List.mem_cons_of_mem c later)]

/-- The last element of a text that ends no run is still last, unless a run swallows it. -/
theorem getLast?_runsFrom {inside : Bool} {text : List α} {last : α} (plain : stops last = false)
    (shut : opens starts [last] = false) :
    (runsFrom starts stops mark inside (text ++ [last])).getLast? = some last ∨
      (runsFrom starts stops mark inside (text ++ [last])).getLast? = some mark ∨
      (inside = true ∧ runsFrom starts stops mark inside (text ++ [last]) = []) := by
  induction text generalizing inside with
  | nil => cases inside <;> simp [runsFrom, plain, shut]
  | cons c rest ih =>
    rw [List.cons_append, runsFrom]
    split
    next within =>
      have enclosed : inside = true := (Bool.and_eq_true_iff.mp within).1
      rcases @ih true with same | marked | ⟨-, none_⟩
      · exact Or.inl same
      · exact Or.inr (Or.inl marked)
      · exact Or.inr (Or.inr ⟨enclosed, none_⟩)
    next =>
      split
      · rcases @ih true with same | marked | ⟨-, none_⟩
        · exact Or.inl (by rw [List.getLast?_cons, same]; rfl)
        · exact Or.inr (Or.inl (by rw [List.getLast?_cons, marked]; rfl))
        · exact Or.inr (Or.inl (by rw [none_]; rfl))
      · rcases @ih false with same | marked | ⟨impossible, -⟩
        · exact Or.inl (by rw [List.getLast?_cons, same]; rfl)
        · exact Or.inr (Or.inl (by rw [List.getLast?_cons, marked]; rfl))
        · cases impossible

/-- A text without some element of each start is left as it is. -/
theorem replaceRuns_foreign {text : List α} (foreign : ∀ start ∈ starts, ∃ a ∈ start, a ∉ text) :
    replaceRuns starts stops mark text = text := by
  unfold replaceRuns
  induction text with
  | nil => rfl
  | cons c rest ih =>
    have shut : opens starts (c :: rest) = false := by
      simp only [opens, List.any_eq_false]
      intro start member here
      obtain ⟨a, used, absent⟩ := foreign start member
      exact absent ((List.isPrefixOf_iff_prefix.mp here).subset used)
    have later : ∀ start ∈ starts, ∃ a ∈ start, a ∉ rest := by
      intro start member
      obtain ⟨a, used, absent⟩ := foreign start member
      exact ⟨a, used, fun within => absent (List.mem_cons_of_mem c within)⟩
    simp [runsFrom, shut, ih later]

section Occurrences

/-- What stands before and behind the first occurrence. -/
def cutAt (pattern : List α) : List α → Option (List α × List α)
  | [] => if pattern.isEmpty then some ([], []) else none
  | c :: rest =>
    if pattern.isPrefixOf (c :: rest) then some ([], (c :: rest).drop pattern.length)
    else (cutAt pattern rest).map fun cut => (c :: cut.1, cut.2)

def replaceOnce (pattern replacement text : List α) : Option (List α) :=
  (cutAt pattern text).map fun cut => cut.1 ++ replacement ++ cut.2

/-- Replaces the first occurrence for as long as there is one. -/
def replaceEach (pattern replacement text : List α) : List α :=
  Rounds.rounds (replaceOnce pattern replacement) text.length text

theorem cutAt_some {pattern text : List α} {cut : List α × List α} (found : cutAt pattern text = some cut) :
    text = cut.1 ++ pattern ++ cut.2 := by
  induction text generalizing cut with
  | nil =>
    simp only [cutAt] at found
    split at found
    next empty =>
      cases found
      simp [List.isEmpty_iff.mp empty]
    next => cases found
  | cons c rest ih =>
    simp only [cutAt] at found
    split at found
    next starts =>
      cases found
      obtain ⟨behind, split⟩ := List.isPrefixOf_iff_prefix.mp starts
      rw [← split]
      simp
    next =>
      obtain ⟨inner, later, rfl⟩ := Option.map_eq_some_iff.mp found
      simp [ih later]

/-- What the text does not hold is not in a pattern that occurs in it. -/
theorem cutAt_foreign {pattern text : List α} {a : α} (used : a ∈ pattern) (absent : a ∉ text) :
    cutAt pattern text = none := by
  cases found : cutAt pattern text with
  | none => rfl
  | some cut =>
    rw [cutAt_some found] at absent
    simp [used] at absent

theorem length_replaceOnce {pattern replacement text next : List α} (shorter : replacement.length < pattern.length)
    (replaced : replaceOnce pattern replacement text = some next) : next.length < text.length := by
  obtain ⟨cut, found, rfl⟩ := Option.map_eq_some_iff.mp replaced
  rw [cutAt_some found]
  simp only [List.length_append]
  omega

/-- Where a replacement is shorter than what it replaces, the loop ends with no occurrence left. -/
theorem replaceEach_ends {pattern replacement : List α} (shorter : replacement.length < pattern.length)
    (text : List α) : cutAt pattern (replaceEach pattern replacement text) = none := by
  have stopped : replaceOnce pattern replacement (replaceEach pattern replacement text) = none :=
    Rounds.rounds_break List.length (fun _ _ => length_replaceOnce shorter) (Nat.le_refl _)
  exact Option.map_eq_none_iff.mp stopped

theorem replaceEach_step {pattern replacement text next : List α} (shorter : replacement.length < pattern.length)
    (replaced : replaceOnce pattern replacement text = some next) :
    replaceEach pattern replacement text = replaceEach pattern replacement next := by
  have less := length_replaceOnce shorter replaced
  obtain ⟨more, sized⟩ : ∃ more, text.length = more + 1 := ⟨text.length - 1, by omega⟩
  rw [replaceEach, sized, Rounds.rounds_succ _ replaced, replaceEach]
  exact Rounds.rounds_fuel List.length (fun _ _ => length_replaceOnce shorter) (Nat.le_refl _) (by omega)

omit [DecidableEq α] in
theorem prefix_aligned {first after : List α} {sep : α} (inner : sep ∉ first) {text behind : List α} (outer : sep ∉ text) :
    first ++ sep :: after <+: text ++ sep :: behind ↔ first = text ∧ after <+: behind := by
  induction first generalizing text with
  | nil =>
    cases text with
    | nil => simp
    | cons c text =>
      have apart : sep ≠ c := by
        rintro rfl
        exact outer List.mem_cons_self
      simp [List.cons_prefix_cons, apart]
  | cons a first ih =>
    cases text with
    | nil =>
      have apart : a ≠ sep := by
        rintro rfl
        exact inner List.mem_cons_self
      simp [List.cons_prefix_cons, apart]
    | cons c text =>
      have rest := ih (fun member => inner (List.mem_cons_of_mem a member))
        (fun member : sep ∈ text => outer (List.mem_cons_of_mem c member))
      rw [List.cons_append, List.cons_append, List.cons_prefix_cons, rest, List.cons.injEq, and_assoc]

/-- A pattern with a separator in it occurs over a separator of the text, or behind it. -/
theorem cutAt_over {first after : List α} {sep : α} (inner : sep ∉ first) {text behind : List α} (outer : sep ∉ text)
    (apart : ¬ (first <:+ text ∧ after <+: behind)) :
    cutAt (first ++ sep :: after) (text ++ sep :: behind) =
      (cutAt (first ++ sep :: after) behind).map fun cut => (text ++ sep :: cut.1, cut.2) := by
  have misses : ∀ {rest : List α}, sep ∉ rest → ¬ (first <:+ rest ∧ after <+: behind) →
      (first ++ sep :: after).isPrefixOf (rest ++ sep :: behind) = false := by
    intro rest plain far
    rw [← Bool.not_eq_true, List.isPrefixOf_iff_prefix, prefix_aligned inner plain]
    rintro ⟨rfl, starts⟩
    exact far ⟨List.suffix_refl first, starts⟩
  induction text with
  | nil =>
    have here := misses outer apart
    rw [List.nil_append] at here
    rw [List.nil_append, cutAt, if_neg (by simp [here])]
    rfl
  | cons c text ih =>
    have here := misses outer apart
    rw [List.cons_append] at here
    have later : ¬ (first <:+ text ∧ after <+: behind) := by
      rintro ⟨ends, starts⟩
      exact apart ⟨ends.trans (List.suffix_cons c text), starts⟩
    rw [List.cons_append, cutAt, if_neg (by simp [here]), ih (fun member => outer (List.mem_cons_of_mem c member)) later,
      Option.map_map]
    rfl

/-- Copies of a pattern in a row go one by one. -/
theorem replaceEach_copies {pattern front rest : List α} (some_ : pattern ≠ [])
    (first : ∀ behind, cutAt pattern (front ++ pattern ++ behind) = some (front, behind))
    (none_ : cutAt pattern (front ++ rest) = none) (n : Nat) :
    replaceEach pattern [] (front ++ (List.replicate n pattern).flatten ++ rest) = front ++ rest := by
  have shorter : ([] : List α).length < pattern.length := List.length_pos_iff.mpr some_
  induction n with
  | zero =>
    rw [List.replicate_zero, List.flatten_nil, List.append_nil]
    apply Rounds.rounds_stopped
    rw [replaceOnce, none_]
    rfl
  | succ n ih =>
    have next : replaceOnce pattern [] (front ++ (List.replicate (n + 1) pattern).flatten ++ rest) =
        some (front ++ (List.replicate n pattern).flatten ++ rest) := by
      have cut := first ((List.replicate n pattern).flatten ++ rest)
      rw [List.append_assoc] at cut
      rw [List.replicate_succ, List.flatten_cons, List.append_assoc, List.append_assoc, replaceOnce, cut]
      simp
    rw [replaceEach_step shorter next, ih]

end Occurrences

end Kaspaverse.Scrub
