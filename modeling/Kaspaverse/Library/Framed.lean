import Mathlib.Data.List.Basic

namespace Kaspaverse.Framed

variable {α φ σ : Type*}

/-- Reads one frame at the start of an input and says how many elements it takes. What stands
    behind those elements never changes what is read. -/
structure Reader (α φ : Type*) where
  next : List α → Option (φ × Nat)
  positive : ∀ input frame size, next input = some (frame, size) → 0 < size
  fits : ∀ input frame size, next input = some (frame, size) → size ≤ input.length
  settled : ∀ input frame size, next input = some (frame, size) →
    ∀ behind, next (input.take size ++ behind) = some (frame, size)

/-- The input is exactly these frames, one behind the other. -/
inductive Frames (reader : Reader α φ) : List α → List φ → Prop
  | nil : Frames reader [] []
  | cons {piece rest : List α} {frame : φ} {frames : List φ}
      (head : reader.next piece = some (frame, piece.length)) (tail : Frames reader rest frames) :
      Frames reader (piece ++ rest) (frame :: frames)

/-- Fold frames into a state until one cannot be read, and keep what is left. -/
def scan (next : List α → Option (φ × Nat)) (apply : σ → φ → σ) :
    Nat → List α → σ → σ × List α
  | 0, rest, state => (state, rest)
  | fuel + 1, rest, state =>
    match next rest with
    | none => (state, rest)
    | some (frame, size) => scan next apply fuel (rest.drop size) (apply state frame)

namespace Reader

variable (reader : Reader α φ)

theorem next_nil : reader.next [] = none := by
  cases found : reader.next [] with
  | none => rfl
  | some pair =>
    have positive := reader.positive [] pair.1 pair.2 found
    have fits := reader.fits [] pair.1 pair.2 found
    simp only [List.length_nil] at fits
    omega

variable {reader} {piece : List α} {frame : φ}

theorem next_append (whole : reader.next piece = some (frame, piece.length)) (behind : List α) :
    reader.next (piece ++ behind) = some (frame, piece.length) := by
  have read := reader.settled piece frame piece.length whole behind
  rwa [List.take_length] at read

theorem next_torn (whole : reader.next piece = some (frame, piece.length)) {n : Nat}
    (short : n < piece.length) : reader.next (piece.take n) = none := by
  cases found : reader.next (piece.take n) with
  | none => rfl
  | some pair =>
    obtain ⟨other, size⟩ := pair
    have fits := reader.fits _ other size found
    rw [List.length_take] at fits
    have read := reader.settled _ other size found (piece.drop size)
    rw [List.take_take, Nat.min_eq_left (by omega), List.take_append_drop, whole] at read
    have same : piece.length = size := congrArg Prod.snd (Option.some.inj read)
    omega

theorem next_take {input : List α} {size : Nat} (found : reader.next input = some (frame, size)) :
    reader.next (input.take size) = some (frame, (input.take size).length) := by
  have read := reader.settled input frame size found []
  rw [List.append_nil] at read
  rw [read, List.length_take, Nat.min_eq_left (reader.fits input frame size found)]

end Reader

namespace Frames

variable {reader : Reader α φ} {first second : List α} {early late : List φ}

theorem append (before : Frames reader first early) (after : Frames reader second late) :
    Frames reader (first ++ second) (early ++ late) := by
  induction before with
  | nil => exact after
  | cons head _ ih =>
    rw [List.append_assoc, List.cons_append]
    exact .cons head ih

theorem single {piece : List α} {frame : φ}
    (head : reader.next piece = some (frame, piece.length)) : Frames reader piece [frame] := by
  have one := Frames.cons head Frames.nil
  rwa [List.append_nil] at one

theorem snoc {piece : List α} {frame : φ} (before : Frames reader first early)
    (last : reader.next piece = some (frame, piece.length)) :
    Frames reader (first ++ piece) (early ++ [frame]) :=
  before.append (single last)

/-- Frames that stop where the next one cannot be read are all that the input starts with. -/
theorem longest {other behind rest : List α} {others : List φ} (framed : Frames reader first early)
    (stops : reader.next rest = none) (also : Frames reader other others)
    (same : first ++ rest = other ++ behind) : other <+: first ∧ others <+: early := by
  induction also generalizing first early with
  | nil => exact ⟨List.nil_prefix, List.nil_prefix⟩
  | @cons piece tail frame frames head _ ih =>
    have read : reader.next (first ++ rest) = some (frame, piece.length) := by
      rw [same, List.append_assoc]
      exact Reader.next_append head _
    cases framed with
    | nil =>
      rw [List.nil_append, stops] at read
      cases read
    | @cons found after held helds found_head found_tail =>
      rw [List.append_assoc, Reader.next_append found_head] at read
      have sizes : found.length = piece.length := congrArg Prod.snd (Option.some.inj read)
      have frames_eq : held = frame := congrArg Prod.fst (Option.some.inj read)
      rw [List.append_assoc, List.append_assoc] at same
      obtain ⟨pieces, rests⟩ := List.append_inj same sizes
      obtain ⟨inside, fewer⟩ := ih found_tail rests
      subst pieces frames_eq
      exact ⟨List.prefix_append_right_inj found |>.mpr inside, List.prefix_cons_inj held |>.mpr fewer⟩

end Frames

variable {reader : Reader α φ} {apply : σ → φ → σ}

/-- Whole frames are folded, and the scan stops where the next one cannot be read. -/
theorem scan_frames {good rest : List α} {frames : List φ} {fuel : Nat} {state : σ}
    (framed : Frames reader good frames) (stops : reader.next rest = none)
    (enough : (good ++ rest).length ≤ fuel) :
    scan reader.next apply fuel (good ++ rest) state = (frames.foldl apply state, rest) := by
  induction framed generalizing fuel state with
  | nil =>
    cases fuel with
    | zero => rfl
    | succ fuel =>
      show (match reader.next rest with
        | none => (state, rest)
        | some (frame, size) => scan reader.next apply fuel (rest.drop size) (apply state frame)) =
        (state, rest)
      rw [stops]
  | @cons piece others frame frames head tail ih =>
    have positive := reader.positive _ _ _ head
    cases fuel with
    | zero =>
      simp only [List.length_append] at enough
      omega
    | succ fuel =>
      unfold scan
      rw [List.append_assoc, Reader.next_append head]
      simp only [List.drop_left, List.foldl_cons]
      apply ih
      simp only [List.length_append] at enough ⊢
      omega

/-- Every scan with enough fuel splits its input into whole frames and a rest that starts with
    none. -/
theorem scan_splits (reader : Reader α φ) (apply : σ → φ → σ) (fuel : Nat) (input : List α)
    (state : σ) (enough : input.length ≤ fuel) :
    ∃ good frames rest, input = good ++ rest ∧ Frames reader good frames ∧
      reader.next rest = none ∧
      scan reader.next apply fuel input state = (frames.foldl apply state, rest) := by
  induction fuel generalizing input state with
  | zero =>
    have empty : input = [] := List.length_eq_zero_iff.mp (Nat.le_zero.mp enough)
    subst empty
    exact ⟨[], [], [], rfl, .nil, reader.next_nil, rfl⟩
  | succ fuel ih =>
    cases found : reader.next input with
    | none =>
      refine ⟨[], [], input, rfl, .nil, found, ?_⟩
      unfold scan
      rw [found]
      rfl
    | some pair =>
      obtain ⟨frame, size⟩ := pair
      have positive := reader.positive input frame size found
      have shorter : (input.drop size).length ≤ fuel := by
        rw [List.length_drop]
        omega
      obtain ⟨good, frames, rest, split, framed, stops, scanned⟩ :=
        ih (input.drop size) (apply state frame) shorter
      refine ⟨input.take size ++ good, frame :: frames, rest, ?_, .cons (Reader.next_take found) framed,
        stops, ?_⟩
      · rw [List.append_assoc, ← split, List.take_append_drop]
      · unfold scan
        rw [found]
        exact scanned

end Kaspaverse.Framed
