import Kaspaverse.Library.KeyedMap
import Kaspaverse.Library.Machine

namespace Kaspaverse.Rewrite

variable {κ υ C : Type*}

/-- How a map is put into a file. An empty file holds none. -/
structure Format (κ υ : Type*) [DecidableEq κ] where
  encode : KeyMap κ υ → Except String (List UInt8)
  decode : List UInt8 → Option (KeyMap κ υ)
  inverts : ∀ m bytes, encode m = .ok bytes → ∃ again, decode bytes = some again ∧
    ∀ k, again.lookup k = m.lookup k
  empty : decode [] = none

/-- How far one caller is with reading the file, changing what it read and writing all of it back.
    A caller that has returned keeps how many callers there were by then. -/
inductive Stage (κ υ : Type*)
  | started
  | loaded (seen : Option (KeyMap κ υ))
  | changed (seen : Option (KeyMap κ υ)) (new : KeyMap κ υ)
  | emptied (seen : Option (KeyMap κ υ)) (new : KeyMap κ υ) (bytes : List UInt8)
  | returned (seen : Option (KeyMap κ υ)) (callers : ℕ)

/-- What a caller that has emptied the file is about to write. -/
def Stage.pending : Stage κ υ → Option (KeyMap κ υ)
  | .emptied _ new _ => some new
  | _ => none

def Stage.isReturned : Stage κ υ → Bool
  | .returned _ _ => true
  | _ => false

inductive Step (C : Type*)
  | start (call : C)
  | load (i : ℕ)
  | change (i : ℕ)
  | empty (i : ℕ)
  | write (i : ℕ)
deriving DecidableEq

structure File (κ υ C : Type*) where
  bytes : Option (List UInt8)
  calls : List (C × Stage κ υ)

namespace File

variable [DecidableEq κ]

def goto (file : File κ υ C) (i : ℕ) (call : C) (stage : Stage κ υ) : File κ υ C :=
  { file with calls := file.calls.set i (call, stage) }

def read (format : Format κ υ) (file : File κ υ C) : Option (KeyMap κ υ) :=
  file.bytes.bind format.decode

/-- One step of one caller. A write goes over the bytes from the first on: the file was emptied by
    the caller, but another one may have written since. -/
def step (format : Format κ υ) (update : C → Option (KeyMap κ υ) → Option (KeyMap κ υ))
    (file : File κ υ C) : Step C → Option (File κ υ C)
  | .start call => some { file with calls := file.calls ++ [(call, .started)] }
  | .load i =>
    match file.calls[i]? with
    | some (call, .started) => some (file.goto i call (.loaded (file.read format)))
    | _ => none
  | .change i =>
    match file.calls[i]? with
    | some (call, .loaded seen) =>
      match update call seen with
      | none => some (file.goto i call (.returned seen file.calls.length))
      | some new => some (file.goto i call (.changed seen new))
    | _ => none
  | .empty i =>
    match file.calls[i]? with
    | some (call, .changed seen new) =>
      match format.encode new with
      | .error _ => none
      | .ok bytes => some { file.goto i call (.emptied seen new bytes) with bytes := some [] }
    | _ => none
  | .write i =>
    match file.calls[i]? with
    | some (call, .emptied seen _ bytes) =>
      some { file.goto i call (.returned seen file.calls.length) with
        bytes := some (bytes ++ (file.bytes.getD []).drop bytes.length) }
    | _ => none

/-- An absent or unreadable file is an empty map. -/
def load (format : Format κ υ) (file : File κ υ C) : KeyMap κ υ := (file.read format).getD ∅

/-- What the file holds once the write under way is done. -/
def settled (format : Format κ υ) (file : File κ υ C) : KeyMap κ υ :=
  match file.calls.findSome? (·.2.pending) with
  | some new => new
  | none => file.load format

/-- No caller has the file emptied. -/
def quiet (file : File κ υ C) : Bool := file.calls.all fun call => call.2.pending.isNone

/-- The call a step is of. -/
def caller (file : File κ υ C) : Step C → Option C
  | .start call => some call
  | .load i | .change i | .empty i | .write i => file.calls[i]?.map Prod.fst

/-- A caller empties the file only while no other has it emptied, and while `clear` accepts what the
    caller had read beside what the file holds by now. -/
def orderly (format : Format κ υ) (clear : C → Option (KeyMap κ υ) → KeyMap κ υ → Bool)
    (file : File κ υ C) : Step C → Bool
  | .empty i =>
    match file.calls[i]? with
    | some (call, .changed seen _) => file.quiet && clear call seen (file.settled format)
    | _ => true
  | _ => true

variable {format : Format κ υ} {update : C → Option (KeyMap κ υ) → Option (KeyMap κ υ)}
  {clear : C → Option (KeyMap κ υ) → KeyMap κ υ → Bool} {file next : File κ υ C} {i : ℕ}

/-- What a step of the caller at `i` does: where the call stood, where it goes and the bytes it leaves. -/
inductive Moves (format : Format κ υ) (update : C → Option (KeyMap κ υ) → Option (KeyMap κ υ))
    (file : File κ υ C) (i : ℕ) (call : C) :
    Step C → Stage κ υ → Stage κ υ → Option (List UInt8) → Prop
  | load : Moves format update file i call (.load i) .started (.loaded (file.read format)) file.bytes
  | keep {seen : Option (KeyMap κ υ)} (same : update call seen = none) :
      Moves format update file i call (.change i) (.loaded seen) (.returned seen file.calls.length) file.bytes
  | change {seen : Option (KeyMap κ υ)} {new : KeyMap κ υ} (changes : update call seen = some new) :
      Moves format update file i call (.change i) (.loaded seen) (.changed seen new) file.bytes
  | empty {seen : Option (KeyMap κ υ)} {new : KeyMap κ υ} {bytes : List UInt8}
      (encoded : format.encode new = .ok bytes) :
      Moves format update file i call (.empty i) (.changed seen new) (.emptied seen new bytes) (some [])
  | write {seen : Option (KeyMap κ υ)} {new : KeyMap κ υ} {bytes : List UInt8} :
      Moves format update file i call (.write i) (.emptied seen new bytes)
        (.returned seen file.calls.length) (some (bytes ++ (file.bytes.getD []).drop bytes.length))

theorem step_cases {event : Step C} (happens : file.step format update event = some next) :
    (∃ call, event = .start call ∧ next = { file with calls := file.calls ++ [(call, .started)] }) ∨
      ∃ i call stage after bytes, Moves format update file i call event stage after bytes ∧
        file.calls[i]? = some (call, stage) ∧ next = ⟨bytes, file.calls.set i (call, after)⟩ := by
  cases event with
  | start call =>
    cases happens
    exact Or.inl ⟨call, rfl, rfl⟩
  | load i =>
    simp only [step] at happens
    split at happens
    case h_1 call at_ =>
      cases happens
      exact Or.inr ⟨i, call, _, _, _, .load, at_, rfl⟩
    case h_2 => cases happens
  | change i =>
    simp only [step] at happens
    split at happens
    case h_1 call seen at_ =>
      split at happens
      case h_1 same =>
        cases happens
        exact Or.inr ⟨i, call, _, _, _, .keep same, at_, rfl⟩
      case h_2 new changes =>
        cases happens
        exact Or.inr ⟨i, call, _, _, _, .change changes, at_, rfl⟩
    case h_2 => cases happens
  | empty i =>
    simp only [step] at happens
    split at happens
    case h_1 call seen new at_ =>
      split at happens
      case h_1 => cases happens
      case h_2 bytes encoded =>
        cases happens
        exact Or.inr ⟨i, call, _, _, _, .empty encoded, at_, rfl⟩
    case h_2 => cases happens
  | write i =>
    simp only [step] at happens
    split at happens
    case h_1 call seen new bytes at_ =>
      cases happens
      exact Or.inr ⟨i, call, _, _, _, .write, at_, rfl⟩
    case h_2 => cases happens

/-- At most one caller has the file emptied, and then it is. What a caller saves is its change of
    what it read. -/
structure Sound (format : Format κ υ) (update : C → Option (KeyMap κ υ) → Option (KeyMap κ υ))
    (file : File κ υ C) : Prop where
  alone : ∀ (i : ℕ) (call : C) (seen : Option (KeyMap κ υ)) (new : KeyMap κ υ) (bytes : List UInt8),
    file.calls[i]? = some (call, .emptied seen new bytes) →
    file.bytes = some [] ∧ format.encode new = .ok bytes ∧
      ∀ (j : ℕ) (other : C × Stage κ υ), file.calls[j]? = some other → j ≠ i → other.2.pending = none
  changed : ∀ call seen new, (call, .changed seen new) ∈ file.calls → update call seen = some new

omit [DecidableEq κ] in
theorem quiet_iff : file.quiet = true ↔ ∀ call ∈ file.calls, call.2.pending = none := by
  simp only [quiet, List.all_eq_true, Option.isNone_iff_eq_none]

theorem settled_quiet (quiet : file.quiet = true) :
    file.settled format = file.load format := by
  have none : file.calls.findSome? (·.2.pending) = none :=
    List.findSome?_eq_none_iff.mpr (quiet_iff.mp quiet)
  rw [settled, none]

theorem Sound.settled_emptied (sound : file.Sound format update) {call : C}
    {seen : Option (KeyMap κ υ)} {new : KeyMap κ υ} {bytes : List UInt8}
    (at_ : file.calls[i]? = some (call, .emptied seen new bytes)) : file.settled format = new := by
  obtain ⟨_, _, alone⟩ := sound.alone i call seen new bytes at_
  cases found : file.calls.findSome? (·.2.pending) with
  | none =>
    have quiet := List.findSome?_eq_none_iff.mp found _ (List.mem_of_getElem? at_)
    cases quiet
  | some other =>
    obtain ⟨entry, member, pending⟩ := List.exists_of_findSome?_eq_some found
    obtain ⟨j, at_j⟩ := List.mem_iff_getElem?.mp member
    rw [settled, found]
    by_cases same : j = i
    · subst same
      rw [at_] at at_j
      cases at_j
      exact (Option.some.inj pending).symm
    · rw [alone j entry at_j same] at pending
      cases pending

omit [DecidableEq κ] in
theorem quiet_returned (returned : file.calls.all (·.2.isReturned) = true) : file.quiet = true := by
  apply quiet_iff.mpr
  intro ⟨call, stage⟩ member
  have done := List.all_eq_true.mp returned _ member
  cases stage with
  | returned => rfl
  | started | loaded | changed | emptied => cases done

theorem Sound.opened (format : Format κ υ) (update : C → Option (KeyMap κ υ) → Option (KeyMap κ υ))
    (bytes : Option (List UInt8)) : File.Sound format update ⟨bytes, []⟩ :=
  ⟨fun _ _ _ _ _ found => (nomatch found), fun _ _ _ none => (nomatch none)⟩

/-- What a caller reads is what the file holds, or nothing. -/
theorem Sound.settled_read (sound : file.Sound format update) {m : KeyMap κ υ}
    (read : file.read format = some m) : file.settled format = m := by
  cases found : file.calls.findSome? (·.2.pending) with
  | none =>
    rw [settled, found, load, read]
    rfl
  | some other =>
    obtain ⟨⟨call, stage⟩, member, pending⟩ := List.exists_of_findSome?_eq_some found
    obtain ⟨j, at_⟩ := List.mem_iff_getElem?.mp member
    cases stage with
    | emptied seen new bytes =>
      have emptied := (sound.alone j call seen new bytes at_).1
      rw [File.read, emptied, Option.bind_some, format.empty] at read
      cases read
    | started | loaded | changed | returned => cases pending

/-- A caller that neither empties the file nor writes to it leaves what the file holds. -/
theorem settled_moved {call : C} {stage after : Stage κ υ} (at_ : file.calls[i]? = some (call, stage))
    (same : after.pending = stage.pending) :
    File.settled format ⟨file.bytes, file.calls.set i (call, after)⟩ = file.settled format := by
  let pendingOf (entry : C × Stage κ υ) := entry.2.pending
  have pendings : (file.calls.set i (call, after)).map pendingOf = file.calls.map pendingOf := by
    rw [List.map_set]
    apply List.ext_getElem?
    intro j
    rw [List.getElem?_set]
    split
    case isTrue here =>
      subst here
      obtain ⟨bound, _⟩ := List.getElem?_eq_some_iff.mp at_
      rw [List.getElem?_map, at_, List.length_map, if_pos bound]
      exact congrArg some same
    case isFalse => rfl
  have found : (file.calls.set i (call, after)).findSome? pendingOf = file.calls.findSome? pendingOf := by
    have left := List.findSome?_map (f := pendingOf) (p := id) (l := file.calls.set i (call, after))
    have right := List.findSome?_map (f := pendingOf) (p := id) (l := file.calls)
    rw [pendings] at left
    exact left.symm.trans right
  unfold settled
  rw [show (file.calls.set i (call, after)).findSome? (·.2.pending) = _ from found]
  rfl

omit [DecidableEq κ] in
theorem getElem?_goto {call other : C} {after stage : Stage κ υ} {j : ℕ}
    (found : (file.calls.set i (call, after))[j]? = some (other, stage)) :
    (j = i ∧ other = call ∧ stage = after) ∨ (j ≠ i ∧ file.calls[j]? = some (other, stage)) := by
  rw [List.getElem?_set] at found
  split at found
  case isTrue here =>
    split at found
    · cases found
      exact Or.inl ⟨here.symm, rfl, rfl⟩
    · cases found
  case isFalse elsewhere => exact Or.inr ⟨fun same => elsewhere same.symm, found⟩

theorem Sound.moved (sound : file.Sound format update) {call : C} {after : Stage κ υ}
    (later : after.pending = none)
    (saves : ∀ seen new, after = .changed seen new → update call seen = some new) :
    File.Sound format update ⟨file.bytes, file.calls.set i (call, after)⟩ := by
  refine ⟨?_, ?_⟩
  · intro j other seen new bytes found
    rcases getElem?_goto found with ⟨_, _, same⟩ | ⟨away, found⟩
    · rw [← same] at later
      cases later
    · obtain ⟨emptied, encoded, alone⟩ := sound.alone j other seen new bytes found
      refine ⟨emptied, encoded, ?_⟩
      intro k third found_k elsewhere
      rcases getElem?_goto found_k with ⟨_, _, same⟩ | ⟨_, found_k⟩
      · rw [same]
        exact later
      · exact alone k third found_k elsewhere
  · intro other seen new member
    rcases List.mem_or_eq_of_mem_set member with old | same
    · exact sound.changed other seen new old
    · cases same
      exact saves seen new rfl

/-- An orderly step keeps at most one caller at the emptied file, and changes what the file holds only
    where a caller empties it to save what it made of what it read. -/
theorem Sound.step (sound : file.Sound format update) {event : Step C}
    (orderly : file.orderly format clear event = true)
    (happens : file.step format update event = some next) :
    next.Sound format update ∧
      ((∀ i, event ≠ .empty i) ∧
          (∀ k, (next.settled format).lookup k = (file.settled format).lookup k) ∨
      ∃ i call seen new, event = .empty i ∧ file.calls[i]? = some (call, .changed seen new) ∧
        clear call seen (file.settled format) = true ∧ next.settled format = new) := by
  rcases step_cases happens with ⟨call, rfl, rfl⟩ | ⟨i, call, stage, after, bytes, moves, at_, rfl⟩
  · have kept : File.settled format { file with calls := file.calls ++ [(call, .started)] } =
        file.settled format := by
      unfold settled
      rw [List.findSome?_append]
      cases file.calls.findSome? (·.2.pending) <;> rfl
    refine ⟨⟨?_, ?_⟩, Or.inl ⟨(fun _ same => nomatch same), fun _ => by rw [kept]⟩⟩
    · intro j other seen new bytes found
      rw [List.getElem?_append] at found
      split at found
      case isTrue bound =>
        obtain ⟨emptied, encoded, alone⟩ := sound.alone j other seen new bytes found
        refine ⟨emptied, encoded, ?_⟩
        intro k third found_k elsewhere
        rw [List.getElem?_append] at found_k
        split at found_k
        · exact alone k third found_k elsewhere
        · rw [(List.mem_singleton.mp (List.mem_of_getElem? found_k))]
          rfl
      case isFalse =>
        cases List.mem_singleton.mp (List.mem_of_getElem? found)
    · intro other seen new member
      rcases List.mem_append.mp member with old | added
      · exact sound.changed other seen new old
      · cases List.mem_singleton.mp added
  · cases moves with
    | load =>
      refine ⟨sound.moved rfl (fun _ _ changed => nomatch changed),
        Or.inl ⟨(fun _ same => nomatch same), ?_⟩⟩
      intro k
      exact congrArg (AList.lookup k) (settled_moved at_ rfl)
    | keep =>
      refine ⟨sound.moved rfl (fun _ _ changed => nomatch changed),
        Or.inl ⟨(fun _ same => nomatch same), ?_⟩⟩
      intro k
      exact congrArg (AList.lookup k) (settled_moved at_ rfl)
    | change changes =>
      refine ⟨sound.moved rfl ?_, Or.inl ⟨(fun _ same => nomatch same), ?_⟩⟩
      · intro seen new changed
        cases changed
        exact changes
      · intro k
        exact congrArg (AList.lookup k) (settled_moved at_ rfl)
    | @empty seen new bytes encoded =>
      simp only [File.orderly, at_, Bool.and_eq_true] at orderly
      obtain ⟨quiet, accepts⟩ := orderly
      obtain ⟨bound, _⟩ := List.getElem?_eq_some_iff.mp at_
      have emptied : (file.calls.set i (call, .emptied seen new bytes))[i]? =
          some (call, .emptied seen new bytes) := by
        rw [List.getElem?_set_self bound]
      have others : ∀ j other, (file.calls.set i (call, .emptied seen new bytes))[j]? = some other →
          j ≠ i → other.2.pending = none := by
        intro j other found elsewhere
        rcases getElem?_goto found with ⟨same, _⟩ | ⟨_, found⟩
        · exact absurd same elsewhere
        · exact quiet_iff.mp quiet other (List.mem_of_getElem? found)
      have after : File.Sound format update ⟨some [], file.calls.set i (call, .emptied seen new bytes)⟩ := by
        refine ⟨?_, ?_⟩
        · intro j other seen' new' bytes' found
          by_cases same : j = i
          · subst same
            rw [emptied] at found
            cases found
            exact ⟨rfl, encoded, others⟩
          · have none := others j _ found same
            cases none
        · intro other seen' new' member
          rcases List.mem_or_eq_of_mem_set member with old | same
          · exact sound.changed other seen' new' old
          · cases same
      exact ⟨after, Or.inr ⟨i, call, seen, new, rfl, at_, accepts, after.settled_emptied emptied⟩⟩
    | @write seen new bytes =>
      obtain ⟨emptied, encoded, alone⟩ := sound.alone i call seen new bytes at_
      obtain ⟨again, decoded, same⟩ := format.inverts new bytes encoded
      have quiet : ∀ entry ∈ file.calls.set i (call, .returned seen file.calls.length),
          entry.2.pending = none := by
        intro entry member
        obtain ⟨j, found⟩ := List.mem_iff_getElem?.mp member
        rcases getElem?_goto found with ⟨_, _, returned⟩ | ⟨elsewhere, found⟩
        · rw [returned]
          rfl
        · exact alone j entry found elsewhere
      refine ⟨⟨?_, ?_⟩, Or.inl ⟨(fun _ same => nomatch same), ?_⟩⟩
      · intro j other seen' new' bytes' found
        have none := quiet _ (List.mem_of_getElem? found)
        cases none
      · intro other seen' new' member
        rcases List.mem_or_eq_of_mem_set member with old | same
        · exact sound.changed other seen' new' old
        · cases same
      · intro k
        rw [settled_quiet (quiet_iff.mpr quiet), sound.settled_emptied at_, ← same]
        simp only [load, File.read, emptied, Option.getD_some, List.drop_nil, List.append_nil, Option.bind_some,
          decoded]

end File

end Kaspaverse.Rewrite
