import Mathlib
import Kaspaverse.Chain.Coins

namespace Kaspaverse.Chain

/-- One leg as its submit began. -/
structure LoggedLeg where
  txid : TransactionId
  inputs : List UtxoEntryId
  /-- Its submit has returned, with the request possibly sent. -/
  returned : Bool
  deriving DecidableEq

/-- Every leg logged just before its submit, in order, and the floor of every read between its
    snapshot and its decision. -/
structure SubmitLog where
  legs : List (Nat × LoggedLeg)
  nextLeg : Nat
  readers : List Nat
  ordered : legs.Pairwise fun a b => a.1 < b.1
  below : ∀ entry ∈ legs, entry.1 < nextLeg

namespace SubmitLog

def empty : SubmitLog := ⟨[], 0, [], .nil, by simp⟩

def submitting (log : SubmitLog) (txid : TransactionId) (inputs : List UtxoEntryId) : SubmitLog where
  legs := log.legs ++ [(log.nextLeg, ⟨txid, inputs, false⟩)]
  nextLeg := log.nextLeg + 1
  readers := log.readers
  ordered := by
    rw [List.pairwise_append]
    exact ⟨log.ordered, List.pairwise_singleton _ _, by simpa using log.below⟩
  below := by
    intro entry member
    rcases List.mem_append.mp member with old | new
    · have := log.below entry old
      omega
    · rw [List.mem_singleton.mp new]
      exact Nat.lt_succ_self _

/-- The latest entry of `txid` still in its submit. -/
def openEntry (log : SubmitLog) (txid : TransactionId) : Option Nat :=
  (log.legs.reverse.find? fun entry => entry.2.txid == txid && !entry.2.returned).map Prod.fst

def marked (seq : Nat) (entry : Nat × LoggedLeg) : Nat × LoggedLeg :=
  if entry.1 = seq then (entry.1, { entry.2 with returned := true }) else entry

theorem marked_seq (seq : Nat) (entry : Nat × LoggedLeg) : (marked seq entry).1 = entry.1 := by
  unfold marked
  split <;> rfl

theorem map_marked {seq : Nat} {entries : List (Nat × LoggedLeg)}
    (others : ∀ entry ∈ entries, entry.1 ≠ seq) : entries.map (marked seq) = entries := by
  have same : entries.map (marked seq) = entries.map id := by
    apply List.map_congr_left
    intro entry member
    exact if_neg (others entry member)
  rw [same, List.map_id]

def markReturned (log : SubmitLog) (seq : Nat) : SubmitLog where
  legs := log.legs.map (marked seq)
  nextLeg := log.nextLeg
  readers := log.readers
  ordered := by
    rw [List.pairwise_map]
    apply log.ordered.imp
    intro a b less
    rw [marked_seq, marked_seq]
    exact less
  below := by
    intro entry member
    obtain ⟨old, found, rfl⟩ := List.mem_map.mp member
    rw [marked_seq]
    exact log.below old found

/-- Keep the entries `keep` accepts. -/
def retain (log : SubmitLog) (keep : Nat × LoggedLeg → Bool) : SubmitLog where
  legs := log.legs.filter keep
  nextLeg := log.nextLeg
  readers := log.readers
  ordered := log.ordered.sublist List.filter_sublist
  below := fun entry member => log.below entry (List.mem_filter.mp member).1

/-- The entry of a submit that returned: marked where the request may have left, else removed. -/
def note (log : SubmitLog) (txid : TransactionId) (mayHaveLeft : Bool) : SubmitLog :=
  match log.openEntry txid with
  | none => log
  | some seq =>
    if mayHaveLeft then log.markReturned seq else log.retain fun entry => entry.1 != seq

/-- A returned leg below every read's floor leaves the log. -/
def prune (log : SubmitLog) : SubmitLog :=
  log.retain fun entry => !entry.2.returned || log.readers.any (· ≤ entry.1)

/-- The floor of a read beginning now: the first leg still in its submit, or the next to come. -/
def floor (log : SubmitLog) : Nat :=
  ((log.legs.find? fun entry => !entry.2.returned).map Prod.fst).getD log.nextLeg

def beginRead (log : SubmitLog) : Nat × SubmitLog :=
  (log.floor, { log with readers := log.floor :: log.readers })

/-- The coins every leg logged from `floor` on spends. -/
def loggedFrom (log : SubmitLog) (floor : Nat) : List UtxoEntryId :=
  (log.legs.filter fun entry => floor ≤ entry.1).flatMap fun entry => entry.2.inputs

def endRead (log : SubmitLog) (floor : Nat) : SubmitLog :=
  { log with readers := log.readers.erase floor }.prune

/-- The txids of the legs still in their submit. -/
def submits (log : SubmitLog) : List TransactionId :=
  (log.legs.filter fun entry => !entry.2.returned).map fun entry => entry.2.txid

/-- How many submits of `txid` have not returned. -/
def openCount (log : SubmitLog) (txid : TransactionId) : Nat :=
  log.legs.countP fun entry => entry.2.txid == txid && !entry.2.returned

theorem mem_submitting {log : SubmitLog} {txid : TransactionId} {inputs : List UtxoEntryId}
    {entry : Nat × LoggedLeg} :
    entry ∈ (log.submitting txid inputs).legs ↔
      entry ∈ log.legs ∨ entry = (log.nextLeg, ⟨txid, inputs, false⟩) := by
  simp [submitting]

theorem mem_prune {log : SubmitLog} {entry : Nat × LoggedLeg} :
    entry ∈ log.prune.legs ↔
      entry ∈ log.legs ∧ (entry.2.returned = false ∨ ∃ floor ∈ log.readers, floor ≤ entry.1) := by
  simp [prune, retain]

theorem openCount_submitting (log : SubmitLog) (txid other : TransactionId)
    (inputs : List UtxoEntryId) :
    (log.submitting txid inputs).openCount other =
      log.openCount other + if txid = other then 1 else 0 := by
  simp only [openCount, submitting, List.countP_append, List.countP_singleton]
  by_cases same : txid = other <;> simp [same]

theorem openCount_prune (log : SubmitLog) (txid : TransactionId) :
    log.prune.openCount txid = log.openCount txid := by
  simp only [openCount, prune, retain, List.countP_filter]
  apply List.countP_congr
  intro entry _
  cases entry.2.returned <;> simp

theorem mem_submits {log : SubmitLog} {txid : TransactionId} :
    txid ∈ log.submits ↔ 0 < log.openCount txid := by
  simp only [submits, openCount, List.mem_map, List.mem_filter, List.countP_pos_iff, Bool.and_eq_true,
    beq_iff_eq]
  constructor
  · rintro ⟨entry, ⟨member, still⟩, named⟩
    exact ⟨entry, member, named, still⟩
  · rintro ⟨entry, member, named, still⟩
    exact ⟨entry, ⟨member, still⟩, named⟩

theorem exists_open_of_count {log : SubmitLog} {txid : TransactionId} (h : 0 < log.openCount txid) :
    ∃ entry ∈ log.legs, entry.2.txid = txid ∧ entry.2.returned = false := by
  obtain ⟨entry, member, holds⟩ := List.countP_pos_iff.mp h
  simp only [Bool.and_eq_true, beq_iff_eq, Bool.not_eq_true'] at holds
  exact ⟨entry, member, holds⟩

theorem openCount_pos {log : SubmitLog} {txid : TransactionId} {entry : Nat × LoggedLeg}
    (member : entry ∈ log.legs) (named : entry.2.txid = txid) (still : entry.2.returned = false) :
    0 < log.openCount txid := by
  apply List.countP_pos_iff.mpr
  exact ⟨entry, member, by simp [named, still]⟩

/-- What noting a return does: nothing where no submit of `txid` is open, else the latest open
    entry is marked or removed. -/
theorem note_cases (log : SubmitLog) (txid : TransactionId) (mayHaveLeft : Bool) :
    (log.openCount txid = 0 ∧ log.note txid mayHaveLeft = log) ∨
    ∃ before seq inputs after,
      log.legs = before ++ (seq, ⟨txid, inputs, false⟩) :: after ∧
      (∀ entry ∈ after, seq < entry.1) ∧
      (log.note txid mayHaveLeft).legs =
        before ++ (if mayHaveLeft then [(seq, ⟨txid, inputs, true⟩)] else []) ++ after ∧
      (log.note txid mayHaveLeft).readers = log.readers ∧
      (log.note txid mayHaveLeft).nextLeg = log.nextLeg := by
  cases found : log.openEntry txid with
  | none =>
    apply Or.inl
    constructor
    · unfold openCount
      apply List.countP_eq_zero.mpr
      have none_ := Option.map_eq_none_iff.mp found
      intro entry member
      exact List.find?_eq_none.mp none_ entry (List.mem_reverse.mpr member)
    · simp only [note, found]
  | some seq =>
    apply Or.inr
    obtain ⟨⟨seq', leg⟩, isFound, rfl⟩ := Option.map_eq_some_iff.mp found
    have isOpen := List.find?_some isFound
    simp only [Bool.and_eq_true, beq_iff_eq, Bool.not_eq_true'] at isOpen
    have member := List.mem_reverse.mp (List.mem_of_find?_eq_some isFound)
    obtain ⟨before, after, split⟩ := List.append_of_mem member
    have ordered := log.ordered
    rw [split, List.pairwise_append, List.pairwise_cons] at ordered
    obtain ⟨_, ⟨later, _⟩, earlier⟩ := ordered
    have below : ∀ entry ∈ before, entry.1 ≠ seq' := by
      intro entry inside
      have less := earlier entry inside _ (List.mem_cons_self)
      simp only at less
      omega
    have above : ∀ entry ∈ after, entry.1 ≠ seq' := by
      intro entry inside
      have less := later entry inside
      simp only at less
      omega
    obtain ⟨txid', inputs, returned⟩ := leg
    obtain ⟨rfl, rfl⟩ := isOpen
    refine ⟨before, seq', inputs, after, split, later, ?_, ?_, ?_⟩
    · cases mayHaveLeft with
      | true =>
        simp only [note, found, if_true, markReturned, split, List.map_append, List.map_cons,
          map_marked below, map_marked above, marked, List.append_assoc, List.cons_append,
          List.nil_append]
      | false =>
        have keepBefore : before.filter (fun entry => entry.1 != seq') = before := by
          apply List.filter_eq_self.mpr
          intro entry inside
          exact bne_iff_ne.mpr (below entry inside)
        have keepAfter : after.filter (fun entry => entry.1 != seq') = after := by
          apply List.filter_eq_self.mpr
          intro entry inside
          exact bne_iff_ne.mpr (above entry inside)
        simp [note, found, retain, split, keepBefore, keepAfter]
    · cases mayHaveLeft <;> simp only [note, found] <;> rfl
    · cases mayHaveLeft <;> simp only [note, found] <;> rfl

theorem openCount_note (log : SubmitLog) (txid other : TransactionId) (mayHaveLeft : Bool) :
    (log.note txid mayHaveLeft).openCount other =
      if txid = other then log.openCount other - 1 else log.openCount other := by
  rcases note_cases log txid mayHaveLeft with ⟨none_, same⟩ |
    ⟨before, seq, inputs, after, legs, _, noted, _, _⟩
  · rw [same]
    split
    · rename_i named
      rw [← named]
      omega
    · rfl
  · simp only [openCount, legs, noted]
    by_cases named : txid = other
    · cases mayHaveLeft <;> simp only [named] <;> simp <;> omega
    · cases mayHaveLeft <;> simp [named]

theorem mem_note_of_returned {log : SubmitLog} (txid : TransactionId) (mayHaveLeft : Bool)
    {entry : Nat × LoggedLeg} (member : entry ∈ log.legs) (back : entry.2.returned = true) :
    entry ∈ (log.note txid mayHaveLeft).legs := by
  rcases note_cases log txid mayHaveLeft with ⟨_, same⟩ |
    ⟨before, seq, inputs, after, legs, _, noted, _, _⟩
  · rw [same]
    exact member
  · rw [legs] at member
    rw [noted]
    rcases List.mem_append.mp member with early | late
    · exact List.mem_append_left _ (List.mem_append_left _ early)
    · rcases List.mem_cons.mp late with here | later
      · rw [here] at back
        cases back
      · exact List.mem_append_right _ later

/-- An entry a noting leaves open stood open before it. -/
theorem mem_of_mem_note {log : SubmitLog} {txid : TransactionId} {mayHaveLeft : Bool}
    {entry : Nat × LoggedLeg} (member : entry ∈ (log.note txid mayHaveLeft).legs) :
    ∃ old ∈ log.legs, old.1 = entry.1 ∧ old.2.txid = entry.2.txid ∧
      old.2.inputs = entry.2.inputs ∧ (entry.2.returned = false → old = entry) := by
  rcases note_cases log txid mayHaveLeft with ⟨_, same⟩ |
    ⟨before, seq, inputs, after, legs, _, noted, _, _⟩
  · rw [same] at member
    exact ⟨entry, member, rfl, rfl, rfl, fun _ => rfl⟩
  · rw [noted] at member
    rw [legs]
    rcases List.mem_append.mp member with early | late
    · rcases List.mem_append.mp early with first | here
      · exact ⟨entry, List.mem_append_left _ first, rfl, rfl, rfl, fun _ => rfl⟩
      · cases mayHaveLeft with
        | true =>
          rw [List.mem_singleton.mp here]
          refine ⟨(seq, ⟨txid, inputs, false⟩), ?_, rfl, rfl, rfl, fun still => by cases still⟩
          exact List.mem_append_right _ List.mem_cons_self
        | false => cases here
    · refine ⟨entry, ?_, rfl, rfl, rfl, fun _ => rfl⟩
      exact List.mem_append_right _ (List.mem_cons_of_mem _ late)

theorem note_readers (log : SubmitLog) (txid : TransactionId) (mayHaveLeft : Bool) :
    (log.note txid mayHaveLeft).readers = log.readers := by
  rcases note_cases log txid mayHaveLeft with ⟨_, same⟩ | ⟨_, _, _, _, _, _, _, readers, _⟩
  · rw [same]
  · exact readers

theorem note_nextLeg (log : SubmitLog) (txid : TransactionId) (mayHaveLeft : Bool) :
    (log.note txid mayHaveLeft).nextLeg = log.nextLeg := by
  rcases note_cases log txid mayHaveLeft with ⟨_, same⟩ | ⟨_, _, _, _, _, _, _, _, nextLeg⟩
  · rw [same]
  · exact nextLeg

theorem returned_of_note {log : SubmitLog} {txid : TransactionId} (isOpen : 0 < log.openCount txid) :
    ∃ old ∈ log.legs, old.2.txid = txid ∧ old.2.returned = false ∧
      (old.1, { old.2 with returned := true }) ∈ (log.note txid true).legs := by
  rcases note_cases log txid true with ⟨none_, _⟩ | ⟨before, seq, inputs, after, legs, _, noted, _, _⟩
  · omega
  · refine ⟨(seq, ⟨txid, inputs, false⟩), ?_, rfl, rfl, ?_⟩
    · rw [legs]
      exact List.mem_append_right _ List.mem_cons_self
    · rw [noted]
      exact List.mem_append_left _ (List.mem_append_right _ (List.mem_singleton_self _))

theorem floor_le_open {log : SubmitLog} {entry : Nat × LoggedLeg} (member : entry ∈ log.legs)
    (still : entry.2.returned = false) : log.floor ≤ entry.1 := by
  unfold floor
  cases found : log.legs.find? fun entry => !entry.2.returned with
  | none =>
    have closed := List.find?_eq_none.mp found entry member
    simp [still] at closed
  | some first =>
    obtain ⟨_, before, after, split, earlier⟩ := List.find?_eq_some_iff_append.mp found
    rw [split] at member
    change first.1 ≤ entry.1
    have ordered := log.ordered
    rw [split, List.pairwise_append, List.pairwise_cons] at ordered
    rcases List.mem_append.mp member with inside | rest
    · have closed := earlier entry inside
      simp [still] at closed
    · rcases List.mem_cons.mp rest with here | later
      · rw [here]
      · exact le_of_lt (ordered.2.1.1 entry later)

theorem floor_le_nextLeg (log : SubmitLog) : log.floor ≤ log.nextLeg := by
  unfold floor
  cases found : log.legs.find? fun entry => !entry.2.returned with
  | none => exact le_rfl
  | some first => exact le_of_lt (log.below first (List.mem_of_find?_eq_some found))

theorem mem_loggedFrom {log : SubmitLog} {floor : Nat} {entry : Nat × LoggedLeg} {coin : UtxoEntryId}
    (member : entry ∈ log.legs) (above : floor ≤ entry.1) (input : coin ∈ entry.2.inputs) :
    coin ∈ log.loggedFrom floor := by
  apply List.mem_flatMap.mpr
  exact ⟨entry, List.mem_filter.mpr ⟨member, by simpa using above⟩, input⟩

end SubmitLog

end Kaspaverse.Chain
