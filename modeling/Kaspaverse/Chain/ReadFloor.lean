import Kaspaverse.Library.Machine
import Kaspaverse.Chain.Settles

namespace Kaspaverse.Chain.ReadFloor

inductive Fate
  | taken
  | unknown
  | refused
  deriving DecidableEq

/-- One submit, from its log entry to its return. -/
structure Leg where
  txid : TransactionId
  fate : Option Fate
  returned : Bool
  deriving DecidableEq

/-- One read: its floor and its copies, and the legs as they stood at its snapshot. -/
structure Reading where
  floor : Nat
  taken : KeyMap TransactionId OutgoingTransaction
  accepted : Finset TransactionId
  legsBefore : List Leg
  ended : Bool

structure System where
  inFlight : InFlightSends
  legs : List Leg
  reads : List Reading

inductive Event
  | submitting (txid : TransactionId)
  | noteTaken (leg : Nat) (record : OutgoingTransaction)
  | fateUnknown (leg : Nat) (coins : List UtxoEntryReference) (unknown : UnknownLeg)
  | refused (leg : Nat) (forgets : Bool)
  | submitReturned (leg now : Nat)
  | noteAccepted (txid : TransactionId) (daa now : Nat)
  | leave (txid : TransactionId) (now : Nat)
  | beginRead
  | endRead (read : Nat)

/-- The transaction a txid names fixes what it spends. -/
abbrev InputsOf := TransactionId → List UtxoEntryId

def System.noteFate (sys : System) (index : Nat) (leg : Leg) (fate : Fate)
    (inFlight : InFlightSends) : System :=
  { sys with inFlight := inFlight, legs := sys.legs.set index { leg with fate := some fate } }

/-- What a commit notes of a leg, once. -/
def System.note (sys : System) (index : Nat) (fate : Fate) (valid : Leg → Bool)
    (inFlight : Leg → InFlightSends) : Option System :=
  match sys.legs[index]? with
  | some leg => if leg.fate = none ∧ valid leg then some (sys.noteFate index leg fate (inFlight leg)) else none
  | none => none

def System.submitReturned (sys : System) (index : Nat) (leg : Leg) (now : Nat) : System :=
  { sys with
    inFlight := sys.inFlight.submitReturned leg.txid (leg.fate != some .refused) now
    legs := sys.legs.set index { leg with returned := true } }

def System.beginRead (sys : System) : System :=
  { sys with
    inFlight := sys.inFlight.beginRead.2
    reads := sys.reads ++
      [⟨sys.inFlight.beginRead.1, sys.inFlight.taken, sys.inFlight.accepted, sys.legs, false⟩] }

def System.endRead (sys : System) (index : Nat) (read : Reading) : System :=
  { sys with
    inFlight := sys.inFlight.endRead read.floor
    reads := sys.reads.set index { read with ended := true } }

def step (inputsOf : InputsOf) (sys : System) : Event → Option System
  | .submitting txid => some
      { sys with
        inFlight := sys.inFlight.submitting txid (inputsOf txid)
        legs := sys.legs ++ [⟨txid, none, false⟩] }
  | .noteTaken index record =>
    sys.note index .taken (fun leg => record.id == leg.txid) fun _ => sys.inFlight.noteTaken record
  | .fateUnknown index coins unknown =>
    sys.note index .unknown (fun leg => unknown.txid == leg.txid) fun leg =>
      (sys.inFlight.noteCancelled leg.txid coins).fateUnknown unknown
  | .refused index forgets =>
    -- `forget_leg` drops the record of the leg and returns its submit; a refused submit only returns.
    sys.note index .refused (fun _ => true) fun leg =>
      if forgets then { sys.inFlight with legMeta := sys.inFlight.legMeta.erase leg.txid }
      else sys.inFlight
  | .submitReturned index now =>
    match sys.legs[index]? with
    | some leg =>
      if leg.fate.isSome ∧ leg.returned = false then some (sys.submitReturned index leg now) else none
    | none => none
  | .noteAccepted txid daa now => some { sys with inFlight := sys.inFlight.noteAccepted txid daa now }
  | .leave txid now => some { sys with inFlight := sys.inFlight.leave txid now }
  | .beginRead => some sys.beginRead
  | .endRead index =>
    match sys.reads[index]? with
    | some read => if read.ended then none else some (sys.endRead index read)
    | none => none

/-- The leg is in sight of the read: its coins are withheld, or the read's own copies or the
    records before it know the leg. -/
def Reading.Sees (inputsOf : InputsOf) (sys : System) (read : Reading) (index : Nat) (leg : Leg) :
    Prop :=
  (∀ coin ∈ inputsOf leg.txid, coin ∈ sys.inFlight.log.loggedFrom read.floor) ∨
  leg.txid ∈ read.taken ∨ leg.txid ∈ read.accepted ∨
  ∃ before, read.legsBefore[index]? = some before ∧ before.fate = some .unknown

def unreturned (legs : List Leg) (txid : TransactionId) : Nat :=
  legs.countP fun leg => leg.txid == txid && !leg.returned

/-- The log counts the submits of every txid still out, and keeps a returned one while a read
    floors at or below it. -/
structure LogInv (inputsOf : InputsOf) (log : SubmitLog) (legs : List Leg) (reads : List Reading) :
    Prop where
  named : ∀ entry ∈ log.legs, entry.2.inputs = inputsOf entry.2.txid
  counted : ∀ txid, log.openCount txid = unreturned legs txid
  kept : ∀ entry ∈ log.legs, entry.2.returned = true → ∃ floor ∈ log.readers, floor ≤ entry.1
  readers : log.readers.Perm ((reads.filter fun read => !read.ended).map (·.floor))
  floors : ∀ read ∈ reads, read.ended = false → read.floor ≤ log.nextLeg ∧
    ∀ entry ∈ log.legs, entry.2.returned = false → read.floor ≤ entry.1
  returned : ∀ read ∈ reads, read.ended = false → ∀ (index : Nat) (leg : Leg), legs[index]? = some leg →
    leg.returned = true → leg.fate ≠ some .refused →
    (∀ before : Leg, read.legsBefore[index]? = some before → before.returned = false) →
    ∃ entry ∈ log.legs, entry.2.txid = leg.txid ∧ entry.2.returned = true ∧ read.floor ≤ entry.1

/-- What a read's copies hold of the legs returned before it. -/
structure CopyInv (legs : List Leg) (read : Reading) : Prop where
  known : ∀ before ∈ read.legsBefore, before.returned = true → before.fate = some .refused ∨
    before.fate = some .unknown ∨ before.txid ∈ read.taken ∨ before.txid ∈ read.accepted
  same : ∀ (index : Nat) (before : Leg), read.legsBefore[index]? = some before → ∃ leg, legs[index]? = some leg ∧
    leg.txid = before.txid ∧ (before.fate.isSome → leg.fate = before.fate)

structure Inv (inputsOf : InputsOf) (sys : System) : Prop where
  log : LogInv inputsOf sys.inFlight.log sys.legs sys.reads
  copies : ∀ read ∈ sys.reads, CopyInv sys.legs read
  noted : ∀ leg ∈ sys.legs, leg.returned = true → leg.fate.isSome
  recorded : ∀ leg ∈ sys.legs, leg.fate = some .taken →
    leg.txid ∈ sys.inFlight.taken ∨ leg.txid ∈ sys.inFlight.accepted

/-- **The invariant keeps every leg in sight of every read.** -/
theorem Inv.sees {inputsOf : InputsOf} {sys : System} (inv : Inv inputsOf sys) {read : Reading}
    (member : read ∈ sys.reads) (undecided : read.ended = false) {index : Nat} {leg : Leg}
    (atIndex : sys.legs[index]? = some leg) (sent : leg.fate ≠ some .refused) :
    read.Sees inputsOf sys index leg := by
  have copy := inv.copies read member
  have logged : ∀ entry ∈ sys.inFlight.log.legs, entry.2.txid = leg.txid → read.floor ≤ entry.1 →
      read.Sees inputsOf sys index leg := by
    intro entry inside named above
    apply Or.inl
    intro coin input
    apply SubmitLog.mem_loggedFrom inside above
    rw [inv.log.named entry inside, named]
    exact input
  by_cases past : ∃ before, read.legsBefore[index]? = some before ∧ before.returned = true
  · obtain ⟨before, wasThere, wasReturned⟩ := past
    obtain ⟨now, isNow, sameTxid, sameFate⟩ := copy.same index before wasThere
    rw [atIndex] at isNow
    cases isNow
    rcases copy.known before (List.mem_of_getElem? wasThere) wasReturned with
      refused | unknown | taken | accepted
    · have kept := sameFate (by rw [refused]; rfl)
      exact absurd (kept.trans refused) sent
    · exact Or.inr (Or.inr (Or.inr ⟨before, wasThere, unknown⟩))
    · rw [← sameTxid] at taken
      exact Or.inr (Or.inl taken)
    · rw [← sameTxid] at accepted
      exact Or.inr (Or.inr (Or.inl accepted))
  · have notPast : ∀ before, read.legsBefore[index]? = some before → before.returned = false := by
      intro before wasThere
      cases back : before.returned with
      | false => rfl
      | true => exact absurd ⟨before, wasThere, back⟩ past
    cases back : leg.returned with
    | true =>
      obtain ⟨entry, inside, named, _, above⟩ :=
        inv.log.returned read member undecided index leg atIndex back sent notPast
      exact logged entry inside named above
    | false =>
      have out : 0 < unreturned sys.legs leg.txid := by
        apply List.countP_pos_iff.mpr
        exact ⟨leg, List.mem_of_getElem? atIndex, by simp [back]⟩
      rw [← inv.log.counted] at out
      obtain ⟨entry, inside, named, still⟩ := SubmitLog.exists_open_of_count out
      exact logged entry inside named ((inv.log.floors read member undecided).2 entry inside still)

/-- **Once every submit returned and every read ended, nothing is logged.** -/
theorem Inv.drained {inputsOf : InputsOf} {sys : System} (inv : Inv inputsOf sys)
    (returned : ∀ leg ∈ sys.legs, leg.returned = true) (ended : ∀ read ∈ sys.reads, read.ended = true) :
    sys.inFlight.log.legs = [] := by
  apply List.eq_nil_iff_forall_not_mem.mpr
  intro entry inside
  cases back : entry.2.returned with
  | true =>
    obtain ⟨floor, reader, _⟩ := inv.log.kept entry inside back
    obtain ⟨read, member, _⟩ := List.mem_map.mp (inv.log.readers.mem_iff.mp reader)
    have both := List.mem_filter.mp member
    rw [ended read both.1] at both
    cases both.2
  | false =>
    have out := SubmitLog.openCount_pos inside rfl back
    rw [inv.log.counted] at out
    obtain ⟨leg, member, still⟩ := List.countP_pos_iff.mp out
    rw [returned leg member] at still
    simp at still

theorem LogInv.reader {inputsOf : InputsOf} {log : SubmitLog} {legs : List Leg}
    {reads : List Reading} (inv : LogInv inputsOf log legs reads) {read : Reading}
    (member : read ∈ reads) (undecided : read.ended = false) : read.floor ∈ log.readers := by
  apply inv.readers.mem_iff.mpr
  apply List.mem_map_of_mem
  exact List.mem_filter.mpr ⟨member, by simp [undecided]⟩

theorem logInv_submitting {inputsOf : InputsOf} {log : SubmitLog} {legs : List Leg}
    {reads : List Reading} (inv : LogInv inputsOf log legs reads) (txid : TransactionId) :
    LogInv inputsOf (log.submitting txid (inputsOf txid)) (legs ++ [⟨txid, none, false⟩]) reads := by
  refine ⟨?_, ?_, ?_, inv.readers, ?_, ?_⟩
  · intro entry member
    rcases SubmitLog.mem_submitting.mp member with old | new
    · exact inv.named entry old
    · rw [new]
  · intro other
    rw [SubmitLog.openCount_submitting, inv.counted, unreturned, unreturned, List.countP_append,
      List.countP_singleton]
    simp
  · intro entry member back
    rcases SubmitLog.mem_submitting.mp member with old | new
    · exact inv.kept entry old back
    · rw [new] at back
      cases back
  · intro read member undecided
    obtain ⟨bound, below⟩ := inv.floors read member undecided
    refine ⟨Nat.le_succ_of_le bound, ?_⟩
    intro entry inside still
    rcases SubmitLog.mem_submitting.mp inside with old | new
    · exact below entry old still
    · rw [new]
      exact bound
  · intro read member undecided index leg atIndex back sent notPast
    have old : legs[index]? = some leg := by
      rw [List.getElem?_append] at atIndex
      split at atIndex
      · exact atIndex
      · have new := List.mem_of_getElem? atIndex
        rw [List.mem_singleton.mp new] at back
        cases back
    obtain ⟨entry, inside, rest⟩ := inv.returned read member undecided index leg old back sent notPast
    exact ⟨entry, SubmitLog.mem_submitting.mpr (Or.inl inside), rest⟩

theorem unreturned_set {legs : List Leg} {index : Nat} {leg new : Leg}
    (atIndex : legs[index]? = some leg) (txid : TransactionId) :
    unreturned (legs.set index new) txid =
      unreturned legs txid - (if (leg.txid == txid && !leg.returned) = true then 1 else 0) +
        (if (new.txid == txid && !new.returned) = true then 1 else 0) := by
  obtain ⟨inside, isLeg⟩ := List.getElem?_eq_some_iff.mp atIndex
  unfold unreturned
  rw [List.countP_set inside, isLeg]

theorem logInv_note {inputsOf : InputsOf} {log : SubmitLog} {legs : List Leg}
    {reads : List Reading} (inv : LogInv inputsOf log legs reads) {index : Nat} {leg : Leg}
    (atIndex : legs[index]? = some leg) (out : leg.returned = false) (fate : Fate) :
    LogInv inputsOf log (legs.set index { leg with fate := some fate }) reads := by
  refine ⟨inv.named, ?_, inv.kept, inv.readers, inv.floors, ?_⟩
  · intro txid
    rw [inv.counted, unreturned_set atIndex]
    by_cases same : leg.txid = txid
    · have counted : 0 < unreturned legs txid := by
        apply List.countP_pos_iff.mpr
        exact ⟨leg, List.mem_of_getElem? atIndex, by simp [same, out]⟩
      simp [same, out]
      omega
    · simp [same]
  · intro read member undecided other leg' atOther back sent notPast
    rw [List.getElem?_set] at atOther
    split at atOther
    · split at atOther
      · cases atOther
        rw [out] at back
        cases back
      · cases atOther
    · exact inv.returned read member undecided other leg' atOther back sent notPast

theorem logInv_submitReturned {inputsOf : InputsOf} {log : SubmitLog} {legs : List Leg}
    {reads : List Reading} (inv : LogInv inputsOf log legs reads) {index : Nat} {leg : Leg}
    (atIndex : legs[index]? = some leg) (out : leg.returned = false) :
    LogInv inputsOf (log.note leg.txid (leg.fate != some .refused)).prune
      (legs.set index { leg with returned := true }) reads := by
  have prunedReaders : (log.note leg.txid (leg.fate != some .refused)).prune.readers = log.readers :=
    SubmitLog.note_readers log leg.txid _
  refine ⟨?_, ?_, ?_, ?_, ?_, ?_⟩
  · intro entry member
    obtain ⟨old, inside, _, sameTxid, sameInputs, _⟩ :=
      SubmitLog.mem_of_mem_note (SubmitLog.mem_prune.mp member).1
    rw [← sameInputs, ← sameTxid]
    exact inv.named old inside
  · intro txid
    rw [SubmitLog.openCount_prune, SubmitLog.openCount_note, inv.counted, unreturned_set atIndex]
    by_cases same : leg.txid = txid
    · simp [same, out]
    · simp [same]
  · intro entry member back
    rcases (SubmitLog.mem_prune.mp member).2 with still | floored
    · rw [back] at still
      cases still
    · exact floored
  · rw [prunedReaders]
    exact inv.readers
  · intro read member undecided
    obtain ⟨bound, below⟩ := inv.floors read member undecided
    constructor
    · change read.floor ≤ (log.note leg.txid _).nextLeg
      rw [SubmitLog.note_nextLeg]
      exact bound
    · intro entry inside still
      obtain ⟨old, oldInside, _, _, _, same⟩ :=
        SubmitLog.mem_of_mem_note (SubmitLog.mem_prune.mp inside).1
      have unchanged := same still
      rw [← unchanged] at still ⊢
      exact below old oldInside still
  · intro read member undecided other leg' atOther back sent notPast
    have reader := inv.reader member undecided
    rw [← SubmitLog.note_readers log leg.txid (leg.fate != some .refused)] at reader
    rw [List.getElem?_set] at atOther
    split at atOther
    · split at atOther
      · cases atOther
        have left : (leg.fate != some .refused) = true := bne_iff_ne.mpr sent
        have isOpen : 0 < log.openCount leg.txid := by
          rw [inv.counted]
          apply List.countP_pos_iff.mpr
          exact ⟨leg, List.mem_of_getElem? atIndex, by simp [out]⟩
        obtain ⟨old, inside, named, still, noted⟩ := SubmitLog.returned_of_note isOpen
        have above := (inv.floors read member undecided).2 old inside still
        rw [left] at reader ⊢
        refine ⟨_, SubmitLog.mem_prune.mpr ⟨noted, Or.inr ⟨read.floor, reader, above⟩⟩, named, rfl, above⟩
      · cases atOther
    · obtain ⟨entry, inside, named, returned, above⟩ :=
        inv.returned read member undecided other leg' atOther back sent notPast
      refine ⟨entry, ?_, named, returned, above⟩
      have still := SubmitLog.mem_note_of_returned leg.txid (leg.fate != some .refused) inside returned
      exact SubmitLog.mem_prune.mpr ⟨still, Or.inr ⟨read.floor, reader, above⟩⟩

theorem logInv_beginRead {inputsOf : InputsOf} {log : SubmitLog} {legs : List Leg}
    {reads : List Reading} (inv : LogInv inputsOf log legs reads)
    (taken : KeyMap TransactionId OutgoingTransaction) (accepted : Finset TransactionId) :
    LogInv inputsOf log.beginRead.2 legs (reads ++ [⟨log.floor, taken, accepted, legs, false⟩]) := by
  refine ⟨inv.named, inv.counted, ?_, ?_, ?_, ?_⟩
  · intro entry member back
    obtain ⟨floor, reader, below⟩ := inv.kept entry member back
    exact ⟨floor, List.mem_cons_of_mem _ reader, below⟩
  · rw [List.filter_append, List.map_append]
    change (log.floor :: log.readers).Perm (_ ++ [log.floor])
    exact (inv.readers.cons log.floor).trans (List.perm_append_singleton _ _).symm
  · intro read member undecided
    rcases List.mem_append.mp member with old | new
    · exact inv.floors read old undecided
    · rw [List.mem_singleton.mp new]
      exact ⟨SubmitLog.floor_le_nextLeg log, fun entry inside still => SubmitLog.floor_le_open inside still⟩
  · intro read member undecided index leg atIndex back sent notPast
    rcases List.mem_append.mp member with old | new
    · exact inv.returned read old undecided index leg atIndex back sent notPast
    · rw [List.mem_singleton.mp new] at notPast
      have still := notPast leg atIndex
      rw [back] at still
      cases still

theorem logInv_endRead {inputsOf : InputsOf} {log : SubmitLog} {legs : List Leg}
    {reads : List Reading} (inv : LogInv inputsOf log legs reads) {index : Nat} {read : Reading}
    (atIndex : reads[index]? = some read) (undecided : read.ended = false) :
    LogInv inputsOf (log.endRead read.floor) legs (reads.set index { read with ended := true }) := by
  obtain ⟨inside, isRead⟩ := List.getElem?_eq_some_iff.mp atIndex
  obtain ⟨before, after, split, _, isSet⟩ :=
    @List.exists_of_set _ index { read with ended := true } reads inside
  rw [isRead] at split
  have other : ∀ reading ∈ reads.set index { read with ended := true }, reading.ended = false →
      reading ∈ reads := by
    intro reading member still
    rw [isSet] at member
    rw [split]
    rcases List.mem_append.mp member with early | late
    · exact List.mem_append_left _ early
    · rcases List.mem_cons.mp late with here | later
      · rw [here] at still
        cases still
      · exact List.mem_append_right _ (List.mem_cons_of_mem _ later)
  have readers : (log.endRead read.floor).readers.Perm
      (((reads.set index { read with ended := true }).filter fun read => !read.ended).map (·.floor)) := by
    have whole := inv.readers
    rw [split, List.filter_append, List.filter_cons_of_pos (by simp [undecided]), List.map_append,
      List.map_cons] at whole
    have erased := (whole.trans List.perm_middle).erase read.floor
    rw [List.erase_cons_head] at erased
    rw [isSet, List.filter_append, List.filter_cons_of_neg (by simp), List.map_append]
    exact erased
  have reader : ∀ reading ∈ reads.set index { read with ended := true }, reading.ended = false →
      reading.floor ∈ (log.endRead read.floor).readers := by
    intro reading member still
    apply readers.mem_iff.mpr
    apply List.mem_map_of_mem
    exact List.mem_filter.mpr ⟨member, by simp [still]⟩
  refine ⟨?_, ?_, ?_, readers, ?_, ?_⟩
  · intro entry member
    exact inv.named entry (SubmitLog.mem_prune.mp member).1
  · intro txid
    rw [← inv.counted]
    exact SubmitLog.openCount_prune _ txid
  · intro entry member back
    rcases (SubmitLog.mem_prune.mp member).2 with still | floored
    · rw [back] at still
      cases still
    · exact floored
  · intro reading member still
    obtain ⟨bound, below⟩ := inv.floors reading (other reading member still) still
    refine ⟨bound, ?_⟩
    intro entry inside isOpen
    exact below entry (SubmitLog.mem_prune.mp inside).1 isOpen
  · intro reading member still legIndex leg atLeg back sent notPast
    obtain ⟨entry, logged, named, returned, above⟩ :=
      inv.returned reading (other reading member still) still legIndex leg atLeg back sent notPast
    refine ⟨entry, ?_, named, returned, above⟩
    exact SubmitLog.mem_prune.mpr ⟨logged, Or.inr ⟨reading.floor, reader reading member still, above⟩⟩

theorem step_cases {inputsOf : InputsOf} {sys next : System} {event : Event}
    (taken : step inputsOf sys event = some next) :
    (∃ txid, next = { sys with
      inFlight := sys.inFlight.submitting txid (inputsOf txid)
      legs := sys.legs ++ [⟨txid, none, false⟩] }) ∨
    (∃ index leg fate inFlight, sys.legs[index]? = some leg ∧ leg.fate = none ∧
      next = sys.noteFate index leg fate inFlight ∧ inFlight.log = sys.inFlight.log ∧
      inFlight.accepted = sys.inFlight.accepted ∧
      (∀ txid ∈ sys.inFlight.taken, txid ∈ inFlight.taken) ∧
      (fate = .taken → leg.txid ∈ inFlight.taken)) ∨
    (∃ index leg now, sys.legs[index]? = some leg ∧ leg.fate.isSome ∧ leg.returned = false ∧
      next = sys.submitReturned index leg now) ∨
    (∃ inFlight, next = { sys with inFlight := inFlight } ∧ inFlight.log = sys.inFlight.log ∧
      InFlightSends.TakesToAccepted sys.inFlight inFlight) ∨
    next = sys.beginRead ∨
    (∃ index read, sys.reads[index]? = some read ∧ read.ended = false ∧
      next = sys.endRead index read) := by
  have noted : ∀ {index fate valid inFlight}, sys.note index fate valid inFlight = some next →
      ∃ leg, sys.legs[index]? = some leg ∧ leg.fate = none ∧ valid leg = true ∧
        next = sys.noteFate index leg fate (inFlight leg) := by
    intro index fate valid inFlight h
    unfold System.note at h
    split at h
    · rename_i leg atIndex
      split at h
      · rename_i holds
        exact ⟨leg, atIndex, holds.1, holds.2, (Option.some.inj h).symm⟩
      · cases h
    · cases h
  cases event with
  | submitting txid => exact Or.inl ⟨txid, (Option.some.inj taken).symm⟩
  | noteTaken index record =>
    obtain ⟨leg, atIndex, unnoted, valid, same⟩ := noted taken
    refine Or.inr (Or.inl ⟨index, leg, _, _, atIndex, unnoted, same, rfl, rfl, ?_, ?_⟩)
    · intro txid member
      exact (AList.mem_insert _).mpr (Or.inr member)
    · intro _
      exact (AList.mem_insert _).mpr (Or.inl (beq_iff_eq.mp valid).symm)
  | fateUnknown index coins unknown =>
    obtain ⟨leg, atIndex, unnoted, _, same⟩ := noted taken
    refine Or.inr (Or.inl ⟨index, leg, _, _, atIndex, unnoted, same, rfl, rfl, fun _ h => h, ?_⟩)
    intro impossible
    cases impossible
  | refused index forgets =>
    obtain ⟨leg, atIndex, unnoted, _, same⟩ := noted taken
    cases forgets with
    | false =>
      refine Or.inr (Or.inl ⟨index, leg, _, _, atIndex, unnoted, same, rfl, rfl, fun _ h => h, ?_⟩)
      intro impossible
      cases impossible
    | true =>
      refine Or.inr (Or.inl ⟨index, leg, _, _, atIndex, unnoted, same, rfl, rfl, fun _ h => h, ?_⟩)
      intro impossible
      cases impossible
  | submitReturned index now =>
    simp only [step] at taken
    split at taken
    · rename_i leg atIndex
      split at taken
      · rename_i holds
        refine Or.inr (Or.inr (Or.inl ⟨index, leg, now, atIndex, holds.1, holds.2, ?_⟩))
        exact (Option.some.inj taken).symm
      · cases taken
    · cases taken
  | noteAccepted txid daa now =>
    simp only [step, Option.some.injEq] at taken
    subst taken
    refine Or.inr (Or.inr (Or.inr (Or.inl ⟨sys.inFlight.noteAccepted txid daa now, rfl, ?_, ?_⟩)))
    · exact InFlightSends.noteSpentAt_log _ _ _ _
    · exact InFlightSends.takesToAccepted_of_eq (InFlightSends.noteSpentAt_accepted _ _ _ _)
        (InFlightSends.noteSpentAt_taken _ _ _ _)
  | leave txid now =>
    refine Or.inr (Or.inr (Or.inr (Or.inl ⟨_, (Option.some.inj taken).symm, ?_, ?_⟩)))
    · exact (InFlightSends.settles_leave sys.inFlight txid now).log
    · exact InFlightSends.takesToAccepted_leave sys.inFlight txid now
  | beginRead =>
    exact Or.inr (Or.inr (Or.inr (Or.inr (Or.inl (Option.some.inj taken).symm))))
  | endRead index =>
    simp only [step] at taken
    split at taken
    · rename_i read atIndex
      split at taken
      · cases taken
      · rename_i undecided
        refine Or.inr (Or.inr (Or.inr (Or.inr (Or.inr ⟨index, read, atIndex, ?_, ?_⟩))))
        · exact Bool.eq_false_of_not_eq_true undecided
        · exact (Option.some.inj taken).symm
    · cases taken

/-- Setting a leg keeps what a copy says of it, as long as its txid and a noted fate stay. -/
theorem copyInv_set {legs : List Leg} {read : Reading} (inv : CopyInv legs read) {index : Nat}
    {leg new : Leg} (atIndex : legs[index]? = some leg) (sameTxid : new.txid = leg.txid)
    (sameFate : leg.fate.isSome → new.fate = leg.fate) : CopyInv (legs.set index new) read := by
  refine ⟨inv.known, ?_⟩
  intro other before wasThere
  obtain ⟨now, isNow, txid, fate⟩ := inv.same other before wasThere
  by_cases here : index = other
  · subst here
    rw [atIndex] at isNow
    cases isNow
    refine ⟨new, ?_, sameTxid.trans txid, ?_⟩
    · rw [List.getElem?_set_self (List.getElem?_eq_some_iff.mp atIndex).1]
    · intro noted
      have kept := fate noted
      rw [sameFate (by rw [kept]; exact noted), kept]
  · exact ⟨now, by rw [List.getElem?_set_ne here]; exact isNow, txid, fate⟩

theorem copyInv_append {legs : List Leg} {read : Reading} (inv : CopyInv legs read) (new : Leg) :
    CopyInv (legs ++ [new]) read := by
  refine ⟨inv.known, ?_⟩
  intro other before wasThere
  obtain ⟨now, isNow, rest⟩ := inv.same other before wasThere
  refine ⟨now, ?_, rest⟩
  rw [List.getElem?_append_left (List.getElem?_eq_some_iff.mp isNow).1]
  exact isNow

theorem mem_set_cases {α : Type} {list : List α} {index : Nat} {new a : α}
    (member : a ∈ list.set index new) : a = new ∨ a ∈ list := by
  rcases List.mem_or_eq_of_mem_set member with old | same
  · exact Or.inr old
  · exact Or.inl same

theorem inv_step (inputsOf : InputsOf) (sys : System) (event : Event) (next : System)
    (inv : Inv inputsOf sys) (taken : step inputsOf sys event = some next) : Inv inputsOf next := by
  rcases step_cases taken with ⟨txid, rfl⟩ |
    ⟨index, leg, fate, inFlight, atIndex, unnoted, rfl, log, accepted, grows, isTaken⟩ |
    ⟨index, leg, now, atIndex, noted, out, rfl⟩ | ⟨inFlight, rfl, log, takes⟩ | rfl |
    ⟨index, read, atIndex, undecided, rfl⟩
  · refine ⟨logInv_submitting inv.log txid, ?_, ?_, ?_⟩
    · intro read member
      exact copyInv_append (inv.copies read member) _
    · intro leg member back
      rcases List.mem_append.mp member with old | new
      · exact inv.noted leg old back
      · rw [List.mem_singleton.mp new] at back
        cases back
    · intro leg member isTaken
      rcases List.mem_append.mp member with old | new
      · exact inv.recorded leg old isTaken
      · rw [List.mem_singleton.mp new] at isTaken
        cases isTaken
  · have out : leg.returned = false := by
      cases back : leg.returned with
      | false => rfl
      | true =>
        have some_ := inv.noted leg (List.mem_of_getElem? atIndex) back
        rw [unnoted] at some_
        cases some_
    refine ⟨?_, ?_, ?_, ?_⟩
    · change LogInv inputsOf inFlight.log _ sys.reads
      rw [log]
      exact logInv_note inv.log atIndex out fate
    · intro read member
      refine copyInv_set (inv.copies read member) atIndex rfl ?_
      intro some_
      rw [unnoted] at some_
      cases some_
    · intro leg' member back
      rcases mem_set_cases member with new | old
      · rw [new]
        rfl
      · exact inv.noted leg' old back
    · intro leg' member taken'
      rcases mem_set_cases member with new | old
      · rw [new] at taken' ⊢
        exact Or.inl (isTaken (Option.some.inj taken'))
      · rcases inv.recorded leg' old taken' with still | done
        · exact Or.inl (grows leg'.txid still)
        · apply Or.inr
          change leg'.txid ∈ inFlight.accepted
          rw [accepted]
          exact done
  · obtain ⟨log, isTaken, accepted, _⟩ := InFlightSends.submitReturned_frame sys.inFlight leg.txid
      (leg.fate != some .refused) now
    refine ⟨?_, ?_, ?_, ?_⟩
    · change LogInv inputsOf (sys.inFlight.submitReturned _ _ now).log _ sys.reads
      rw [log]
      exact logInv_submitReturned inv.log atIndex out
    · intro read member
      exact copyInv_set (inv.copies read member) atIndex rfl fun _ => rfl
    · intro leg' member back
      rcases mem_set_cases member with new | old
      · rw [new]
        exact noted
      · exact inv.noted leg' old back
    · intro leg' member taken'
      change leg'.txid ∈ (sys.inFlight.submitReturned _ _ now).taken ∨
        leg'.txid ∈ (sys.inFlight.submitReturned _ _ now).accepted
      rw [isTaken, accepted]
      rcases mem_set_cases member with new | old
      · rw [new] at taken' ⊢
        exact inv.recorded leg (List.mem_of_getElem? atIndex) taken'
      · exact inv.recorded leg' old taken'
  · refine ⟨?_, inv.copies, inv.noted, ?_⟩
    · change LogInv inputsOf inFlight.log sys.legs sys.reads
      rw [log]
      exact inv.log
    · intro leg member isTaken
      rcases inv.recorded leg member isTaken with still | done
      · exact takes.2 leg.txid still
      · exact Or.inr (takes.1 done)
  · refine ⟨logInv_beginRead inv.log _ _, ?_, inv.noted, inv.recorded⟩
    intro read member
    rcases List.mem_append.mp member with old | new
    · exact inv.copies read old
    · rw [List.mem_singleton.mp new]
      constructor
      · intro before wasThere back
        have some_ := inv.noted before wasThere back
        obtain ⟨fate, isFate⟩ := Option.isSome_iff_exists.mp some_
        cases fate with
        | taken => exact Or.inr (Or.inr (inv.recorded before wasThere isFate))
        | unknown => exact Or.inr (Or.inl isFate)
        | refused => exact Or.inl isFate
      · intro index before wasThere
        exact ⟨before, wasThere, rfl, fun _ => rfl⟩
  · refine ⟨logInv_endRead inv.log atIndex undecided, ?_, inv.noted, inv.recorded⟩
    intro reading member
    rcases mem_set_cases member with new | old
    · rw [new]
      have before := inv.copies read (List.mem_of_getElem? atIndex)
      exact ⟨before.known, before.same⟩
    · exact inv.copies reading old

/-- A run starts with nothing logged, whatever else an earlier run left. -/
def start (inFlight : InFlightSends) : System := ⟨{ inFlight with log := .empty }, [], []⟩

theorem inv_start (inputsOf : InputsOf) (inFlight : InFlightSends) : Inv inputsOf (start inFlight) where
  log := ⟨by simp [start, SubmitLog.empty], by simp [start, SubmitLog.empty, SubmitLog.openCount,
    unreturned], by simp [start, SubmitLog.empty], by simp [start, SubmitLog.empty],
    by simp [start], by simp [start]⟩
  copies := by simp [start]
  noted := by simp [start]
  recorded := by simp [start]

/-- **A read never misses a leg, and the log empties**: over any submits, notes, acceptances and
    overlapping reads, each leg that was not refused unsent is in sight of every read not yet
    ended, and once every submit returned and every read ended nothing is logged. -/
theorem read_misses_no_leg (inputsOf : InputsOf) (inFlight : InFlightSends) (events : List Event)
    (sys : System) (reached : Machine.run (step inputsOf) (start inFlight) events = some sys) :
    (∀ read ∈ sys.reads, read.ended = false → ∀ (index : Nat) (leg : Leg),
      sys.legs[index]? = some leg → leg.fate ≠ some .refused → read.Sees inputsOf sys index leg) ∧
    ((∀ leg ∈ sys.legs, leg.returned = true) → (∀ read ∈ sys.reads, read.ended = true) →
      sys.inFlight.log.legs = []) := by
  have inv : Inv inputsOf sys :=
    Machine.run_invariant (inv_step inputsOf) (inv_start inputsOf inFlight) reached
  constructor
  · intro read member undecided index leg atIndex sent
    exact inv.sees member undecided atIndex sent
  · exact inv.drained

/-- Two submits of one txid and two overlapping reads, a refusal between them. -/
def overlapping : List Event :=
  [.submitting 5, .submitting 5, .beginRead, .refused 1 true, .submitReturned 1 0, .beginRead,
    .noteTaken 0 ⟨5, [], none, 0⟩, .submitReturned 0 0, .leave 5 0, .endRead 0]

theorem read_misses_no_leg_overlapping : ∃ sys,
    Machine.run (step fun _ => [⟨1, 0⟩]) (start (.default 0)) overlapping = some sys ∧
    sys.inFlight.log.loggedFrom 0 = [⟨1, 0⟩] ∧
    (∀ read ∈ sys.reads, read.ended = false → ∀ (index : Nat) (leg : Leg),
      sys.legs[index]? = some leg → leg.fate ≠ some .refused →
      read.Sees (fun _ => [⟨1, 0⟩]) sys index leg) ∧
    ((∀ leg ∈ sys.legs, leg.returned = true) → (∀ read ∈ sys.reads, read.ended = true) →
      sys.inFlight.log.legs = []) := by
  have ends : (Machine.run (step fun _ => [⟨1, 0⟩]) (start (.default 0)) overlapping).map
      (fun sys => sys.inFlight.log.loggedFrom 0) = some [⟨1, 0⟩] := by
    decide +kernel
  obtain ⟨sys, reached, logged⟩ := Option.map_eq_some_iff.mp ends
  exact ⟨sys, reached, logged, read_misses_no_leg _ _ overlapping sys reached⟩

end Kaspaverse.Chain.ReadFloor
