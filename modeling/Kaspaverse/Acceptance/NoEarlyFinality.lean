import Mathlib
import Kaspaverse.Acceptance.SelectedChain
import Kaspaverse.Acceptance.CursorHolds

namespace Kaspaverse.Acceptance

/-- A status a fold of a batch gives. -/
def PersistedStatus.folded : PersistedStatus → Bool
  | .accepted _ _ _ | .displaced _ _ => true
  | .submitted _ | .finalized _ _ _ => false

/-- An event that claims no depth and tells of no window. -/
def AcceptanceEvent.plain : AcceptanceEvent → Bool
  | .accepted _ | .displaced _ | .senderResolvable _ _ => true
  | .confirmed _ _ | .displacedElapsed _ | .stalled _ _ => false

namespace TrackerState

variable {s t : TrackerState}

/-- Every record stays, and changes its status only to what a fold gives; the marks of the walk and of
    the hold stay, and nothing is read ahead. -/
structure Evolves (s t : TrackerState) : Prop where
  stays : ∀ txid record, s.record txid = some record → ∃ later, t.record txid = some later ∧
    later.source = record.source ∧ (later = record ∨ later.status.folded = true)
  back : ∀ txid later, t.record txid = some later → ∃ record, s.record txid = some record
  walking : t.walking = s.walking
  depthHeld : t.depthHeld = s.depthHeld
  ahead : ∀ txid entry, t.ahead.lookup txid = some entry → s.ahead.lookup txid = some entry

theorem Evolves.same (record : t.record = s.record) (walking : t.walking = s.walking)
    (depthHeld : t.depthHeld = s.depthHeld)
    (ahead : ∀ txid entry, t.ahead.lookup txid = some entry → s.ahead.lookup txid = some entry) : Evolves s t := by
  refine ⟨?_, ?_, walking, depthHeld, ahead⟩
  · rw [record]
    exact fun _ record found => ⟨record, found, rfl, .inl rfl⟩
  · rw [record]
    exact fun _ record found => ⟨record, found⟩

theorem Evolves.refl (s : TrackerState) : Evolves s s := .same rfl rfl rfl (fun _ _ held => held)

theorem Evolves.trans {mid : TrackerState} (first : Evolves s mid) (second : Evolves mid t) : Evolves s t where
  stays := by
    intro txid record found
    obtain ⟨middle, held, source, change⟩ := first.stays txid record found
    obtain ⟨later, after, source', change'⟩ := second.stays txid middle held
    refine ⟨later, after, source'.trans source, ?_⟩
    rcases change' with rfl | folded
    · exact change
    · exact .inr folded
  back := by
    intro txid later found
    obtain ⟨middle, held⟩ := second.back txid later found
    exact first.back txid middle held
  walking := second.walking.trans first.walking
  depthHeld := second.depthHeld.trans first.depthHeld
  ahead := fun txid entry held => first.ahead txid entry (second.ahead txid entry held)

/-- A record that is written with a folded status. -/
theorem evolves_upsert {txid : Txid} {record : WatchRecord} (status : PersistedStatus)
    (found : s.record txid = some record) (folded : status.folded = true) :
    Evolves s (s.upsert txid { record with status := status }).2 := by
  rcases s.upsert_cases txid { record with status := status } with ⟨disk, fails⟩ | ⟨log, lands, lookup⟩
  · rw [fails]
    exact .same rfl rfl rfl (fun _ _ held => held)
  · rw [lands]
    refine ⟨?_, ?_, rfl, rfl, fun _ _ held => held⟩
    · intro other before held
      rw [show ({ s with log := log } : TrackerState).record other = _ from lookup other]
      by_cases same : other = txid
      · rw [if_pos same]
        subst same
        rw [found] at held
        cases held
        exact ⟨_, rfl, rfl, .inr folded⟩
      · rw [if_neg same]
        exact ⟨before, held, rfl, .inl rfl⟩
    · intro other later held
      rw [show ({ s with log := log } : TrackerState).record other = _ from lookup other] at held
      by_cases same : other = txid
      · exact ⟨record, same ▸ found⟩
      · rw [if_neg same] at held
        exact ⟨later, held⟩

theorem evolves_acceptOne (block : Block) (blueScore unixMs : Nat) (fold : Fold) (s : TrackerState) (txid : Txid) :
    Evolves s (acceptOne block blueScore unixMs (fold, s) txid).2 := by
  cases found : s.record txid with
  | none =>
    simp only [acceptOne, found]
    exact Evolves.refl _
  | some record =>
    have written := evolves_upsert (.accepted block blueScore unixMs) found rfl
    simp only [acceptOne, found]
    split
    · exact Evolves.refl s
    · split
      · refine written.trans (Evolves.same rfl rfl rfl ?_)
        intro other entry held
        have ahead : (s.upsert txid { record with status := .accepted block blueScore unixMs }).2.ahead = s.ahead := rfl
        rw [ahead]
        exact (KeyMap.lookup_erase_some.mp held).2
      · exact written

theorem evolves_onAccepted (s : TrackerState) (block : Block) (blueScore : Nat) (txids : List Txid) (unixMs : Nat) :
    Evolves s (s.onAccepted block blueScore txids unixMs).2 := by
  have all (fold : Fold) : Evolves s (txids.foldl (acceptOne block blueScore unixMs) (fold, s)).2 := by
    induction txids generalizing s fold with
    | nil => exact Evolves.refl _
    | cons first rest ih =>
      exact (evolves_acceptOne block blueScore unixMs fold s first).trans (ih _ _)
  exact all .default

theorem evolves_displaceOne (block : Block) (now : Nat) (folding : Fold × List Txid × TrackerState) (txid : Txid) :
    Evolves folding.2.2 (displaceOne block now folding txid).2.2 := by
  obtain ⟨fold, kept, s⟩ := folding
  cases found : s.record txid with
  | none =>
    simp only [displaceOne, found]
    exact Evolves.refl _
  | some record =>
    have written := evolves_upsert (.displaced now block) found rfl
    simp only [displaceOne, found]
    split
    · exact written.trans (Evolves.same rfl rfl rfl (fun _ _ held => held))
    · exact written

theorem evolves_removeBlock (now : Nat) (folding : Fold × TrackerState) (block : Block) :
    Evolves folding.2 (removeBlock now folding block).2 := by
  have all (txids : List Txid) (folding : Fold × List Txid × TrackerState) :
      Evolves folding.2.2 (txids.foldl (displaceOne block now) folding).2.2 := by
    induction txids generalizing folding with
    | nil => exact Evolves.refl _
    | cons first rest ih => exact (evolves_displaceOne block now folding first).trans (ih _)
  obtain ⟨fold, s⟩ := folding
  cases found : s.byAcceptingBlock.lookup block with
  | none =>
    simp only [removeBlock, found]
    exact .same rfl rfl rfl (fun _ _ held => held)
  | some txids =>
    have displaced := all txids (fold, [], { s with offChain := s.offChain.removed block })
    simp only [removeBlock, found]
    have off : Evolves s { s with offChain := s.offChain.removed block } := .same rfl rfl rfl (fun _ _ held => held)
    exact off.trans (displaced.trans (.same rfl rfl rfl (fun _ _ held => held)))

theorem evolves_onRemoved (s : TrackerState) (blocks : List Block) (now : Nat) :
    Evolves s (s.onRemoved blocks now).2 := by
  have all (folding : Fold × TrackerState) : Evolves folding.2 (blocks.foldl (removeBlock now) folding).2 := by
    induction blocks generalizing folding with
    | nil => exact Evolves.refl _
    | cons first rest ih => exact (evolves_removeBlock now folding first).trans (ih _)
  exact all (.default, s)

theorem evolves_walkAccepted (s : TrackerState) (txid : Txid) (block : Block) (blueScore unixMs : Nat) :
    Evolves s (s.walkAccepted txid block blueScore unixMs).2 := by
  unfold walkAccepted
  cases found : s.record txid with
  | none => exact Evolves.refl _
  | some record =>
    cases status : record.status with
    | accepted held heldScore heldUnixMs =>
      simp only [status]
      split
      · exact evolves_upsert (.accepted block blueScore unixMs) found rfl
      · exact Evolves.refl _
    | submitted submitOk =>
      simp only [status]
      split
      · exact evolves_onAccepted s block blueScore [txid] unixMs
      · exact Evolves.refl _
    | displaced since prior =>
      simp only [status]
      split
      · exact evolves_onAccepted s block blueScore [txid] unixMs
      · exact Evolves.refl _
    | finalized held heldScore heldUnixMs =>
      simp only [status]
      exact Evolves.refl _

section Events

theorem plain_onAccepted (s : TrackerState) (block : Block) (blueScore : Nat) (txids : List Txid) (unixMs : Nat) :
    ∀ event ∈ (s.onAccepted block blueScore txids unixMs).1.events, event.plain = true := by
  have one (fold : Fold) (s : TrackerState) (txid : Txid) (plain : ∀ event ∈ fold.events, event.plain = true) :
      ∀ event ∈ (acceptOne block blueScore unixMs (fold, s) txid).1.events, event.plain = true := by
    simp only [acceptOne]
    split
    · exact plain
    · split
      · exact plain
      · split
        · intro event member
          rcases List.mem_append.mp member with before | new
          · exact plain event before
          · rw [List.mem_singleton.mp new]
            rfl
        · exact plain
  have all (folding : Fold × TrackerState) (plain : ∀ event ∈ folding.1.events, event.plain = true) :
      ∀ event ∈ (txids.foldl (acceptOne block blueScore unixMs) folding).1.events, event.plain = true := by
    induction txids generalizing folding with
    | nil => exact plain
    | cons first rest ih => exact ih _ (one folding.1 folding.2 first plain)
  exact all (.default, s) (fun _ none => by cases none)

theorem plain_onRemoved (s : TrackerState) (blocks : List Block) (now : Nat) :
    ∀ event ∈ (s.onRemoved blocks now).1.events, event.plain = true := by
  have one (block : Block) (folding : Fold × List Txid × TrackerState) (txid : Txid)
      (plain : ∀ event ∈ folding.1.events, event.plain = true) :
      ∀ event ∈ (displaceOne block now folding txid).1.events, event.plain = true := by
    obtain ⟨fold, kept, s⟩ := folding
    simp only [displaceOne]
    split
    · exact plain
    · split
      · intro event member
        rcases List.mem_append.mp member with before | new
        · exact plain event before
        · rw [List.mem_singleton.mp new]
          rfl
      · exact plain
  have block (folding : Fold × TrackerState) (block : Block) (plain : ∀ event ∈ folding.1.events, event.plain = true) :
      ∀ event ∈ (removeBlock now folding block).1.events, event.plain = true := by
    simp only [removeBlock]
    split
    · exact plain
    next txids _ =>
      have txidsPlain (folding : Fold × List Txid × TrackerState)
          (plain : ∀ event ∈ folding.1.events, event.plain = true) :
          ∀ event ∈ (txids.foldl (displaceOne block now) folding).1.events, event.plain = true := by
        clear * - one plain
        induction txids generalizing folding with
        | nil => exact plain
        | cons first rest ih => exact ih _ (one block folding first plain)
      exact txidsPlain _ plain
  have all (folding : Fold × TrackerState) (plain : ∀ event ∈ folding.1.events, event.plain = true) :
      ∀ event ∈ (blocks.foldl (removeBlock now) folding).1.events, event.plain = true := by
    induction blocks generalizing folding with
    | nil => exact plain
    | cons first rest ih => exact ih _ (block folding first plain)
  exact all (.default, s) (fun _ none => by cases none)

theorem plain_walkAccepted (s : TrackerState) (txid : Txid) (block : Block) (blueScore unixMs : Nat) :
    ∀ event ∈ (s.walkAccepted txid block blueScore unixMs).1.getD [], event.plain = true := by
  have registered : ∀ event ∈ (s.onAccepted block blueScore [txid] unixMs).1.intoResult.getD [], event.plain = true := by
    unfold Fold.intoResult
    split
    · exact fun _ none => by cases none
    · exact plain_onAccepted s block blueScore [txid] unixMs
  have nothing : ∀ event ∈ ([] : List AcceptanceEvent), event.plain = true := fun _ none => by cases none
  unfold walkAccepted
  split
  · exact nothing
  · simp only
    split
    · split
      · simp only
        split <;> exact nothing
      · exact nothing
    · split
      · exact registered
      · exact nothing
    · split
      · exact registered
      · exact nothing
    · exact nothing

theorem plain_register (s : TrackerState) (txid : Txid) (remembered : Remembered) :
    ∀ event ∈ (s.register txid remembered).1.getD [], event.plain = true := by
  have nothing : ∀ event ∈ ([] : List AcceptanceEvent), event.plain = true := fun _ none => by cases none
  cases remembered with
  | accepted block blueScore daaScore unixMs =>
    simp only [register, Fold.intoResult]
    split
    · exact nothing
    · exact plain_onAccepted s block blueScore [txid] unixMs
  | displaced since prior =>
    simp only [register]
    split
    · exact nothing
    · simp only
      split
      · intro event member
        rw [List.mem_singleton.mp member]
        rfl
      · exact nothing

theorem plain_watchRemembered (s : TrackerState) (order : List Txid) (txid : Txid) (source : WatchSource) (now : Nat)
    (remembered : Remembered) :
    ∀ event ∈ (s.watchRemembered order txid source now remembered).1.getD [], event.plain = true := by
  unfold watchRemembered
  simp only
  split
  · exact plain_register _ txid _
  · exact fun _ none => by cases none

end Events

end TrackerState

theorem plain_takeResolvable (interest txids : List Txid) (daaScore : Nat) :
    ∀ event ∈ (takeResolvable interest txids daaScore).1, event.plain = true := by
  have all (taking : List AcceptanceEvent × List Txid) (plain : ∀ event ∈ taking.1, event.plain = true) :
      ∀ event ∈ (txids.foldl (fun taking txid =>
        if txid ∈ taking.2 then (taking.1 ++ [.senderResolvable txid daaScore], taking.2.erase txid)
        else taking) taking).1, event.plain = true := by
    induction txids generalizing taking with
    | nil => exact plain
    | cons first rest ih =>
      apply ih
      beta_reduce
      split
      · intro event member
        rcases List.mem_append.mp member with before | new
        · exact plain event before
        · rw [List.mem_singleton.mp new]
          rfl
      · exact plain
  exact all ([], interest) (fun _ none => by cases none)

namespace TrackerState

variable {s t : TrackerState}

section Drops

/-- The records but the ones of `gone` stay, no record becomes final, and the marks stay. -/
structure Sheds (gone : Txid → Prop) (s t : TrackerState) : Prop where
  stays : ∀ txid record, ¬ gone txid → s.record txid = some record → t.record txid = some record
  finals : ∀ txid record, t.record txid = some record → record.status.standing = .finalized →
    s.record txid = some record
  walking : t.walking = s.walking
  depthHeld : t.depthHeld = s.depthHeld
  ahead : t.ahead = s.ahead

theorem Sheds.refl (gone : Txid → Prop) (s : TrackerState) : Sheds gone s s :=
  ⟨fun _ _ _ held => held, fun _ _ held _ => held, rfl, rfl, rfl⟩

theorem Sheds.trans {gone : Txid → Prop} {mid : TrackerState} (first : Sheds gone s mid)
    (second : Sheds gone mid t) : Sheds gone s t where
  stays := fun txid record kept held => second.stays txid record kept (first.stays txid record kept held)
  finals := fun txid record held final => first.finals txid record (second.finals txid record held final) final
  walking := second.walking.trans first.walking
  depthHeld := second.depthHeld.trans first.depthHeld
  ahead := second.ahead.trans first.ahead

theorem sheds_dropWatch {gone : Txid → Prop} (s : TrackerState) (txid : Txid) (drops : gone txid) :
    Sheds gone s (s.dropWatch txid).2 := by
  refine ⟨?_, fun _ _ held _ => record_dropWatch held, rfl, rfl, rfl⟩
  intro other record kept held
  have apart : other ≠ txid := fun same => kept (same ▸ drops)
  simp only [dropWatch, TrackerState.record, WatchLog.remove]
  split
  · split
    · exact (AList.lookup_erase_ne apart).trans held
    · exact held
  · exact held

theorem sheds_dropAll {gone : Txid → Prop} (s : TrackerState) (txids : List Txid)
    (drops : ∀ txid ∈ txids, gone txid) : Sheds gone s (s.dropAll txids).2 := by
  induction txids generalizing s with
  | nil => exact Sheds.refl gone s
  | cons first rest ih =>
    have dropped := sheds_dropWatch s first (drops first List.mem_cons_self)
    rw [dropAll]
    split
    · exact dropped.trans (ih _ fun txid member => drops txid (List.mem_cons_of_mem _ member))
    · exact dropped

theorem sheds_onSinkBlue (s : TrackerState) (order : List Txid) (blue now : Nat) (held : s.claimsDepth = false) :
    (s.onSinkBlue order blue now).1.getD [] = [] ∧
      Sheds (· ∈ s.expired order now) s (s.onSinkBlue order blue now).2 := by
  have silent : ({ s with sinkBlue := blue } : TrackerState).claimsDepth = false := held
  have scored : Sheds (· ∈ s.expired order now) s { s with sinkBlue := blue } :=
    ⟨fun _ _ _ held => held, fun _ _ held _ => held, rfl, rfl, rfl⟩
  simp only [onSinkBlue, silent, Bool.false_eq_true, if_false]
  refine ⟨by split <;> rfl, scored.trans (sheds_dropAll _ _ fun txid member => member)⟩

/-- What a watch changes: the oldest may go at the cap, and the new record is not final. -/
def Evicts (s : TrackerState) (order : List Txid) (txid : Txid) : Prop :=
  WATCH_CAP ≤ s.log.records.keys.length ∧ s.oldest order = some txid

theorem sheds_makeRoom (s : TrackerState) (order : List Txid) :
    Sheds (s.Evicts order) s (s.makeRoom order).2 := by
  unfold makeRoom
  split
  next full =>
    split
    next oldest found => exact sheds_dropWatch s oldest ⟨full, found⟩
    · exact Sheds.refl _ s
  · exact Sheds.refl _ s

/-- A write of one txid's record, which is not final. -/
theorem sheds_upsert {gone : Txid → Prop} (s : TrackerState) (txid : Txid) (record : WatchRecord)
    (open_ : record.status.standing ≠ .finalized) (fresh : s.record txid = none ∨ gone txid) :
    Sheds gone s (s.upsert txid record).2 := by
  rcases s.upsert_cases txid record with ⟨disk, fails⟩ | ⟨log, lands, lookup⟩
  · rw [fails]
    exact ⟨fun _ _ _ held => held, fun _ _ held _ => held, rfl, rfl, rfl⟩
  · rw [lands]
    refine ⟨?_, ?_, rfl, rfl, rfl⟩
    · intro other before kept held
      rw [show ({ s with log := log } : TrackerState).record other = _ from lookup other, if_neg]
      · exact held
      · rintro rfl
        rcases fresh with none | gone
        · rw [none] at held
          cases held
        · exact kept gone
    · intro other after held final
      rw [show ({ s with log := log } : TrackerState).record other = _ from lookup other] at held
      by_cases same : other = txid
      · rw [if_pos same] at held
        cases held
        exact absurd final open_
      · rw [if_neg same] at held
        exact held

theorem sheds_watch (s : TrackerState) (order : List Txid) (txid : Txid) (source : WatchSource) (now : Nat) :
    Sheds (s.Evicts order) s (s.watch order txid source now).2 := by
  unfold watch
  split
  · exact Sheds.refl _ s
  next unwatched =>
    have room := sheds_makeRoom s order
    simp only
    split
    · refine room.trans (sheds_upsert _ txid _ (fun same => by cases same) (.inl ?_))
      cases found : (s.makeRoom order).2.record txid with
      | none => rfl
      | some record =>
        have before := record_makeRoom found
        rw [unwatched_iff.mp (Bool.not_eq_true _ ▸ unwatched)] at before
        cases before
    · exact room

end Drops

end TrackerState

end Kaspaverse.Acceptance
