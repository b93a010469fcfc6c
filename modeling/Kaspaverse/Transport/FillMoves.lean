import Kaspaverse.Transport.Fill

namespace Kaspaverse.Transport

/-- The lane a stage works on, with where its walk started. -/
def FillStage.lane : FillStage → Option (Lane × Nat)
  | .walking lane start _ _ => some (lane, start)
  | .opening lane start _ _ _ _ => some (lane, start)
  | .restoring lane start _ _ _ _ _ => some (lane, start)
  | .covering lane start _ _ _ _ => some (lane, start)
  | .folding lane start _ _ _ _ => some (lane, start)
  | _ => none

/-- The next act of this stage has passed its erase check. -/
def FillStage.isChecked : FillStage → Bool
  | .restoring _ _ _ _ _ _ checked => checked
  | .covering _ _ _ _ _ checked => checked
  | .folding _ _ _ _ _ checked => checked
  | _ => false

/-- The stage an erase check lets through. -/
def FillStage.check : FillStage → Option FillStage
  | .restoring lane start outcome held backup none _ =>
    some (.restoring lane start outcome held backup (some backup.snapshot.rows) false)
  | .restoring lane start outcome held backup (some (payload :: left)) false =>
    some (.restoring lane start outcome held backup (some (payload :: left)) true)
  | .covering lane start outcome held newest false => some (.covering lane start outcome held newest true)
  | .folding lane start outcome (row :: left) held false =>
    if (decodeHex row.data).isNone then none else some (.folding lane start outcome (row :: left) held true)
  | _ => none

namespace FillRun

/-- What one step does to a run, by the event it takes. `moved` is whether an erase has landed since the
    run began. -/
inductive Move (moved : Prop) [Decidable moved] (run : FillRun) : FillEvent → FillRun → Prop
  | askBackups (owner : String) (now : Nat) (stage : run.stage = .backups) :
      Move moved run (.backups true (.ok owner) now)
        ({ run with lanes := [⟨.stash, owner⟩] }.startLane ⟨.stash, owner⟩ now)
  | failBackups (e : String) (now : Nat) (stage : run.stage = .backups) :
      Move moved run (.backups true (.error e) now)
        { run with report := run.report.incomplete (some e), stage := .sweep }
  | lockBackups (owner : Except String String) (now : Nat) (lanes : List Lane) (stage : run.stage = .backups)
      (backups : lanes = (owner.toOption.map fun owner => ⟨.stash, owner⟩).toList) :
      Move moved run (.backups false owner now) ({ run with lanes := lanes }.skipLanes lanes .sweep)
  | page {answer : Except String (List FillRow)} {next : FillRun} (paged : run.page answer = some next) :
      Move moved run (.page answer) next
  | read {read : StashRead} {next : FillRun} (opened : run.read read = some next) :
      Move moved run (.read read) next
  | check {checked : FillStage} (passes : run.stage.check = some checked) (still : ¬ moved) :
      Move moved run .check { run with stage := checked }
  | skipRow {lane : Lane} {start : Nat} {outcome : WalkOutcome} {row : FillRow} {left : List FillRow}
      {held : HeldFloor} (stage : run.stage = .folding lane start outcome (row :: left) held false) :
      Move moved run .check
        { run with stage := .folding lane start outcome left held false, dealt := (lane, row) :: run.dealt }
  | foldBackup (folded : FoldOutcome) {lane : Lane} {start : Nat} {outcome : WalkOutcome} {held : HeldFloor}
      {backup : Backup} {payload : SavedHandshakePayload} {left : List SavedHandshakePayload}
      (stage : run.stage = .restoring lane start outcome held backup (some (payload :: left)) true) :
      Move moved run (.fold folded) { run.settleBackup lane backup.row folded (decide moved) with
        stage := .restoring lane start outcome (if folded.holds then held.hold 0 else held) backup (some left) false }
  | foldRow (folded : FoldOutcome) {lane : Lane} {start : Nat} {outcome : WalkOutcome} {row : FillRow}
      {left : List FillRow} {held : HeldFloor} (stage : run.stage = .folding lane start outcome (row :: left) held true) :
      Move moved run (.fold folded) { run.settle lane row folded (decide moved) with
        stage := .folding lane start outcome left (if folded.holds then held.hold row.blockTime else held) false }
  | coverNone (write : CheapWrite) {lane : Lane} {start : Nat} {outcome : WalkOutcome} {held : HeldFloor}
      (stage : run.stage = .covering lane start outcome held none true) :
      Move moved run (.cover write) (run.closeLane lane start outcome held .sweep)
  | cover (write : CheapWrite) {lane : Lane} {start : Nat} {outcome : WalkOutcome} {held : HeldFloor}
      {backup : Backup} (stage : run.stage = .covering lane start outcome held (some backup) true) (still : ¬ moved) :
      Move moved run (.cover write) ({ run with
        dealt := if outcome.complete && held ≠ some 0 then (lane, backup.row) :: run.dealt else run.dealt
      }.closeLane lane start outcome held .sweep)
  | restore {lane : Lane} {start : Nat} {outcome : WalkOutcome} {held : HeldFloor} {backup : Backup}
      (stage : run.stage = .opening lane start outcome [] held (some backup)) (complete : outcome.complete = true) :
      Move moved run .close { run with stage := .restoring lane start outcome held backup none false }
  | cutShort {lane : Lane} {start : Nat} {outcome : WalkOutcome} {held : HeldFloor} {backup : Backup}
      (stage : run.stage = .opening lane start outcome [] held (some backup)) (cut : outcome.complete = false) :
      Move moved run .close { run with
        stage := .covering lane start outcome (held.hold start) (some backup) false
        holds := (lane, backup.row) :: run.holds }
  | noBackup {lane : Lane} {start : Nat} {outcome : WalkOutcome} {held : HeldFloor}
      (stage : run.stage = .opening lane start outcome [] held none) :
      Move moved run .close { run with stage := .covering lane start outcome held none false }
  | restored {lane : Lane} {start : Nat} {outcome : WalkOutcome} {held : HeldFloor} {backup : Backup}
      (stage : run.stage = .restoring lane start outcome held backup (some []) false) :
      Move moved run .close { run with stage := .covering lane start outcome held (some backup) false }
  | closeLane {lane : Lane} {start : Nat} {outcome : WalkOutcome} {held : HeldFloor}
      (stage : run.stage = .folding lane start outcome [] held false) :
      Move moved run .close
        (run.closeLane lane start outcome held (if lane.kind = .comms then .conversations else .addresses))
  | sweep {addresses : List String} (stage : run.stage = .sweep) (distinct : addresses.Nodup) :
      Move moved run (.sweep (.ok addresses)) { run with
        stage := .addresses, addresses := addresses
        lanes := (addresses.map fun address => ⟨.handshakes, address⟩) ++ run.lanes }
  | endAddresses (live : Bool) (now : Nat) (stage : run.stage = .addresses) (spent : run.addresses = []) :
      Move moved run (.lane live now) { run with stage := .listing }
  | nextAddress (now : Nat) {address : String} {left : List String} (stage : run.stage = .addresses)
      (queued : run.addresses = address :: left) :
      Move moved run (.lane true now) ({ run with addresses := left }.startLane ⟨.handshakes, address⟩ now)
  | lockAddresses (now : Nat) (stage : run.stage = .addresses) (some_left : run.addresses ≠ []) :
      Move moved run (.lane false now) ({ run with addresses := [] }.skipLanes
        (run.addresses.map fun address => ⟨.handshakes, address⟩) .listing)
  | list {conversations : List Swept} (stage : run.stage = .listing)
      (distinct : (conversations.map Swept.conversationId).Nodup) :
      Move moved run (.list conversations) { run with
        stage := .conversations, conversations := conversations
        lanes := (conversations.map fun swept => ⟨.comms, swept.conversationId⟩) ++ run.lanes }
  | endConversations (live : Bool) (now : Nat) (stage : run.stage = .conversations) (spent : run.conversations = []) :
      Move moved run (.lane live now) { run with stage := .saving }
  | nextConversation (now : Nat) {swept : Swept} {left : List Swept} (stage : run.stage = .conversations)
      (queued : run.conversations = swept :: left) :
      Move moved run (.lane true now)
        ({ run with conversations := left }.startLane ⟨.comms, swept.conversationId⟩ now)
  | lockConversations (now : Nat) (stage : run.stage = .conversations) (some_left : run.conversations ≠ []) :
      Move moved run (.lane false now) ({ run with conversations := [] }.skipLanes
        (run.conversations.map fun (swept : Swept) => ⟨.comms, swept.conversationId⟩) .saving)

end FillRun

namespace FillState

/-- What a running fill's step comes to: the run moves, proves the last backup readable, ends, or saves its
    cursors. -/
inductive Ran (s : FillState) (run : FillRun) (event : FillEvent) : FillState → Prop
  | moves (next : FillRun) (move : run.Move (s.epoch ≠ run.epoch) event next) : Ran s run event (s.setRun next)
  | proves (next : FillRun) (stash : StashState) (move : run.Move (s.epoch ≠ run.epoch) event next)
      (same : s.epoch = run.epoch) :
      Ran s run event ({ s with stash := stash, saves := ⟨run.erasures, s.erasures⟩ :: s.saves }.setRun next)
  | ends (report : FillReport) (complete : report.complete = true → report = run.report ∧ run.stage = .saving) :
      Ran s run event (s.finish { run with report := report } none)
  | saves (same : s.epoch = run.epoch) (stage : run.stage = .saving) :
      Ran s run event ({ s with
        cursors := run.cursors, saves := ⟨run.erasures, s.erasures⟩ :: s.saves }.finish run (some run.cursors))

theorem abandon_ran (s : FillState) (run : FillRun) (event : FillEvent) : s.Ran run event (s.abandon run) :=
  .ends _ fun complete => nomatch complete

theorem check_ran {s next : FillState} {run : FillRun} (checks : s.check run = some next) :
    s.Ran run .check next := by
  have guarded (stage : FillStage) (passes : run.stage.check = some stage) :
      s.Ran run .check (if s.epoch = run.epoch then s.setRun { run with stage := stage } else s.abandon run) := by
    split
    · next same => exact .moves _ (.check passes fun moved => moved same)
    · exact s.abandon_ran run .check
  unfold check at checks
  dsimp only at checks
  split at checks
  · next stage =>
    cases checks
    exact guarded _ (by rw [stage]; rfl)
  · next stage =>
    cases checks
    exact guarded _ (by rw [stage]; rfl)
  · next stage =>
    cases checks
    exact guarded _ (by rw [stage]; rfl)
  · next stage =>
    split at checks
    · cases checks
      exact .moves _ (.skipRow stage)
    · next hex =>
      cases checks
      exact guarded _ (by rw [stage, FillStage.check, if_neg hex])
  · cases checks

theorem fold_ran {s next : FillState} {run : FillRun} {folded : FoldOutcome}
    (folds : s.fold run folded = some next) : s.Ran run (.fold folded) next := by
  unfold fold at folds
  dsimp only at folds
  split at folds
  · next stage =>
    cases folds
    exact .moves _ (.foldBackup folded stage)
  · next stage =>
    cases folds
    exact .moves _ (.foldRow folded stage)
  · cases folds

theorem cover_ran {s next : FillState} {run : FillRun} {write : CheapWrite}
    (covers : s.cover run write = some next) : s.Ran run (.cover write) next := by
  unfold cover at covers
  split at covers
  · next stage =>
    split at covers
    · cases covers
      exact .moves _ (.coverNone write stage)
    · split at covers
      · cases covers
        exact s.abandon_ran run _
      · next still =>
        have same : s.epoch = run.epoch := not_not.mp still
        have move := FillRun.Move.cover write stage still
        cases covers
        split
        · cases write with
          | saved => exact .proves _ _ move same
          | kept => exact .proves _ s.stash move same
          | torn => exact .proves _ _ move same
        · exact .moves _ move
  · cases covers

theorem close_ran {s next : FillState} {run : FillRun} (closes : s.close run = some next) :
    s.Ran run .close next := by
  unfold close at closes
  split at closes
  · next stage =>
    split at closes
    · next complete =>
      cases closes
      exact .moves _ (.restore stage complete)
    · next cut =>
      cases closes
      exact .moves _ (.cutShort stage cut)
    · cases closes
      exact .moves _ (.noBackup stage)
  · next stage =>
    cases closes
    exact .moves _ (.restored stage)
  · next stage =>
    cases closes
    exact .moves _ (.closeLane stage)
  · cases closes

theorem lane_ran {s next : FillState} {run : FillRun} {live : Bool} {now : Nat}
    (starts : s.lane run live now = some next) : s.Ran run (.lane live now) next := by
  unfold lane at starts
  split at starts
  · next stage =>
    split at starts
    · next spent =>
      cases starts
      exact .moves _ (.endAddresses live now stage spent)
    · next address left queued =>
      cases live with
      | true =>
        cases starts
        exact .moves _ (.nextAddress now stage queued)
      | false =>
        cases starts
        rw [← queued]
        exact .moves _ (.lockAddresses now stage (by rw [queued]; exact List.cons_ne_nil _ _))
  · next stage =>
    split at starts
    · next spent =>
      cases starts
      exact .moves _ (.endConversations live now stage spent)
    · next swept left queued =>
      cases live with
      | true =>
        cases starts
        exact .moves _ (.nextConversation now stage queued)
      | false =>
        cases starts
        rw [← queued]
        exact .moves _ (.lockConversations now stage (by rw [queued]; exact List.cons_ne_nil _ _))
  · cases starts

theorem runStep_ran {s next : FillState} {run : FillRun} {event : FillEvent}
    (steps : s.runStep run event = some next) : s.Ran run event next := by
  cases event with
  | backups live owner now =>
    simp only [runStep] at steps
    split at steps
    · cases steps
    · next stage =>
      have stage := not_not.mp stage
      split at steps
      · cases steps
        exact .moves _ (.askBackups _ now stage)
      · cases steps
        exact .moves _ (.failBackups _ now stage)
      · cases steps
        exact .moves _ (.lockBackups _ now _ stage rfl)
  | page answer =>
    obtain ⟨paged, happens, rfl⟩ := Option.map_eq_some_iff.mp steps
    exact .moves _ (.page happens)
  | read read =>
    obtain ⟨opened, happens, rfl⟩ := Option.map_eq_some_iff.mp steps
    exact .moves _ (.read happens)
  | check => exact check_ran steps
  | fold outcome => exact fold_ran steps
  | cover write => exact cover_ran steps
  | close => exact close_ran steps
  | sweep addresses =>
    simp only [runStep] at steps
    split at steps
    · cases steps
    · next stage =>
      split at steps
      · cases steps
        exact .ends _ fun complete => nomatch complete
      · split at steps
        · next distinct =>
          cases steps
          exact .moves _ (.sweep (not_not.mp stage) distinct)
        · cases steps
  | lane live now => exact lane_ran steps
  | list conversations =>
    simp only [runStep] at steps
    split at steps
    · cases steps
    · next stage =>
      split at steps
      · next distinct =>
        cases steps
        exact .moves _ (.list (not_not.mp stage) distinct)
      · cases steps
  | save write =>
    simp only [runStep] at steps
    split at steps
    · cases steps
    · next stage =>
      split at steps
      · cases steps
        exact s.abandon_ran run _
      · next still =>
        split at steps
        · cases steps
          exact .saves (not_not.mp still) (not_not.mp stage)
        · cases steps
          exact .ends run.report fun _ => ⟨rfl, not_not.mp stage⟩
  | erase erasure write => cases steps
  | relaunch => cases steps
  | dropStash => cases steps
  | backup state write => cases steps
  | begin => cases steps

end FillState

end Kaspaverse.Transport
