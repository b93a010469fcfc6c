import Mathlib
import Kaspaverse.Transport.FillErase

namespace Kaspaverse.Transport

def LaneKind.phase : LaneKind → Nat
  | .stash => 1
  | .handshakes => 2
  | .comms => 3

namespace FillStage

/-- How far a run is: the kind of the lane it works on, or of those it has come to. -/
def phase (stage : FillStage) : Nat :=
  match stage.lane, stage with
  | some (lane, _), _ => lane.kind.phase
  | none, .backups => 0
  | none, .sweep => 1
  | none, .addresses | none, .listing => 2
  | none, _ => 3

/-- The stages only the backup lane goes through. -/
def isBackup : FillStage → Bool
  | .opening .. | .restoring .. | .covering .. => true
  | _ => false

/-- The rows of the walk that are still to be dealt with. -/
def pending : FillStage → List FillRow
  | .walking _ _ _ walker => walker.items
  | .opening _ _ _ left _ newest => left ++ (newest.map Backup.row).toList
  | .restoring _ _ _ _ backup _ _ => [backup.row]
  | .covering _ _ _ _ newest _ => (newest.map Backup.row).toList
  | .folding _ _ _ left _ _ => left
  | _ => []

def held : FillStage → HeldFloor
  | .opening _ _ _ _ held _ | .restoring _ _ _ held _ _ _ | .covering _ _ _ held _ _ | .folding _ _ _ _ held _ => held
  | _ => none

/-- How far the walk has come. -/
def reached : FillStage → Nat
  | .walking _ _ _ walker => walker.cursor
  | .opening _ _ outcome _ _ _ | .restoring _ _ outcome _ _ _ _ | .covering _ _ outcome _ _ _
  | .folding _ _ outcome _ _ _ => outcome.cursor
  | _ => 0

/-- The backup a cut walk saw. -/
def cut : FillStage → Option (Lane × FillRow)
  | .restoring lane _ outcome _ backup _ _ => if outcome.complete then none else some (lane, backup.row)
  | .covering lane _ outcome _ (some backup) _ => if outcome.complete then none else some (lane, backup.row)
  | _ => none

theorem phase_of_lane {stage : FillStage} {worked : Lane × Nat} (working : stage.lane = some worked) :
    stage.phase = worked.1.kind.phase := by
  simp [phase, working]

end FillStage

namespace FillRun

def begun (run : FillRun) : List Lane := run.starts.map Prod.fst

/-- The lanes a sweep has still to start. -/
def queued (run : FillRun) : List Lane :=
  (run.addresses.map fun address => ⟨.handshakes, address⟩) ++
    run.conversations.map fun (swept : Swept) => ⟨.comms, swept.conversationId⟩

/-- A run takes the lanes it is asked for one by one, each once, and starts none it skipped. -/
structure Ordered (run : FillRun) : Prop where
  distinct : run.queued.Nodup
  fresh : ∀ lane ∈ run.queued, lane ∉ run.begun ∧ lane ∉ run.skipped
  phase : ∀ lane, lane ∈ run.begun ∨ lane ∈ run.skipped → lane.kind.phase ≤ run.stage.phase
  skipped : ∀ lane ∈ run.skipped, lane ∉ run.begun
  once : run.begun.Nodup
  working : ∀ worked ∈ run.stage.lane, worked ∈ run.starts
  asked : ∀ lane ∈ run.lanes, lane ∈ run.begun ∨ lane ∈ run.queued ∨ lane ∈ run.skipped
  backup : run.stage.isBackup = true → run.stage.phase = 1
  addresses : run.stage.phase ≠ 2 ∨ run.stage = .listing → run.addresses = []
  conversations : run.stage.phase ≠ 3 ∨ run.stage = .saving → run.conversations = []

theorem begin_ordered (epoch : Nat) (cursors : FillCursors) (erasures : Nat) (lostClears : List (String × Nat)) :
    (FillRun.begin epoch cursors erasures lostClears).Ordered := by
  constructor <;> simp [FillRun.begin, queued, begun, FillStage.lane, FillStage.isBackup]

/-- The lane worked on stays the same. -/
theorem Ordered.stays {run next : FillRun} {worked : Lane × Nat} (ordered : run.Ordered)
    (working : run.stage.lane = some worked) (same : next.stage.lane = some worked)
    (addresses : next.addresses = run.addresses) (conversations : next.conversations = run.conversations)
    (lanes : next.lanes = run.lanes) (starts : next.starts = run.starts) (skipped : next.skipped = run.skipped)
    (backup : next.stage.isBackup = true → run.stage.isBackup = true ∨ worked.1.kind = .stash) : next.Ordered := by
  have queued : next.queued = run.queued := by
    rw [FillRun.queued, FillRun.queued, addresses, conversations]
  have begun : next.begun = run.begun := by
    rw [FillRun.begun, FillRun.begun, starts]
  have phase : next.stage.phase = run.stage.phase := by
    rw [FillStage.phase_of_lane working, FillStage.phase_of_lane same]
  constructor
  · rw [queued]
    exact ordered.distinct
  · rw [queued, begun, skipped]
    exact ordered.fresh
  · rw [begun, skipped, phase]
    exact ordered.phase
  · rw [begun, skipped]
    exact ordered.skipped
  · rw [begun]
    exact ordered.once
  · rw [same, starts]
    rw [← working]
    exact ordered.working
  · rw [lanes, begun, queued, skipped]
    exact ordered.asked
  · intro backs
    rw [phase]
    obtain before | stash := backup backs
    · exact ordered.backup before
    · rw [FillStage.phase_of_lane working, stash]
      rfl
  · rw [phase, addresses]
    rintro (other | listing)
    · exact ordered.addresses (.inl other)
    · rw [listing] at same
      cases same
  · rw [phase, conversations]
    rintro (other | saving)
    · exact ordered.conversations (.inl other)
    · rw [saving] at same
      cases same

/-- A run between two lanes moves on, with its queue as it was. -/
theorem Ordered.moves_on {run next : FillRun} (ordered : run.Ordered) (idle : next.stage.lane = none)
    (addresses : next.addresses = run.addresses) (conversations : next.conversations = run.conversations)
    (lanes : next.lanes = run.lanes) (starts : next.starts = run.starts) (skipped : next.skipped = run.skipped)
    (phase : run.stage.phase ≤ next.stage.phase)
    (spent : next.stage.phase ≠ 2 ∨ next.stage = .listing → run.addresses = [])
    (overComms : next.stage.phase ≠ 3 ∨ next.stage = .saving → run.conversations = []) : next.Ordered := by
  have queued : next.queued = run.queued := by
    rw [FillRun.queued, FillRun.queued, addresses, conversations]
  have begun : next.begun = run.begun := by
    rw [FillRun.begun, FillRun.begun, starts]
  constructor
  · rw [queued]
    exact ordered.distinct
  · rw [queued, begun, skipped]
    exact ordered.fresh
  · rw [begun, skipped]
    intro lane member
    exact (ordered.phase lane member).trans phase
  · rw [begun, skipped]
    exact ordered.skipped
  · rw [begun]
    exact ordered.once
  · intro worked member
    rw [idle] at member
    cases member
  · rw [lanes, begun, queued, skipped]
    exact ordered.asked
  · intro backs
    cases stage : next.stage with
    | opening => rw [stage] at idle; cases idle
    | restoring => rw [stage] at idle; cases idle
    | covering => rw [stage] at idle; cases idle
    | _ => rw [stage] at backs; cases backs
  · rw [addresses]
    exact spent
  · rw [conversations]
    exact overComms

/-- A lane that is the first of the queue starts. -/
theorem Ordered.starts_next {run next : FillRun} {lane : Lane} {start : Nat} (ordered : run.Ordered)
    (queued : run.queued = lane :: next.queued) (starts : next.starts = (lane, start) :: run.starts)
    (lanes : next.lanes = run.lanes) (skipped : next.skipped = run.skipped)
    (working : next.stage.lane = some (lane, start)) (walks : next.stage.isBackup = false)
    (phase : run.stage.phase = lane.kind.phase)
    (addresses : lane.kind.phase ≠ 2 → next.addresses = [])
    (conversations : lane.kind.phase ≠ 3 → next.conversations = []) : next.Ordered := by
  have begun : next.begun = lane :: run.begun := by
    rw [FillRun.begun, FillRun.begun, starts, List.map_cons]
  have nextPhase : next.stage.phase = run.stage.phase := by
    rw [FillStage.phase_of_lane working, phase]
  have first := ordered.fresh lane (by rw [queued]; exact List.mem_cons_self)
  have distinct := ordered.distinct
  rw [queued, List.nodup_cons] at distinct
  constructor
  · exact distinct.2
  · intro other member
    have before := ordered.fresh other (by rw [queued]; exact List.mem_cons_of_mem _ member)
    have apart : other ≠ lane := by
      rintro rfl
      exact distinct.1 member
    rw [begun, skipped, List.mem_cons]
    exact ⟨fun among => among.elim apart before.1, before.2⟩
  · rw [begun, skipped, nextPhase]
    intro other member
    by_cases same : other = lane
    · rw [same, phase]
    · rw [List.mem_cons] at member
      exact ordered.phase other (member.imp_left fun among => among.resolve_left same)
  · rw [begun, skipped]
    intro other member among
    obtain rfl | before := List.mem_cons.mp among
    · exact first.2 member
    · exact ordered.skipped other member before
  · rw [begun]
    exact List.nodup_cons.mpr ⟨first.1, ordered.once⟩
  · intro worked member
    rw [working] at member
    cases member
    rw [starts]
    exact List.mem_cons_self
  · rw [lanes, begun, skipped]
    intro other member
    obtain before | left | skip := ordered.asked other member
    · exact .inl (List.mem_cons_of_mem _ before)
    · rw [queued] at left
      obtain rfl | later := List.mem_cons.mp left
      · exact .inl List.mem_cons_self
      · exact .inr (.inl later)
    · exact .inr (.inr skip)
  · intro backs
    rw [walks] at backs
    cases backs
  · rw [nextPhase, phase]
    rintro (other | listing)
    · exact addresses other
    · rw [listing] at working
      cases working
  · rw [nextPhase, phase]
    rintro (other | saving)
    · exact conversations other
    · rw [saving] at working
      cases working

/-- The whole queue is skipped. -/
theorem Ordered.skips {run next : FillRun} (ordered : run.Ordered) (queue : next.queued = [])
    (skipped : next.skipped = run.queued ++ run.skipped) (lanes : next.lanes = run.lanes)
    (starts : next.starts = run.starts) (idle : next.stage.lane = none) (walks : next.stage.isBackup = false)
    (phase : run.stage.phase ≤ next.stage.phase) (reach : ∀ lane ∈ run.queued, lane.kind.phase ≤ next.stage.phase) :
    next.Ordered := by
  have begun : next.begun = run.begun := by
    rw [FillRun.begun, FillRun.begun, starts]
  have empty : next.addresses = [] ∧ next.conversations = [] := by
    simpa [FillRun.queued] using queue
  constructor
  · rw [queue]
    exact List.nodup_nil
  · rw [queue]
    exact fun _ member => by cases member
  · rw [begun, skipped]
    intro lane member
    obtain among | among := member
    · exact (ordered.phase lane (.inl among)).trans phase
    · obtain left | before := List.mem_append.mp among
      · exact reach lane left
      · exact (ordered.phase lane (.inr before)).trans phase
  · rw [begun, skipped]
    intro lane member
    obtain left | before := List.mem_append.mp member
    · exact (ordered.fresh lane left).1
    · exact ordered.skipped lane before
  · rw [begun]
    exact ordered.once
  · intro worked member
    rw [idle] at member
    cases member
  · rw [lanes, begun, skipped, queue]
    intro lane member
    obtain before | left | skip := ordered.asked lane member
    · exact .inl before
    · exact .inr (.inr (List.mem_append_left _ left))
    · exact .inr (.inr (List.mem_append_right _ skip))
  · intro backs
    rw [walks] at backs
    cases backs
  · exact fun _ => empty.1
  · exact fun _ => empty.2

/-- A sweep is asked for lanes of a kind the run has not come to. -/
theorem Ordered.asks {run next : FillRun} (ordered : run.Ordered) (fresh : run.queued = [])
    (distinct : next.queued.Nodup) (lanes : next.lanes = next.queued ++ run.lanes) (starts : next.starts = run.starts)
    (skipped : next.skipped = run.skipped) (idle : next.stage.lane = none) (walks : next.stage.isBackup = false)
    (phase : run.stage.phase < next.stage.phase) (reach : ∀ lane ∈ next.queued, lane.kind.phase = next.stage.phase)
    (addresses : next.stage.phase ≠ 2 ∨ next.stage = .listing → next.addresses = [])
    (conversations : next.stage.phase ≠ 3 ∨ next.stage = .saving → next.conversations = []) : next.Ordered := by
  have begun : next.begun = run.begun := by
    rw [FillRun.begun, FillRun.begun, starts]
  have apart (lane : Lane) (member : lane ∈ next.queued) : ¬ (lane ∈ run.begun ∨ lane ∈ run.skipped) := by
    intro before
    have early := ordered.phase lane before
    have late := reach lane member
    omega
  constructor
  · exact distinct
  · rw [begun, skipped]
    intro lane member
    exact not_or.mp (apart lane member)
  · rw [begun, skipped]
    intro lane member
    have before := ordered.phase lane member
    omega
  · rw [begun, skipped]
    exact ordered.skipped
  · rw [begun]
    exact ordered.once
  · intro worked member
    rw [idle] at member
    cases member
  · rw [lanes, begun, skipped]
    intro lane member
    obtain asked | before := List.mem_append.mp member
    · exact .inr (.inl asked)
    · obtain among | left | skip := ordered.asked lane before
      · exact .inl among
      · rw [fresh] at left
        cases left
      · exact .inr (.inr skip)
  · intro backs
    rw [walks] at backs
    cases backs
  · exact addresses
  · exact conversations

/-- Nothing has started or been skipped in front of the backup lane. -/
theorem Ordered.at_backups {run : FillRun} (ordered : run.Ordered) (stage : run.stage = .backups) :
    run.starts = [] ∧ run.skipped = [] ∧ run.addresses = [] ∧ run.conversations = [] := by
  have early (lane : Lane) : ¬ (lane ∈ run.begun ∨ lane ∈ run.skipped) := by
    intro member
    have below := ordered.phase lane member
    rw [stage] at below
    cases kind : lane.kind <;> rw [kind] at below <;> simp [LaneKind.phase, FillStage.phase, FillStage.lane] at below
  refine ⟨?_, ?_, ordered.addresses ?_, ordered.conversations ?_⟩
  · cases starts : run.starts with
    | nil => rfl
    | cons started rest =>
      apply absurd (Or.inl _) (early started.1)
      simp [begun, starts]
  · cases skipped : run.skipped with
    | nil => rfl
    | cons lane rest =>
      apply absurd (Or.inr _) (early lane)
      simp [skipped]
  · left
    simp [stage, FillStage.phase, FillStage.lane]
  · left
    simp [stage, FillStage.phase, FillStage.lane]

theorem Ordered.page {run next : FillRun} {answer : Except String (List FillRow)} (ordered : run.Ordered)
    (paged : run.page answer = some next) : next.Ordered := by
  unfold FillRun.page at paged
  split at paged
  · next lane start ceiling walker stage =>
    have working : run.stage.lane = some (lane, start) := by
      rw [stage]
      rfl
    split at paged
    · cases paged
      exact ordered.stays working rfl rfl rfl rfl rfl rfl fun backs => by cases backs
    · cases paged
      refine ordered.stays working ?_ rfl rfl rfl rfl rfl ?_
      · dsimp only
        split <;> rfl
      · intro backs
        dsimp only at backs
        split at backs
        · next stash => exact .inr stash
        · cases backs
  · cases paged

theorem Ordered.read {run next : FillRun} {read : StashRead} (ordered : run.Ordered)
    (opened : run.read read = some next) : next.Ordered := by
  unfold FillRun.read at opened
  split at opened
  · next lane start outcome row left held newest stage =>
    have keeps (held' : HeldFloor) (newest' : Option Backup) (holds dealt : List (Lane × FillRow)) :
        Ordered { run with
          stage := .opening lane start outcome left held' newest', holds := holds, dealt := dealt } := by
      refine ordered.stays ?_ rfl rfl rfl rfl rfl rfl ?_
      · rw [stage]
        rfl
      · rw [stage]
        exact Or.inl
    split at opened
    · cases opened
      exact keeps _ _ _ _
    · split at opened
      · split at opened <;> cases opened <;> exact keeps _ _ _ _
      · dsimp only at opened
        split at opened <;> cases opened <;> exact keeps _ _ _ _
      · cases opened
  · cases opened

theorem cut_lane {stage : FillStage} {entry : Lane × FillRow} (cut : entry ∈ stage.cut) : stage.lane ≠ none := by
  cases stage with
  | restoring => exact Option.some_ne_none _
  | covering => exact Option.some_ne_none _
  | _ => cases cut

theorem check_isBackup {stage checked : FillStage} (passes : stage.check = some checked) :
    checked.isBackup = stage.isBackup := by
  unfold FillStage.check at passes
  split at passes
  · cases passes
    rfl
  · cases passes
    rfl
  · cases passes
    rfl
  · split at passes
    · cases passes
    · cases passes
      rfl
  · cases passes

/-- The end of a lane leads on to what its kind leads to. -/
theorem Ordered.closes {run next : FillRun} {worked : Lane × Nat} (ordered : run.Ordered)
    (working : run.stage.lane = some worked) (addresses : next.addresses = run.addresses)
    (conversations : next.conversations = run.conversations) (lanes : next.lanes = run.lanes)
    (starts : next.starts = run.starts) (skipped : next.skipped = run.skipped)
    (leads : next.stage = .sweep ∧ run.stage.isBackup = true ∨
      next.stage = (if worked.1.kind = .comms then .conversations else .addresses)) : next.Ordered := by
  have here := FillStage.phase_of_lane working
  obtain ⟨stage, backs⟩ | stage := leads
  · have first := ordered.backup backs
    refine ordered.moves_on ?_ addresses conversations lanes starts skipped ?_ ?_ ?_
    · rw [stage]
      rfl
    · rw [first, stage]
      exact le_refl _
    · exact fun _ => ordered.addresses (.inl (by omega))
    · exact fun _ => ordered.conversations (.inl (by omega))
  · cases kind : worked.1.kind with
    | comms =>
      rw [kind] at here
      rw [if_pos kind] at stage
      refine ordered.moves_on ?_ addresses conversations lanes starts skipped ?_ ?_ ?_
      · rw [stage]
        rfl
      · rw [here, stage]
        exact le_refl _
      · intro _
        apply ordered.addresses (.inl _)
        rw [here]
        decide
      · rw [stage]
        rintro (other | other)
        · exact absurd rfl other
        · cases other
    | _ =>
      rw [kind] at here
      rw [if_neg (by rw [kind]; decide)] at stage
      refine ordered.moves_on ?_ addresses conversations lanes starts skipped ?_ ?_ ?_
      · rw [stage]
        rfl
      · rw [here, stage]
        decide
      · rw [stage]
        rintro (other | other)
        · exact absurd rfl other
        · cases other
      · intro _
        apply ordered.conversations (.inl _)
        rw [here]
        decide

theorem Move.ordered {moved : Prop} [Decidable moved] {run next : FillRun} {event : FillEvent}
    (move : run.Move moved event next) (ordered : run.Ordered) : next.Ordered := by
  cases move with
  | askBackups owner now stage =>
    obtain ⟨starts, skipped, addresses, conversations⟩ := ordered.at_backups stage
    constructor <;> simp [FillRun.startLane, queued, begun, starts, skipped, addresses, conversations,
      FillStage.lane, FillStage.phase, FillStage.isBackup, LaneKind.phase]
  | failBackups e now stage =>
    obtain ⟨starts, skipped, addresses, conversations⟩ := ordered.at_backups stage
    exact ordered.moves_on rfl rfl rfl rfl rfl rfl (by rw [stage]; exact Nat.zero_le _)
      (fun _ => addresses) fun _ => conversations
  | lockBackups owner now lanes stage backups =>
    obtain ⟨starts, skipped, addresses, conversations⟩ := ordered.at_backups stage
    have stash : ∀ lane ∈ lanes, lane.kind = .stash := by
      rw [backups]
      intro lane member
      simp only [Option.mem_toList, Option.map_eq_some_iff] at member
      obtain ⟨owner, _, rfl⟩ := member
      rfl
    constructor <;> simp [FillRun.skipLanes, queued, begun, starts, skipped, addresses, conversations,
      FillStage.lane, FillStage.phase, FillStage.isBackup]
    intro lane member
    rw [stash lane member]
    exact le_refl _
  | page paged => exact ordered.page paged
  | read opened => exact ordered.read opened
  | check passes still =>
    cases working : run.stage.lane with
    | none =>
      unfold FillStage.check at passes
      split at passes <;> first | (rename_i stage; rw [stage] at working; cases working) | cases passes
    | some worked =>
      refine ordered.stays working ?_ rfl rfl rfl rfl rfl ?_
      · exact (check_lane passes).trans working
      · intro backs
        exact .inl ((check_isBackup passes).symm.trans backs)
  | skipRow stage => exact ordered.stays (by rw [stage]; rfl) rfl rfl rfl rfl rfl rfl fun backs => by cases backs
  | foldBackup folded stage =>
    cases folded <;> exact ordered.stays (by rw [stage]; rfl) rfl rfl rfl rfl rfl rfl fun _ => .inl (by rw [stage]; rfl)
  | foldRow folded stage =>
    cases folded <;> exact ordered.stays (by rw [stage]; rfl) rfl rfl rfl rfl rfl rfl fun backs => by cases backs
  | coverNone write stage =>
    exact ordered.closes (by rw [stage]; rfl) rfl rfl rfl rfl rfl (.inl ⟨rfl, by rw [stage]; rfl⟩)
  | cover write stage still =>
    exact ordered.closes (by rw [stage]; rfl) rfl rfl rfl rfl rfl (.inl ⟨rfl, by rw [stage]; rfl⟩)
  | restore stage complete =>
    exact ordered.stays (by rw [stage]; rfl) rfl rfl rfl rfl rfl rfl fun _ => .inl (by rw [stage]; rfl)
  | cutShort stage cut =>
    exact ordered.stays (by rw [stage]; rfl) rfl rfl rfl rfl rfl rfl fun _ => .inl (by rw [stage]; rfl)
  | noBackup stage =>
    exact ordered.stays (by rw [stage]; rfl) rfl rfl rfl rfl rfl rfl fun _ => .inl (by rw [stage]; rfl)
  | restored stage =>
    exact ordered.stays (by rw [stage]; rfl) rfl rfl rfl rfl rfl rfl fun _ => .inl (by rw [stage]; rfl)
  | closeLane stage => exact ordered.closes (by rw [stage]; rfl) rfl rfl rfl rfl rfl (.inr rfl)
  | sweep stage distinct =>
    have addresses := ordered.addresses (.inl (by rw [stage]; decide))
    have conversations := ordered.conversations (.inl (by rw [stage]; decide))
    refine ordered.asks ?_ ?_ ?_ rfl rfl rfl rfl (by rw [stage]; exact Nat.lt_succ_self _) ?_
      (fun spent => ?_) fun _ => conversations
    · simp [FillRun.queued, addresses, conversations]
    · simpa [FillRun.queued, conversations] using
        distinct.map fun first second same => by injection same
    · simp [FillRun.queued, conversations]
    · intro lane member
      simp only [FillRun.queued, conversations, List.map_nil, List.append_nil, List.mem_map] at member
      obtain ⟨address, _, rfl⟩ := member
      rfl
    · obtain other | other := spent
      · exact absurd rfl other
      · cases other
  | endAddresses live now stage spent =>
    have conversations := ordered.conversations (.inl (by rw [stage]; decide))
    exact ordered.moves_on rfl rfl rfl rfl rfl rfl (by rw [stage]; exact le_refl _) (fun _ => spent)
      fun _ => conversations
  | nextAddress now stage queued =>
    have conversations := ordered.conversations (.inl (by rw [stage]; decide))
    refine ordered.starts_next ?_ rfl rfl rfl rfl rfl (by rw [stage]; rfl) ?_ fun _ => conversations
    · simp [FillRun.queued, FillRun.startLane, queued]
    · exact fun other => absurd rfl other
  | lockAddresses now stage some_left =>
    have conversations := ordered.conversations (.inl (by rw [stage]; decide))
    refine ordered.skips ?_ ?_ rfl rfl rfl rfl (by rw [stage]; exact le_refl _) ?_
    · simp [FillRun.queued, FillRun.skipLanes, conversations]
    · simp [FillRun.queued, FillRun.skipLanes, conversations]
    · intro lane member
      simp only [FillRun.queued, conversations, List.map_nil, List.append_nil, List.mem_map] at member
      obtain ⟨address, _, rfl⟩ := member
      exact le_refl _
  | list stage distinct =>
    have apart : Function.Injective fun id => (⟨.comms, id⟩ : Lane) := fun first second same => by injection same
    have addresses := ordered.addresses (.inr stage)
    have conversations := ordered.conversations (.inl (by rw [stage]; decide))
    refine ordered.asks ?_ ?_ ?_ rfl rfl rfl rfl (by rw [stage]; exact Nat.lt_succ_self _) ?_
      (fun _ => addresses) fun spent => ?_
    · simp [FillRun.queued, addresses, conversations]
    · have lanes := distinct.map apart
      rw [List.map_map] at lanes
      simpa [FillRun.queued, addresses, Function.comp_def] using lanes
    · simp [FillRun.queued, addresses]
    · intro lane member
      simp only [FillRun.queued, addresses, List.map_nil, List.nil_append, List.mem_map] at member
      obtain ⟨swept, _, rfl⟩ := member
      rfl
    · obtain other | other := spent
      · exact absurd rfl other
      · cases other
  | endConversations live now stage spent =>
    have addresses := ordered.addresses (.inl (by rw [stage]; decide))
    exact ordered.moves_on rfl rfl rfl rfl rfl rfl (by rw [stage]; exact le_refl _) (fun _ => addresses)
      fun _ => spent
  | nextConversation now stage queued =>
    have addresses := ordered.addresses (.inl (by rw [stage]; decide))
    refine ordered.starts_next ?_ rfl rfl rfl rfl rfl (by rw [stage]; rfl) (fun _ => addresses) ?_
    · simp [FillRun.queued, FillRun.startLane, queued, addresses]
    · exact fun other => absurd rfl other
  | lockConversations now stage some_left =>
    have addresses := ordered.addresses (.inl (by rw [stage]; decide))
    refine ordered.skips ?_ ?_ rfl rfl rfl rfl (by rw [stage]; exact le_refl _) ?_
    · simp [FillRun.queued, FillRun.skipLanes, addresses]
    · simp [FillRun.queued, FillRun.skipLanes, addresses]
    · intro lane member
      simp only [FillRun.queued, addresses, List.map_nil, List.nil_append, List.mem_map] at member
      obtain ⟨swept, _, rfl⟩ := member
      exact le_refl _

end FillRun

end Kaspaverse.Transport
