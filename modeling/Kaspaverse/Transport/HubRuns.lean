import Kaspaverse.Transport.HubSound

namespace Kaspaverse.Transport.Hub

variable {chain : Chain} {s next : Hub} {act other : Act} {o : Oracle} {id : Nat} {rest : List Act} {e : Event}

/-- What no fold of a row touches. -/
structure Desk where
  blocked : List String
  stash : Option StashState
  nonce : Nat
  plan : Option (Nat × TransportIntent)
  intent : Option (Nat × TransportIntent)
  erasures : Nat
  fills : KeyMap Nat (Nat × Bool)
  calls : KeyMap Nat (List Act)
  minted : Finset String
  addressed : KeyMap TransportIntent String
  held : Finset String
  destroyed : Destroyed

def desk (s : Hub) : Desk :=
  ⟨s.blocked, s.stash, s.nonce, s.plan, s.intent, s.erasures, s.fills, s.calls, s.minted, s.addressed, s.held,
    s.destroyed⟩

/-- Every section but these folds rows and no more. -/
def Folds : Act → Prop
  | .stashSave _ | .blockList _ _ | .blockPurge _ _ _ | .unblock _ | .abandonPlan | .abandonIntent | .seal
  | .wipeStore | .wipeFiles | .prepareComm _ | .allot _ | .storeIntent _ _ | .storePlan _ _ | .takePlan _
  | .takeIntent _ _ | .apply _ _ => False
  | _ => True

section Desks

theorem recordParkedRows_desk (h : Hub) (id sender : String) (bound : KeySlot)
    (rows : List (String × ParkedComm)) (now : Nat) :
    (h.recordParkedRows id sender bound rows now).desk = h.desk := by
  have all : ∀ (rows : List (String × ParkedComm)) (h : Hub),
      (rows.foldl (recordParked id sender bound now) h).desk = h.desk := by
    intro rows
    induction rows with
    | nil => exact fun _ => rfl
    | cons row rest ih =>
      intro h
      rw [List.foldl_cons, ih]
      unfold recordParked
      split <;> rfl
  exact all rows h

theorem commFile_desk (routed : RoutedComm) (slot : KeySlot) (envelope : List UInt8) :
    (s.commFile routed slot envelope o).desk = s.desk := by
  unfold commFile recordComm
  dsimp only
  split
  · split <;> rfl
  · rfl
  · split
    · split <;> rfl
    · split <;> rfl

theorem handshakeOverride_desk (handshake : OpenedHandshake) (old : MessageRecord) :
    (s.handshakeOverride chain handshake old).1.desk = s.desk := by
  unfold handshakeOverride
  dsimp only
  split
  · rfl
  · split
    · rfl
    · split
      · rfl
      · split <;> rfl

theorem handshakeComplete_desk (handshake : OpenedHandshake) (sender id : String) :
    (s.handshakeComplete handshake sender id).desk = s.desk := by
  unfold handshakeComplete
  split
  · rfl
  · split <;> rfl

theorem applyParkedAcceptance_desk (txid sender : String) :
    (s.applyParkedAcceptance txid sender o).desk = s.desk := by
  unfold applyParkedAcceptance
  split
  · rfl
  · dsimp only
    split
    · rfl
    · split <;> rfl

theorem adoptFold_desk (txid : String) (parked : ParkedComm) :
    (s.adoptFold chain txid parked o).1.desk = s.desk := by
  unfold adoptFold
  split
  · rfl
  · dsimp only
    split
    · rfl
    split
    · rfl
    split
    · split
      · split
        · rfl
        · exact recordParkedRows_desk _ _ _ _ _ _
      · rfl
      · rfl
      · rfl
    · split
      · split
        · rfl
        · exact recordParkedRows_desk _ _ _ _ _ _
      · split
        · rfl
        · exact recordParkedRows_desk _ _ _ _ _ _

theorem releaseFile_desk (conversationId sender : String) (rows : List (String × ParkedComm)) :
    (s.releaseFile conversationId sender rows o).desk = s.desk := by
  unfold releaseFile
  split
  · rfl
  · rfl
  · split
    · rfl
    · exact recordParkedRows_desk _ _ _ _ _ _

theorem unhideRow_desk (row : ConversationRecord) : (s.unhideRow row).desk = s.desk := by
  unfold unhideRow
  split <;> rfl

theorem prepareHandshake_desk (address : String) : (s.prepareHandshake chain address o).1.desk = s.desk := by
  unfold prepareHandshake
  split
  · rfl
  · dsimp only
    split <;> split <;> first | exact unhideRow_desk _ | rfl

end Desks

theorem perform_desk (folds : Folds act) : (s.perform chain o act).1.desk = s.desk := by
  cases act with
  | commFile routed slot envelope => exact commFile_desk _ _ _
  | removeArchiveRow txid =>
    unfold perform removeArchiveRow
    dsimp only
    split <;> rfl
  | handshakeOverride handshake old => exact handshakeOverride_desk _ _
  | handshakeComplete handshake sender id => exact handshakeComplete_desk _ _ _
  | handshakePark handshake id =>
    unfold perform handshakePark
    dsimp only
    split <;> rfl
  | handshakeContact handshake sender =>
    unfold perform handshakeContact
    dsimp only
    split <;> rfl
  | handshakeInvite handshake sender =>
    unfold perform handshakeInvite
    dsimp only
    split <;> rfl
  | releaseFile id sender rows => exact releaseFile_desk _ _ _
  | adopt txid =>
    unfold perform adopt
    dsimp only
    split <;> rfl
  | adoptFold txid parked => exact adoptFold_desk _ _
  | acceptance txid =>
    unfold perform
    dsimp only
    split
    · exact applyParkedAcceptance_desk _ _
    · rfl
  | backfill txid =>
    unfold perform backfill
    dsimp only
    split <;> rfl
  | resweepName id txid =>
    unfold perform resweepName
    dsimp only
    split
    · split <;> rfl
    · rfl
  | restore payload windows =>
    unfold perform restore
    dsimp only
    split
    · split <;> rfl
    · rfl
  | route address =>
    unfold perform route
    dsimp only
    split
    · exact unhideRow_desk _
    · rfl
  | blockForget alias_ ids => cases alias_ <;> rfl
  | prepareHandshake address => exact prepareHandshake_desk _
  | prepareAcceptNamed id theirAlias txid =>
    unfold perform prepareAcceptNamed
    dsimp only
    split
    · rfl
    · split <;> rfl
  | _ => first | exact folds.elim | rfl

/-- No section touches the calls in flight, or the ids there were. -/
theorem perform_frame :
    (s.perform chain o act).1.calls = s.calls ∧ (s.perform chain o act).1.minted = s.minted := by
  have folded : Folds act → (s.perform chain o act).1.desk = s.desk := perform_desk
  cases act with
  | stashSave state =>
    unfold perform
    dsimp only
    split <;> exact ⟨rfl, rfl⟩
  | blockList address alias_ =>
    unfold perform blockList
    dsimp only
    split <;> exact ⟨rfl, rfl⟩
  | unblock address =>
    unfold perform unblock
    dsimp only
    split <;> exact ⟨rfl, rfl⟩
  | prepareComm id =>
    unfold perform prepareComm
    dsimp only
    split
    · exact ⟨rfl, rfl⟩
    · split <;> exact ⟨rfl, rfl⟩
  | takePlan nonce =>
    unfold perform takePlan
    dsimp only
    split
    · split <;> exact ⟨rfl, rfl⟩
    · exact ⟨rfl, rfl⟩
  | apply intent txid =>
    cases intent with
    | accept id address myAlias reseal timestampMs =>
      unfold perform applyIntent applyAccept
      dsimp only
      split <;> exact ⟨rfl, rfl⟩
    | selfStash covered timestampMs =>
      unfold perform applyIntent
      dsimp only
      split <;> exact ⟨rfl, rfl⟩
    | _ => exact ⟨rfl, rfl⟩
  | _ =>
    first
      | exact ⟨congrArg Desk.calls (folded True.intro), congrArg Desk.minted (folded True.intro)⟩
      | exact ⟨rfl, rfl⟩

section Flight

/-- A section that some call has still to perform. -/
def InFlight (s : Hub) (act : Act) : Prop := ∃ id acts, s.calls.lookup id = some acts ∧ act ∈ acts

/-- The sections a call comes in with. -/
inductive Entry (chain : Chain) : Act → Prop
  | call {call : Call} {first : Act} (truthful : call.truthful chain = true) (member : first ∈ call.acts) :
    Entry chain first
  | fold {row : FillRow} {first : Act} (member : first ∈ row.acts) : Entry chain first
  | prove (run : Nat) (txid : String) : Entry chain (.stashLoad run txid)

theorem setCall_flight {acts : List Act} (flight : InFlight (s.setCall id acts) act) :
    InFlight s act ∨ act ∈ acts := by
  obtain ⟨other, held, found, member⟩ := flight
  unfold setCall at found
  dsimp only at found
  split at found
  · exact .inl ⟨other, held, (KeyMap.lookup_erase_some.mp found).2, member⟩
  · rcases KeyMap.lookup_insert_some.mp found with ⟨_, rfl⟩ | ⟨_, before⟩
    · exact .inr member
    · exact .inl ⟨other, held, before, member⟩

/-- A step that performs a section: the first of a call, whose others stay behind what it hands on. -/
structure Performed (chain : Chain) (s : Hub) (id : Nat) (o : Oracle) (act : Act) (rest : List Act) (next : Hub) :
    Prop where
  head : s.calls.lookup id = some (act :: rest)
  answers : s.answers chain act o = true
  after : next =
    ((s.perform chain o act).1.mint (draws o act)).setCall id ((s.perform chain o act).2 ++ rest)

/-- Every other step leaves the stores, and what is in flight but for a call that comes in. -/
structure Idle (chain : Chain) (s next : Hub) : Prop where
  filing : next.filing = s.filing
  blocked : next.blocked = s.blocked
  held : next.held = s.held
  minted : next.minted = s.minted
  stash : next.stash = s.stash
  addressed : next.addressed = s.addressed
  comms : ∀ entry ∈ next.comms.entries, entry ∈ s.comms.entries
  acceptances : ∀ entry ∈ next.acceptances, entry ∈ s.acceptances
  plan : next.plan = s.plan ∨ next.plan = none
  intent : next.intent = s.intent ∨ next.intent = none
  flight : ∀ act, next.InFlight act → s.InFlight act ∨ Entry chain act

theorem Idle.arrive {acts : List Act} (h : Hub) (same : h.calls = s.calls) (filing : h.filing = s.filing)
    (desk : h.blocked = s.blocked ∧ h.held = s.held ∧ h.minted = s.minted ∧ h.stash = s.stash ∧
      h.addressed = s.addressed ∧ h.comms = s.comms ∧ h.acceptances = s.acceptances ∧ h.plan = s.plan ∧
        h.intent = s.intent) (enters : ∀ act ∈ acts, Entry chain act) : Idle chain s (h.setCall id acts) := by
  obtain ⟨blocked, held, minted, stash, addressed, comms, acceptances, plan, intent⟩ := desk
  refine ⟨filing, blocked, held, minted, stash, addressed, ?_, ?_, .inl plan, .inl intent, ?_⟩
  · intro entry member
    rw [← comms]
    exact member
  · intro entry member
    rw [← acceptances]
    exact member
  · intro act flight
    rcases setCall_flight flight with before | arrives
    · unfold InFlight at before ⊢
      rw [same] at before
      exact .inl before
    · exact .inr (enters act arrives)

theorem step_perform (steps : step chain s (.perform id o) = some next) :
    ∃ act rest, Performed chain s id o act rest next := by
  unfold step at steps
  simp only at steps
  split at steps
  case h_1 act rest head =>
    split at steps
    case isTrue answers =>
      cases steps
      exact ⟨act, rest, head, answers, rfl⟩
    case isFalse => cases steps
  · cases steps

theorem step_cases (steps : step chain s e = some next) :
    (∃ id o act rest, e = .perform id o ∧ Performed chain s id o act rest next) ∨ Idle chain s next := by
  cases e with
  | perform id o =>
    obtain ⟨act, rest, performed⟩ := step_perform steps
    exact .inl ⟨id, o, act, rest, rfl, performed⟩
  | call id call =>
    right
    unfold step at steps
    simp only at steps
    split at steps
    · cases steps
    case isFalse enters =>
      rw [not_or, Bool.not_eq_false] at enters
      cases steps
      exact .arrive _ rfl rfl ⟨rfl, rfl, rfl, rfl, rfl, rfl, rfl, rfl, rfl⟩ fun _ member => .call enters.2 member
  | fillBegin run =>
    right
    unfold step at steps
    simp only at steps
    split at steps
    · cases steps
    · cases steps
      exact ⟨rfl, rfl, rfl, rfl, rfl, rfl, fun _ member => member, fun _ member => member, .inl rfl, .inl rfl,
        fun _ flight => .inl flight⟩
  | fillCheck run =>
    right
    unfold step at steps
    simp only at steps
    split at steps
    · cases steps
      exact ⟨rfl, rfl, rfl, rfl, rfl, rfl, fun _ member => member, fun _ member => member, .inl rfl, .inl rfl,
        fun _ flight => .inl flight⟩
    · cases steps
  | fillFold run id row =>
    right
    unfold step at steps
    simp only at steps
    split at steps
    · split at steps
      · cases steps
      · cases steps
        exact .arrive _ rfl rfl ⟨rfl, rfl, rfl, rfl, rfl, rfl, rfl, rfl, rfl⟩ fun _ member => .fold member
    · cases steps
  | fillProve run id txid =>
    right
    unfold step at steps
    simp only at steps
    split at steps
    · cases steps
      refine .arrive _ rfl rfl ⟨rfl, rfl, rfl, rfl, rfl, rfl, rfl, rfl, rfl⟩ ?_
      intro act member
      rw [List.mem_singleton.mp member]
      exact .prove run txid
    · cases steps
  | restart =>
    right
    cases steps
    refine ⟨rfl, rfl, rfl, rfl, rfl, rfl, List.forall_mem_nil _, List.forall_mem_nil _, .inr rfl, .inr rfl, ?_⟩
    rintro act ⟨_, _, found, _⟩
    cases found

theorem Performed.flight (performed : Performed chain s id o act rest next) (flight : next.InFlight other) :
    s.InFlight other ∨ other ∈ (s.perform chain o act).2 := by
  rw [performed.after] at flight
  rcases setCall_flight flight with before | follows
  · have same : ((s.perform chain o act).1.mint (draws o act)).calls = s.calls := perform_frame.1
    unfold InFlight at before ⊢
    rw [same] at before
    exact .inl before
  · rcases List.mem_append.mp follows with handed | behind
    · exact .inr handed
    · exact .inl ⟨id, _, performed.head, List.mem_cons_of_mem _ behind⟩

theorem Performed.minted (performed : Performed chain s id o act rest next) :
    next.minted = (draws o act).toFinset ∪ s.minted := by
  have same : (s.perform chain o act).1.minted = s.minted := perform_frame.2
  rw [performed.after, ← same]
  rfl

theorem Performed.here (performed : Performed chain s id o act rest next) : s.InFlight act :=
  ⟨id, _, performed.head, List.mem_cons_self⟩

end Flight

section Soundness

theorem entry_sound (entry : Entry chain act) : act.Sound chain := by
  cases entry with
  | @call call _ truthful member =>
    cases call with
    | inboundComm comm =>
      rw [List.mem_singleton.mp member]
      intro _ sender named
      obtain ⟨_, page⟩ := Bool.and_eq_true_iff.mp truthful
      rw [named] at page
      exact of_decide_eq_true page
    | inboundHandshake handshake =>
      rw [List.mem_singleton.mp member]
      intro _ sender named
      obtain ⟨_, page⟩ := Bool.and_eq_true_iff.mp truthful
      rw [named] at page
      exact of_decide_eq_true page
    | _ =>
      simp only [Call.acts, List.mem_cons, List.not_mem_nil, or_false] at member
      first
        | rw [member]; exact True.intro
        | (rcases member with rfl | rfl <;> exact True.intro)
        | (rcases member with rfl | rfl | rfl <;> exact True.intro)
        | (rcases member with rfl | rfl | rfl | rfl | rfl | rfl | rfl <;> exact True.intro)
  | @fold row _ member =>
    cases row with
    | comm row =>
      rw [List.mem_singleton.mp member]
      exact fun node => nomatch node
    | handshake row =>
      rw [List.mem_singleton.mp member]
      exact fun node => nomatch node
    | backup payload windows =>
      rw [List.mem_singleton.mp member]
      exact True.intro
  | prove run txid => exact True.intro

theorem sound_flight (sound : s.Sound chain) (flight : s.InFlight act) : act.Sound chain := by
  obtain ⟨_, _, found, member⟩ := flight
  exact sound.calls _ _ found act member

theorem sound_of {comms : ∀ entry ∈ s.comms.entries, entry.2.Honest chain entry.1}
    (flight : ∀ act, s.InFlight act → act.Sound chain) : s.Sound chain :=
  ⟨fun id acts found act member => flight act ⟨id, acts, found, member⟩, comms⟩

theorem step_sound (sound : s.Sound chain) (steps : step chain s e = some next) : next.Sound chain := by
  rcases step_cases steps with ⟨id, o, act, rest, _, performed⟩ | idle
  · have hands := perform_hands sound (sound_flight sound performed.here) performed.answers
    have parked : ∀ entry ∈ next.comms.entries, entry.2.Honest chain entry.1 := by
      rw [performed.after]
      exact hands.parked
    refine @sound_of _ _ parked ?_
    intro other flight
    rcases performed.flight flight with before | handed
    · exact sound_flight sound before
    · exact hands.acts other handed
  · refine @sound_of _ _ (fun entry member => sound.parked entry (idle.comms entry member)) ?_
    intro other flight
    rcases idle.flight other flight with before | entry
    · exact sound_flight sound before
    · exact entry_sound entry

theorem launch_sound : launch.Sound chain := by
  refine ⟨?_, List.forall_mem_nil _⟩
  intro id acts found
  cases found

theorem Performed.writes (performed : Performed chain s id o act rest next) (sound : s.Sound chain) :
    Writes chain s act o s.filing next.filing := by
  rw [performed.after]
  exact perform_writes sound (sound_flight sound performed.here) performed.answers

end Soundness

section Conditions

/-- Does the section a step performs meet a condition on what it finds? -/
def meeting (cond : Hub → Oracle → Act → Bool) (s : Hub) : Event → Bool
  | .perform id o => ((s.calls.lookup id).bind List.head?).all (cond s o)
  | _ => true

theorem Performed.meets {cond : Hub → Oracle → Act → Bool} (performed : Performed chain s id o act rest next)
    (meets : meeting cond s (.perform id o) = true) : cond s o act = true := by
  unfold meeting at meets
  simp only at meets
  rw [performed.head] at meets
  exact meets

end Conditions

/-- A network of one spelling for each address, whose every transaction `kaspa:a` sent. -/
def plainChain : Chain where
  sender _ := "kaspa:a"
  mainnet address := if address = "" then none else some address
  aliasValid alias_ := decide (alias_ ≠ "")
  pruningHorizonMs := 1000
  named _ := by decide
  proper address canonical valid := by
    split at valid
    · cases valid
    case isFalse named =>
      cases valid
      exact named
  spelled _ valid := of_decide_eq_true valid

/-- An answer to everything a section asks. -/
def calm : Oracle where
  now := 7
  freshId := "fresh"
  freshAlias := "mine"
  sender := some "kaspa:a"
  atBound := .ok ()
  scan := .ok (.receive, 0)
  bytes := [1]
  txid := "sent"
  wire := .ciphMsg
  ok := true

/-- A backup's row of a conversation with `kaspa:a`. -/
def backupOf (conversationId : String) : FillRow :=
  .backup ⟨"mine", 3, some "theirs", none, "kaspa:a", some conversationId, none, none⟩ (1, 1)

/-- A walk of the fill folds a row. -/
def foldRow (run id : Nat) (row : FillRow) : List Event := [.fillCheck run, .fillFold run id row, .perform id calm]

/-- A call performs so many of its sections. -/
def performs (id sections : Nat) (o : Oracle) : List Event := List.replicate sections (.perform id o)

end Kaspaverse.Transport.Hub
