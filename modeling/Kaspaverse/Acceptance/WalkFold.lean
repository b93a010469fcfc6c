import Kaspaverse.Acceptance.IndexMirrors
import Kaspaverse.Acceptance.TrackerTask

namespace Kaspaverse.Acceptance

def MATCHED_MEMORY_CAPACITY : Nat := 1024

/-- The walk's matched txids, the oldest first. -/
structure MatchedMemory where
  order : List Txid
  map : KeyMap Txid Remembered

namespace MatchedMemory

def default : MatchedMemory := ⟨[], ∅⟩

def get (memory : MatchedMemory) (txid : Txid) : Option Remembered := memory.map.lookup txid

/-- Room for one more txid: at the capacity the oldest goes. -/
def makeRoom (memory : MatchedMemory) : MatchedMemory :=
  if MATCHED_MEMORY_CAPACITY ≤ memory.order.length then
    match memory.order with
    | [] => memory
    | oldest :: rest => ⟨rest, memory.map.erase oldest⟩
  else memory

def remember (memory : MatchedMemory) (txid : Txid) (remembered : Remembered) : MatchedMemory :=
  if txid ∈ memory.map then { memory with map := memory.map.insert txid remembered }
  else
    let room := memory.makeRoom
    ⟨room.order ++ [txid], room.map.insert txid remembered⟩

/-- Removed chain blocks displace what they accepted. -/
def displace (memory : MatchedMemory) (removed : List Block) (now : Nat) : MatchedMemory :=
  { memory with map := KeyMap.adjust (fun remembered =>
      match remembered with
      | .accepted block _ _ _ => if block ∈ removed then .displaced now block else remembered
      | .displaced _ _ => remembered) memory.map }

end MatchedMemory

/-- One page of the message walk. -/
structure WalkPage extends WalkBatch where
  removed : List Block

/-- The tracker's locks: its state, the senders it is asked for and the walk's memory. -/
structure AcceptanceTracker where
  state : TrackerState
  senderInterest : List Txid
  matched : MatchedMemory

namespace AcceptanceTracker

variable (t : AcceptanceTracker)

/-- What the page says to the log of one accepting block's txids. A write that fails makes no events. -/
def foldTxids (acceptance : WalkAcceptance) (folding : List AcceptanceEvent × TrackerState) :
    List AcceptanceEvent × TrackerState :=
  acceptance.txids.foldl (fun folding txid =>
    let folded := folding.2.walkAccepted txid acceptance.acceptingBlock acceptance.blueScore acceptance.timestampMs
    (folding.1 ++ folded.1.getD [], folded.2)) folding

/-- What the memory keeps of one accepting block. -/
def remembers (acceptance : WalkAcceptance) (offChain : Bool) (now : Nat) : Remembered :=
  if offChain then .displaced now acceptance.acceptingBlock
  else .accepted acceptance.acceptingBlock acceptance.blueScore acceptance.daaScore acceptance.timestampMs

/-- A page that is being folded: its events, the tracker, and the senders its blocks can name. -/
structure PageFold where
  events : List AcceptanceEvent
  state : TrackerState
  memory : MatchedMemory
  resolvable : List (List Txid × Nat)

def foldAcceptance (now : Nat) (fold : PageFold) (acceptance : WalkAcceptance) : PageFold :=
  let offChain := fold.state.offChain.contains acceptance.acceptingBlock
  let folded := foldTxids acceptance (fold.events, fold.state)
  { events := folded.1
    state := folded.2
    memory := acceptance.txids.foldl (fun memory txid => memory.remember txid (remembers acceptance offChain now))
      fold.memory
    resolvable := if offChain then fold.resolvable
      else fold.resolvable ++ [(acceptance.txids, acceptance.daaScore)] }

def foldWalk (page : WalkPage) (now : Nat) : List AcceptanceEvent × AcceptanceTracker :=
  let memory := if page.removed = [] then t.matched else t.matched.displace page.removed now
  let fold := page.accepted.foldl (foldAcceptance now) ⟨[], t.state, memory, []⟩
  let resolved := fold.resolvable.foldl (fun resolved (txids, daaScore) =>
    let taken := takeResolvable resolved.2 txids daaScore
    (resolved.1 ++ taken.1, taken.2)) (fold.events, t.senderInterest)
  (resolved.1, ⟨fold.state, resolved.2, fold.memory⟩)

/-- A message watch takes what the walk's memory holds of its txid. -/
def watch (order : List Txid) (txid : Txid) (source : WatchSource) (now : Nat) :
    List AcceptanceEvent × AcceptanceTracker :=
  if t.state.isWatched txid then ([], t)
  else
    match if source = .transport then t.matched.get txid else none with
    | some remembered =>
      let watched := t.state.watchRemembered order txid source now remembered
      (watched.1.getD [], { t with state := watched.2 })
    | none => ([], { t with state := (t.state.watch order txid source now).2 })

end AcceptanceTracker

/-- What reaches the tracker, in any order: its ordered stream and its clocks, pages of the message
    walk, watches and senders asked for. -/
inductive TrackerInput
  | stream (event : TrackerState.TrackerEvent)
  | page (page : WalkPage) (now : Nat)
  | watch (order : List Txid) (txid : Txid) (source : WatchSource) (now : Nat)
  | senderInterest (interest : List Txid)

namespace AcceptanceTracker

def step (t : AcceptanceTracker) : TrackerInput → Option AcceptanceTracker
  | .stream event => (t.state.step event).map fun state => { t with state := state }
  | .page page now => some (t.foldWalk page now).2
  | .watch order txid source now =>
    if order.Perm t.state.log.records.keys then some (t.watch order txid source now).2 else none
  | .senderInterest interest => some { t with senderInterest := interest }

def launch (stored : List WatchRecord) : AcceptanceTracker := ⟨TrackerState.load stored, [], .default⟩

end AcceptanceTracker

section OffChain

/-- What the live stream says of one chain block. -/
inductive Turn
  | removed (block : Block)
  | added (block : Block)
  deriving DecidableEq

/-- The turns an input brings, in their order. -/
def turns : TrackerInput → List Turn
  | .stream (.removed blocks _) => blocks.map .removed
  | .stream (.noteAdded blocks) => blocks.map .added
  | _ => []

def OffChain.turn (off : OffChain) : Turn → OffChain
  | .removed block => off.removed block
  | .added block => off.added block

/-- The stream removed the block and has not added it back. -/
def TakenOff (history : List Turn) (block : Block) : Prop :=
  ∃ before after, history = before ++ .removed block :: after ∧ .added block ∉ after

/-- The blocks taken off, with no bound on how many. -/
def takenOff (history : List Turn) : List Block :=
  history.foldl (fun blocks turn =>
    match turn with
    | .removed block => if block ∈ blocks then blocks else blocks ++ [block]
    | .added block => blocks.filter (· != block)) []

theorem takenOff_removed (history : List Turn) (block : Block) :
    takenOff (history ++ [.removed block]) =
      if block ∈ takenOff history then takenOff history else takenOff history ++ [block] := by
  unfold takenOff
  rw [List.foldl_append]
  rfl

theorem takenOff_added (history : List Turn) (block : Block) :
    takenOff (history ++ [.added block]) = (takenOff history).filter (· != block) := by
  unfold takenOff
  rw [List.foldl_append]
  rfl

theorem TakenOff.snoc {history : List Turn} {block : Block} (turn : Turn) :
    TakenOff (history ++ [turn]) block ↔ turn = .removed block ∨ (TakenOff history block ∧ turn ≠ .added block) := by
  constructor
  · rintro ⟨before, after, same, absent⟩
    rcases List.eq_nil_or_concat after with rfl | ⟨rest, last, rfl⟩
    · left
      exact List.singleton_inj.mp (List.append_inj' same rfl).2
    · right
      rw [List.concat_eq_append, ← List.cons_append, ← List.append_assoc] at same
      rw [List.concat_eq_append] at absent
      obtain ⟨front, ends⟩ := List.append_inj' same rfl
      cases List.singleton_inj.mp ends
      refine ⟨⟨before, rest, front, fun member => absent (List.mem_append_left _ member)⟩, ?_⟩
      intro added
      exact absent (List.mem_append_right _ (List.mem_singleton.mpr added.symm))
  · rintro (rfl | ⟨⟨before, after, rfl, absent⟩, other⟩)
    · exact ⟨history, [], rfl, List.not_mem_nil⟩
    · refine ⟨before, after ++ [turn], List.append_assoc _ _ _, ?_⟩
      intro member
      obtain early | last := List.mem_append.mp member
      · exact absent early
      · exact other (List.mem_singleton.mp last).symm

theorem mem_takenOff {history : List Turn} {block : Block} : block ∈ takenOff history ↔ TakenOff history block := by
  induction history using List.reverseRecOn with
  | nil =>
    constructor
    · intro none_
      cases none_
    · rintro ⟨before, after, same, _⟩
      exact absurd (congrArg List.length same) (by simp)
  | append_singleton history turn ih =>
    rw [TakenOff.snoc, ← ih]
    cases turn with
    | removed other =>
      rw [takenOff_removed]
      constructor
      · intro member
        split at member
        · exact .inr ⟨member, Turn.noConfusion⟩
        · obtain early | last := List.mem_append.mp member
          · exact .inr ⟨early, Turn.noConfusion⟩
          · exact .inl (congrArg Turn.removed (List.mem_singleton.mp last).symm)
      · rintro (same | ⟨early, _⟩)
        · cases same
          split
          · assumption
          · exact List.mem_append_right _ (List.mem_singleton_self _)
        · split
          · exact early
          · exact List.mem_append_left _ early
    | added other =>
      rw [takenOff_added, List.mem_filter]
      constructor
      · rintro ⟨early, apart⟩
        refine .inr ⟨early, ?_⟩
        intro same
        cases same
        simp at apart
      · rintro (same | ⟨early, apart⟩)
        · cases same
        · refine ⟨early, ?_⟩
          rw [bne_iff_ne]
          rintro rfl
          exact apart rfl

theorem OffChain.order_removed (off : OffChain) (block : Block) :
    (off.removed block).order =
      if block ∈ off.order then off.order
      else if OFF_CHAIN_CAPACITY < (off.order ++ [block]).length then (off.order ++ [block]).tail
      else off.order ++ [block] := by
  unfold OffChain.removed
  split <;> rfl

/-- The set behind a history of turns: only blocks taken off, and all of them as long as they never
    were more than it holds. -/
structure OffChain.Follows (off : OffChain) (history : List Turn) : Prop where
  only : ∀ block ∈ off.order, block ∈ takenOff history
  all : (∀ early, early <+: history → (takenOff early).length ≤ OFF_CHAIN_CAPACITY) → off.order = takenOff history

theorem OffChain.Follows.turn {off : OffChain} {history : List Turn} (follows : off.Follows history) (turn : Turn) :
    (off.turn turn).Follows (history ++ [turn]) := by
  have before : (∀ early, early <+: history ++ [turn] → (takenOff early).length ≤ OFF_CHAIN_CAPACITY) →
      off.order = takenOff history := fun fits =>
    follows.all fun early inside => fits early (inside.trans (List.prefix_append history [turn]))
  cases turn with
  | removed block =>
    refine ⟨?_, ?_⟩
    · intro other member
      rw [takenOff_removed]
      change other ∈ (off.removed block).order at member
      rw [OffChain.order_removed] at member
      split at member
      · next known =>
        rw [if_pos (follows.only block known)]
        exact follows.only other member
      · have grown : other ∈ off.order ++ [block] := by
          split at member
          · exact List.mem_of_mem_tail member
          · exact member
        obtain early | last := List.mem_append.mp grown
        · have held := follows.only other early
          split
          · exact held
          · exact List.mem_append_left _ held
        · rw [List.mem_singleton.mp last]
          split
          · assumption
          · exact List.mem_append_right _ (List.mem_singleton_self _)
    · intro fits
      have same := before fits
      have size := fits _ (List.prefix_refl _)
      rw [takenOff_removed] at size ⊢
      show (off.removed block).order = _
      rw [OffChain.order_removed, same]
      by_cases known : block ∈ takenOff history
      · rw [if_pos known, if_pos known]
      · rw [if_neg known] at size
        rw [if_neg known, if_neg known, if_neg (Nat.not_lt_of_le size)]
  | added block =>
    refine ⟨?_, ?_⟩
    · intro other member
      rw [takenOff_added]
      obtain ⟨held, apart⟩ := List.mem_filter.mp member
      exact List.mem_filter.mpr ⟨follows.only other held, apart⟩
    · intro fits
      rw [takenOff_added, ← before fits]
      rfl

theorem OffChain.Follows.turns {off : OffChain} {history : List Turn} (follows : off.Follows history)
    (more : List Turn) : (more.foldl OffChain.turn off).Follows (history ++ more) := by
  induction more generalizing off history with
  | nil => rwa [List.append_nil]
  | cons turn rest ih =>
    have next := ih (follows.turn turn)
    rwa [List.append_assoc] at next

end OffChain

section Keeps

theorem foldl_keeps {σ α β : Type} {f : σ → α → σ} (read : σ → β) (keeps : ∀ s a, read (f s a) = read s)
    (items : List α) (s : σ) : read (items.foldl f s) = read s := by
  induction items generalizing s with
  | nil => rfl
  | cons item rest ih => exact (ih (f s item)).trans (keeps s item)

namespace TrackerState

theorem acceptOne_offChain (block : Block) (blueScore unixMs : Nat) (folding : Fold × TrackerState) (txid : Txid) :
    (acceptOne block blueScore unixMs folding txid).2.offChain = folding.2.offChain := by
  obtain ⟨fold, s⟩ := folding
  unfold acceptOne
  dsimp only
  split
  · rfl
  · split
    · rfl
    · split <;> rfl

theorem onAccepted_offChain (s : TrackerState) (block : Block) (blueScore : Nat) (txids : List Txid) (unixMs : Nat) :
    (s.onAccepted block blueScore txids unixMs).2.offChain = s.offChain :=
  foldl_keeps (fun folding => folding.2.offChain) (acceptOne_offChain block blueScore unixMs) txids (.default, s)

theorem displaceOne_offChain (block : Block) (now : Nat) (folding : Fold × List Txid × TrackerState) (txid : Txid) :
    (displaceOne block now folding txid).2.2.offChain = folding.2.2.offChain := by
  obtain ⟨fold, kept, s⟩ := folding
  unfold displaceOne
  dsimp only
  split
  · rfl
  · split <;> rfl

theorem removeBlock_offChain (now : Nat) (folding : Fold × TrackerState) (block : Block) :
    (removeBlock now folding block).2.offChain = folding.2.offChain.removed block := by
  unfold removeBlock
  dsimp only
  split
  · rfl
  · next txids _ =>
    exact foldl_keeps (fun folding => folding.2.2.offChain) (displaceOne_offChain block now) txids
      (folding.1, [], { folding.2 with offChain := folding.2.offChain.removed block })

theorem onRemoved_offChain (s : TrackerState) (blocks : List Block) (now : Nat) :
    (s.onRemoved blocks now).2.offChain = (blocks.map Turn.removed).foldl OffChain.turn s.offChain := by
  have all : ∀ folding : Fold × TrackerState, (blocks.foldl (removeBlock now) folding).2.offChain =
      (blocks.map Turn.removed).foldl OffChain.turn folding.2.offChain := by
    induction blocks with
    | nil => exact fun _ => rfl
    | cons block rest ih =>
      intro folding
      rw [List.foldl_cons, ih, removeBlock_offChain]
      rfl
  exact all (.default, s)

theorem dropWatch_offChain (s : TrackerState) (txid : Txid) : (s.dropWatch txid).2.offChain = s.offChain := rfl

theorem watch_offChain (s : TrackerState) (order : List Txid) (txid : Txid) (source : WatchSource) (now : Nat) :
    (s.watch order txid source now).2.offChain = s.offChain := by
  have room : (s.makeRoom order).2.offChain = s.offChain := by
    unfold makeRoom
    split
    · split <;> rfl
    · rfl
  unfold watch
  split
  · rfl
  · dsimp only
    split
    · exact room
    · exact room

theorem walkAccepted_offChain (s : TrackerState) (txid : Txid) (block : Block) (blueScore unixMs : Nat) :
    (s.walkAccepted txid block blueScore unixMs).2.offChain = s.offChain := by
  unfold walkAccepted
  split
  · rfl
  · dsimp only
    split
    · split <;> rfl
    · split
      · exact onAccepted_offChain s block blueScore [txid] unixMs
      · rfl
    · split
      · exact onAccepted_offChain s block blueScore [txid] unixMs
      · rfl
    · rfl

theorem register_offChain (s : TrackerState) (txid : Txid) (remembered : Remembered) :
    (s.register txid remembered).2.offChain = s.offChain := by
  cases remembered with
  | accepted block blueScore daaScore unixMs => exact onAccepted_offChain s block blueScore [txid] unixMs
  | displaced since prior =>
    unfold register
    dsimp only
    split <;> rfl

theorem watchRemembered_offChain (s : TrackerState) (order : List Txid) (txid : Txid) (source : WatchSource)
    (now : Nat) (remembered : Remembered) :
    (s.watchRemembered order txid source now remembered).2.offChain = s.offChain := by
  unfold watchRemembered
  dsimp only
  split
  · exact (register_offChain _ txid _).trans (watch_offChain s order txid source now)
  · exact watch_offChain s order txid source now

theorem finalizeWatch_offChain (s : TrackerState) (txid : Txid) : (s.finalizeWatch txid).2.offChain = s.offChain := by
  unfold finalizeWatch
  split
  · rfl
  · split
    · dsimp only
      split <;> rfl
    · rfl

theorem dropAll_offChain (s : TrackerState) (txids : List Txid) : (s.dropAll txids).2.offChain = s.offChain := by
  induction txids generalizing s with
  | nil => rfl
  | cons txid rest ih =>
    unfold dropAll
    dsimp only
    split
    · exact (ih _).trans (dropWatch_offChain s txid)
    · exact dropWatch_offChain s txid

theorem onSinkBlue_offChain (s : TrackerState) (order : List Txid) (sinkBlue now : Nat) :
    (s.onSinkBlue order sinkBlue now).2.offChain = s.offChain := by
  unfold onSinkBlue
  dsimp only
  split
  · refine (dropAll_offChain _ _).trans ?_
    exact foldl_keeps (fun s : TrackerState => s.offChain) (fun s txid => finalizeWatch_offChain s txid) _ _
  · exact dropAll_offChain _ _

theorem noteElapsed_offChain (s : TrackerState) (event : AcceptanceEvent) :
    (s.noteElapsed event).offChain = s.offChain := by
  cases event <;> rfl

theorem tick_offChain (s : TrackerState) (order : List Txid) (now : Nat) :
    (s.tick order now).2.offChain = s.offChain := by
  unfold tick
  split
  · rfl
  · exact foldl_keeps (fun s : TrackerState => s.offChain) noteElapsed_offChain _ s

/-- Only the live stream's turns move the off-chain set. -/
theorem step_offChain {s next : TrackerState} {event : TrackerEvent} (happens : s.step event = some next) :
    next.offChain = (turns (.stream event)).foldl OffChain.turn s.offChain := by
  cases event with
  | disk answers =>
    cases happens
    rfl
  | claims depthHeld walking =>
    cases happens
    rfl
  | watch order txid source now =>
    simp only [step, Option.ite_none_right_eq_some, Option.some.injEq] at happens
    rw [← happens.2]
    exact watch_offChain s order txid source now
  | watchRemembered order txid source now remembered =>
    simp only [step, Option.ite_none_right_eq_some, Option.some.injEq] at happens
    rw [← happens.2]
    exact watchRemembered_offChain s order txid source now remembered
  | noteAdded blocks =>
    cases happens
    show blocks.foldl OffChain.added s.offChain = (blocks.map Turn.added).foldl OffChain.turn s.offChain
    rw [List.foldl_map]
    rfl
  | walkAccepted txid block blueScore unixMs =>
    cases happens
    exact walkAccepted_offChain s txid block blueScore unixMs
  | accepted block blueScore txids unixMs =>
    cases happens
    exact onAccepted_offChain s block blueScore txids unixMs
  | removed blocks now =>
    cases happens
    exact onRemoved_offChain s blocks now
  | sinkBlue order score now =>
    simp only [step, Option.ite_none_right_eq_some, Option.some.injEq] at happens
    rw [← happens.2]
    exact onSinkBlue_offChain s order score now
  | tick order now =>
    simp only [step, Option.ite_none_right_eq_some, Option.some.injEq] at happens
    rw [← happens.2]
    exact tick_offChain s order now
  | dropWatch txid =>
    cases happens
    exact dropWatch_offChain s txid

end TrackerState

end Keeps

section Said

theorem foldl_relates {σ α : Type} {f : σ → α → σ} {r : σ → σ → Prop} (refl : ∀ s, r s s)
    (trans : ∀ a b c, r a b → r b c → r a c) (steps : ∀ s a, r s (f s a)) (items : List α) (s : σ) :
    r s (items.foldl f s) := by
  induction items generalizing s with
  | nil => exact refl s
  | cons item rest ih => exact trans _ _ _ (steps s item) (ih (f s item))

/-- The walk may speak first for this status. -/
def PersistedStatus.Open : PersistedStatus → Prop
  | .submitted _ => True
  | .displaced _ _ => True
  | _ => False

/-- All that a page may do to one record of the log. -/
inductive Said (off : OffChain) : Option WatchRecord → Option WatchRecord → Prop
  | kept (record : Option WatchRecord) : Said off record record
  /-- The block's own facts for the bound that stood in for them. -/
  | filled (record : WatchRecord) {block : Block} {blue blueScore unixMs : Nat}
      (held : record.status = .accepted block blue 0) (stamped : unixMs ≠ 0) :
      Said off (some record) (some { record with status := .accepted block blueScore unixMs })
  /-- A message watch that the live stream could not speak for, at a block on the chain. -/
  | accepted (record : WatchRecord) (block : Block) (blueScore unixMs : Nat) (source : record.source = .transport)
      (free : record.status.Open) (onChain : block ∉ off.order) :
      Said off (some record) (some { record with status := .accepted block blueScore unixMs })

theorem Said.trans {off : OffChain} {first second third : Option WatchRecord} (one : Said off first second)
    (two : Said off second third) : Said off first third := by
  cases one with
  | kept => exact two
  | filled record held stamped =>
    cases two with
    | kept => exact .filled record held stamped
    | filled _ again _ =>
      cases again
      exact absurd rfl stamped
    | accepted _ _ _ _ _ free _ => exact absurd free id
  | accepted record block blueScore unixMs source free onChain =>
    cases two with
    | kept => exact .accepted record block blueScore unixMs source free onChain
    | filled _ again _ =>
      cases again
      exact .accepted record _ _ _ source free onChain
    | accepted _ _ _ _ _ again _ => exact absurd again id

/-- A state whose log a page may have left so. -/
structure WalkSays (before after : TrackerState) : Prop where
  offChain : after.offChain = before.offChain
  records : ∀ txid, Said before.offChain (before.record txid) (after.record txid)

theorem WalkSays.refl (s : TrackerState) : WalkSays s s := ⟨rfl, fun _ => .kept _⟩

theorem WalkSays.trans {a b c : TrackerState} (first : WalkSays a b) (second : WalkSays b c) : WalkSays a c where
  offChain := second.offChain.trans first.offChain
  records := by
    intro txid
    have later := second.records txid
    rw [first.offChain] at later
    exact (first.records txid).trans later

namespace TrackerState

theorem upsert_record (s : TrackerState) (txid : Txid) (record : WatchRecord) (other : Txid) :
    (s.upsert txid record).2.record other = s.record other ∨
      other = txid ∧ (s.upsert txid record).2.record other = some record := by
  obtain ⟨disk, failed⟩ | ⟨log, landed, records⟩ := upsert_cases s txid record
  · rw [failed]
    exact .inl rfl
  · rw [landed]
    have now := records other
    split at now
    · next same => exact .inr ⟨same, now⟩
    · exact .inl now

theorem acceptOne_record (block : Block) (blueScore unixMs : Nat) (fold : Fold) (s : TrackerState) (txid other : Txid) :
    (acceptOne block blueScore unixMs (fold, s) txid).2.record other = s.record other ∨
      other = txid ∧ ∃ record, s.record txid = some record ∧
        (acceptOne block blueScore unixMs (fold, s) txid).2.record other =
          some { record with status := .accepted block blueScore unixMs } := by
  unfold acceptOne
  dsimp only
  split
  · exact .inl rfl
  · next record held =>
    split
    · exact .inl rfl
    · have written := s.upsert_record txid { record with status := .accepted block blueScore unixMs } other
      split
      · obtain kept | ⟨same, now⟩ := written
        · exact .inl kept
        · exact .inr ⟨same, record, held, now⟩
      · obtain kept | ⟨same, now⟩ := written
        · exact .inl kept
        · exact .inr ⟨same, record, held, now⟩

theorem onAccepted_says {s : TrackerState} {txid : Txid} {block : Block} {record : WatchRecord}
    (blueScore unixMs : Nat) (held : s.record txid = some record) (source : record.source = .transport)
    (free : record.status.Open) (onChain : block ∉ s.offChain.order) :
    WalkSays s (s.onAccepted block blueScore [txid] unixMs).2 where
  offChain := onAccepted_offChain s block blueScore [txid] unixMs
  records := by
    intro other
    obtain kept | ⟨rfl, found, same, now⟩ := acceptOne_record block blueScore unixMs .default s txid other
    · show Said _ _ ((acceptOne block blueScore unixMs (.default, s) txid).2.record other)
      rw [kept]
      exact .kept _
    · cases held.symm.trans same
      show Said _ _ ((acceptOne block blueScore unixMs (.default, s) other).2.record other)
      rw [now, held]
      exact .accepted record block blueScore unixMs source free onChain

theorem walkAccepted_walkSays (s : TrackerState) (txid : Txid) (block : Block) (blueScore unixMs : Nat) :
    WalkSays s (s.walkAccepted txid block blueScore unixMs).2 := by
  have first {record : WatchRecord}
      (may : (decide (record.source = .transport) && !s.offChain.contains block) = true) :
      record.source = .transport ∧ block ∉ s.offChain.order := by
    obtain ⟨source, onChain⟩ := Bool.and_eq_true_iff.mp may
    refine ⟨of_decide_eq_true source, ?_⟩
    intro off
    rw [OffChain.contains, decide_eq_true off] at onChain
    cases onChain
  unfold walkAccepted
  split
  · exact .refl s
  · next record held =>
    dsimp only
    split
    · next block_ blue heldUnixMs status =>
      split
      · next correction =>
        obtain ⟨rfl, rfl, stamped⟩ := correction
        refine ⟨rfl, ?_⟩
        intro other
        obtain kept | ⟨rfl, now⟩ :=
          s.upsert_record txid { record with status := .accepted block_ blueScore unixMs } other
        · rw [kept]
          exact .kept _
        · rw [now, held]
          exact .filled record status stamped
      · exact .refl s
    · next status =>
      split
      · next may =>
        obtain ⟨source, onChain⟩ := first may
        refine onAccepted_says blueScore unixMs held source ?_ onChain
        rw [status]
        exact True.intro
      · exact .refl s
    · next status =>
      split
      · next may =>
        obtain ⟨source, onChain⟩ := first may
        refine onAccepted_says blueScore unixMs held source ?_ onChain
        rw [status]
        exact True.intro
      · exact .refl s
    · exact .refl s

end TrackerState

namespace AcceptanceTracker

theorem foldTxids_says (acceptance : WalkAcceptance) (folding : List AcceptanceEvent × TrackerState) :
    WalkSays folding.2 (foldTxids acceptance folding).2 :=
  foldl_relates (r := fun a b : List AcceptanceEvent × TrackerState => WalkSays a.2 b.2) (fun s => .refl s.2)
    (fun _ _ _ first second => first.trans second)
    (fun folding txid => folding.2.walkAccepted_walkSays txid _ _ _) acceptance.txids folding

theorem foldWalk_says (t : AcceptanceTracker) (page : WalkPage) (now : Nat) :
    WalkSays t.state (t.foldWalk page now).2.state := by
  unfold foldWalk
  exact foldl_relates (r := fun a b : PageFold => WalkSays a.state b.state) (fun fold => .refl fold.state)
    (fun _ _ _ first second => first.trans second)
    (fun fold acceptance => foldTxids_says acceptance (fold.events, fold.state)) page.accepted ⟨[], t.state, _, []⟩

end AcceptanceTracker

end Said

section Watched

/-- The status a watch starts in, as the memory has it. -/
def Remembered.status : Remembered → PersistedStatus
  | .accepted block blueScore _ unixMs => .accepted block blueScore unixMs
  | .displaced since prior => .displaced since prior

theorem WatchLog.refused {log : WatchLog} (fails : ¬ log.lands = true) : false ∈ log.disk := by
  unfold lands at fails
  cases answers : log.disk with
  | nil =>
    rw [answers] at fails
    exact absurd rfl fails
  | cons answer rest =>
    rw [answers] at fails
    cases answer with
    | true => exact absurd rfl fails
    | false => exact List.mem_cons_self

namespace TrackerState

theorem upsert_answered (s : TrackerState) (txid : Txid) (record : WatchRecord) :
    (∀ answer ∈ (s.upsert txid record).2.log.disk, answer ∈ s.log.disk) ∧
      ((s.upsert txid record).1 = true ∧ (s.upsert txid record).2.record txid = some record ∨
        (s.upsert txid record).1 = false ∧ (s.upsert txid record).2.record txid = s.record txid ∧
          false ∈ s.log.disk) := by
  unfold upsert WatchLog.upsert
  split
  · next held => exact ⟨fun _ member => member, .inl ⟨rfl, held⟩⟩
  · split
    · exact ⟨fun _ member => List.mem_of_mem_tail member, .inl ⟨rfl, AList.lookup_insert _⟩⟩
    · next refused =>
      exact ⟨fun _ member => List.mem_of_mem_tail member, .inr ⟨rfl, rfl, WatchLog.refused refused⟩⟩

theorem dropWatch_answered (s : TrackerState) (txid : Txid) :
    (∀ answer ∈ (s.dropWatch txid).2.log.disk, answer ∈ s.log.disk) ∧
      ((s.dropWatch txid).1 = false → false ∈ s.log.disk) := by
  have removed : (∀ answer ∈ (s.log.remove txid).2.disk, answer ∈ s.log.disk) ∧
      ((s.log.remove txid).1 = false → false ∈ s.log.disk) := by
    unfold WatchLog.remove
    split
    · split
      · exact ⟨fun _ member => List.mem_of_mem_tail member, fun no => nomatch no⟩
      · next refused =>
        exact ⟨fun _ member => List.mem_of_mem_tail member, fun _ => WatchLog.refused refused⟩
    · exact ⟨fun _ member => member, fun no => nomatch no⟩
  exact removed

theorem makeRoom_answered (s : TrackerState) (order : List Txid) :
    (∀ answer ∈ (s.makeRoom order).2.log.disk, answer ∈ s.log.disk) ∧
      ((s.makeRoom order).1 = false → false ∈ s.log.disk) := by
  unfold makeRoom
  split
  · split
    · exact dropWatch_answered s _
    · exact ⟨fun _ member => member, fun no => nomatch no⟩
  · exact ⟨fun _ member => member, fun no => nomatch no⟩

/-- A new watch stands submitted, or a write of it failed and there is none. -/
theorem watch_starts {s : TrackerState} {txid : Txid} (unwatched : s.isWatched txid = false) (order : List Txid)
    (source : WatchSource) (now : Nat) :
    (∀ answer ∈ (s.watch order txid source now).2.log.disk, answer ∈ s.log.disk) ∧
      ((s.watch order txid source now).1 = true ∧
          (s.watch order txid source now).2.record txid = some ⟨txid, source, now, .submitted now⟩ ∨
        (s.watch order txid source now).1 = false ∧ (s.watch order txid source now).2.record txid = none ∧
          false ∈ s.log.disk) := by
  have absent : (s.makeRoom order).2.record txid = none := by
    cases found : (s.makeRoom order).2.record txid with
    | none => rfl
    | some record =>
      have before := record_makeRoom found
      rw [unwatched_iff.mp unwatched] at before
      cases before
  obtain ⟨roomDisk, roomFails⟩ := s.makeRoom_answered order
  unfold watch
  rw [unwatched]
  dsimp only [Bool.false_eq_true]
  rw [if_neg Bool.false_ne_true]
  split
  · obtain ⟨disk, landed | ⟨failed, kept, refused⟩⟩ :=
      (s.makeRoom order).2.upsert_answered txid ⟨txid, source, now, .submitted now⟩
    · exact ⟨fun answer member => roomDisk answer (disk answer member), .inl landed⟩
    · exact ⟨fun answer member => roomDisk answer (disk answer member),
        .inr ⟨failed, kept.trans absent, roomDisk false refused⟩⟩
  · next failed =>
    have refused := Bool.eq_false_of_not_eq_true failed
    exact ⟨roomDisk, .inr ⟨refused, absent, roomFails refused⟩⟩

/-- What the memory has of a txid that stands submitted is written, or the write failed. -/
theorem register_starts {s : TrackerState} {txid : Txid} {record : WatchRecord} {since : Nat}
    (held : s.record txid = some record) (submitted : record.status = .submitted since) (remembered : Remembered) :
    (s.register txid remembered).2.record txid = some { record with status := remembered.status } ∨
      (s.register txid remembered).2.record txid = some record ∧ false ∈ s.log.disk := by
  cases remembered with
  | accepted block blueScore daaScore unixMs =>
    show (acceptOne block blueScore unixMs (.default, s) txid).2.record txid = _ ∨
      (acceptOne block blueScore unixMs (.default, s) txid).2.record txid = _ ∧ _
    unfold acceptOne
    dsimp only
    rw [held]
    dsimp only
    rw [if_neg (by rw [submitted]; exact fun same => (nomatch same))]
    obtain ⟨_, ⟨landed, now⟩ | ⟨failed, kept, refused⟩⟩ :=
      s.upsert_answered txid { record with status := .accepted block blueScore unixMs }
    · rw [if_pos landed]
      exact .inl now
    · rw [if_neg (by rw [failed]; exact Bool.false_ne_true)]
      exact .inr ⟨kept.trans held, refused⟩
  | displaced since_ prior =>
    unfold register
    dsimp only
    rw [held]
    obtain ⟨_, ⟨_, now⟩ | ⟨_, kept, refused⟩⟩ :=
      s.upsert_answered txid { record with status := .displaced since_ prior }
    · exact .inl now
    · exact .inr ⟨kept.trans held, refused⟩

theorem recalled_status {s : TrackerState} {now : Nat} {remembered : Remembered} {block : Block} {blue unixMs : Nat}
    (status : (s.recalled now remembered).status = .accepted block blue unixMs) :
    block ∉ s.offChain.order ∧ ∃ daaScore, remembered = .accepted block blue daaScore unixMs := by
  unfold recalled at status
  split at status
  · next held blueHeld daaScore unixHeld =>
    split at status
    · cases status
    · next onChain =>
      cases status
      refine ⟨?_, daaScore, rfl⟩
      intro off
      exact onChain (decide_eq_true off)
  · cases status

end TrackerState

/-- A message watch starts as the memory has its txid, a block off the chain displaced, unless a write
    fails; then it stands submitted, or not at all. -/
theorem AcceptanceTracker.watch_recalls {t : AcceptanceTracker} {txid : Txid} {remembered : Remembered}
    (unwatched : t.state.isWatched txid = false) (known : t.matched.get txid = some remembered) (order : List Txid)
    (now : Nat) :
    (t.watch order txid .transport now).2.state.record txid =
        some ⟨txid, .transport, now, (t.state.recalled now remembered).status⟩ ∨
      false ∈ t.state.log.disk ∧
        ((t.watch order txid .transport now).2.state.record txid = none ∨
          (t.watch order txid .transport now).2.state.record txid = some ⟨txid, .transport, now, .submitted now⟩) := by
  have state : (t.watch order txid .transport now).2.state =
      (t.state.watchRemembered order txid .transport now remembered).2 := by
    unfold watch
    rw [unwatched, if_neg Bool.false_ne_true, if_pos rfl, known]
  rw [state]
  unfold TrackerState.watchRemembered
  dsimp only
  obtain ⟨disk, ⟨landed, submitted⟩ | ⟨failed, absent, refused⟩⟩ :=
    TrackerState.watch_starts unwatched order .transport now
  · rw [if_pos landed]
    have recalled : (t.state.watch order txid .transport now).2.recalled now remembered =
        t.state.recalled now remembered := by
      unfold TrackerState.recalled
      rw [TrackerState.watch_offChain]
    rw [recalled]
    obtain starts | ⟨stays, refused⟩ := TrackerState.register_starts submitted rfl (t.state.recalled now remembered)
    · exact .inl starts
    · exact .inr ⟨disk false refused, .inr stays⟩
  · rw [if_neg (by rw [failed]; exact Bool.false_ne_true)]
    exact .inr ⟨refused, .inl absent⟩

end Watched

section Runs

open AcceptanceTracker (step launch)

theorem watch_offChain (t : AcceptanceTracker) (order : List Txid) (txid : Txid) (source : WatchSource) (now : Nat) :
    (t.watch order txid source now).2.state.offChain = t.state.offChain := by
  unfold AcceptanceTracker.watch
  split
  · rfl
  · split
    · exact TrackerState.watchRemembered_offChain _ order txid source now _
    · exact TrackerState.watch_offChain _ order txid source now

/-- Along a run the off-chain set follows the live stream's turns. -/
theorem offChain_follows {stored : List WatchRecord} {inputs : List TrackerInput} {t : AcceptanceTracker}
    (reached : Machine.run step (launch stored) inputs = some t) :
    t.state.offChain.Follows (inputs.flatMap turns) := by
  refine Machine.run_history (p := fun inputs t => t.state.offChain.Follows (inputs.flatMap turns)) ?_ ?_ reached
  · exact ⟨fun _ none_ => (nomatch none_), fun _ => rfl⟩
  · intro first input mid next _ follows happens
    rw [List.flatMap_append, List.flatMap_singleton]
    cases input with
    | stream event =>
      obtain ⟨state, stepped, rfl⟩ := Option.map_eq_some_iff.mp happens
      have moved := follows.turns (turns (.stream event))
      rwa [← TrackerState.step_offChain stepped] at moved
    | page page now =>
      cases happens
      have same := (mid.foldWalk_says page now).offChain
      show (mid.foldWalk page now).2.state.offChain.Follows (first.flatMap turns ++ [])
      rwa [same, List.append_nil]
    | watch order txid source now =>
      obtain ⟨_, same⟩ := Option.ite_none_right_eq_some.mp happens
      cases same
      show (mid.watch order txid source now).2.state.offChain.Follows (first.flatMap turns ++ [])
      rwa [watch_offChain, List.append_nil]
    | senderInterest interest =>
      cases happens
      rwa [show turns (.senderInterest interest) = [] from rfl, List.append_nil]

/-- The statuses that are the ordered stream's alone. -/
def WatchRecord.StreamOwns (record : WatchRecord) : Prop := record.source = .send ∨ ¬ record.status.Open

/-- What a page may do to the log, in any state a run reaches. -/
structure SpeaksBehind (t : AcceptanceTracker) (after : TrackerState) : Prop where
  never_displaces : ∀ txid record since prior, after.record txid = some record →
    record.status = .displaced since prior → t.state.record txid = some record
  keeps_owned : ∀ txid record, t.state.record txid = some record → record.StreamOwns →
    after.record txid = some record ∨ ∃ block blue blueScore unixMs, record.status = .accepted block blue 0 ∧
      unixMs ≠ 0 ∧ after.record txid = some { record with status := .accepted block blueScore unixMs }
  on_chain : ∀ txid record block blue unixMs, after.record txid = some record →
    record.status = .accepted block blue unixMs → t.state.offChain.contains block = true →
    ∃ before blueBefore unixBefore, t.state.record txid = some before ∧
      before.status = .accepted block blueBefore unixBefore

theorem WalkSays.speaksBehind {t : AcceptanceTracker} {after : TrackerState} (walked : WalkSays t.state after) :
    SpeaksBehind t after where
  never_displaces := by
    intro txid record since prior held displaced
    have said := walked.records txid
    rw [held] at said
    generalize t.state.record txid = before at said
    cases said with
    | kept => rfl
    | filled => cases displaced
    | accepted => cases displaced
  keeps_owned := by
    intro txid record held owned
    have said := walked.records txid
    rw [held] at said
    generalize after.record txid = now at said
    cases said with
    | kept => exact .inl rfl
    | filled _ status stamped => exact .inr ⟨_, _, _, _, status, stamped, rfl⟩
    | accepted _ block blueScore unixMs source free _ =>
      obtain sent | closed := owned
      · rw [source] at sent
        cases sent
      · exact absurd free closed
  on_chain := by
    intro txid record block blue unixMs held accepted off
    have said := walked.records txid
    rw [held] at said
    generalize t.state.record txid = before at said
    cases said with
    | kept => exact ⟨record, blue, unixMs, rfl, accepted⟩
    | filled before status _ =>
      cases accepted
      exact ⟨before, _, _, rfl, status⟩
    | accepted _ _ _ _ _ _ onChain =>
      cases accepted
      exact absurd (of_decide_eq_true off) onChain

/-- The message walk cannot rewrite what the ordered stream said. -/
theorem walk_cannot_rewrite (stored : List WatchRecord) (inputs : List TrackerInput) (t : AcceptanceTracker)
    (reached : Machine.run step (launch stored) inputs = some t) :
    (∀ page now, SpeaksBehind t (t.foldWalk page now).2.state) ∧
      (∀ block, t.state.offChain.contains block = true → TakenOff (inputs.flatMap turns) block) ∧
      ((∀ early, early <+: inputs.flatMap turns → (takenOff early).length ≤ OFF_CHAIN_CAPACITY) →
        ∀ block, TakenOff (inputs.flatMap turns) block → t.state.offChain.contains block = true) ∧
      ∀ order txid now remembered, t.state.isWatched txid = false → t.matched.get txid = some remembered →
        (∀ record block blue unixMs, (t.watch order txid .transport now).2.state.record txid = some record →
          record.status = .accepted block blue unixMs → t.state.offChain.contains block = false ∧
            ∃ daaScore, remembered = .accepted block blue daaScore unixMs) ∧
        ((t.watch order txid .transport now).2.state.record txid =
            some ⟨txid, .transport, now, (t.state.recalled now remembered).status⟩ ∨
          false ∈ t.state.log.disk ∧
            ((t.watch order txid .transport now).2.state.record txid = none ∨
              (t.watch order txid .transport now).2.state.record txid =
                some ⟨txid, .transport, now, .submitted now⟩)) := by
  have follows := offChain_follows reached
  refine ⟨fun page now => (t.foldWalk_says page now).speaksBehind, ?_, ?_, ?_⟩
  · intro block off
    exact mem_takenOff.mp (follows.only block (of_decide_eq_true off))
  · intro fits block off
    have member := mem_takenOff.mpr off
    rw [← follows.all fits] at member
    exact decide_eq_true member
  · intro order txid now remembered unwatched known
    have starts := AcceptanceTracker.watch_recalls unwatched known order now
    refine ⟨?_, starts⟩
    intro record block blue unixMs held accepted
    obtain recalled | ⟨_, absent | submitted⟩ := starts
    · cases held.symm.trans recalled
      obtain ⟨onChain, found⟩ := TrackerState.recalled_status accepted
      exact ⟨decide_eq_false onChain, found⟩
    · cases held.symm.trans absent
    · cases held.symm.trans submitted
      cases accepted

/-- A page that accepts `m` at `b`, which the stream then takes off the chain. -/
def acceptedThenOff : List TrackerInput :=
  [.page ⟨⟨[⟨"b", 5, 6, 7, ["m"]⟩]⟩, []⟩ 1, .stream (.removed ["b"] 2)]

theorem walk_cannot_rewrite_off : ∃ t, Machine.run step (launch []) acceptedThenOff = some t ∧
    TakenOff (acceptedThenOff.flatMap turns) "b" ∧
    (t.watch [] "m" .transport 3).2.state.record "m" = some ⟨"m", .transport, 3, .displaced 3 "b"⟩ := by
  obtain ⟨t, reached⟩ : ∃ t, Machine.run step (launch []) acceptedThenOff = some t := ⟨_, rfl⟩
  obtain ⟨_, only, _, watched⟩ := walk_cannot_rewrite [] acceptedThenOff t reached
  cases reached
  obtain starts | ⟨refused, _⟩ :=
    (watched [] "m" 3 (.accepted "b" 5 6 7) (by decide +kernel) (by decide +kernel)).2
  · refine ⟨_, rfl, only "b" (by decide +kernel), starts.trans ?_⟩
    decide +kernel
  · exact absurd refused (by decide +kernel)

/-- The write of the displacement fails, and the watch stands submitted. -/
theorem refused_displacement_stays_submitted : ∃ t,
    Machine.run step (launch []) (acceptedThenOff ++ [.stream (.disk [true, false])]) = some t ∧
      t.matched.get "m" = some (.accepted "b" 5 6 7) ∧ t.state.offChain.contains "b" = true ∧
      (t.watch [] "m" .transport 3).2.state.record "m" = some ⟨"m", .transport, 3, .submitted 3⟩ := by
  refine ⟨_, rfl, ?_, ?_, ?_⟩
  · decide +kernel
  · decide +kernel
  · decide +kernel

end Runs

end Kaspaverse.Acceptance
