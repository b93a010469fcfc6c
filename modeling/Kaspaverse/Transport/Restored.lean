import Mathlib
import Kaspaverse.Transport.HubSections
import Kaspaverse.Transport.HubStore

namespace Kaspaverse.Transport

section Newest

/-- The backup held once all are read: the first, and then each that supersedes the one held. -/
def newestOf (backups : List Backup) : Option Backup :=
  backups.foldl (fun newest candidate =>
    if stashSupersedes candidate.key (newest.map Backup.key) then some candidate else newest) none

/-- A backup that states its build time outranks one that does not, the later the build the higher; the
    archive's own words break ties alone. -/
def backupRank (key : Option Nat × Nat × String) : Bool ×ₗ ℕ ×ₗ ℕ ×ₗ Stringᵒᵈ :=
  toLex (key.1.isSome, toLex (key.1.getD 0, toLex (key.2.1, OrderDual.toDual key.2.2)))

theorem stashSupersedes_iff (candidate current : Option Nat × Nat × String) :
    stashSupersedes candidate (some current) = true ↔ backupRank current < backupRank candidate := by
  obtain ⟨built, time, txid⟩ := candidate
  obtain ⟨built', time', txid'⟩ := current
  have byArchive : (toLex (time', OrderDual.toDual txid') : ℕ ×ₗ Stringᵒᵈ) < toLex (time, OrderDual.toDual txid) ↔
      time' < time ∨ time = time' ∧ txid < txid' := by
    rw [Prod.Lex.toLex_lt_toLex, OrderDual.toDual_lt_toDual]
    exact or_congr Iff.rfl (and_congr eq_comm Iff.rfl)
  have archive : (decide (time' < time) || (time == time' && decide (txid < txid'))) = true ↔
      time' < time ∨ time = time' ∧ txid < txid' := by
    rw [Bool.or_eq_true, decide_eq_true_eq, Bool.and_eq_true, beq_iff_eq, decide_eq_true_eq]
  rw [backupRank, backupRank, Prod.Lex.toLex_lt_toLex, Prod.Lex.toLex_lt_toLex, byArchive, ← archive]
  cases built with
  | none => cases built' <;> simp [stashSupersedes]
  | some a =>
    cases built' with
    | none => simp [stashSupersedes]
    | some b =>
      by_cases equal : a = b
      · simp [stashSupersedes, equal]
      · simp [stashSupersedes, equal, Ne.symm equal]

theorem backupRank_injective : Function.Injective backupRank := by
  rintro ⟨built, time, txid⟩ ⟨built', time', txid'⟩ same
  have whole := Prod.ext_iff.1 (toLex_inj.1 same)
  have values := Prod.ext_iff.1 (toLex_inj.1 whole.2)
  have rest := Prod.ext_iff.1 (toLex_inj.1 values.2)
  have builds : built = built' := by
    have stated : built.isSome = built'.isSome := whole.1
    have times : built.getD 0 = built'.getD 0 := values.1
    cases built <;> cases built' <;> simp_all
  exact Prod.ext builds (Prod.ext rest.1 (OrderDual.toDual_inj.1 rest.2))

/-- Reading on from a held backup ends with one no later one supersedes. -/
theorem newest_from (backups : List Backup) (held : Backup) :
    ∃ best ∈ held :: backups, backups.foldl (fun newest candidate =>
        if stashSupersedes candidate.key (newest.map Backup.key) then some candidate else newest) (some held) =
          some best ∧ ∀ other ∈ held :: backups, backupRank other.key ≤ backupRank best.key := by
  induction backups generalizing held with
  | nil => exact ⟨held, by simp, rfl, by simp⟩
  | cons candidate backups ih =>
    by_cases later : stashSupersedes candidate.key (some held.key) = true
    · obtain ⟨best, member, same, greatest⟩ := ih candidate
      have below := le_of_lt ((stashSupersedes_iff _ _).1 later)
      refine ⟨best, List.mem_cons_of_mem _ member, ?_, ?_⟩
      · rw [List.foldl_cons, Option.map_some, if_pos later]
        exact same
      · intro other there
        rcases List.mem_cons.1 there with rfl | there
        · exact le_trans below (greatest candidate (by simp))
        · exact greatest other there
    · obtain ⟨best, member, same, greatest⟩ := ih held
      have below : backupRank candidate.key ≤ backupRank held.key := by
        rw [stashSupersedes_iff] at later
        exact not_lt.1 later
      refine ⟨best, ?_, ?_, ?_⟩
      · rcases List.mem_cons.1 member with rfl | there
        · simp
        · simp [there]
      · rw [List.foldl_cons, Option.map_some, if_neg later]
        exact same
      · intro other there
        rcases List.mem_cons.1 there with rfl | there
        · exact greatest other (by simp)
        · rcases List.mem_cons.1 there with rfl | there
          · exact le_trans below (greatest held (by simp))
          · exact greatest other (by simp [there])

theorem newestOf_greatest {backups : List Backup} (some_ : backups ≠ []) :
    ∃ best ∈ backups, newestOf backups = some best ∧ ∀ other ∈ backups, backupRank other.key ≤ backupRank best.key := by
  obtain ⟨held, rest, rfl⟩ := List.exists_cons_of_ne_nil some_
  exact newest_from rest held

theorem backups_ext {backups : List Backup} (distinct : (backups.map fun b => b.row.txId).Nodup) {one other : Backup}
    (first : one ∈ backups) (second : other ∈ backups) (same : backupRank one.key = backupRank other.key) :
    one = other := by
  have keys := backupRank_injective same
  have txids : one.row.txId = other.row.txId := congrArg (fun key => key.2.2) keys
  exact List.inj_on_of_nodup_map distinct first second txids

/-- Backups of distinct transactions: the one held at the end supersedes every other, in whatever order
    they are read. -/
theorem newestOf_unique {backups : List Backup} (distinct : (backups.map fun b => b.row.txId).Nodup)
    (some_ : backups ≠ []) :
    ∃ best ∈ backups, (∀ other ∈ backups, other ≠ best →
        stashSupersedes best.key (some other.key) = true ∧ stashSupersedes other.key (some best.key) = false) ∧
      ∀ order : List Backup, order.Perm backups → newestOf order = some best := by
  obtain ⟨best, member, _, greatest⟩ := newestOf_greatest some_
  refine ⟨best, member, fun other there apart => ?_, fun order perm => ?_⟩
  · have below : backupRank other.key < backupRank best.key := by
      refine lt_of_le_of_ne (greatest other there) fun same => apart ?_
      exact backups_ext distinct there member same
    refine ⟨(stashSupersedes_iff _ _).2 below, ?_⟩
    rw [Bool.eq_false_iff]
    intro above
    exact absurd ((stashSupersedes_iff _ _).1 above) (not_lt.2 (le_of_lt below))
  · have filled : order ≠ [] := by
      rintro rfl
      exact some_ (List.nil_perm.1 perm)
    obtain ⟨first, there, same, above⟩ := newestOf_greatest filled
    have listed := perm.mem_iff.1 there
    have equal := le_antisymm (greatest first listed) (above best (perm.mem_iff.2 member))
    rw [same, backups_ext distinct listed member equal]

end Newest

section Reading

/-- The backup a row of the walk holds, where it authenticates. -/
def backupOf (row : FillRow) (read : StashRead) : Option Backup :=
  if (decodeHex row.data).isNone then none
  else match read with
    | .snapshot snapshot => some ⟨row, snapshot⟩
    | _ => none

def newer (newest : Option Backup) (candidate : Option Backup) : Option Backup :=
  candidate.elim newest fun candidate =>
    if stashSupersedes candidate.key (newest.map Backup.key) then some candidate else newest

/-- What the walk's reads hold at the end is the newest of the backups among its rows. -/
theorem newer_foldl (reads : List (FillRow × StashRead)) (newest : Option Backup) :
    reads.foldl (fun newest read => newer newest (backupOf read.1 read.2)) newest =
      (reads.filterMap fun read => backupOf read.1 read.2).foldl (fun newest candidate =>
        if stashSupersedes candidate.key (newest.map Backup.key) then some candidate else newest) newest := by
  induction reads generalizing newest with
  | nil => rfl
  | cons read reads ih =>
    rw [List.foldl_cons, ih]
    cases made : backupOf read.1 read.2 with
    | none => simp [made, newer]
    | some candidate => simp [made, newer]

theorem read_newest {run : FillRun} {lane : Lane} {start : Nat} {outcome : WalkOutcome} {row : FillRow}
    {left : List FillRow} {held : HeldFloor} {newest : Option Backup} (read : StashRead) {next : FillRun}
    (stage : run.stage = .opening lane start outcome (row :: left) held newest) (reads : run.read read = some next) :
    ∃ held', next.stage = .opening lane start outcome left held' (newer newest (backupOf row read)) := by
  unfold FillRun.read at reads
  rw [stage] at reads
  simp only at reads
  split at reads
  · rename_i malformed
    cases reads
    exact ⟨held, by simp [backupOf, malformed, newer]⟩
  · rename_i decoded
    cases read with
    | snapshot snapshot =>
      simp only [StashRead.dropped] at reads
      have made : backupOf row (.snapshot snapshot) = some ⟨row, snapshot⟩ := by
        rw [backupOf, if_neg decoded]
      rw [made]
      split at reads
      · rename_i later
        cases reads
        refine ⟨held, ?_⟩
        simp only [newer, Option.elim_some]
        rw [if_pos later]
      · rename_i later
        cases reads
        refine ⟨held, ?_⟩
        simp only [newer, Option.elim_some]
        rw [if_neg later]
    | malformedEnvelope | unopened | untagged | unverified | forged | undecodable =>
      simp only [StashRead.dropped] at reads
      split at reads
      · cases reads
        exact ⟨held.hold row.blockTime, by simp [backupOf, newer]⟩
      · cases reads
        exact ⟨held, by simp [backupOf, newer]⟩

/-- A walk whose rows have all been read holds the newest of the backups among them. -/
theorem reads_newest {lane : Lane} {start : Nat} {outcome : WalkOutcome} {rows : List FillRow} {held : HeldFloor}
    {newest : Option Backup} {run last : FillRun} (reads : List StashRead)
    (stage : run.stage = .opening lane start outcome rows held newest) (all : reads.length = rows.length)
    (goes : reads.foldlM FillRun.read run = some last) :
    ∃ held', last.stage = .opening lane start outcome [] held'
      ((rows.zip reads).foldl (fun newest read => newer newest (backupOf read.1 read.2)) newest) := by
  induction reads generalizing run rows held newest with
  | nil =>
    cases goes
    obtain rfl := List.eq_nil_of_length_eq_zero all.symm
    exact ⟨held, stage⟩
  | cons read reads ih =>
    cases rows with
    | nil => cases all
    | cons row rows =>
      rw [List.foldlM_cons] at goes
      obtain ⟨next, first, rest⟩ := Option.bind_eq_some_iff.1 goes
      obtain ⟨held', onward⟩ := read_newest read stage first
      exact ih onward (by simpa using all) rest

end Reading

section Folding

open Hub TransportStore Interrupted

def STASH_CREATE_CAP : Nat := 128

/-- One row of a backup, as the restore folds it: what it says, the id it takes where it names none, and
    the window of slots we derive keys for. -/
structure StashCall where
  payload : SavedHandshakePayload
  freshId : String
  windows : Nat × Nat

variable (chain : Chain) (isBlocked : String → Bool)

/-- Fold one backup row into the store: how many rows have been created by then. -/
def foldStashRow (call : StashCall) (created : Nat) (w : World) : FoldOutcome × Nat × World :=
  if STASH_CREATE_CAP ≤ created then (DropReason.stashRefusedCollision.outcome, created, w)
  else
    match chain.mainnet call.payload.partnerAddress with
    | none => (DropReason.undecodablePayload.outcome, created, w)
    | some address =>
      let record := restoredConversation call.payload address (call.payload.conversationId.getD call.freshId)
        call.windows
      if isBlocked address = true then (DropReason.blockedContact.outcome, created, w)
      else if stashRowIsFree w.store record = false then (DropReason.stashRefusedCollision.outcome, created, w)
      else
        match upsertConversation record w with
        | .error _ w => (DropReason.storeFailed.outcome, created, w)
        | .ok _ w =>
          -- a merge that fails is logged, and the row stays
          match mergeContact address w with
          | .ok _ w => (.recorded, created + 1, w)
          | .error _ w => (.recorded, created + 1, w)

def foldStashRows : List StashCall → Nat → World → Nat × World
  | [], created, w => (created, w)
  | call :: calls, created, w =>
    let folded := foldStashRow chain isBlocked call created w
    foldStashRows calls folded.2.1 folded.2.2

/-- What folding a row under an address leaves: every other row as it was, and under the address rows that
    answer to no other alias than the backup's row or one that was there. -/
structure Folded (record : ConversationRecord) (store after : TransportStore) : Prop where
  others : ∀ row, store.conversation row.conversationId = some row → row.contactAddress ≠ record.contactAddress →
    after.conversation row.conversationId = some row ∧
      after.isHidden row.conversationId = store.isHidden row.conversationId
  back : ∀ row, after.conversation row.conversationId = some row →
    (row.contactAddress ≠ record.contactAddress → store.conversation row.conversationId = some row) ∧
    (row.contactAddress = record.contactAddress → ∀ alias_, answers alias_ row = true →
      answers alias_ record = true ∨ ∃ held, store.conversation held.conversationId = some held ∧
        held.contactAddress = record.contactAddress ∧ answers alias_ held = true) ∧
    (row.status = .pendingInbound → ∃ held, store.conversation row.conversationId = some held ∧
      held.status = .pendingInbound)

variable {chain isBlocked} {store after : TransportStore} {record : ConversationRecord}

theorem Folded.put (fresh : store.conversation record.conversationId = none) (open_ : record.status ≠ .pendingInbound) :
    Folded record store (store.put record) where
  others row found apart := by
    have other : row.conversationId ≠ record.conversationId := by
      intro same
      rw [same, fresh] at found
      cases found
    rw [conversation_put, if_neg other]
    exact ⟨found, isHidden_put _ _ _⟩
  back row found := by
    rw [conversation_put] at found
    split at found
    · cases found
      exact ⟨fun apart => absurd rfl apart, fun _ alias_ answering => .inl answering, fun waits => absurd waits open_⟩
    · exact ⟨fun _ => found, fun here alias_ answering => .inr ⟨row, found, here, answering⟩, fun waits => ⟨row, found, waits⟩⟩

/-- A row of the address, once the backup's row is in. -/
theorem listed_cases {address : String} {member : Row} (named : record.contactAddress = address)
    (listed : member ∈ (store.put record).contactRows address) :
    member.1 = record ∨ store.conversation member.1.conversationId = some member.1 ∧ member.1.contactAddress = address := by
  obtain ⟨found, here, _⟩ := mem_contactRows.mp listed
  have held : (store.put record).conversation member.1.conversationId = some member.1 := found
  rw [conversation_put] at held
  split at held
  · cases held
    exact .inl rfl
  · exact .inr ⟨held, here⟩

theorem Folded.stage {host : Row} {rows gone : List Row} {hidden : Bool}
    (fresh : store.conversation record.conversationId = none) (open_ : record.status ≠ .pendingInbound)
    (split : (store.put record).contactRows record.contactAddress = rows ++ [host]) (dropped : gone ⊆ rows)
    (stage : Stage (store.put record) ((store.put record).mergedHost host.1 rows, hidden) rows gone after) :
    Folded record store after := by
  have kept := kept_mergedHost (store.put record) host rows
  have alone := Folded.put fresh open_
  have named : Row.id ((store.put record).mergedHost host.1 rows, hidden) = host.id := kept.id
  have listed (member : Row) (among : member ∈ rows ++ [host]) :
      member ∈ (store.put record).contactRows record.contactAddress := by
    rw [split]
    exact among
  have hostListed := listed host (by simp)
  constructor
  · intro row found apart
    obtain ⟨stays, flag⟩ := alone.others row found apart
    have elsewhere (member : Row) (among : member ∈ rows ++ [host]) : row.conversationId ≠ member.id := by
      intro same
      obtain ⟨there, here, _⟩ := mem_contactRows.mp (listed member among)
      have both : (store.put record).conversation row.conversationId = some member.1 := by
        rw [same]
        exact there
      rw [stays] at both
      cases both
      exact apart here
    have unhost : row.conversationId ≠ host.id := elsewhere host (by simp)
    have ungone : row.conversationId ∉ gone.map Row.id := by
      intro among
      obtain ⟨member, inside, same⟩ := List.mem_map.mp among
      exact elsewhere member (List.mem_append_left _ (dropped inside)) same.symm
    constructor
    · have after' := stage.conversation row.conversationId
      rw [named, if_neg unhost, if_neg ungone] at after'
      exact after'.trans stays
    · have flag' := stage.hidden row.conversationId
      rw [named, if_neg unhost] at flag'
      have same : row.conversationId ∈ after.conversations.tombstoned ↔
          row.conversationId ∈ (store.put record).conversations.tombstoned := by
        rw [flag']
        exact ⟨fun both => both.1, fun here => ⟨here, ungone⟩⟩
      rw [← flag]
      simp only [isHidden, same]
  · intro row found
    have after' := stage.conversation row.conversationId
    rw [named] at after'
    have held : after.conversations.records.lookup row.conversationId = some row := found
    rw [held] at after'
    split at after'
    · rename_i same
      cases after'
      have here : host.1.contactAddress = record.contactAddress := (mem_contactRows.mp hostListed).2.1
      refine ⟨fun apart => absurd (kept.address.trans here) apart, fun _ alias_ answering => ?_, fun waits => ?_⟩
      · have picked (has : Row → Bool) (at_ : Row → Nat) :
            (Latest.pick has at_ host rows).1 = record ∨
              store.conversation (Latest.pick has at_ host rows).1.conversationId = some (Latest.pick has at_ host rows).1 ∧
                (Latest.pick has at_ host rows).1.contactAddress = record.contactAddress := by
          have member : Latest.pick has at_ host rows ∈ host :: rows := Latest.pick_mem host rows
          refine listed_cases rfl (listed _ ?_)
          rcases List.mem_cons.mp member with same | inside
          · rw [same]
            simp
          · exact List.mem_append_left _ inside
        have spoken : answers alias_ (Latest.pick hasMine (announced (store.put record) .outbound) host rows).1 = true ∨
            answers alias_ (Latest.pick hasTheirs (announced (store.put record) .inbound) host rows).1 = true := by
          unfold TransportStore.answers at answering ⊢
          rw [decide_eq_true_eq, kept.myAlias, kept.theirAlias] at answering
          rw [decide_eq_true_eq, decide_eq_true_eq]
          exact answering.imp .inl .inr
        rcases spoken with mine | theirs
        · rcases picked hasMine (announced (store.put record) .outbound) with same | ⟨there, at_⟩
          · exact .inl (same ▸ mine)
          · exact .inr ⟨_, there, at_, mine⟩
        · rcases picked hasTheirs (announced (store.put record) .inbound) with same | ⟨there, at_⟩
          · exact .inl (same ▸ theirs)
          · exact .inr ⟨_, there, at_, theirs⟩
      · have status : host.1.status = .pendingInbound := by
          rw [kept.status] at waits
          split at waits
          · cases waits
          · exact waits
        rcases listed_cases rfl hostListed with same | ⟨there, _⟩
        · rw [same] at status
          exact absurd status open_
        · refine ⟨host.1, ?_, status⟩
          rw [same]
          exact there
    · split at after'
      · cases after'
      · exact alone.back row after'.symm

theorem Folded.merge {fault : Option (Nat × Bool)} (fresh : store.conversation record.conversationId = none)
    (open_ : record.status ≠ .pendingInbound) :
    Ends (fun _ w => Folded record store w.store) (fun w => Folded record store w.store)
      (mergeContact record.contactAddress ⟨store.put record, fault⟩) := by
  by_cases short : record.contactAddress = "" ∨ ((store.put record).contactRows record.contactAddress).length < 2
  · rw [mergeContact_short short]
    exact Folded.put fresh open_
  · obtain ⟨named, rows, host, split, several⟩ := contactRows_two short
    refine Ends.mono (mergeContact_ends named split several) ?_ ?_
    · intro _ w stage
      exact Folded.stage fresh open_ split (List.Subset.refl _) stage
    · rintro w ⟨_, same | ⟨gone, rest, hidden, shape, stage, _⟩⟩
      · rw [same]
        exact Folded.put fresh open_
      · refine Folded.stage fresh open_ split ?_ stage
        rw [shape]
        exact List.subset_append_left gone rest

theorem free_spec (free : stashRowIsFree store record = true) :
    store.conversation record.conversationId = none ∧
      (∀ row, store.conversation row.conversationId = some row → row.contactAddress = record.contactAddress →
        record.contactAddress ≠ "" → standing store row = false) ∧
      ∀ alias_ row, answers alias_ record = true → store.conversation row.conversationId = some row →
        answers alias_ row = true → standing store row = false := by
  unfold stashRowIsFree at free
  simp only [Bool.and_eq_true, Option.isNone_iff_eq_none, List.all_eq_true, Bool.not_eq_true'] at free
  obtain ⟨⟨⟨fresh, alone⟩, mine⟩, theirs⟩ := free
  refine ⟨fresh, fun row found here named => ?_, fun alias_ row spoken found answering => ?_⟩
  · refine alone row (mem_conversationsForContactAddress.mpr ⟨found, here, ?_⟩)
    exact named
  · have listed := mem_listConversations.mpr found
    unfold TransportStore.answers at spoken
    rw [decide_eq_true_eq] at spoken
    rcases spoken with rfl | named
    · exact mine row (List.mem_filter.mpr ⟨listed, answering⟩)
    · rw [named, Option.all_some, List.all_eq_true] at theirs
      simpa using theirs row (List.mem_filter.mpr ⟨listed, answering⟩)

theorem restored_open (payload : SavedHandshakePayload) (address id : String) (windows : Nat × Nat) :
    (restoredConversation payload address id windows).status ≠ .pendingInbound := by
  unfold restoredConversation
  cases payload.theirAlias with
  | none => simp
  | some _ => simp

/-- The row a restore takes: there is room, its address is one of our network and not blocked, and it is
    free. -/
def taken (chain : Chain) (isBlocked : String → Bool) (call : StashCall) (created : Nat) (store : TransportStore) :
    Option ConversationRecord :=
  if STASH_CREATE_CAP ≤ created then none
  else
    (chain.mainnet call.payload.partnerAddress).bind fun address =>
      let record := restoredConversation call.payload address (call.payload.conversationId.getD call.freshId)
        call.windows
      if isBlocked address = true ∨ stashRowIsFree store record = false then none else some record

/-- Folding one row changes nothing, or folds in the row that is taken. -/
theorem foldStashRow_spec (call : StashCall) (created : Nat) (w : World) :
    (foldStashRow chain isBlocked call created w).2.2.store = w.store ∨
      ∃ record, taken chain isBlocked call created w.store = some record ∧
        stashRowIsFree w.store record = true ∧ record.contactAddress ≠ "" ∧
        Folded record w.store (foldStashRow chain isBlocked call created w).2.2.store := by
  unfold foldStashRow taken
  split
  · exact .inl rfl
  · cases spelled : chain.mainnet call.payload.partnerAddress with
    | none => exact .inl rfl
    | some address =>
      simp only [Option.bind_some]
      have named := chain.proper _ _ spelled
      generalize made : restoredConversation call.payload address (call.payload.conversationId.getD call.freshId)
        call.windows = record
      have here : record.contactAddress = address := by
        rw [← made]
        rfl
      have open_ : record.status ≠ .pendingInbound := by
        rw [← made]
        exact restored_open _ _ _ _
      split
      · exact .inl rfl
      · rename_i open'
        split
        · exact .inl rfl
        · rename_i free
          have free' : stashRowIsFree w.store record = true := by simpa using free
          obtain ⟨fresh, _, _⟩ := free_spec free'
          rw [if_neg (by simp [open', free'])]
          right
          refine ⟨record, rfl, free', by rw [here]; exact named, ?_⟩
          have written : upsertConversation record w = commit (w.store.put record) w := by
            unfold upsertConversation
            rw [if_neg]
            · rfl
            · intro same
              rw [show w.store.conversations.records.lookup record.conversationId = none from fresh] at same
              cases same
          have wrote := commit_ends (w.store.put record) w
          rw [written]
          cases commits : commit (w.store.put record) w with
          | error e w' =>
            rw [commits] at wrote
            obtain ⟨_, same | same⟩ := wrote
            · rw [same]
              exact ⟨fun row found _ => ⟨found, rfl⟩, fun row found => ⟨fun _ => found, fun at_ alias_ answering =>
                .inr ⟨row, found, at_, answering⟩, fun waits => ⟨row, found, waits⟩⟩⟩
            · rw [same]
              exact Folded.put fresh open_
          | ok _ w' =>
            rw [commits] at wrote
            obtain ⟨same, _⟩ := wrote
            have whole : w' = ⟨w.store.put record, w'.fault⟩ := by rw [← same]
            have merged := @Folded.merge w.store record w'.fault fresh open_
            rw [here, ← whole] at merged
            simp only
            cases merges : mergeContact address w' with
            | ok out w'' =>
              rw [merges] at merged
              exact merged
            | error e w'' =>
              rw [merges] at merged
              exact merged

/-- Where a conversation routes is the greatest of those that answer. -/
theorem conversationByAlias_iff {alias_ : String} {row : ConversationRecord} :
    store.conversationByAlias alias_ = some row ↔
      store.conversation row.conversationId = some row ∧ answers alias_ row = true ∧
        ∀ other, store.conversation other.conversationId = some other → answers alias_ other = true →
          store.aliasRank other ≤ store.aliasRank row := by
  unfold conversationByAlias
  rw [← Option.mem_def, List.mem_argmax_iff]
  simp only [List.mem_filter, mem_listConversations]
  constructor
  · rintro ⟨⟨found, answering⟩, best, _⟩
    exact ⟨found, answering, fun other there spoken => best other ⟨there, spoken⟩⟩
  · rintro ⟨found, answering, best⟩
    refine ⟨⟨found, answering⟩, fun other both => best other both.1 both.2, fun other both above => ?_⟩
    have equal := le_antisymm above (best other both.1 both.2)
    have ids : row.conversationId = other.conversationId := by
      have last := congrArg (fun rank => (ofLex (ofLex (ofLex (ofLex rank).2).2).2).2) equal
      exact OrderDual.toDual_inj.mp last
    have same : row = other := by
      have there := both.1
      rw [← ids, found] at there
      exact Option.some.inj there
    rw [same]

theorem aliasRank_congr {row : ConversationRecord}
    (flag : after.isHidden row.conversationId = store.isHidden row.conversationId) :
    after.aliasRank row = store.aliasRank row := by
  unfold aliasRank
  rw [flag]

/-- No conversation under the address answers to an alias that routes to a standing one. -/
def Untangled (store : TransportStore) (address : String) : Prop :=
  ∀ alias_ held row, store.conversation held.conversationId = some held → held.contactAddress = address →
    answers alias_ held = true → store.conversationByAlias alias_ = some row → standing store row = false

theorem standing_congr {row : ConversationRecord}
    (flag : after.isHidden row.conversationId = store.isHidden row.conversationId) :
    standing after row = standing store row := by
  unfold standing
  rw [flag]

/-- A standing row is not the row's contact's. -/
theorem Folded.keeps (folded : Folded record store after) (free : stashRowIsFree store record = true)
    (named : record.contactAddress ≠ "") {row : ConversationRecord}
    (found : store.conversation row.conversationId = some row) (stands : standing store row = true) :
    after.conversation row.conversationId = some row ∧
      after.isHidden row.conversationId = store.isHidden row.conversationId := by
  refine folded.others row found fun here => ?_
  have falls := (free_spec free).2.1 row found here named
  rw [stands] at falls
  cases falls

theorem Folded.routes (folded : Folded record store after) (free : stashRowIsFree store record = true)
    (named : record.contactAddress ≠ "") (clear : Untangled store record.contactAddress) {alias_ : String}
    {row : ConversationRecord} (routed : store.conversationByAlias alias_ = some row)
    (stands : standing store row = true) : after.conversationByAlias alias_ = some row := by
  obtain ⟨found, answering, best⟩ := conversationByAlias_iff.mp routed
  obtain ⟨stays, flag⟩ := folded.keeps free named found stands
  refine conversationByAlias_iff.mpr ⟨stays, answering, fun other there spoken => ?_⟩
  obtain ⟨elsewhere, here, _⟩ := folded.back other there
  by_cases at_ : other.contactAddress = record.contactAddress
  · -- under the contact's address only the backup's aliases and those of rows it folds are left
    rcases here at_ alias_ spoken with own | ⟨held, was, among, answered⟩
    · have falls := (free_spec free).2.2 alias_ row own found answering
      rw [stands] at falls
      cases falls
    · have falls := clear alias_ held row was among answered routed
      rw [stands] at falls
      cases falls
  · have was := elsewhere at_
    have flag' := (folded.others other was at_).2
    rw [aliasRank_congr flag, aliasRank_congr flag']
    exact best other was spoken

end Folding

section Runs

open Hub TransportStore

variable (chain : Chain) (isBlocked : String → Bool)

/-- Each row the restore takes, when it takes it, is merged with none that answers to a standing
    conversation's alias. -/
def Clear : List StashCall → Nat → World → Prop
  | [], _, _ => True
  | call :: calls, created, w =>
    (∀ record, taken chain isBlocked call created w.store = some record → Untangled w.store record.contactAddress) ∧
      Clear calls (foldStashRow chain isBlocked call created w).2.1 (foldStashRow chain isBlocked call created w).2.2

variable {chain isBlocked}

theorem rows_keep (calls : List StashCall) (created : Nat) (w : World) {row : ConversationRecord}
    (found : w.store.conversation row.conversationId = some row) (stands : standing w.store row = true) :
    (foldStashRows chain isBlocked calls created w).2.store.conversation row.conversationId = some row ∧
      standing (foldStashRows chain isBlocked calls created w).2.store row = true := by
  induction calls generalizing created w with
  | nil => exact ⟨found, stands⟩
  | cons call calls ih =>
    have onward := ih (foldStashRow chain isBlocked call created w).2.1 (foldStashRow chain isBlocked call created w).2.2
    rcases @foldStashRow_spec chain isBlocked call created w with same | ⟨record, _, free, named, folded⟩
    · exact onward (by rw [same]; exact found) (by rw [same]; exact stands)
    · obtain ⟨stays, flag⟩ := folded.keeps free named found stands
      exact onward stays ((standing_congr flag).trans stands)

theorem rows_open (calls : List StashCall) (created : Nat) (w : World) {row : ConversationRecord}
    (found : (foldStashRows chain isBlocked calls created w).2.store.conversation row.conversationId = some row)
    (waits : row.status = .pendingInbound) :
    ∃ held, w.store.conversation row.conversationId = some held ∧ held.status = .pendingInbound := by
  induction calls generalizing created w with
  | nil => exact ⟨row, found, waits⟩
  | cons call calls ih =>
    have onward := ih (foldStashRow chain isBlocked call created w).2.1 (foldStashRow chain isBlocked call created w).2.2
    obtain ⟨held, was, waited⟩ := onward found
    have id := conversation_id was
    rcases @foldStashRow_spec chain isBlocked call created w with same | ⟨record, _, _, _, folded⟩
    · rw [same] at was
      exact ⟨held, was, waited⟩
    · rw [← id] at was ⊢
      exact (folded.back held was).2.2 waited

theorem rows_route (calls : List StashCall) (created : Nat) (w : World) (clear : Clear chain isBlocked calls created w)
    {alias_ : String} {row : ConversationRecord} (routed : w.store.conversationByAlias alias_ = some row)
    (stands : standing w.store row = true) :
    (foldStashRows chain isBlocked calls created w).2.store.conversationByAlias alias_ = some row := by
  induction calls generalizing created w with
  | nil => exact routed
  | cons call calls ih =>
    have onward := ih (foldStashRow chain isBlocked call created w).2.1 (foldStashRow chain isBlocked call created w).2.2
    obtain ⟨first, rest⟩ := clear
    rcases @foldStashRow_spec chain isBlocked call created w with same | ⟨record, takes, free, named, folded⟩
    · exact onward rest (by rw [same]; exact routed) (by rw [same]; exact stands)
    · obtain ⟨found, _, _⟩ := conversationByAlias_iff.mp routed
      obtain ⟨_, flag⟩ := folded.keeps free named found stands
      exact onward rest (folded.routes free named (first record takes) routed stands)
        ((standing_congr flag).trans stands)

theorem restore_speaks_alone (chain : Chain) (isBlocked : String → Bool) :
    (∀ backups : List Backup, (backups.map fun b => b.row.txId).Nodup → backups ≠ [] →
      ∃ best ∈ backups, (∀ other ∈ backups, other ≠ best →
          stashSupersedes best.key (some other.key) = true ∧ stashSupersedes other.key (some best.key) = false) ∧
        ∀ order : List Backup, order.Perm backups → newestOf order = some best) ∧
    ∀ (calls : List StashCall) (created : Nat) (w : World),
      let left := (foldStashRows chain isBlocked calls created w).2.store
      (∀ row, w.store.conversation row.conversationId = some row → standing w.store row = true →
        left.conversation row.conversationId = some row) ∧
      (∀ row, left.conversation row.conversationId = some row → w.store.conversation row.conversationId = none →
        row.status ≠ .pendingInbound) ∧
      (Clear chain isBlocked calls created w → ∀ alias_ row, w.store.conversationByAlias alias_ = some row →
        standing w.store row = true → left.conversationByAlias alias_ = some row) := by
  refine ⟨fun backups distinct some_ => newestOf_unique distinct some_, fun calls created w => ?_⟩
  refine ⟨fun row found stands => (rows_keep calls created w found stands).1, fun row found absent waits => ?_,
    fun clear alias_ row routed stands => rows_route calls created w clear routed stands⟩
  obtain ⟨held, was, _⟩ := rows_open calls created w found waits
  rw [absent] at was
  cases was

/-- An alias that an accepted contact and a thread revived from another contact's message share. -/
def sharedStore : TransportStore :=
  (emptied.put ⟨"accepted", "kaspa:x", "ours", some "shared", .active, false, .receive, 0, 100, 100, none⟩).put
    ⟨"revived", "kaspa:c", "", some "shared", .active, false, .receive, 0, 200, 200, none⟩

def sharedCall : StashCall where
  payload := ⟨"backup", 50, some "before", none, "kaspa:c", some "restored", none, none⟩
  freshId := "fresh"
  windows := (30, 30)

def sharedSender (_ : String) : String := "kaspa:s"

def sharedMainnet (address : String) : Option String := if address = "" then none else some address

def sharedAlias (alias_ : String) : Bool := decide (alias_ ≠ "")

theorem sharedSender_named (txid : String) : sharedSender txid ≠ "" := by
  simp [sharedSender]

theorem sharedMainnet_proper (address canonical : String) (same : sharedMainnet address = some canonical) :
    canonical ≠ "" := by
  unfold sharedMainnet at same
  split at same
  · cases same
  · rename_i filled
    cases same
    exact filled

theorem sharedAlias_spelled (alias_ : String) (valid : sharedAlias alias_ = true) : alias_ ≠ "" :=
  of_decide_eq_true valid

def sharedChain : Chain where
  sender := sharedSender
  mainnet := sharedMainnet
  aliasValid := sharedAlias
  pruningHorizonMs := 0
  named := sharedSender_named
  proper := sharedMainnet_proper
  spelled := sharedAlias_spelled

theorem sharedStore_routes :
    (sharedStore.conversationByAlias "shared").map ConversationRecord.conversationId = some "accepted" ∧
      (sharedStore.conversationByAlias "shared").all (standing sharedStore) = true ∧
      ((foldStashRows sharedChain (fun _ => false) [sharedCall] 0 ⟨sharedStore, none⟩).2.store.conversationByAlias
        "shared").map ConversationRecord.conversationId = some "restored" := by
  decide +kernel

/-- The backup of the revived contact takes the alias from the accepted one. -/
theorem folded_thread_captures_alias :
    ¬ ∀ alias_ row, sharedStore.conversationByAlias alias_ = some row → standing sharedStore row = true →
      (foldStashRows sharedChain (fun _ => false) [sharedCall] 0 ⟨sharedStore, none⟩).2.store.conversationByAlias
        alias_ = some row := by
  intro keeps
  obtain ⟨before, stands, after⟩ := sharedStore_routes
  obtain ⟨row, routed, named⟩ := Option.map_eq_some_iff.mp before
  rw [routed, Option.all_some] at stands
  rw [keeps "shared" row routed stands, Option.map_some, named] at after
  exact absurd after (by decide)

end Runs

end Kaspaverse.Transport
