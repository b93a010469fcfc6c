import Kaspaverse.Transport.Converge

namespace Kaspaverse.Transport

open TransportStore Interrupted

section Folding

variable {store other : TransportStore} {host : Row} {rows : List Row}

/-- Established with the earliest of the rows, and active with the latest. -/
structure Spans (folding : Folding) (rows : List Row) : Prop where
  earliest : ∀ row ∈ rows, folding.created ≤ row.1.createdUnixMs
  established : ∃ row ∈ rows, folding.created = row.1.createdUnixMs
  latest : ∀ row ∈ rows, row.1.lastActivityUnixMs ≤ folding.last
  active : ∃ row ∈ rows, folding.last = row.1.lastActivityUnixMs

theorem takeTheirs_spans (store : TransportStore) (folding : Folding) (dup : ConversationRecord) :
    (folding.takeTheirs store dup).created = folding.created ∧
      (folding.takeTheirs store dup).last = folding.last := by
  unfold Folding.takeTheirs
  split
  · exact ⟨rfl, rfl⟩
  · split <;> exact ⟨rfl, rfl⟩

theorem takeMine_spans (store : TransportStore) (folding : Folding) (dup : ConversationRecord) :
    (folding.takeMine store dup).created = folding.created ∧
      (folding.takeMine store dup).last = folding.last := by
  unfold Folding.takeMine
  split <;> exact ⟨rfl, rfl⟩

theorem Spans.take {folding : Folding} {seen : List Row} (spans : Spans folding seen) (row : Row) :
    Spans (folding.take store row) (seen ++ [row]) := by
  obtain ⟨mineCreated, mineLast⟩ := takeMine_spans store (folding.takeTheirs store row.1) row.1
  obtain ⟨theirsCreated, theirsLast⟩ := takeTheirs_spans store folding row.1
  have created : (folding.take store row).created = min folding.created row.1.createdUnixMs := by
    change min ((folding.takeTheirs store row.1).takeMine store row.1).created _ = _
    rw [mineCreated, theirsCreated]
  have last : (folding.take store row).last = max folding.last row.1.lastActivityUnixMs := by
    change max ((folding.takeTheirs store row.1).takeMine store row.1).last _ = _
    rw [mineLast, theirsLast]
  refine ⟨?_, ?_, ?_, ?_⟩
  · intro other member
    rw [created]
    rcases List.mem_append.mp member with before | here
    · exact Nat.le_trans (Nat.min_le_left _ _) (spans.earliest other before)
    · rw [List.mem_singleton.mp here]
      exact Nat.min_le_right _ _
  · rw [created]
    rcases Nat.le_total folding.created row.1.createdUnixMs with older | newer
    · obtain ⟨first, member, same⟩ := spans.established
      exact ⟨first, List.mem_append_left _ member, (Nat.min_eq_left older).trans same⟩
    · exact ⟨row, List.mem_append_right _ List.mem_cons_self, Nat.min_eq_right newer⟩
  · intro other member
    rw [last]
    rcases List.mem_append.mp member with before | here
    · exact Nat.le_trans (spans.latest other before) (Nat.le_max_left _ _)
    · rw [List.mem_singleton.mp here]
      exact Nat.le_max_right _ _
  · rw [last]
    rcases Nat.le_total row.1.lastActivityUnixMs folding.last with older | newer
    · obtain ⟨first, member, same⟩ := spans.active
      exact ⟨first, List.mem_append_left _ member, (Nat.max_eq_left older).trans same⟩
    · exact ⟨row, List.mem_append_right _ List.mem_cons_self, Nat.max_eq_right newer⟩

theorem Spans.foldl {folding : Folding} {seen : List Row} (spans : Spans folding seen) :
    Spans (rows.foldl (Folding.take store) folding) (seen ++ rows) := by
  induction rows generalizing folding seen with
  | nil =>
    rw [List.append_nil]
    exact spans
  | cons row rows ih =>
    rw [List.append_cons]
    exact ih (spans.take row)

/-- What the kept row takes of its contact's rows: each alias of the row that announced it last among
    those that have one, the earliest establishment and the latest activity. -/
structure MergedContact (store : TransportStore) (rows : List Row) (kept : ConversationRecord) : Prop where
  id : kept.conversationId ∈ rows.map Row.id
  address : ∀ row ∈ rows, kept.contactAddress = row.1.contactAddress
  theirs : (∃ row ∈ rows, hasTheirs row = true) → ∃ newest ∈ rows, hasTheirs newest = true ∧
    kept.theirAlias = newest.1.theirAlias ∧ kept.boundBranch = newest.1.boundBranch ∧
      kept.boundIndex = newest.1.boundIndex ∧ ∀ row ∈ rows, hasTheirs row = true →
        announced store .inbound row ≤ announced store .inbound newest
  noTheirs : (∀ row ∈ rows, hasTheirs row = false) → kept.theirAlias = none
  mine : (∃ row ∈ rows, hasMine row = true) → ∃ newest ∈ rows, hasMine newest = true ∧
    kept.myAlias = newest.1.myAlias ∧ ∀ row ∈ rows, hasMine row = true →
      announced store .outbound row ≤ announced store .outbound newest
  noMine : (∀ row ∈ rows, hasMine row = false) → kept.myAlias = ""
  earliest : ∀ row ∈ rows, kept.createdUnixMs ≤ row.1.createdUnixMs
  established : ∃ row ∈ rows, kept.createdUnixMs = row.1.createdUnixMs
  latest : ∀ row ∈ rows, row.1.lastActivityUnixMs ≤ kept.lastActivityUnixMs
  active : ∃ row ∈ rows, kept.lastActivityUnixMs = row.1.lastActivityUnixMs

theorem mergedHost_spans (store : TransportStore) (host : Row) (rows : List Row) :
    ∃ folding, Spans folding (host :: rows) ∧ (store.mergedHost host.1 rows).createdUnixMs = folding.created ∧
      (store.mergedHost host.1 rows).lastActivityUnixMs = folding.last := by
  have start : Spans (Folding.start store host.1) [host] := by
    refine ⟨?_, ⟨host, List.mem_cons_self, rfl⟩, ?_, ⟨host, List.mem_cons_self, rfl⟩⟩
    · intro row member
      rw [List.mem_singleton.mp member]
      exact Nat.le_refl _
    · intro row member
      rw [List.mem_singleton.mp member]
      exact Nat.le_refl _
  refine ⟨rows.foldl (Folding.take store) (.start store host.1), start.foldl, ?_, ?_⟩
  · unfold TransportStore.mergedHost
    simp only
    split <;> rfl
  · unfold TransportStore.mergedHost
    simp only
    split <;> rfl

theorem mergedContact {address : String} (split : store.contactRows address = rows ++ [host]) :
    MergedContact store (store.contactRows address) (store.mergedHost host.1 rows) := by
  have kept := kept_mergedHost store host rows
  have members : ∀ row, row ∈ store.contactRows address ↔ row ∈ host :: rows := by
    intro row
    rw [split, List.mem_append, List.mem_singleton, List.mem_cons, or_comm]
  have named : ∀ row ∈ store.contactRows address, row.1.contactAddress = address :=
    fun row member => (mem_contactRows.mp member).2.1
  have hostIn := (members host).mpr List.mem_cons_self
  obtain ⟨folding, spans, created, last⟩ := mergedHost_spans store host rows
  refine ⟨?_, ?_, ?_, ?_, ?_, ?_, ?_, ?_, ?_, ?_⟩
  · rw [kept.id]
    exact List.mem_map_of_mem hostIn
  · intro row member
    rw [kept.address, named host hostIn, named row member]
  · rintro ⟨one, member, holds⟩
    have leads := leads_theirs store ⟨one, (members one).mp member, holds⟩
    refine ⟨_, (members _).mpr leads.mem, leads.holds, kept.theirAlias, kept.boundBranch, kept.boundIndex, ?_⟩
    exact fun row inside has => leads.latest ((members row).mp inside) has
  · intro lacks
    have held := @Latest.pick_held _ _ _ hasTheirs (announced store .inbound) rows host
      fun row member => lacks row ((members row).mpr (List.mem_cons_of_mem _ member))
    rw [kept.theirAlias, held]
    exact Option.not_isSome_iff_eq_none.mp (Bool.eq_false_iff.mp (lacks host hostIn))
  · rintro ⟨one, member, holds⟩
    have leads := leads_mine store ⟨one, (members one).mp member, holds⟩
    refine ⟨_, (members _).mpr leads.mem, leads.holds, kept.myAlias, ?_⟩
    exact fun row inside has => leads.latest ((members row).mp inside) has
  · intro lacks
    have held := @Latest.pick_held _ _ _ hasMine (announced store .outbound) rows host
      fun row member => lacks row ((members row).mpr (List.mem_cons_of_mem _ member))
    rw [kept.myAlias, held]
    by_contra filled
    exact absurd (lacks host hostIn) (by simp [hasMine, filled])
  · intro row member
    rw [created]
    exact spans.earliest row ((members row).mp member)
  · obtain ⟨row, member, same⟩ := spans.established
    exact ⟨row, (members row).mpr member, created.trans same⟩
  · intro row member
    rw [last]
    exact spans.latest row ((members row).mp member)
  · obtain ⟨row, member, same⟩ := spans.active
    exact ⟨row, (members row).mpr member, last.trans same⟩

/-- The kept row is a matter of when its contact's rows announced their aliases. -/
theorem mergedHost_congr (alike : ∀ row ∈ host :: rows, ∀ direction,
      store.announcedAt row.1 direction = other.announcedAt row.1 direction) :
    store.mergedHost host.1 rows = other.mergedHost host.1 rows := by
  have start : Folding.start store host.1 = Folding.start other host.1 := by
    unfold Folding.start
    rw [alike host List.mem_cons_self, alike host List.mem_cons_self]
  have takes : ∀ row ∈ rows, ∀ folding, Folding.take store folding row = Folding.take other folding row := by
    intro row member folding
    have same := alike row (List.mem_cons_of_mem _ member)
    unfold Folding.take Folding.takeMine Folding.takeTheirs
    rw [same, same]
  have folds : rows.foldl (Folding.take store) (.start store host.1) =
      rows.foldl (Folding.take other) (.start other host.1) := by
    rw [start]
    exact List.foldl_ext _ _ _ fun folding row member => takes row member folding
  unfold TransportStore.mergedHost
  rw [folds]

end Folding

section Ghosts

/-- A run that leaves every ghost flag, and meets no fault where there was none. -/
def Quiet (w w' : World) : Prop :=
  w'.store.messages.tombstoned = w.store.messages.tombstoned ∧ (w.fault = none → w'.fault = none)

def Silent {α : Type} (writing : Writing α) : Prop :=
  ∀ w, Ends (fun _ w' => Quiet w w') (fun _ => True) (writing w)

variable {α β : Type}

theorem Quiet.trans {w mid w' : World} (first : Quiet w mid) (second : Quiet mid w') : Quiet w w' :=
  ⟨second.1.trans first.1, fun faultless => second.2 (first.2 faultless)⟩

theorem Silent.pure (a : α) : Silent (Pure.pure a : Writing α) := fun _ => ⟨rfl, id⟩

theorem Silent.bind {first : Writing α} {next : α → Writing β} (silent : Silent first)
    (later : ∀ a, Silent (next a)) : Silent (first >>= next) := by
  intro w
  apply Ends.bind (silent w)
  intro a mid quiet
  exact Ends.mono (later a mid) (fun _ _ after => quiet.trans after) (fun _ fails => fails)

theorem Silent.foldlM {step : β → α → Writing β} (silent : ∀ b a, Silent (step b a)) (list : List α) (b : β) :
    Silent (list.foldlM step b) := by
  induction list generalizing b with
  | nil => exact Silent.pure b
  | cons a rest ih =>
    rw [List.foldlM_cons]
    exact (silent b a).bind ih

theorem commit_quiet {after : TransportStore} {w : World}
    (ghosts : after.messages.tombstoned = w.store.messages.tombstoned) :
    Ends (fun _ w' => Quiet w w') (fun _ => True) (commit after w) := by
  apply Ends.mono (commit_ends after w)
  · rintro _ w' ⟨stored, still⟩
    refine ⟨?_, still⟩
    rw [stored]
    exact ghosts
  · exact fun _ _ => True.intro

theorem upsertConversation_silent (record : ConversationRecord) : Silent (upsertConversation record) := by
  intro w
  unfold upsertConversation
  split
  · exact ⟨rfl, id⟩
  · exact commit_quiet rfl

theorem removeConversation_silent (conversationId : String) : Silent (removeConversation conversationId) := by
  intro w
  unfold removeConversation
  split
  · exact commit_quiet rfl
  · exact ⟨rfl, id⟩

theorem rehomeMessage_silent (txid conversationId : String) : Silent (rehomeMessage txid conversationId) := by
  intro w
  unfold rehomeMessage
  split
  · exact ⟨rfl, id⟩
  · split
    · exact ⟨rfl, id⟩
    · apply @Ends.bind _ _ _ _ (fun _ w' => Quiet w w')
      · exact commit_quiet rfl
      · exact fun _ _ quiet => quiet

theorem settleFlag_silent (host : Row) (rows : List Row) : Silent (settleFlag host rows) := by
  intro w
  unfold settleFlag
  split
  · unfold tombstoneConversation
    split
    · exact ⟨rfl, id⟩
    · exact commit_quiet rfl
  · split
    · unfold untombstoneConversation
      split
      · exact commit_quiet rfl
      · exact ⟨rfl, id⟩
    · exact ⟨rfl, id⟩

theorem foldRow_silent (hostId : String) (report : ContactMergeReport) (row : Row) :
    Silent (foldRow hostId report row) := by
  unfold foldRow
  refine Silent.bind (fun _ => ⟨rfl, id⟩) fun w => ?_
  refine Silent.bind (Silent.foldlM (fun report txid => ?_) _ _) fun _ => ?_
  · exact (rehomeMessage_silent txid hostId).bind fun _ => .pure _
  · exact (removeConversation_silent _).bind fun _ => .pure _

theorem mergeContact_silent (address : String) : Silent (mergeContact address) := by
  unfold mergeContact
  refine Silent.bind (fun _ => ⟨rfl, id⟩) fun w => ?_
  simp only
  split
  · exact .pure _
  · split
    · exact .pure _
    · refine Silent.bind ?_ fun _ => .pure _
      unfold foldInto
      refine (upsertConversation_silent _).bind fun _ => ?_
      refine (Silent.foldlM (foldRow_silent _) _ _).bind fun _ => ?_
      exact (settleFlag_silent _ _).bind fun _ => .pure _

end Ghosts

section Contact

variable {store after : TransportStore} {address other : String} {rows : List Row} {host : Row} {id : String}

/-- The conversation that a contact's messages are in once its rows are folded into one. -/
def TransportStore.hostOf (store : TransportStore) (id address : String) : String :=
  if id ∈ (store.contactRows address).map Row.id then (store.contactRows address).getLast?.elim id Row.id else id

theorem contactRows_apart (one : id ∈ (store.contactRows address).map Row.id)
    (two : id ∈ (store.contactRows other).map Row.id) : address = other := by
  obtain ⟨row, member, named⟩ := List.mem_map.mp one
  obtain ⟨row', member', named'⟩ := List.mem_map.mp two
  obtain ⟨found, lives, _⟩ := mem_contactRows.mp member
  obtain ⟨found', lives', _⟩ := mem_contactRows.mp member'
  rw [named] at found
  rw [named', found] at found'
  rw [← lives, ← lives', Option.some.inj found']

theorem hostOf_elsewhere (elsewhere : id ∉ (store.contactRows address).map Row.id) :
    store.hostOf id address = id := by
  unfold TransportStore.hostOf
  rw [if_neg elsewhere]

theorem hostOf_row (split : store.contactRows address = rows ++ [host])
    (member : id ∈ (store.contactRows address).map Row.id) : store.hostOf id address = host.id := by
  unfold TransportStore.hostOf
  rw [if_pos member, split, List.getLast?_concat]
  rfl

theorem hostOf_single (single : (store.contactRows address).length < 2) : store.hostOf id address = id := by
  by_cases member : id ∈ (store.contactRows address).map Row.id
  · cases rows : store.contactRows address with
    | nil =>
      rw [rows] at member
      exact nomatch member
    | cons row rest =>
      cases rest with
      | nil =>
        rw [hostOf_row (by rw [rows]; exact (List.nil_append [row]).symm) member]
        rw [rows] at member
        exact (List.mem_singleton.mp member).symm
      | cons two rest =>
        rw [rows, List.length_cons, List.length_cons] at single
        omega
  · exact hostOf_elsewhere member

/-- One contact's rows are folded into the best of them, its messages are that row's, and the rest of
    the store is as before. -/
structure FoldedContact (store after : TransportStore) (address : String) : Prop where
  others : ∀ other, other ≠ address → after.contactRows other = store.contactRows other
  single : address = "" ∨ (store.contactRows address).length < 2 →
    after.contactRows address = store.contactRows address
  one : address ≠ "" → ∀ rows host, store.contactRows address = rows ++ [host] → rows ≠ [] →
    after.contactRows address = [(store.mergedHost host.1 rows, flagAfter host rows)]
  message : address ≠ "" → ∀ txid, after.messages.records.lookup txid =
    (store.messages.records.lookup txid).map fun m => { m with conversationId := store.hostOf m.conversationId address }
  ghosts : after.messages.tombstoned = store.messages.tombstoned

theorem Stage.contactRows_other {kept : Row} (stage : Stage store kept rows rows after)
    (split : store.contactRows address = rows ++ [host]) (keptId : kept.id = host.id)
    (named : kept.1.contactAddress = address) (elsewhere : other ≠ address) :
    after.contactRows other = store.contactRows other := by
  have hostIn := (contactRows_split split).2.1
  have rowIn : ∀ row ∈ rows, row.id ∈ (store.contactRows address).map Row.id :=
    fun row member => List.mem_map_of_mem ((contactRows_split split).1 row member).1
  apply contactRows_eq
  intro row
  have flag := stage.hidden row.id
  rw [mem_contactRows, mem_contactRows, stage.conversation]
  by_cases same : row.id = kept.id
  · rw [if_pos same]
    constructor
    · rintro ⟨found, lives, _⟩
      rw [← Option.some.inj found] at lives
      exact absurd (lives.symm.trans named) elsewhere
    · rintro ⟨found, lives, hidden⟩
      have mine : row.id ∈ (store.contactRows other).map Row.id :=
        List.mem_map_of_mem (mem_contactRows.mpr ⟨found, lives, hidden⟩)
      have its : row.id ∈ (store.contactRows address).map Row.id := by
        rw [same, keptId]
        exact List.mem_map_of_mem hostIn
      exact absurd (contactRows_apart mine its) elsewhere
  · rw [if_neg same] at flag ⊢
    by_cases gone : row.id ∈ rows.map Row.id
    · rw [if_pos gone]
      obtain ⟨folded, member, its⟩ := List.mem_map.mp gone
      constructor
      · exact fun nothing => nomatch nothing.1
      · rintro ⟨found, lives, hidden⟩
        have mine : row.id ∈ (store.contactRows other).map Row.id :=
          List.mem_map_of_mem (mem_contactRows.mpr ⟨found, lives, hidden⟩)
        rw [← its] at mine
        exact absurd (contactRows_apart mine (rowIn folded member)) elsewhere
    · rw [if_neg gone]
      have hidden : (row.id ∈ after.conversations.tombstoned) ↔ (row.id ∈ store.conversations.tombstoned) := by
        rw [flag]
        exact and_iff_left gone
      rw [decide_eq_decide.mpr hidden]

theorem Stage.message_eq {kept : Row} (stage : Stage store kept rows rows after)
    (split : store.contactRows address = rows ++ [host]) (keptId : kept.id = host.id)
    (named : kept.1.contactAddress = address) (txid : String) :
    after.messages.records.lookup txid = (store.messages.records.lookup txid).map fun m =>
      { m with conversationId := store.hostOf m.conversationId address } := by
  cases found : store.messages.records.lookup txid with
  | none =>
    rcases stage.message txid with same | ⟨m, was, _, _⟩
    · exact same.trans found
    · exact nomatch found.symm.trans was
  | some m =>
    change _ = some { m with conversationId := store.hostOf m.conversationId address }
    by_cases member : m.conversationId ∈ (store.contactRows address).map Row.id
    · rw [(stage.oneRow split keptId named).refiled txid m found member, hostOf_row split member, keptId]
    · rw [hostOf_elsewhere member]
      rcases stage.message txid with same | ⟨other, was, among, _⟩
      · exact same.trans found
      · cases found.symm.trans was
        refine absurd ?_ member
        rw [split, List.map_append]
        exact List.mem_append_left _ among

/-- A contact's merge whose writes succeed. -/
theorem mergeContact_folds (store : TransportStore) (address : String) :
    ∃ out after, mergeContact address ⟨store, none⟩ = .ok out ⟨after, none⟩ ∧ FoldedContact store after address := by
  by_cases short : address = "" ∨ (store.contactRows address).length < 2
  · refine ⟨none, store, mergeContact_short short, fun _ _ => rfl, fun _ => rfl, ?_, ?_, rfl⟩
    · intro filled rows host split several
      have long := List.length_pos_of_ne_nil several
      rw [split, List.length_append, List.length_singleton] at short
      rcases short with empty | short
      · exact absurd empty filled
      · omega
    · intro filled txid
      have single := short.resolve_left filled
      cases store.messages.records.lookup txid with
      | none => rfl
      | some m =>
        change _ = some { m with conversationId := store.hostOf m.conversationId address }
        rw [hostOf_single single]
  · obtain ⟨filled, rows, host, split, several⟩ := contactRows_two short
    obtain ⟨out, after, fault, runs, stage⟩ := mergeContact_whole filled split several
    have quiet := mergeContact_silent address ⟨store, none⟩
    rw [runs] at quiet
    obtain ⟨ghosts, clean⟩ : Quiet ⟨store, none⟩ ⟨after, fault⟩ := quiet
    cases clean rfl
    have kept := kept_mergedHost store host rows
    have named : (store.mergedHost host.1 rows).contactAddress = address :=
      kept.address.trans (mem_contactRows.mp (contactRows_split split).2.1).2.1
    refine ⟨out, after, runs, ?_, fun less => absurd less short, ?_, ?_, ghosts⟩
    · exact fun other elsewhere => stage.contactRows_other split kept.id named elsewhere
    · intro _ rows' host' split' _
      obtain ⟨rfl, same⟩ := List.append_inj' (split.symm.trans split') rfl
      cases same
      exact (stage.oneRow split kept.id named).only
    · exact fun _ txid => stage.message_eq split kept.id named txid

end Contact

section All

variable {store mid after : TransportStore} {address id : String} {addresses done : List String}
  {rows : List Row} {host : Row}

/-- The conversation that a message is in once the contacts' rows are folded. -/
def TransportStore.home (store : TransportStore) (done : List String) (id : String) : String :=
  done.foldl store.hostOf id

theorem home_snoc (store : TransportStore) (done : List String) (address id : String) :
    store.home (done ++ [address]) id = store.hostOf (store.home done id) address := by
  unfold TransportStore.home
  rw [List.foldl_append]
  rfl

theorem home_stays (alone : ∀ address ∈ done, id ∈ (store.contactRows address).map Row.id →
    (store.contactRows address).length < 2) : store.home done id = id := by
  induction done using List.reverseRecOn with
  | nil => rfl
  | append_singleton done address ih =>
    rw [home_snoc, ih fun other member => alone other (List.mem_append_left _ member)]
    by_cases inside : id ∈ (store.contactRows address).map Row.id
    · exact hostOf_single (alone address (List.mem_append_right _ List.mem_cons_self) inside)
    · exact hostOf_elsewhere inside

theorem home_moved (store : TransportStore) (done : List String) (id : String) :
    store.home done id = id ∨ ∃ address ∈ done, store.home done id ∈ (store.contactRows address).map Row.id := by
  induction done using List.reverseRecOn with
  | nil => exact .inl rfl
  | append_singleton done address ih =>
    rw [home_snoc]
    by_cases member : store.home done id ∈ (store.contactRows address).map Row.id
    · right
      refine ⟨address, List.mem_append_right _ List.mem_cons_self, ?_⟩
      cases split : store.contactRows address using List.reverseRecOn with
      | nil =>
        rw [split] at member
        exact nomatch member
      | append_singleton rows host =>
        rw [hostOf_row split member, List.map_append]
        exact List.mem_append_right _ List.mem_cons_self
    · rw [hostOf_elsewhere member]
      rcases ih with same | ⟨other, folded, moved⟩
      · exact .inl same
      · exact .inr ⟨other, List.mem_append_left _ folded, moved⟩

theorem home_row (split : store.contactRows address = rows ++ [host])
    (member : id ∈ (store.contactRows address).map Row.id) (folded : address ∈ done) :
    store.home done id = host.id := by
  have hostIn : host.id ∈ (store.contactRows address).map Row.id :=
    List.mem_map_of_mem (contactRows_split split).2.1
  have keeps : ∀ rest : List String, ∀ row ∈ (store.contactRows address).map Row.id,
      store.home rest row = row ∨ store.home rest row = host.id := by
    intro rest row inside
    induction rest using List.reverseRecOn with
    | nil => exact .inl rfl
    | append_singleton rest other ih =>
      rw [home_snoc]
      have still : store.home rest row ∈ (store.contactRows address).map Row.id := by
        rcases ih with same | same
        · rw [same]
          exact inside
        · rw [same]
          exact hostIn
      by_cases here : other = address
      · subst here
        exact .inr (hostOf_row split still)
      · rw [hostOf_elsewhere fun among => here (contactRows_apart among still)]
        exact ih
  obtain ⟨front, back, rfl⟩ := List.append_of_mem folded
  have first : store.home (front ++ [address]) id = host.id := by
    rw [home_snoc]
    apply hostOf_row split
    rcases keeps front id member with same | same
    · rw [same]
      exact member
    · rw [same]
      exact hostIn
  have whole : store.home (front ++ address :: back) id = store.home back (store.home (front ++ [address]) id) := by
    unfold TransportStore.home
    rw [← List.foldl_append, List.append_assoc]
    rfl
  rw [whole, first]
  rcases keeps back host.id hostIn with same | same
  · exact same
  · exact same

/-- The contacts folded so far are each one row, as the store at the start has it, and nothing else
    moved. -/
structure Merged (store after : TransportStore) (done : List String) : Prop where
  rest : ∀ address, address ∉ done → after.contactRows address = store.contactRows address
  single : ∀ address, (store.contactRows address).length < 2 →
    after.contactRows address = store.contactRows address
  one : ∀ address ∈ done, ∀ rows host, store.contactRows address = rows ++ [host] → rows ≠ [] →
    after.contactRows address = [(store.mergedHost host.1 rows, flagAfter host rows)]
  message : ∀ txid, after.messages.records.lookup txid = (store.messages.records.lookup txid).map fun m =>
    { m with conversationId := store.home done m.conversationId }
  ghosts : after.messages.tombstoned = store.messages.tombstoned

theorem Merged.start (store : TransportStore) : Merged store store [] where
  rest := fun _ _ => rfl
  single := fun _ _ => rfl
  one := fun _ none => nomatch none
  message := by
    intro txid
    cases store.messages.records.lookup txid <;> rfl
  ghosts := rfl

/-- The rows of a contact still to fold announced their aliases when they did at the start. -/
theorem Merged.announcedAt (merged : Merged store mid done) (undone : address ∉ done) {row : Row}
    (member : row ∈ store.contactRows address) (direction : MessageDirection) :
    mid.announcedAt row.1 direction = store.announcedAt row.1 direction := by
  have inside : row.id ∈ (store.contactRows address).map Row.id := List.mem_map_of_mem member
  apply announcedAt_agree direction _ merged.ghosts
  intro m mine
  change m.conversationId = row.id at mine
  rw [KeyMap.mem_values_iff, KeyMap.mem_values_iff]
  apply exists_congr
  intro txid
  rw [merged.message]
  cases found : store.messages.records.lookup txid with
  | none => exact ⟨fun none => (nomatch none), fun none => (nomatch none)⟩
  | some was =>
    change some { was with conversationId := store.home done was.conversationId } = some m ↔ some was = some m
    constructor
    · intro same
      have moved : store.home done was.conversationId = m.conversationId :=
        congrArg MessageRecord.conversationId (Option.some.inj same)
      have stayed : store.home done was.conversationId = was.conversationId := by
        rcases home_moved store done was.conversationId with stayed | ⟨other, folded, among⟩
        · exact stayed
        · rw [moved, mine] at among
          rw [contactRows_apart inside among] at undone
          exact absurd folded undone
      rw [stayed] at same
      exact same
    · intro same
      rw [Option.some.inj same]
      have stayed : store.home done m.conversationId = m.conversationId := by
        apply home_stays
        intro other folded among
        rw [mine] at among
        rw [contactRows_apart inside among] at undone
        exact absurd folded undone
      rw [stayed]

theorem Merged.fold (merged : Merged store mid done) (filled : address ≠ "") (undone : address ∉ done)
    (folded : FoldedContact mid after address) : Merged store after (done ++ [address]) := by
  have rowsHere := merged.rest address undone
  refine ⟨?_, ?_, ?_, ?_, folded.ghosts.trans merged.ghosts⟩
  · intro other elsewhere
    rw [List.mem_append, List.mem_singleton, not_or] at elsewhere
    exact (folded.others other elsewhere.2).trans (merged.rest other elsewhere.1)
  · intro other single
    by_cases here : other = address
    · subst here
      exact (folded.single (.inr (by rw [rowsHere]; exact single))).trans rowsHere
    · exact (folded.others other here).trans (merged.single other single)
  · intro other among rows host split several
    rcases List.mem_append.mp among with before | here
    · have apart : other ≠ address := fun same => undone (same ▸ before)
      rw [folded.others other apart]
      exact merged.one other before rows host split several
    · cases List.mem_singleton.mp here
      rw [folded.one filled rows host (rowsHere.trans split) several]
      have kept : mid.mergedHost host.1 rows = store.mergedHost host.1 rows := by
        apply mergedHost_congr
        intro row member direction
        apply merged.announcedAt undone _ direction
        rw [split, List.mem_append, List.mem_singleton]
        exact (List.mem_cons.mp member).symm
      rw [kept]
  · intro txid
    rw [folded.message filled, merged.message]
    cases store.messages.records.lookup txid with
    | none => rfl
    | some m =>
      change some { m with conversationId := mid.hostOf (store.home done m.conversationId) address } =
        some { m with conversationId := store.home (done ++ [address]) m.conversationId }
      rw [home_snoc]
      unfold TransportStore.hostOf
      rw [rowsHere]

/-- The addresses that hold a row, in the order they are folded in. -/
def TransportStore.contactAddresses (store : TransportStore) : List String :=
  (((store.conversations.records.values.filter fun c =>
    decide (c.contactAddress ≠ "")).map ConversationRecord.contactAddress).insertionSort (· ≤ ·)).dedup

theorem mem_contactAddresses : address ∈ store.contactAddresses ↔
    address ≠ "" ∧ store.contactRows address ≠ [] := by
  unfold TransportStore.contactAddresses
  rw [List.mem_dedup, List.mem_insertionSort, List.mem_map]
  constructor
  · rintro ⟨record, member, rfl⟩
    obtain ⟨held, filled⟩ := List.mem_filter.mp member
    refine ⟨of_decide_eq_true filled, ?_⟩
    obtain ⟨key, found⟩ := KeyMap.mem_values_iff.mp held
    have filed := store.conversations.filed key record found
    subst filed
    exact List.ne_nil_of_mem (mem_contactRows.mpr ⟨found, rfl, rfl⟩ :
      (record, decide (record.conversationId ∈ store.conversations.tombstoned)) ∈ store.contactRows record.contactAddress)
  · rintro ⟨filled, some_⟩
    obtain ⟨row, member⟩ := List.exists_mem_of_ne_nil _ some_
    obtain ⟨found, named, _⟩ := mem_contactRows.mp member
    refine ⟨row.1, List.mem_filter.mpr ⟨KeyMap.mem_values_iff.mpr ⟨_, found⟩, ?_⟩, named⟩
    rw [named]
    exact decide_eq_true filled

/-- The report of one contact added to the rest. -/
def mergeOne (report : ContactMergeReport) (address : String) : Writing ContactMergeReport := do
  match ← mergeContact address with
  | none => pure report
  | some (_, one) => pure ⟨report.contacts + 1, report.rowsFolded + one.rowsFolded,
      report.messagesRehomed + one.messagesRehomed⟩

theorem mergeDuplicateContacts_eq (store : TransportStore) (fault : Option (Nat × Bool)) :
    mergeDuplicateContacts ⟨store, fault⟩ = store.contactAddresses.foldlM mergeOne ⟨0, 0, 0⟩ ⟨store, fault⟩ := rfl

theorem foldlM_merges (merged : Merged store mid done) (filled : ∀ address ∈ addresses, address ≠ "")
    (apart : (done ++ addresses).Nodup) (report : ContactMergeReport) :
    ∃ out after, addresses.foldlM mergeOne report ⟨mid, none⟩ = .ok out ⟨after, none⟩ ∧
      Merged store after (done ++ addresses) := by
  induction addresses generalizing mid done report with
  | nil =>
    rw [List.append_nil]
    exact ⟨report, mid, rfl, merged⟩
  | cons address rest ih =>
    have undone : address ∉ done := by
      intro folded
      exact (List.nodup_append.mp apart).2.2 address folded address List.mem_cons_self rfl
    obtain ⟨out, after, runs, folded⟩ := mergeContact_folds mid address
    have next := merged.fold (filled address List.mem_cons_self) undone folded
    have one : ∃ report', mergeOne report address ⟨mid, none⟩ = .ok report' ⟨after, none⟩ := by
      unfold mergeOne
      change ∃ report', EStateM.bind (mergeContact address) _ ⟨mid, none⟩ = .ok report' ⟨after, none⟩
      unfold EStateM.bind
      rw [runs]
      cases out <;> exact ⟨_, rfl⟩
    obtain ⟨report', here⟩ := one
    rw [List.append_cons] at apart
    obtain ⟨total, final, last, whole⟩ :=
      ih next (fun other member => filled other (List.mem_cons_of_mem _ member)) apart report'
    refine ⟨total, final, ?_, ?_⟩
    · rw [List.foldlM_cons]
      change EStateM.bind (mergeOne report address) _ ⟨mid, none⟩ = _
      unfold EStateM.bind
      rw [here]
      exact last
    · rw [List.append_cons]
      exact whole

/-- Every contact of the store is one row already. -/
theorem foldlM_idle {fault : Option (Nat × Bool)}
    (single : ∀ address ∈ addresses, (store.contactRows address).length < 2) (report : ContactMergeReport) :
    addresses.foldlM mergeOne report ⟨store, fault⟩ = .ok report ⟨store, fault⟩ := by
  induction addresses generalizing report with
  | nil => rfl
  | cons address rest ih =>
    rw [List.foldlM_cons]
    have idle : mergeOne report address ⟨store, fault⟩ = .ok report ⟨store, fault⟩ := by
      unfold mergeOne
      change EStateM.bind (mergeContact address) _ ⟨store, fault⟩ = _
      unfold EStateM.bind
      rw [mergeContact_short (.inr (single address List.mem_cons_self))]
      rfl
    change EStateM.bind (mergeOne report address) _ ⟨store, fault⟩ = _
    unfold EStateM.bind
    rw [idle]
    exact ih (fun other member => single other (List.mem_cons_of_mem _ member)) report

/-- What the merge of all contacts keeps, and what it makes of each. -/
structure MergeKeeps (store after : TransportStore) : Prop where
  oneRow : ∀ id id' c c', after.conversations.records.lookup id = some c →
    after.conversations.records.lookup id' = some c' → c.contactAddress ≠ "" →
      c'.contactAddress = c.contactAddress → id' = id
  contact : ∀ address, address ≠ "" → 2 ≤ (store.contactRows address).length →
    ∃ kept hidden, after.contactRows address = [(kept, hidden)] ∧
      MergedContact store (store.contactRows address) kept
  single : ∀ address, address = "" ∨ (store.contactRows address).length < 2 →
    after.contactRows address = store.contactRows address
  messages : ∀ txid, (after.messages.records.lookup txid).map (fun m => { m with conversationId := "" }) =
    (store.messages.records.lookup txid).map fun m => { m with conversationId := "" }
  ghosts : after.messages.tombstoned = store.messages.tombstoned
  housed : ∀ txid m c, store.messages.records.lookup txid = some m →
    store.conversations.records.lookup m.conversationId = some c →
      ∃ m' c', after.messages.records.lookup txid = some m' ∧
        after.conversations.records.lookup m'.conversationId = some c' ∧ c'.contactAddress = c.contactAddress
  others : ∀ txid m, store.messages.records.lookup txid = some m →
    (∀ c, store.conversations.records.lookup m.conversationId = some c →
      c.contactAddress = "" ∨ (store.contactRows c.contactAddress).length < 2) →
        after.messages.records.lookup txid = some m

theorem Merged.length (merged : Merged store after store.contactAddresses) (filled : address ≠ "") :
    (after.contactRows address).length < 2 := by
  by_cases single : (store.contactRows address).length < 2
  · rw [merged.single address single]
    exact single
  · obtain ⟨_, rows, host, split, several⟩ := contactRows_two (not_or.mpr ⟨filled, single⟩)
    have some_ : store.contactRows address ≠ [] := by
      rw [split]
      exact List.concat_ne_nil host rows
    rw [merged.one address (mem_contactAddresses.mpr ⟨filled, some_⟩) rows host split several]
    exact Nat.lt_succ_self 1

theorem mem_row_ids {c : ConversationRecord} (found : store.conversations.records.lookup id = some c) :
    id ∈ (store.contactRows c.contactAddress).map Row.id := by
  have filed := store.conversations.filed id c found
  subst filed
  exact List.mem_map_of_mem (mem_contactRows.mpr ⟨found, rfl, rfl⟩ :
    (c, decide (c.conversationId ∈ store.conversations.tombstoned)) ∈ store.contactRows c.contactAddress)

/-- A message's conversation stands, as a row of the same contact. -/
theorem Merged.lives (merged : Merged store after store.contactAddresses) {c : ConversationRecord}
    (lives : store.conversations.records.lookup id = some c) :
    ∃ row ∈ after.contactRows c.contactAddress, row.id = store.home store.contactAddresses id := by
  have inside := mem_row_ids lives
  by_cases folded : c.contactAddress ∈ store.contactAddresses
  · cases split : store.contactRows c.contactAddress using List.reverseRecOn with
    | nil =>
      rw [split] at inside
      exact nomatch inside
    | append_singleton rows host =>
      have home : store.home store.contactAddresses id = host.id := home_row split inside folded
      by_cases several : rows = []
      · have single : (store.contactRows c.contactAddress).length < 2 := by
          rw [split, several]
          exact Nat.lt_succ_self 1
        refine ⟨host, ?_, home.symm⟩
        rw [merged.single _ single, split]
        exact List.mem_append_right _ List.mem_cons_self
      · refine ⟨(store.mergedHost host.1 rows, flagAfter host rows), ?_, ?_⟩
        · rw [merged.one _ folded rows host split several]
          exact List.mem_cons_self
        · exact (kept_mergedHost store host rows).id.trans home.symm
  · obtain ⟨row, member, named⟩ := List.mem_map.mp inside
    refine ⟨row, ?_, ?_⟩
    · rw [merged.rest _ folded]
      exact member
    · rw [named]
      symm
      apply home_stays
      intro address among there
      rw [contactRows_apart inside there] at folded
      exact absurd among folded

theorem Merged.keeps (merged : Merged store after store.contactAddresses) : MergeKeeps store after where
  oneRow := by
    intro id id' c c' found found' filled same
    have short := merged.length filled
    have member := mem_row_ids found
    have member' := mem_row_ids found'
    rw [same] at member'
    cases rows : after.contactRows c.contactAddress with
    | nil =>
      rw [rows] at member
      exact nomatch member
    | cons row rest =>
      rw [rows] at short member member'
      cases rest with
      | nil => exact (List.mem_singleton.mp member').trans (List.mem_singleton.mp member).symm
      | cons two rest =>
        rw [List.length_cons, List.length_cons] at short
        omega
  contact := by
    intro address filled long
    obtain ⟨_, rows, host, split, several⟩ := contactRows_two (not_or.mpr ⟨filled, Nat.not_lt_of_le long⟩)
    have some_ : store.contactRows address ≠ [] := by
      rw [split]
      exact List.concat_ne_nil host rows
    exact ⟨_, _, merged.one address (mem_contactAddresses.mpr ⟨filled, some_⟩) rows host split several,
      mergedContact split⟩
  single := by
    rintro address (rfl | short)
    · exact merged.rest "" fun member => (mem_contactAddresses.mp member).1 rfl
    · exact merged.single address short
  messages := by
    intro txid
    rw [merged.message]
    cases store.messages.records.lookup txid <;> rfl
  ghosts := merged.ghosts
  housed := by
    intro txid m c found lives
    obtain ⟨row, member, here⟩ := merged.lives lives
    obtain ⟨stands, named, _⟩ := mem_contactRows.mp member
    refine ⟨{ m with conversationId := store.home store.contactAddresses m.conversationId }, row.1, ?_, ?_, named⟩
    · rw [merged.message, found]
      rfl
    · rw [← here]
      exact stands
  others := by
    intro txid m found alone
    rw [merged.message, found]
    change some { m with conversationId := store.home store.contactAddresses m.conversationId } = some m
    rw [home_stays]
    intro address folded inside
    obtain ⟨row, member, named⟩ := List.mem_map.mp inside
    obtain ⟨stands, lives, _⟩ := mem_contactRows.mp member
    rw [named] at stands
    have rest := alone row.1 stands
    rw [lives] at rest
    exact rest.resolve_left (mem_contactAddresses.mp folded).1

/-- However many rows a store holds for each contact, the merge whose writes succeed folds them into
    one, loses nothing, and has nothing to do when it runs again: no write of the second run is even
    tried. -/
theorem merge_duplicate_contacts_keeps (store : TransportStore) :
    ∃ report after, mergeDuplicateContacts ⟨store, none⟩ = .ok report ⟨after, none⟩ ∧ MergeKeeps store after ∧
      ∀ fault, mergeDuplicateContacts ⟨after, fault⟩ = .ok ⟨0, 0, 0⟩ ⟨after, fault⟩ := by
  have filled : ∀ address ∈ store.contactAddresses, address ≠ "" :=
    fun address member => (mem_contactAddresses.mp member).1
  obtain ⟨report, after, runs, merged⟩ :=
    foldlM_merges (Merged.start store) filled (List.nodup_dedup _) ⟨0, 0, 0⟩
  refine ⟨report, after, runs, merged.keeps, ?_⟩
  intro fault
  rw [mergeDuplicateContacts_eq]
  apply foldlM_idle
  exact fun address member => merged.length (mem_contactAddresses.mp member).1

end All

end Kaspaverse.Transport
