import Kaspaverse.Library.Interrupted
import Kaspaverse.Library.Latest
import Kaspaverse.Transport.Store

namespace Kaspaverse.Transport

section Rows

variable {store other : TransportStore} {address : String} {row : Row}

def Row.id (row : Row) : String := row.1.conversationId

theorem mem_contactRows : row ∈ store.contactRows address ↔
    store.conversations.records.lookup row.id = some row.1 ∧ row.1.contactAddress = address ∧
      row.2 = decide (row.id ∈ store.conversations.tombstoned) := by
  unfold TransportStore.contactRows
  rw [List.mem_insertionSort, List.mem_map]
  constructor
  · rintro ⟨record, member, rfl⟩
    obtain ⟨held, named⟩ := List.mem_filter.mp member
    obtain ⟨key, found⟩ := KeyMap.mem_values_iff.mp held
    have filed := store.conversations.filed key record found
    subst filed
    exact ⟨found, of_decide_eq_true named, rfl⟩
  · rintro ⟨found, named, hidden⟩
    refine ⟨row.1, List.mem_filter.mpr ⟨KeyMap.mem_values_iff.mpr ⟨_, found⟩, decide_eq_true named⟩, ?_⟩
    exact Prod.ext rfl hidden.symm

theorem contactRows_ext {one two : Row} (first : one ∈ store.contactRows address)
    (second : two ∈ store.contactRows address) (same : one.id = two.id) : one = two := by
  obtain ⟨found, _, hidden⟩ := mem_contactRows.mp first
  obtain ⟨found', _, hidden'⟩ := mem_contactRows.mp second
  rw [same, found'] at found
  rw [same, ← hidden'] at hidden
  exact Prod.ext (Option.some.inj found).symm hidden

theorem contactRows_pairwise (store : TransportStore) (address : String) :
    (store.contactRows address).Pairwise fun a b => mergeOrder a ≤ mergeOrder b :=
  List.pairwise_insertionSort _ _

theorem contactRows_nodup (store : TransportStore) (address : String) :
    (store.contactRows address).Nodup := by
  unfold TransportStore.contactRows
  rw [(List.perm_insertionSort _ _).nodup_iff]
  apply List.Nodup.map (fun _ _ same => congrArg Prod.fst same)
  apply List.Nodup.filter
  have keys : (store.conversations.records.entries.map Sigma.snd).map
      ConversationRecord.conversationId = store.conversations.records.keys := by
    rw [List.map_map]
    apply List.map_congr_left
    rintro ⟨key, record⟩ member
    exact store.conversations.filed key record (KeyMap.mem_entries_iff.mp member)
  have nodup := store.conversations.records.keys_nodup
  rw [← keys] at nodup
  exact nodup.of_map

theorem contactRows_eq (members : ∀ row, row ∈ store.contactRows address ↔ row ∈ other.contactRows address) :
    store.contactRows address = other.contactRows address := by
  have perm : (store.contactRows address).Perm (other.contactRows address) :=
    (List.perm_ext_iff_of_nodup (contactRows_nodup _ _) (contactRows_nodup _ _)).mpr members
  apply perm.eq_of_pairwise _ (contactRows_pairwise _ _) (contactRows_pairwise _ _)
  intro one two first second below above
  have ids : one.id = two.id := by
    have equal := le_antisymm below above
    exact OrderDual.toDual_inj.mp (congrArg (fun key => (ofLex key).2) equal)
  exact contactRows_ext first ((members two).mpr second) ids

theorem contactRows_congr (same : store.conversations.Same other.conversations) (address : String) :
    store.contactRows address = other.contactRows address := by
  apply contactRows_eq
  intro row
  rw [mem_contactRows, mem_contactRows, same.records, same.tombstoned]

/-- The best row and the rows to fold into it. -/
theorem contactRows_split {rows : List Row} {host : Row}
    (split : store.contactRows address = rows ++ [host]) :
    (∀ row ∈ rows, row ∈ store.contactRows address ∧ row.id ≠ host.id ∧ mergeOrder row ≤ mergeOrder host) ∧
      host ∈ store.contactRows address ∧ rows.Nodup := by
  have sorted := contactRows_pairwise store address
  have nodup := contactRows_nodup store address
  have hostIn : host ∈ store.contactRows address := by
    rw [split]
    simp
  have rowIn : ∀ row ∈ rows, row ∈ store.contactRows address := by
    intro row member
    rw [split]
    exact List.mem_append_left _ member
  have whole := nodup
  rw [split] at sorted whole
  refine ⟨?_, hostIn, (List.nodup_append.mp whole).1⟩
  intro row member
  refine ⟨rowIn row member, ?_, (List.pairwise_append.mp sorted).2.2 row member host (by simp)⟩
  intro same
  have equal := contactRows_ext (rowIn row member) hostIn same
  exact (List.nodup_append.mp whole).2.2 row member host (by simp) equal

/-- When an alias was announced is a matter of the conversation's own messages. -/
theorem announcedAt_agree {row : ConversationRecord} (direction : MessageDirection)
    (own : ∀ m, m.conversationId = row.conversationId →
      (m ∈ store.messages.records.values ↔ m ∈ other.messages.records.values))
    (ghosts : store.messages.tombstoned = other.messages.tombstoned) :
    store.announcedAt row direction = other.announcedAt row direction := by
  unfold TransportStore.announcedAt
  congr 1
  apply Option.ext
  intro newest
  rw [List.max?_eq_some_iff, List.max?_eq_some_iff]
  have values : ∀ m, (m ∈ store.messages.records.values ∧ decide (m.conversationId = row.conversationId ∧
      m.direction = direction ∧ m.kind = .handshake ∧ m.txid ∉ store.messages.tombstoned) = true) ↔
      (m ∈ other.messages.records.values ∧ decide (m.conversationId = row.conversationId ∧
        m.direction = direction ∧ m.kind = .handshake ∧ m.txid ∉ other.messages.tombstoned) = true) := by
    intro m
    rw [decide_eq_true_eq, decide_eq_true_eq, ghosts]
    constructor
    · rintro ⟨held, mine, others⟩
      exact ⟨(own m mine).mp held, mine, others⟩
    · rintro ⟨held, mine, others⟩
      exact ⟨(own m mine).mpr held, mine, others⟩
  simp only [List.mem_map, List.mem_filter, values]

theorem announcedAt_congr (same : store.messages.Same other.messages) (row : ConversationRecord)
    (direction : MessageDirection) :
    store.announcedAt row direction = other.announcedAt row direction := by
  apply announcedAt_agree direction _ same.tombstoned
  intro m _
  rw [KeyMap.mem_values_iff, KeyMap.mem_values_iff]
  exact exists_congr fun key => by rw [same.records]

end Rows

section Folding

open TransportStore

variable (store : TransportStore)

def hasMine (row : Row) : Bool := decide (row.1.myAlias ≠ "")

def hasTheirs (row : Row) : Bool := row.1.theirAlias.isSome

def announced (direction : MessageDirection) (row : Row) : Nat := store.announcedAt row.1 direction

/-- The folding holds the aliases of the rows announced last, and the rest of the host. -/
structure Folding.Holds (folding : Folding) (host mine theirs : Row) : Prop where
  id : folding.host.conversationId = host.id
  address : folding.host.contactAddress = host.1.contactAddress
  status : folding.host.status = host.1.status
  myAlias : folding.host.myAlias = mine.1.myAlias
  mineAt : folding.mineAt = announced store .outbound mine
  theirAlias : folding.host.theirAlias = theirs.1.theirAlias
  boundBranch : folding.host.boundBranch = theirs.1.boundBranch
  boundIndex : folding.host.boundIndex = theirs.1.boundIndex
  theirsAt : folding.theirsAt = announced store .inbound theirs
  created : folding.created ≤ host.1.createdUnixMs

variable {store} {folding : Folding} {host mine theirs : Row}

theorem Folding.Holds.takeTheirs (holds : Folding.Holds store folding host mine theirs) (row : Row) :
    Folding.Holds store (folding.takeTheirs store row.1) host mine
      (if hasTheirs row = true ∧ (hasTheirs theirs = false ∨
        announced store .inbound theirs < announced store .inbound row) then row else theirs) := by
  have later : (folding.host.theirAlias.isNone = true ∨
      folding.theirsAt < store.announcedAt row.1 .inbound) ↔
      (hasTheirs theirs = false ∨
        announced store .inbound theirs < announced store .inbound row) := by
    rw [holds.theirAlias, holds.theirsAt]
    simp [hasTheirs, announced]
  unfold TransportStore.Folding.takeTheirs
  cases named : row.1.theirAlias with
  | none =>
    have lacks : hasTheirs row = false := by
      unfold hasTheirs
      rw [named]
      rfl
    rw [if_neg (by rw [lacks]; simp)]
    exact holds
  | some alias_ =>
    have has : hasTheirs row = true := by
      unfold hasTheirs
      rw [named]
      rfl
    simp only [later, has, true_and]
    split
    · exact { holds with theirAlias := named.symm, boundBranch := rfl, boundIndex := rfl, theirsAt := rfl }
    · exact holds

theorem Folding.Holds.takeMine (holds : Folding.Holds store folding host mine theirs) (row : Row) :
    Folding.Holds store (folding.takeMine store row.1) host
      (if hasMine row = true ∧ (hasMine mine = false ∨
        announced store .outbound mine < announced store .outbound row) then row else mine) theirs := by
  have later : (row.1.myAlias ≠ "" ∧ (folding.host.myAlias = "" ∨
      folding.mineAt < store.announcedAt row.1 .outbound)) ↔
      (hasMine row = true ∧ (hasMine mine = false ∨
        announced store .outbound mine < announced store .outbound row)) := by
    rw [holds.myAlias, holds.mineAt]
    simp [hasMine, announced]
  unfold TransportStore.Folding.takeMine
  simp only [later]
  split
  · exact { holds with myAlias := rfl, mineAt := rfl }
  · exact holds

theorem Folding.Holds.take (holds : Folding.Holds store folding host mine theirs) (row : Row) :
    Folding.Holds store (folding.take store row) host
      (if hasMine row = true ∧ (hasMine mine = false ∨
        announced store .outbound mine < announced store .outbound row) then row else mine)
      (if hasTheirs row = true ∧ (hasTheirs theirs = false ∨
        announced store .inbound theirs < announced store .inbound row) then row else theirs) := by
  have both := (holds.takeTheirs row).takeMine row
  exact { both with created := le_trans (Nat.min_le_left _ _) both.created }

theorem Folding.Holds.start (store : TransportStore) (host : Row) :
    Folding.Holds store (.start store host.1) host host host :=
  ⟨rfl, rfl, rfl, rfl, rfl, rfl, rfl, rfl, rfl, le_refl _⟩

theorem Folding.Holds.foldl (rows : List Row)
    (holds : Folding.Holds store folding host mine theirs) :
    Folding.Holds store (rows.foldl (Folding.take store) folding) host
      (Latest.pick hasMine (announced store .outbound) mine rows)
      (Latest.pick hasTheirs (announced store .inbound) theirs rows) := by
  induction rows generalizing folding mine theirs with
  | nil => exact holds
  | cons row rows ih => exact ih (holds.take row)

/-- What the kept row holds. -/
structure Kept (store : TransportStore) (host : Row) (rows : List Row) (kept : ConversationRecord) :
    Prop where
  id : kept.conversationId = host.id
  address : kept.contactAddress = host.1.contactAddress
  myAlias : kept.myAlias = (Latest.pick hasMine (announced store .outbound) host rows).1.myAlias
  theirAlias : kept.theirAlias =
    (Latest.pick hasTheirs (announced store .inbound) host rows).1.theirAlias
  boundBranch : kept.boundBranch =
    (Latest.pick hasTheirs (announced store .inbound) host rows).1.boundBranch
  boundIndex : kept.boundIndex =
    (Latest.pick hasTheirs (announced store .inbound) host rows).1.boundIndex
  created : kept.createdUnixMs ≤ host.1.createdUnixMs
  status : kept.status =
    if host.1.status ≠ .pendingInbound ∧ kept.myAlias ≠ "" ∧ kept.theirAlias.isSome = true then .active
    else host.1.status

theorem kept_mergedHost (store : TransportStore) (host : Row) (rows : List Row) :
    Kept store host rows (store.mergedHost host.1 rows) := by
  have holds := (Folding.Holds.start store host).foldl rows
  unfold TransportStore.mergedHost
  simp only [holds.status]
  split
  case isTrue both =>
    refine ⟨holds.id, holds.address, holds.myAlias, holds.theirAlias, holds.boundBranch,
      holds.boundIndex, holds.created, ?_⟩
    exact (if_pos both).symm
  case isFalse lacks =>
    refine ⟨holds.id, holds.address, holds.myAlias, holds.theirAlias, holds.boundBranch,
      holds.boundIndex, holds.created, ?_⟩
    exact (if_neg lacks).symm

end Folding

section Run

open TransportStore Interrupted

/-- A store part-way through a merge: the kept row as it is filed, and the rows already dropped. -/
structure Stage (store : TransportStore) (kept : Row) (rows gone : List Row) (half : TransportStore) :
    Prop where
  conversation : ∀ id, half.conversations.records.lookup id =
    if id = kept.id then some kept.1
    else if id ∈ gone.map Row.id then none else store.conversations.records.lookup id
  hidden : ∀ id, id ∈ half.conversations.tombstoned ↔
    if id = kept.id then kept.2 = true
    else id ∈ store.conversations.tombstoned ∧ id ∉ gone.map Row.id
  message : ∀ txid, half.messages.records.lookup txid = store.messages.records.lookup txid ∨
    ∃ m, store.messages.records.lookup txid = some m ∧ m.conversationId ∈ rows.map Row.id ∧
      half.messages.records.lookup txid = some { m with conversationId := kept.id }
  swept : ∀ txid m, half.messages.records.lookup txid = some m → m.conversationId ∉ gone.map Row.id

variable {store half after : TransportStore} {kept row : Row} {rows gone : List Row} {w : World}

theorem commit_ends (after : TransportStore) (w : World) :
    Ends (fun _ w' => w'.store = after ∧ (w.fault = none → w'.fault = none))
      (fun w' => w.fault ≠ none ∧ (w'.store = w.store ∨ w'.store = after)) (commit after w) := by
  unfold commit
  split
  case h_1 faultless => exact ⟨rfl, fun _ => faultless⟩
  case h_2 landed fails =>
    refine ⟨by rw [fails]; simp, ?_⟩
    cases landed with
    | true => exact .inr rfl
    | false => exact .inl rfl
  case h_3 n landed fails => exact ⟨rfl, fun faultless => by rw [fails] at faultless; cases faultless⟩

/-- Between the steps of a fold: a stage, and no fault where there was none. -/
def At (store : TransportStore) (kept : Row) (rows gone : List Row) (faultless : Prop) (w : World) :
    Prop :=
  Stage store kept rows gone w.store ∧ (faultless → w.fault = none)

theorem Stage.rehome {txid : String} {existing : MessageRecord} (stage : Stage store kept rows gone half)
    (found : half.messages.records.lookup txid = some existing)
    (member : existing.conversationId ∈ rows.map Row.id) (apart : existing.conversationId ≠ kept.id)
    (kept_stays : kept.id ∉ gone.map Row.id) :
    Stage store kept rows gone { half with
      messages := half.messages.insert { existing with conversationId := kept.id } } := by
  have filed := half.messages.filed txid existing found
  refine ⟨stage.conversation, stage.hidden, ?_, ?_⟩
  · intro other
    by_cases same : other = txid
    · subst same
      right
      have moved : (half.messages.insert { existing with conversationId := kept.id }).records.lookup
          other = some { existing with conversationId := kept.id } :=
        KeyMap.lookup_insert_some.mpr (.inl ⟨filed.symm, rfl⟩)
      rcases stage.message other with before | ⟨m, _, _, before⟩
      · exact ⟨existing, before.symm.trans found, member, moved⟩
      · rw [found] at before
        cases before
        exact absurd rfl apart
    · have untouched : (half.messages.insert { existing with conversationId := kept.id }).records.lookup
          other = half.messages.records.lookup other := by
        apply AList.lookup_insert_ne
        intro named
        exact same (named.trans filed)
      show (half.messages.insert _).records.lookup other = _ ∨ _
      rw [untouched]
      exact stage.message other
  · intro other m held
    rcases KeyMap.lookup_insert_some.mp held with ⟨_, rfl⟩ | ⟨_, before⟩
    · exact kept_stays
    · exact stage.swept other m before

/-- Every message still to move is one of the row's, and what has been moved is the host's. -/
structure Moving (half : TransportStore) (kept row : Row) (txids done : List String) : Prop where
  ahead : ∀ txid m, half.messages.records.lookup txid = some m → m.conversationId = row.id →
    txid ∈ txids ∧ txid ∉ done
  listed : ∀ txid ∈ txids, ∀ m, half.messages.records.lookup txid = some m →
    m.conversationId = row.id ∨ m.conversationId = kept.id

theorem rehomeMessage_ends {txids done : List String} {txid : String} {faultless : Prop}
    (at_ : At store kept rows gone faultless w) (moving : Moving w.store kept row txids done)
    (listed : txid ∈ txids) (member : row ∈ rows) (apart : row.id ≠ kept.id)
    (kept_stays : kept.id ∉ gone.map Row.id) :
    Ends (fun _ w' => At store kept rows gone faultless w' ∧
        Moving w'.store kept row txids (done ++ [txid]))
      (fun w' => ¬ faultless ∧ Stage store kept rows gone w'.store)
      (rehomeMessage txid kept.id w) := by
  obtain ⟨stage, clean⟩ := at_
  have named : row.id ∈ rows.map Row.id := List.mem_map_of_mem member
  unfold rehomeMessage
  split
  case h_1 absent =>
    refine ⟨⟨stage, clean⟩, ?_, moving.listed⟩
    intro other m found mine
    obtain ⟨ahead, undone⟩ := moving.ahead other m found mine
    refine ⟨ahead, ?_⟩
    intro among
    rcases List.mem_append.mp among with early | late
    · exact undone early
    · rw [List.mem_singleton.mp late, absent] at found
      cases found
  case h_2 existing found =>
    split
    case isTrue there =>
      refine ⟨⟨stage, clean⟩, ?_, moving.listed⟩
      intro other m held mine
      obtain ⟨ahead, undone⟩ := moving.ahead other m held mine
      refine ⟨ahead, ?_⟩
      intro among
      rcases List.mem_append.mp among with early | late
      · exact undone early
      · rw [List.mem_singleton.mp late, found] at held
        cases held
        exact apart (mine.symm.trans there)
    case isFalse elsewhere =>
      have mine : existing.conversationId = row.id := by
        rcases moving.listed txid listed existing found with mine | there
        · exact mine
        · exact absurd there elsewhere
      have filed := w.store.messages.filed txid existing found
      have moved := stage.rehome found (by rw [mine]; exact named) elsewhere kept_stays
      apply Ends.bind (Ends.mono (commit_ends _ w) (fun _ _ h => h) _)
      · rintro _ w' ⟨stored, still⟩
        refine ⟨⟨?_, fun holds => still (clean holds)⟩, ?_, ?_⟩
        · rw [stored]
          exact moved
        · rw [stored]
          intro other m held its
          rcases KeyMap.lookup_insert_some.mp held with ⟨_, rfl⟩ | ⟨other_apart, before⟩
          · exact absurd its.symm apart
          · obtain ⟨ahead, undone⟩ := moving.ahead other m before its
            refine ⟨ahead, ?_⟩
            intro among
            rcases List.mem_append.mp among with early | late
            · exact undone early
            · exact other_apart ((List.mem_singleton.mp late).trans filed.symm)
        · rw [stored]
          intro other among m held
          rcases KeyMap.lookup_insert_some.mp held with ⟨_, rfl⟩ | ⟨_, before⟩
          · exact .inr rfl
          · exact moving.listed other among m before
      · rintro w' ⟨faulty, stored⟩
        refine ⟨fun holds => faulty (clean holds), ?_⟩
        rcases stored with same | same
        · rw [same]
          exact stage
        · rw [same]
          exact moved

theorem Stage.drop (stage : Stage store kept rows gone half) (apart : row.id ≠ kept.id)
    (empty : ∀ txid m, half.messages.records.lookup txid = some m → m.conversationId ≠ row.id) :
    Stage store kept rows (gone ++ [row]) { half with
      conversations := half.conversations.erase row.id } := by
  have ids : ∀ id, id ∈ (gone ++ [row]).map Row.id ↔ id ∈ gone.map Row.id ∨ id = row.id := by
    intro id
    rw [List.map_append, List.mem_append, List.map_singleton, List.mem_singleton]
  refine ⟨?_, ?_, stage.message, ?_⟩
  · intro id
    show (half.conversations.records.erase row.id).lookup id = _
    by_cases same : id = row.id
    · subst same
      rw [AList.lookup_erase, if_neg apart, if_pos ((ids _).mpr (.inr rfl))]
    · rw [AList.lookup_erase_ne same, stage.conversation]
      simp only [ids, same, or_false]
  · intro id
    show id ∈ half.conversations.tombstoned.erase row.id ↔ _
    rw [Finset.mem_erase, stage.hidden]
    by_cases same : id = row.id
    · subst same
      simp [apart]
    · simp only [ids, same, or_false, ne_eq, not_false_eq_true, true_and]
  · intro txid m found
    rw [ids]
    rintro (early | late)
    · exact stage.swept txid m found early
    · exact empty txid m found late

/-- Folding one row moves its messages and drops it; a failure leaves it short of that. -/
theorem foldRow_ends {faultless : Prop} (at_ : At store kept rows gone faultless w) (member : row ∈ rows)
    (apart : row.id ≠ kept.id) (inStore : store.conversations.records.lookup row.id = some row.1)
    (ungone : row.id ∉ gone.map Row.id) (kept_stays : kept.id ∉ gone.map Row.id)
    (report : ContactMergeReport) :
    Ends (fun _ w' => At store kept rows (gone ++ [row]) faultless w')
      (fun w' => ¬ faultless ∧ (Stage store kept rows gone w'.store ∨
        Stage store kept rows (gone ++ [row]) w'.store))
      (foldRow kept.id report row w) := by
  unfold foldRow
  apply @Ends.bind _ _ _ _ (fun read w' => read = w ∧ w' = w) _ _ get _ w ⟨rfl, rfl⟩
  rintro _ _ ⟨rfl, rfl⟩
  rename_i before
  let txids := (before.store.messages.records.values.filter fun m =>
    decide (m.conversationId = row.1.conversationId)).map MessageRecord.txid
  have start : Moving before.store kept row txids [] := by
    constructor
    · intro txid m found mine
      refine ⟨?_, List.not_mem_nil⟩
      apply List.mem_map.mpr
      refine ⟨m, List.mem_filter.mpr ⟨KeyMap.mem_values_iff.mpr ⟨txid, found⟩, decide_eq_true mine⟩, ?_⟩
      exact before.store.messages.filed txid m found
    · intro txid listed m found
      obtain ⟨other, among, named⟩ := List.mem_map.mp listed
      obtain ⟨held, mine⟩ := List.mem_filter.mp among
      obtain ⟨key, filed⟩ := KeyMap.mem_values_iff.mp held
      have keyed := before.store.messages.filed key other filed
      rw [← keyed, named, found] at filed
      cases filed
      exact .inl (of_decide_eq_true mine)
  apply @Ends.bind _ _ _ _ (fun _ w' => At store kept rows gone faultless w' ∧
    Moving w'.store kept row txids txids)
  · apply @Ends.foldlM _ _ _ _ _ _ (fun done _ w' => At store kept rows gone faultless w' ∧
      Moving w'.store kept row txids done) txids _ _ _ ⟨at_, start⟩
    rintro done txid rest _ w' shape ⟨here, moving⟩
    have listed : txid ∈ txids := by
      rw [shape]
      simp
    have ends := rehomeMessage_ends here moving listed member apart kept_stays
    apply Ends.bind (Ends.mono ends (fun _ _ h => h) _)
    · exact fun _ _ moved => moved
    · exact fun _ stopped => ⟨stopped.1, .inl stopped.2⟩
  · rintro report' w' ⟨⟨stage, clean⟩, moving⟩
    have empty : ∀ txid m, w'.store.messages.records.lookup txid = some m →
        m.conversationId ≠ row.id := by
      intro txid m found mine
      obtain ⟨ahead, undone⟩ := moving.ahead txid m found mine
      exact undone ahead
    have dropped := stage.drop apart empty
    have held : row.id ∈ w'.store.conversations.records := by
      apply KeyMap.mem_of_lookup (v := row.1)
      rw [stage.conversation, if_neg apart, if_neg ungone, inStore]
    apply @Ends.bind _ _ _ _ (fun _ w'' => At store kept rows (gone ++ [row]) faultless w'')
    · show Ends _ _ (removeConversation row.id w')
      unfold removeConversation
      rw [if_pos held]
      apply Ends.mono (commit_ends _ w')
      · rintro _ w'' ⟨stored, still⟩
        refine ⟨?_, fun holds => still (clean holds)⟩
        rw [stored]
        exact dropped
      · rintro w'' ⟨faulty, stored⟩
        refine ⟨fun holds => faulty (clean holds), ?_⟩
        rcases stored with same | same
        · rw [same]
          exact .inl stage
        · rw [same]
          exact .inr dropped
    · exact fun _ _ ends => ends

/-- The hidden flag a merge leaves on the row it keeps. -/
def flagAfter (host : Row) (rows : List Row) : Bool :=
  if blocked host rows then true else if anyVisible host rows then false else host.2

theorem Stage.flagged {hidden : Bool} (stage : Stage store kept rows gone half)
    {conversations : Table ConversationRecord ConversationRecord.conversationId}
    (records : conversations.records = half.conversations.records)
    (flags : ∀ id, id ∈ conversations.tombstoned ↔
      if id = kept.id then hidden = true else id ∈ half.conversations.tombstoned) :
    Stage store (kept.1, hidden) rows gone { half with conversations := conversations } := by
  refine ⟨?_, ?_, stage.message, stage.swept⟩
  · intro id
    show conversations.records.lookup id = _
    rw [records]
    exact stage.conversation id
  · intro id
    rw [flags]
    show (if id = kept.id then _ else _) ↔ if id = kept.id then _ else _
    by_cases same : id = kept.id
    · rw [if_pos same, if_pos same]
    · rw [if_neg same, if_neg same, stage.hidden, if_neg same]

theorem flagAfter_eq (host : Row) (rows : List Row) :
    flagAfter host rows = (blocked host rows || !anyVisible host rows) := by
  unfold flagAfter
  cases blocks : blocked host rows with
  | true => rfl
  | false =>
    cases visible : anyVisible host rows with
    | true => rfl
    | false =>
      unfold anyVisible at visible
      simp only [Bool.false_eq_true, if_false]
      cases hidden : host.2 with
      | true => rfl
      | false =>
        rw [hidden] at visible
        cases visible

/-- The last write leaves the flag a merge decides on. -/
theorem settleFlag_ends {faultless : Prop} {host : Row} {record : ConversationRecord}
    (id : record.conversationId = host.id) (at_ : At store (record, host.2) rows gone faultless w) :
    Ends (fun _ w' => At store (record, flagAfter host rows) rows gone faultless w')
      (fun w' => ¬ faultless ∧ ∃ hidden, Stage store (record, hidden) rows gone w'.store ∧
        (hidden = host.2 ∨ hidden = flagAfter host rows))
      (settleFlag host rows w) := by
  obtain ⟨stage, clean⟩ := at_
  have keptId : Row.id (record, host.2) = host.id := id
  have filed : host.id ∈ w.store.conversations.records := by
    apply KeyMap.mem_of_lookup (v := record)
    rw [stage.conversation, if_pos keptId.symm]
  have flag : host.id ∈ w.store.conversations.tombstoned ↔ host.2 = true := by
    rw [stage.hidden, if_pos keptId.symm]
  have writes : ∀ (hidden : Bool) (conversations : Table ConversationRecord ConversationRecord.conversationId),
      conversations.records = w.store.conversations.records →
      (∀ other, other ∈ conversations.tombstoned ↔
        if other = host.id then hidden = true else other ∈ w.store.conversations.tombstoned) →
      Ends (fun _ w' => At store (record, hidden) rows gone faultless w')
        (fun w' => ¬ faultless ∧ ∃ other, Stage store (record, other) rows gone w'.store ∧
          (other = host.2 ∨ other = hidden))
        (commit { w.store with conversations := conversations } w) := by
    intro hidden conversations records flags
    have written : Stage store (record, hidden) rows gone
        { w.store with conversations := conversations } := by
      apply stage.flagged records
      intro other
      rw [keptId]
      exact flags other
    apply Ends.mono (commit_ends _ w)
    · rintro _ w' ⟨stored, still⟩
      refine ⟨?_, fun holds => still (clean holds)⟩
      rw [stored]
      exact written
    · rintro w' ⟨faulty, stored⟩
      refine ⟨fun holds => faulty (clean holds), ?_⟩
      rcases stored with same | same
      · exact ⟨host.2, by rw [same]; exact stage, .inl rfl⟩
      · exact ⟨hidden, by rw [same]; exact written, .inr rfl⟩
  unfold settleFlag flagAfter
  cases blocked host rows with
  | true =>
    simp only [if_true]
    show Ends _ _ (tombstoneConversation host.id w)
    unfold tombstoneConversation
    split
    case isTrue still =>
      have hides : host.2 = true := by
        rcases still with absent | flagged
        · exact absurd filed absent
        · exact flag.mp flagged
      rw [hides] at stage
      exact ⟨stage, clean⟩
    · refine writes true _ rfl ?_
      intro other
      show other ∈ insert host.id w.store.conversations.tombstoned ↔ _
      rw [Finset.mem_insert]
      by_cases same : other = host.id
      · simp [same]
      · simp [same]
  | false =>
    simp only [Bool.false_eq_true, if_false]
    cases anyVisible host rows with
    | true =>
      simp only [if_true]
      show Ends _ _ (untombstoneConversation host.id w)
      unfold untombstoneConversation
      split
      · refine writes false _ rfl ?_
        intro other
        show other ∈ w.store.conversations.tombstoned.erase host.id ↔ _
        rw [Finset.mem_erase]
        by_cases same : other = host.id
        · simp [same]
        · simp [same]
      case isFalse shown =>
        have shows_ : host.2 = false := by
          rw [flag] at shown
          simpa using shown
        rw [shows_] at stage
        exact ⟨stage, clean⟩
    | false => exact ⟨stage, clean⟩

/-- Where a merge that failed left the store: untouched, or with the kept row written, the first
    rows dropped, and perhaps the flag set behind the last. -/
def LeftAt (store : TransportStore) (host : Row) (rows : List Row) (half : TransportStore) : Prop :=
  half = store ∨ ∃ gone rest hidden, rows = gone ++ rest ∧
    Stage store (store.mergedHost host.1 rows, hidden) rows gone half ∧
      (hidden = host.2 ∨ rest = [] ∧ hidden = flagAfter host rows)

theorem upsertConversation_ends {fault : Option (Nat × Bool)} {record : ConversationRecord} {host : Row}
    (id : record.conversationId = host.id)
    (hidden : host.2 = decide (host.id ∈ store.conversations.tombstoned)) :
    Ends (fun _ w' => At store (record, host.2) rows [] (fault = none) w')
      (fun w' => fault ≠ none ∧ (w'.store = store ∨ Stage store (record, host.2) rows [] w'.store))
      (upsertConversation record ⟨store, fault⟩) := by
  have keptId : Row.id (record, host.2) = host.id := id
  have flags : ∀ other, other ∈ store.conversations.tombstoned ↔
      if other = host.id then host.2 = true
      else other ∈ store.conversations.tombstoned ∧ other ∉ ([] : List Row).map Row.id := by
    intro other
    split
    case isTrue same => rw [same, hidden, decide_eq_true_eq]
    · simp
  unfold upsertConversation
  split
  case isTrue same =>
    refine ⟨⟨?_, ?_, fun _ => .inl rfl, fun _ _ _ => by simp⟩, fun faultless => faultless⟩
    · intro other
      rw [keptId]
      split
      case isTrue named => rw [named, ← id]; exact same
      · rfl
    · rw [keptId]
      exact flags
  · have written : Stage store (record, host.2) rows []
        { store with conversations := store.conversations.insert record } := by
      refine ⟨?_, ?_, fun _ => .inl rfl, fun _ _ _ => by simp⟩
      · intro other
        rw [keptId, ← id]
        show (store.conversations.records.insert record.conversationId record).lookup other = _
        by_cases named : other = record.conversationId
        · rw [named, if_pos rfl, AList.lookup_insert]
        · rw [if_neg named, AList.lookup_insert_ne named]
          rfl
      · rw [keptId]
        exact flags
    apply Ends.mono (commit_ends _ _)
    · rintro _ w' ⟨stored, still⟩
      refine ⟨?_, still⟩
      rw [stored]
      exact written
    · rintro w' ⟨faulty, stored⟩
      refine ⟨faulty, ?_⟩
      rcases stored with same | same
      · exact .inl same
      · rw [same]
        exact .inr written

/-- The writes of a merge, whichever of them fails. -/
theorem foldInto_ends {address : String} {host : Row} {fault : Option (Nat × Bool)}
    (split : store.contactRows address = rows ++ [host]) :
    Ends (fun _ w' => Stage store (store.mergedHost host.1 rows, flagAfter host rows) rows rows w'.store)
      (fun w' => fault ≠ none ∧ LeftAt store host rows w'.store)
      (foldInto store host rows ⟨store, fault⟩) := by
  obtain ⟨others, hostIn, nodup⟩ := contactRows_split split
  have kept := kept_mergedHost store host rows
  have keptId : Row.id (store.mergedHost host.1 rows, host.2) = host.id := kept.id
  have apart : ∀ row ∈ rows, row.id ≠ host.id := fun row member => (others row member).2.1
  have stays : ∀ gone rest, rows = gone ++ rest → host.id ∉ gone.map Row.id := by
    intro gone rest shape among
    obtain ⟨row, member, same⟩ := List.mem_map.mp among
    exact apart row (by rw [shape]; exact List.mem_append_left _ member) same
  unfold foldInto
  apply Ends.bind (Ends.mono (upsertConversation_ends kept.id (mem_contactRows.mp hostIn).2.2)
    (fun _ _ h => h) _)
  · intro _ w start
    apply @Ends.bind _ _ _ _ (fun _ w' =>
      At store (store.mergedHost host.1 rows, host.2) rows rows (fault = none) w')
    · apply @Ends.foldlM _ _ _ _ _ _ (fun gone _ w' =>
        At store (store.mergedHost host.1 rows, host.2) rows gone (fault = none) w') rows _ _ _ start
      intro gone row rest report w' shape here
      have member : row ∈ rows := by
        rw [shape]
        simp
      have ungone : row.id ∉ gone.map Row.id := by
        intro among
        obtain ⟨other, early, same⟩ := List.mem_map.mp among
        have otherIn : other ∈ rows := by
          rw [shape]
          exact List.mem_append_left _ early
        have equal := contactRows_ext (others other otherIn).1 (others row member).1 same
        rw [shape] at nodup
        exact (List.nodup_append.mp nodup).2.2 other early row (by simp) equal
      have folds := foldRow_ends here member (by rw [keptId]; exact apart row member)
        (mem_contactRows.mp (others row member).1).1 ungone
        (by rw [keptId]; exact stays gone (row :: rest) shape) report
      rw [keptId] at folds
      apply Ends.mono folds (fun _ _ h => h)
      rintro w'' ⟨faulty, stage | stage⟩
      · exact ⟨faulty, .inr ⟨gone, row :: rest, host.2, shape, stage, .inl rfl⟩⟩
      · exact ⟨faulty, .inr ⟨gone ++ [row], rest, host.2, by rw [shape]; simp, stage, .inl rfl⟩⟩
    · intro report w' folded
      apply Ends.bind (Ends.mono (settleFlag_ends kept.id folded) (fun _ _ h => h) _)
      · intro _ w'' settled
        exact settled.1
      · rintro w'' ⟨faulty, hidden, stage, flag⟩
        refine ⟨faulty, .inr ⟨rows, [], hidden, (List.append_nil _).symm, stage, ?_⟩⟩
        rcases flag with before | after
        · exact .inl before
        · exact .inr ⟨rfl, after⟩
  · rintro w' ⟨faulty, same | stage⟩
    · exact ⟨faulty, .inl same⟩
    · exact ⟨faulty, .inr ⟨[], rows, host.2, rfl, stage, .inl rfl⟩⟩

/-- A merge that has rows to fold. -/
theorem mergeContact_ends {address : String} {host : Row} {fault : Option (Nat × Bool)}
    (named : address ≠ "") (split : store.contactRows address = rows ++ [host]) (several : rows ≠ []) :
    Ends (fun _ w' => Stage store (store.mergedHost host.1 rows, flagAfter host rows) rows rows w'.store)
      (fun w' => fault ≠ none ∧ LeftAt store host rows w'.store) (mergeContact address ⟨store, fault⟩) := by
  unfold mergeContact
  apply @Ends.bind _ _ _ _ (fun read w' => read = ⟨store, fault⟩ ∧ w' = ⟨store, fault⟩) _ _ get _
    (⟨store, fault⟩ : World) ⟨rfl, rfl⟩
  rintro _ _ ⟨rfl, rfl⟩
  have many : ¬ (address = "" ∨ (store.contactRows address).length < 2) := by
    have positive := List.length_pos_of_ne_nil several
    rw [split, List.length_append, List.length_singleton]
    simp only [named, false_or]
    omega
  simp only
  rw [if_neg many, split, List.getLast?_concat]
  simp only [List.dropLast_concat]
  apply Ends.bind (foldInto_ends split)
  exact fun _ _ complete => complete

end Run

end Kaspaverse.Transport
