import Kaspaverse.Transport.Converge
import Kaspaverse.Transport.Lookup

namespace Kaspaverse.Transport.TransportStore

variable {store : TransportStore} {row kept : ConversationRecord} {m record : MessageRecord}
  {id other txid address : String}

theorem mem_listConversations : row ∈ store.listConversations ↔
    store.conversation row.conversationId = some row := by
  unfold listConversations conversation
  rw [KeyMap.mem_values_iff]
  constructor
  · rintro ⟨key, found⟩
    have filed := store.conversations.filed key row found
    rw [filed]
    exact found
  · exact fun found => ⟨_, found⟩

theorem conversation_id (found : store.conversation id = some row) : row.conversationId = id :=
  store.conversations.filed id row found

theorem message_txid (found : store.message txid = some m) : m.txid = txid :=
  store.messages.filed txid m found

theorem mem_conversations : id ∈ store.conversations.records ↔ ∃ row, store.conversation id = some row :=
  KeyMap.mem_iff_lookup

theorem mem_messages : txid ∈ store.messages.records ↔ ∃ m, store.message txid = some m :=
  KeyMap.mem_iff_lookup

theorem mem_messagesFor : m ∈ store.messagesFor id ↔ store.message m.txid = some m ∧ m.conversationId = id := by
  unfold messagesFor message
  rw [List.mem_filter, KeyMap.mem_values_iff, decide_eq_true_iff]
  constructor
  · rintro ⟨⟨key, found⟩, filed⟩
    have named := store.messages.filed key m found
    rw [named]
    exact ⟨found, filed⟩
  · exact fun ⟨found, filed⟩ => ⟨⟨_, found⟩, filed⟩

section Lookups

theorem conversationByAlias_some {alias_ : String} (found : store.conversationByAlias alias_ = some row) :
    store.conversation row.conversationId = some row ∧ answers alias_ row = true := by
  obtain ⟨listed, answering⟩ := List.mem_filter.mp (List.argmax_mem found)
  exact ⟨mem_listConversations.mp listed, answering⟩

theorem conversationByAlias_none {alias_ : String} (missing : store.conversationByAlias alias_ = none)
    (found : store.conversation id = some row) : answers alias_ row = false := by
  have empty := List.argmax_eq_none.mp missing
  have listed : row ∈ store.listConversations := by
    rw [mem_listConversations, conversation_id found]
    exact found
  rw [List.filter_eq_nil_iff] at empty
  simpa using empty row listed

theorem conversationByContactAddress_some (found : store.conversationByContactAddress address = some row) :
    store.conversation row.conversationId = some row ∧ row.contactAddress = address ∧ address ≠ "" := by
  unfold conversationByContactAddress at found
  split at found
  · cases found
  case isFalse named =>
    obtain ⟨listed, same⟩ := List.mem_filter.mp (List.argmax_mem found)
    exact ⟨mem_listConversations.mp listed, of_decide_eq_true same, named⟩

theorem mem_conversationsForContactAddress : row ∈ store.conversationsForContactAddress address ↔
    store.conversation row.conversationId = some row ∧ row.contactAddress = address ∧ address ≠ "" := by
  unfold conversationsForContactAddress
  split
  case isTrue blank =>
    constructor
    · intro member
      cases member
    · exact fun held => absurd blank held.2.2
  case isFalse named =>
    rw [List.mem_filter, mem_listConversations, decide_eq_true_iff]
    exact ⟨fun held => ⟨held.1, held.2, named⟩, fun held => ⟨held.1, held.2.1⟩⟩

theorem conversationAwaitingResponse_some {echoed : String}
    (found : store.conversationAwaitingResponse echoed = some row) :
    store.conversation row.conversationId = some row ∧ row.status = .pendingOutbound := by
  obtain ⟨listed, waiting⟩ := List.mem_filter.mp (List.argmax_mem found)
  exact ⟨mem_listConversations.mp listed, (of_decide_eq_true waiting).1⟩

end Lookups

section Writes

theorem conversation_put (store : TransportStore) (row : ConversationRecord) (id : String) :
    (store.put row).conversation id = if id = row.conversationId then some row else store.conversation id := by
  unfold conversation put Table.insert
  split
  case isTrue same => rw [same, AList.lookup_insert]
  case isFalse apart => exact AList.lookup_insert_ne apart

theorem put_there (store : TransportStore) (row : ConversationRecord) :
    (store.put row).conversation row.conversationId = some row :=
  (conversation_put store row _).trans (if_pos rfl)

@[simp] theorem message_put (store : TransportStore) (row : ConversationRecord) (txid : String) :
    (store.put row).message txid = store.message txid := rfl

@[simp] theorem isHidden_put (store : TransportStore) (row : ConversationRecord) (id : String) :
    (store.put row).isHidden id = store.isHidden id := rfl

theorem conversation_drop (store : TransportStore) (gone id : String) :
    (store.drop gone).conversation id = if id = gone then none else store.conversation id := by
  unfold conversation drop Table.erase
  split
  case isTrue same => rw [same, AList.lookup_erase]
  case isFalse apart => exact AList.lookup_erase_ne apart

@[simp] theorem message_drop (store : TransportStore) (gone txid : String) :
    (store.drop gone).message txid = store.message txid := rfl

theorem isHidden_drop (store : TransportStore) (gone id : String) :
    (store.drop gone).isHidden id = (decide (id ≠ gone) && store.isHidden id) := by
  unfold isHidden drop Table.erase
  simp [Finset.mem_erase]

@[simp] theorem conversation_conceal (store : TransportStore) (gone id : String) :
    (store.conceal gone).conversation id = store.conversation id := by
  unfold conceal
  split <;> rfl

@[simp] theorem message_conceal (store : TransportStore) (gone txid : String) :
    (store.conceal gone).message txid = store.message txid := by
  unfold conceal
  split <;> rfl

theorem isHidden_conceal (store : TransportStore) (gone id : String) :
    (store.conceal gone).isHidden id =
      (store.isHidden id || decide (id = gone ∧ gone ∈ store.conversations.records)) := by
  unfold conceal
  by_cases held : gone ∈ store.conversations.records
  · rw [if_pos held]
    unfold isHidden Table.flag
    by_cases same : id = gone <;> simp [Finset.mem_insert, held, same]
  · rw [if_neg held]
    simp [held]

@[simp] theorem conversation_reveal (store : TransportStore) (shown id : String) :
    (store.reveal shown).conversation id = store.conversation id := rfl

@[simp] theorem message_reveal (store : TransportStore) (shown txid : String) :
    (store.reveal shown).message txid = store.message txid := rfl

theorem isHidden_reveal (store : TransportStore) (shown id : String) :
    (store.reveal shown).isHidden id = (decide (id ≠ shown) && store.isHidden id) := by
  unfold isHidden reveal Table.unflag
  simp [Finset.mem_erase]

theorem insert_message (store : TransportStore) (record : MessageRecord) (txid : String) :
    (({ store with messages := store.messages.insert record } : TransportStore).message txid) =
      if txid = record.txid then some record else store.message txid := by
  unfold message Table.insert
  split
  case isTrue same => rw [same, AList.lookup_insert]
  case isFalse apart => exact AList.lookup_insert_ne apart

@[simp] theorem conversation_recordMessage (store : TransportStore) (record : MessageRecord) (id : String) :
    (store.recordMessage record).conversation id = store.conversation id := by
  unfold recordMessage
  split <;> rfl

@[simp] theorem isHidden_recordMessage (store : TransportStore) (record : MessageRecord) (id : String) :
    (store.recordMessage record).isHidden id = store.isHidden id := by
  unfold recordMessage
  split <;> rfl

theorem message_recordMessage (store : TransportStore) (record : MessageRecord) (txid : String) :
    (store.recordMessage record).message txid =
      if txid = record.txid ∧ store.message txid = none then some record else store.message txid := by
  unfold recordMessage
  by_cases held : record.txid ∈ store.messages.records
  · rw [if_pos held, if_neg]
    rintro ⟨rfl, missing⟩
    obtain ⟨m, found⟩ := mem_messages.mp held
    rw [found] at missing
    cases missing
  · have missing : store.message record.txid = none := by
      rw [← Option.not_isSome_iff_eq_none, Option.isSome_iff_exists]
      exact fun found => held (mem_messages.mpr found)
    rw [if_neg held, insert_message]
    by_cases same : txid = record.txid
    · rw [if_pos same, if_pos ⟨same, same ▸ missing⟩]
    · rw [if_neg same, if_neg (fun both => same both.1)]

@[simp] theorem conversation_overrideMessage (store : TransportStore) (record : MessageRecord) (id : String) :
    (store.overrideMessage record).conversation id = store.conversation id := by
  unfold overrideMessage
  split <;> rfl

@[simp] theorem isHidden_overrideMessage (store : TransportStore) (record : MessageRecord) (id : String) :
    (store.overrideMessage record).isHidden id = store.isHidden id := by
  unfold overrideMessage
  split <;> rfl

theorem message_overrideMessage (store : TransportStore) (record : MessageRecord) (txid : String) :
    (store.overrideMessage record).message txid =
      if txid = record.txid ∧ store.overrides record = true then some record else store.message txid := by
  unfold overrideMessage
  by_cases wins : store.overrides record = true
  · rw [if_pos wins, insert_message]
    simp only [wins, and_true]
  · rw [if_neg wins, if_neg fun both => wins both.2]

theorem message_removeMessage (store : TransportStore) (gone txid : String) :
    (store.removeMessage gone).message txid = if txid = gone then none else store.message txid := by
  unfold message removeMessage Table.erase
  split
  case isTrue same => rw [same, AList.lookup_erase]
  case isFalse apart => exact AList.lookup_erase_ne apart

theorem message_removeMessages (store : TransportStore) (gone : List String) (txid : String) :
    (store.removeMessages gone).message txid = if txid ∈ gone then none else store.message txid := by
  unfold removeMessages
  induction gone generalizing store with
  | nil => simp
  | cons first rest ih =>
    rw [List.foldl_cons, ih, message_removeMessage]
    by_cases later : txid ∈ rest
    · simp [later]
    · by_cases same : txid = first <;> simp [later, same]

@[simp] theorem conversation_removeMessages (store : TransportStore) (gone : List String) (id : String) :
    (store.removeMessages gone).conversation id = store.conversation id := by
  unfold removeMessages
  induction gone generalizing store with
  | nil => rfl
  | cons first rest ih => rw [List.foldl_cons, ih]; rfl

@[simp] theorem isHidden_removeMessages (store : TransportStore) (gone : List String) (id : String) :
    (store.removeMessages gone).isHidden id = store.isHidden id := by
  unfold removeMessages
  induction gone generalizing store with
  | nil => rfl
  | cons first rest ih => rw [List.foldl_cons, ih]; rfl

@[simp] theorem conversation_emptied (id : String) : emptied.conversation id = none := rfl

@[simp] theorem message_emptied (txid : String) : emptied.message txid = none := rfl

end Writes

section Merging

open Interrupted

/-- A merge with rows to fold names the row it keeps. -/
theorem mergeContact_names {rows : List Row} {host : Row} (named : address ≠ "")
    (split : store.contactRows address = rows ++ [host]) (several : rows ≠ []) :
    Ends (fun out _ => out.map Prod.fst = some host.id) (fun _ => True) (mergeContact address ⟨store, none⟩) := by
  have many : ¬ (address = "" ∨ (store.contactRows address).length < 2) := by
    have positive := List.length_pos_of_ne_nil several
    rw [split, List.length_append, List.length_singleton]
    simp only [named, false_or]
    omega
  unfold mergeContact
  apply @Ends.bind _ _ _ _ (fun read w' => read = ⟨store, none⟩ ∧ w' = ⟨store, none⟩) _ _ get _
    (⟨store, none⟩ : World) ⟨rfl, rfl⟩
  rintro _ _ ⟨rfl, rfl⟩
  simp only
  rw [if_neg many, split, List.getLast?_concat]
  have ends : ∀ w, Ends (fun (out : String × ContactMergeReport) _ => out.1 = host.id) (fun _ => True)
      (foldInto store host (rows ++ [host]).dropLast w) := by
    intro w
    unfold foldInto
    refine Ends.bind (Ends.any _) fun _ _ _ => ?_
    refine Ends.bind (Ends.any _) fun _ _ _ => ?_
    refine Ends.bind (Ends.any _) fun _ _ _ => ?_
    exact Ends.pure rfl
  apply Ends.bind (ends _)
  exact fun _ _ same => congrArg some same

/-- What a merge that folds leaves, every write landing. -/
structure Merged (store full : TransportStore) (address : String) (host : Row) (rows : List Row) : Prop where
  named : address ≠ ""
  split : store.contactRows address = rows ++ [host]
  several : rows ≠ []
  stage : Stage store (store.mergedHost host.1 rows, flagAfter host rows) rows rows full

section Merged

variable {full : TransportStore} {host member : Row} {rows : List Row}

theorem Merged.listed (merged : Merged store full address host rows) (held : member ∈ rows ++ [host]) :
    store.conversation member.id = some member.1 ∧ member.1.contactAddress = address ∧
      member.2 = store.isHidden member.id := by
  have listed : member ∈ store.contactRows address := by
    rw [merged.split]
    exact held
  exact mem_contactRows.mp listed

theorem Merged.best (merged : Merged store full address host rows) :
    store.conversation host.id = some host.1 ∧ host.1.contactAddress = address ∧
      host.2 = store.isHidden host.id := merged.listed (List.mem_append_right _ List.mem_cons_self)

theorem Merged.folded (merged : Merged store full address host rows) (gone : id ∈ rows.map Row.id) :
    ∃ row, store.conversation id = some row ∧ row.contactAddress = address ∧ id ≠ host.id := by
  obtain ⟨member, held, rfl⟩ := List.mem_map.mp gone
  obtain ⟨found, named, _⟩ := merged.listed (List.mem_append_left _ held)
  exact ⟨member.1, found, named, ((contactRows_split merged.split).1 member held).2.1⟩

theorem Merged.conversation_cases (merged : Merged store full address host rows)
    (found : full.conversation id = some row) :
    id = host.id ∧ row = store.mergedHost host.1 rows ∨
      id ≠ host.id ∧ id ∉ rows.map Row.id ∧ store.conversation id = some row := by
  have named : Row.id (store.mergedHost host.1 rows, flagAfter host rows) = host.id :=
    (kept_mergedHost store host rows).id
  have after := merged.stage.conversation id
  rw [named] at after
  unfold conversation at found
  rw [after] at found
  split at found
  case isTrue same =>
    cases found
    exact .inl ⟨same, rfl⟩
  case isFalse apart =>
    split at found
    · cases found
    case isFalse stays => exact .inr ⟨apart, stays, found⟩

theorem Merged.keeps (merged : Merged store full address host rows) :
    full.conversation host.id = some (store.mergedHost host.1 rows) := by
  have named : Row.id (store.mergedHost host.1 rows, flagAfter host rows) = host.id :=
    (kept_mergedHost store host rows).id
  have after := merged.stage.conversation host.id
  rw [named, if_pos rfl] at after
  exact after

theorem Merged.stays (merged : Merged store full address host rows) (found : store.conversation id = some row)
    (apart : id ≠ host.id) (stays : id ∉ rows.map Row.id) : full.conversation id = some row := by
  have named : Row.id (store.mergedHost host.1 rows, flagAfter host rows) = host.id :=
    (kept_mergedHost store host rows).id
  have after := merged.stage.conversation id
  rw [named, if_neg apart, if_neg stays] at after
  exact after.trans found

theorem Merged.isHidden_cases (merged : Merged store full address host rows) (hidden : full.isHidden id = true) :
    id = host.id ∧ flagAfter host rows = true ∨
      id ≠ host.id ∧ id ∉ rows.map Row.id ∧ store.isHidden id = true := by
  have named : Row.id (store.mergedHost host.1 rows, flagAfter host rows) = host.id :=
    (kept_mergedHost store host rows).id
  have after := (merged.stage.hidden id).mp (of_decide_eq_true hidden)
  rw [named] at after
  split at after
  case isTrue same => exact .inl ⟨same, after⟩
  case isFalse apart => exact .inr ⟨apart, after.2, decide_eq_true after.1⟩

theorem Merged.isHidden_host (merged : Merged store full address host rows) :
    full.isHidden host.id = flagAfter host rows := by
  have named : Row.id (store.mergedHost host.1 rows, flagAfter host rows) = host.id :=
    (kept_mergedHost store host rows).id
  have after := merged.stage.hidden host.id
  rw [named, if_pos rfl] at after
  exact decide_eq_of_iff after

theorem Merged.isHidden_stays (merged : Merged store full address host rows) (hidden : store.isHidden id = true)
    (apart : id ≠ host.id) (stays : id ∉ rows.map Row.id) : full.isHidden id = true := by
  have named : Row.id (store.mergedHost host.1 rows, flagAfter host rows) = host.id :=
    (kept_mergedHost store host rows).id
  have after := merged.stage.hidden id
  rw [named, if_neg apart] at after
  exact decide_eq_true (after.mpr ⟨of_decide_eq_true hidden, stays⟩)

theorem Merged.message_cases (merged : Merged store full address host rows) (found : full.message txid = some m) :
    ∃ before, store.message txid = some before ∧
      (m = before ∧ before.conversationId ∉ rows.map Row.id ∨
        before.conversationId ∈ rows.map Row.id ∧ m = { before with conversationId := host.id }) := by
  have named : Row.id (store.mergedHost host.1 rows, flagAfter host rows) = host.id :=
    (kept_mergedHost store host rows).id
  rcases merged.stage.message txid with same | ⟨before, held, moved, after⟩
  · exact ⟨m, same.symm.trans found, .inl ⟨rfl, merged.stage.swept txid m found⟩⟩
  · rw [named] at after
    exact ⟨before, held, .inr ⟨moved, Option.some.inj (found.symm.trans after)⟩⟩

end Merged

/-- A merge folds nothing, or all of an address's rows into the best of them. -/
theorem merge_cases (store : TransportStore) (address : String) :
    store.merge address = (store, none) ∨ ∃ host rows,
      Merged store (store.merge address).1 address host rows ∧ (store.merge address).2 = some host.id := by
  by_cases short : address = "" ∨ (store.contactRows address).length < 2
  · left
    unfold merge
    rw [mergeContact_short short]
    rfl
  · right
    obtain ⟨named, rows, host, split, several⟩ := contactRows_two short
    obtain ⟨out, full, fault, whole, stage⟩ := mergeContact_whole named split several
    have names := mergeContact_names named split several
    rw [whole] at names
    refine ⟨host, rows, ⟨named, split, several, ?_⟩, ?_⟩
    · unfold merge
      rw [whole]
      exact stage
    · unfold merge
      rw [whole]
      exact names

theorem mergeAll_keeps {inv : TransportStore → Prop}
    (keeps : ∀ store address, inv store → inv (store.merge address).1) (start : inv store) :
    inv store.mergeAll := by
  have all : ∀ (addresses : List String) store, inv store →
      inv (addresses.foldl (fun store address => (store.merge address).1) store) := by
    intro addresses
    induction addresses with
    | nil => exact fun _ holds => holds
    | cons address rest ih =>
      intro store holds
      exact ih _ (keeps store address holds)
  exact all _ _ start

end Merging

end Kaspaverse.Transport.TransportStore
