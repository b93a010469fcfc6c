import Kaspaverse.Transport.HubWrites

namespace Kaspaverse.Transport.Hub

open Relation (ReflTransGen)

variable {chain : Chain} {s : Hub} {act : Act} {o : Oracle} {f : Filing} {id txid sender : String}
  {row : ConversationRecord}

section Stores

theorem unhide_writes (id : String) :
    Writes chain s act o f { f with store := f.store.unhideOnInbound id } := by
  unfold TransportStore.unhideOnInbound
  cases found : f.store.conversation id with
  | none => exact .refl
  | some row =>
    simp only
    split
    case isTrue shows =>
      obtain ⟨_, contact⟩ := Bool.and_eq_true_iff.mp shows
      have named := TransportStore.conversation_id found
      subst named
      exact .single (.reveal found (of_decide_eq_true contact))
    case isFalse => exact .refl

@[simp] theorem conversation_unhide (store : TransportStore) (shown id : String) :
    (store.unhideOnInbound shown).conversation id = store.conversation id := by
  unfold TransportStore.unhideOnInbound
  split
  · rfl
  · split <;> rfl

@[simp] theorem message_unhide (store : TransportStore) (shown txid : String) :
    (store.unhideOnInbound shown).message txid = store.message txid := by
  unfold TransportStore.unhideOnInbound
  split
  · rfl
  · split <;> rfl

theorem isHidden_unhide (store : TransportStore) (shown id : String) :
    (store.unhideOnInbound shown).isHidden id = true → store.isHidden id = true := by
  unfold TransportStore.unhideOnInbound
  split
  · exact fun hidden => hidden
  · split
    · rw [TransportStore.isHidden_reveal]
      exact fun hidden => (Bool.and_eq_true_iff.mp hidden).2
    · exact fun hidden => hidden

theorem unhide_standing {store : TransportStore} {status : ConversationStatus}
    (standing : commIsDismissed status (store.isHidden id) = false) (shown : String) :
    commIsDismissed status ((store.unhideOnInbound shown).isHidden id) = false := by
  unfold commIsDismissed at *
  cases hidden : (store.unhideOnInbound shown).isHidden id with
  | false => rfl
  | true =>
    rw [isHidden_unhide store shown id hidden] at standing
    exact standing

theorem touch_writes (id : String) (now : Nat) :
    Writes chain s act o f { f with store := f.store.touch id now } := by
  unfold TransportStore.touch
  cases found : f.store.conversation id with
  | none => exact .refl
  | some row =>
    have named := TransportStore.conversation_id found
    subst named
    exact .single (.put (.touch _ found))

theorem lifted_writes (id : String) (now : Nat) :
    Writes chain s act o f { f with store := f.store.lifted id now } :=
  (unhide_writes id).trans (touch_writes (f := { f with store := f.store.unhideOnInbound id }) id now)

theorem merge_writes (address : String) :
    Writes chain s act o f { f with store := (f.store.merge address).1 } := .single (.merge address)

theorem mergeAll_writes : Writes chain s act o f { f with store := f.store.mergeAll } := by
  have keeps : ∀ store address, Writes chain s act o f { f with store := store } →
      Writes chain s act o f { f with store := (store.merge address).1 } :=
    fun store address writes => writes.tail (.merge address)
  exact TransportStore.mergeAll_keeps keeps .refl

theorem remove_writes (txids : List String) :
    Writes chain s act o f { f with store := f.store.removeMessages txids } := .single (.remove txids)

theorem removed_empty {store : TransportStore} {m : MessageRecord}
    (found : (store.removeMessages ((store.messagesFor id).map MessageRecord.txid)).message txid = some m) :
    m.conversationId ≠ id := by
  rw [TransportStore.message_removeMessages] at found
  split at found
  · cases found
  case isFalse kept =>
    rintro rfl
    have named := TransportStore.message_txid found
    subst named
    exact kept (List.mem_map_of_mem (TransportStore.mem_messagesFor.mpr ⟨found, rfl⟩))

theorem purgeRow_writes (known : ∀ row, f.store.conversation id = some row → row.contactAddress ≠ "") :
    Writes chain s act o f { f with store := f.store.purgeRow id } := by
  refine (remove_writes _).trans (.single (.drop ?_ ?_))
  · intro row found
    exact known row (by simpa using found)
  · exact fun txid m found => removed_empty found

theorem conversation_purgeRow (store : TransportStore) (gone id : String) :
    (store.purgeRow gone).conversation id = if id = gone then none else store.conversation id := by
  unfold TransportStore.purgeRow
  rw [TransportStore.conversation_drop, TransportStore.conversation_removeMessages]

theorem purgeRows_writes (ids : List String)
    (known : ∀ id ∈ ids, ∀ row, f.store.conversation id = some row → row.contactAddress ≠ "") :
    Writes chain s act o f { f with store := ids.foldl TransportStore.purgeRow f.store } := by
  induction ids generalizing f with
  | nil => exact .refl
  | cons id rest ih =>
    refine (purgeRow_writes (known id List.mem_cons_self)).trans (ih ?_)
    intro other member row found
    change (f.store.purgeRow id).conversation other = some row at found
    rw [conversation_purgeRow] at found
    split at found
    · cases found
    · exact known other (List.mem_cons_of_mem _ member) row found

theorem mem_purgeIds {store : TransportStore} {address : String} {keep : Bool}
    (member : id ∈ store.purgeIds address keep) :
    ∃ row, store.conversation id = some row ∧ row.contactAddress = address ∧ address ≠ "" := by
  obtain ⟨row, listed, rfl⟩ := List.mem_map.mp member
  obtain ⟨found, same, known⟩ :=
    TransportStore.mem_conversationsForContactAddress.mp (List.mem_of_mem_filter listed)
  exact ⟨row, found, same, known⟩

theorem purge_writes (address : String) (keep : Bool) :
    Writes chain s act o f { f with store := f.store.purgeContactRows address keep } := by
  apply purgeRows_writes
  intro id member row found
  obtain ⟨listed, there, same, known⟩ := mem_purgeIds member
  rw [found] at there
  cases there
  rw [same]
  exact known

theorem hide_writes (id : String) :
    Writes chain s (.hide id) o f { f with store := f.store.hideRows id } :=
  (remove_writes _).trans (.single (.conceal rfl fun _ _ found => removed_empty found))

end Stores

section Recording

theorem recordMessage_stored {store : TransportStore} {m held : MessageRecord}
    (found : store.message m.txid = some held) : store.recordMessage m = store := by
  unfold TransportStore.recordMessage
  exact if_pos (TransportStore.mem_messages.mpr ⟨held, found⟩)

theorem file_writes {m : MessageRecord} (licence : Files chain s act o f.store m) :
    Writes chain s act o f { f with store := f.store.recordMessage m } := by
  cases absent : f.store.message m.txid with
  | none => exact .single (.file absent licence)
  | some held =>
    rw [recordMessage_stored absent]

theorem message_absent {store : TransportStore} (missing : txid ∉ store.messages.records) :
    store.message txid = none := by
  cases found : store.message txid with
  | none => rfl
  | some m => exact absurd (TransportStore.mem_messages.mpr ⟨m, found⟩) missing

/-- What the row of a parked comm must meet, and keeps while comms are filed in it. -/
structure Hosts (chain : Chain) (s : Hub) (act : Act) (row : ConversationRecord) (sender : String)
    (store : TransportStore) : Prop where
  found : store.conversation row.conversationId = some row
  contact : row.contactAddress = sender
  known : sender ≠ ""
  free : s.isBlocked sender = false
  standing : s.Standing row store

theorem Hosts.recordMessage {store : TransportStore} (hosts : Hosts chain s act row sender store)
    (m : MessageRecord) : Hosts chain s act row sender (store.recordMessage m) :=
  ⟨(TransportStore.conversation_recordMessage store m _).trans hosts.found, hosts.contact, hosts.known,
    hosts.free, by unfold Hub.Standing; rw [TransportStore.isHidden_recordMessage]; exact hosts.standing⟩

/-- Where a parked comm comes from, and that its sender is the true one. -/
def Proven (chain : Chain) (s : Hub) (act : Act) (id sender : String) (entry : String × ParkedComm) : Prop :=
  sender = chain.sender entry.1 ∧
    ((∃ rows, act = .releaseFile id sender rows ∧ entry ∈ rows) ∨
      ∃ first parked, act = .adoptFold first parked ∧ (entry = (first, parked) ∨ entry ∈ s.comms.entries))

theorem recordParked_writes {h : Hub} {entry : String × ParkedComm} (bound : KeySlot) (now : Nat)
    (hosts : Hosts chain s act row sender h.store) (proven : Proven chain s act row.conversationId sender entry) :
    Writes chain s act o h.filing (recordParked row.conversationId sender bound now h entry).filing ∧
      Hosts chain s act row sender (recordParked row.conversationId sender bound now h entry).store := by
  unfold recordParked
  split
  · exact ⟨.refl, hosts⟩
  case isFalse missing =>
    refine ⟨.single (.enter (message_absent missing) ?_), hosts.recordMessage _⟩
    exact .parked bound now rfl proven.2 proven.1 hosts.found hosts.contact hosts.known hosts.free hosts.standing

theorem recordParkedRows_writes {h : Hub} (bound : KeySlot) (rows : List (String × ParkedComm)) (now : Nat)
    (hosts : Hosts chain s act row sender h.store)
    (proven : ∀ entry ∈ rows, Proven chain s act row.conversationId sender entry) :
    Writes chain s act o h.filing (h.recordParkedRows row.conversationId sender bound rows now).filing := by
  have all : ∀ (rows : List (String × ParkedComm)) (h : Hub), Hosts chain s act row sender h.store →
      (∀ entry ∈ rows, Proven chain s act row.conversationId sender entry) →
      Writes chain s act o h.filing
        (rows.foldl (recordParked row.conversationId sender bound now) h).filing := by
    intro rows
    induction rows with
    | nil => exact fun _ _ _ => .refl
    | cons entry rest ih =>
      intro h hosts proven
      obtain ⟨writes, hosts'⟩ := recordParked_writes (o := o) bound now hosts (proven entry List.mem_cons_self)
      exact writes.trans (ih _ hosts' fun other member => proven other (List.mem_cons_of_mem _ member))
  exact (all rows h hosts proven).trans (touch_writes (f := Hub.filing _) _ _)

end Recording

section Comms

variable {routed : RoutedComm} {slot : KeySlot} {envelope : List UInt8}

theorem isBlocked_of_known (known : sender ≠ "") (free : s.isBlocked sender = false) : sender ∉ s.blocked := by
  intro member
  unfold isBlocked at free
  rw [decide_eq_false_iff_not] at free
  exact free ⟨known, member⟩

theorem commSenderVerdict_contact {origin : EventOrigin} {named : Option String} {address : String}
    (verdict : commSenderVerdict origin named address = .contact) : named = some address ∧ address ≠ "" := by
  unfold commSenderVerdict at verdict
  cases named with
  | none =>
    simp only at verdict
    split at verdict <;> cases verdict
  | some sender =>
    simp only at verdict
    split at verdict
    case isTrue both => exact ⟨congrArg some both.2, both.1⟩
    case isFalse => split at verdict <;> cases verdict

theorem commSenderVerdict_awaitContact {origin : EventOrigin} {named : Option String} {address : String}
    (verdict : commSenderVerdict origin named address = .awaitContact) : origin = .node := by
  unfold commSenderVerdict at verdict
  cases named with
  | none =>
    simp only at verdict
    split at verdict <;> cases verdict
  | some sender =>
    simp only at verdict
    split at verdict
    · cases verdict
    · split at verdict
      case isTrue both => exact both.2
      case isFalse => cases verdict

/-- A comm is filed behind its decrypt for the contact its row has by then, or where that row is gone. -/
theorem commRechecked_true {origin : EventOrigin} {named : Option String} {verdict : CommSenderVerdict}
    {there : Option RoutedRow} (files : commRechecked origin named verdict there = .ok true) :
    there = none ∧ verdict = .contact ∨ ∃ row, there = some row ∧ commIsDismissed row.status row.hidden = false ∧
      row.blocked = false ∧ named = some row.contactAddress ∧ row.contactAddress ≠ "" := by
  unfold commRechecked at files
  cases there with
  | none =>
    simp only at files
    split at files
    case isTrue contact => exact .inl ⟨rfl, contact⟩
    case isFalse => cases files
  | some row =>
    simp only at files
    split at files
    · cases files
    case isFalse standing =>
      split at files
      · cases files
      case isFalse free =>
        split at files
        case h_1 contact =>
          obtain ⟨claimed, known⟩ := commSenderVerdict_contact contact
          exact .inr ⟨row, rfl, Bool.eq_false_iff.mpr standing, Bool.eq_false_iff.mpr free, claimed, known⟩
        case h_2 => cases files
        case h_3 => cases files

theorem recordComm_writes {m : MessageRecord}
    (licence : Enters chain s (.commFile routed slot envelope) s.store m (routed.comm.sender.getD "")) :
    Writes chain s (.commFile routed slot envelope) o s.filing (s.recordComm routed m).filing := by
  unfold recordComm
  dsimp only
  split
  · split
    case isTrue wins =>
      exact (ReflTransGen.single (.reenter wins licence)).trans (lifted_writes (f := ⟨_, _⟩) _ _)
    case isFalse => exact .refl
  · split
    · exact .refl
    case isFalse missing =>
      exact (ReflTransGen.single (.enter (message_absent missing) licence)).trans
        (lifted_writes (f := ⟨_, _⟩) _ _)

theorem commFile_writes (routed : RoutedComm) (slot : KeySlot) (envelope : List UInt8) :
    Writes chain s (.commFile routed slot envelope) o s.filing (s.commFile routed slot envelope o).filing := by
  unfold commFile
  dsimp only
  split
  · split <;> exact .refl
  · exact .refl
  case h_3 files =>
    apply recordComm_writes
    rcases commRechecked_true files with ⟨missing, contact⟩ | ⟨row, there, standing, free, claimed, known⟩
    · exact .orphan _ rfl rfl rfl contact rfl (Option.map_eq_none_iff.mp missing)
    · obtain ⟨record, found, rfl⟩ := Option.map_eq_some_iff.mp there
      have home := TransportStore.conversation_id found
      rw [claimed]
      refine .comm _ rfl rfl claimed found rfl known free ?_
      rw [← home]
      exact standing

theorem removeArchiveRow_writes (txid : String) :
    Writes chain s act o s.filing (s.removeArchiveRow txid).filing := by
  unfold removeArchiveRow
  split
  · exact remove_writes (f := s.filing) [txid]
  · exact .refl

end Comms

section Handshakes

variable {handshake : OpenedHandshake} {old : MessageRecord}

theorem named_writes {h : Hub} (id sender : String) (alias_ : Option String) :
    Writes chain s act o h.filing (h.named id sender alias_).1.filing := by
  unfold named
  dsimp only
  split
  · exact (remove_writes (f := h.filing) _).trans (merge_writes _)
  · exact merge_writes (f := h.filing) _

theorem handshakeOverride_writes (sound : (Act.handshakeOverride handshake old).Sound chain) :
    Writes chain s (.handshakeOverride handshake old) o s.filing
      (s.handshakeOverride chain handshake old).1.filing := by
  obtain ⟨honest, node, _⟩ := sound
  unfold handshakeOverride
  dsimp only
  split
  · exact .refl
  case isFalse stays =>
    have wins := Bool.eq_true_of_not_eq_false stays
    have first : Writes chain s (.handshakeOverride handshake old) o s.filing
        ⟨s.store.overrideMessage (handshake.row old.conversationId), s.filedFor⟩ :=
      .single (.override rfl rfl wins)
    cases found : (s.store.overrideMessage (handshake.row old.conversationId)).conversation
        old.conversationId with
    | none => exact first
    | some existing =>
      have home := TransportStore.conversation_id found
      simp only
      split
      · exact first
      case isFalse waits =>
        have waits := not_not.mp waits
        have here : (s.store.overrideMessage (handshake.row old.conversationId)).conversation
            existing.conversationId = some existing := by
          rw [home]
          exact found
        split
        · exact first.tail (.put (.refresh rfl existing.contactAddress here home.symm waits (.inl rfl)))
        case h_2 sender page =>
          split at page
          case isFalse => cases page
          case isTrue own =>
            obtain ⟨pageSender, _⟩ := Option.filter_eq_some_iff.mp page
            refine (first.tail (.put (.refresh rfl sender here home.symm waits
              (.inr ⟨own.1, own.2, honest node sender pageSender⟩)))).trans ?_
            exact named_writes (h := { s with
              store := (s.store.overrideMessage (handshake.row old.conversationId)).put _ }) _ _ _

theorem acceptanceVerdict_complete {origin : EventOrigin} {named : Option String} {address : String}
    (verdict : acceptanceVerdict origin named address = .complete) :
    origin = .node ∧ named = some address ∧ address ≠ "" := by
  unfold acceptanceVerdict at verdict
  split at verdict
  · cases verdict
  case isFalse node =>
    cases named with
    | none => cases verdict
    | some sender =>
      simp only at verdict
      split at verdict
      case isTrue both => exact ⟨not_not.mp node, congrArg some both.2, both.1⟩
      case isFalse => cases verdict

theorem refile_writes {kept : ConversationRecord} {m : MessageRecord} {id : String} {f : Filing}
    (home : kept.conversationId = id) (put : Put chain s act o (f.store.unhideOnInbound id) kept)
    (file : ∀ store : TransportStore, store.conversation id = some kept → Files chain s act o store m) :
    Writes chain s act o f
      { f with store := ((f.store.unhideOnInbound id).put kept).recordMessage m } := by
  have shown : Writes chain s act o f { f with store := (f.store.unhideOnInbound id).put kept } :=
    (unhide_writes id).tail (.put put)
  refine shown.trans (file_writes (f := ⟨_, _⟩) (file _ ?_))
  rw [TransportStore.conversation_put, home, if_pos rfl]

theorem handshakeComplete_writes (id : String)
    (sound : (Act.handshakeComplete handshake sender id).Sound chain) :
    Writes chain s (.handshakeComplete handshake sender id) o s.filing
      (s.handshakeComplete handshake sender id).filing := by
  unfold handshakeComplete
  cases found : s.store.conversation id with
  | none => exact .refl
  | some current =>
    simp only
    split
    · exact .refl
    case isFalse passes =>
      rw [not_or, not_not, not_not] at passes
      obtain ⟨waits, complete⟩ := passes
      obtain ⟨node, same, known⟩ := acceptanceVerdict_complete complete
      have home := TransportStore.conversation_id found
      subst home
      cases same
      have truly := (sound _ rfl).2
      refine refile_writes (f := s.filing) rfl ?_ ?_
      · exact .complete _ _ _ (by rw [conversation_unhide]; exact found) waits known
          (.inl ⟨handshake, rfl, rfl, rfl, truly⟩)
      · intro store there
        exact .inbound rfl rfl there (fun _ _ => truly) (.inl ⟨_, _, _, rfl, rfl⟩)

theorem handshakeContact_writes (sound : (Act.handshakeContact handshake sender).Sound chain) :
    Writes chain s (.handshakeContact handshake sender) o s.filing
      (s.handshakeContact handshake sender).1.filing := by
  unfold handshakeContact
  cases found : s.store.conversationByContactAddress sender with
  | none => exact .refl
  | some existing =>
    obtain ⟨there, same, known⟩ := TransportStore.conversationByContactAddress_some found
    have truly := (sound _ rfl).2
    subst same
    refine refile_writes (f := s.filing) rfl ?_ ?_
    · exact .contact rfl (by rw [conversation_unhide]; exact there) known truly
    · intro store kept
      exact .inbound rfl rfl kept (fun _ _ => truly) (.inr (.inl ⟨_, _, rfl, rfl⟩))

theorem handshakeInvite_writes {named : Option String} (fresh : o.freshId ∉ s.minted)
    (sound : (Act.handshakeInvite handshake named).Sound chain) :
    Writes chain s (.handshakeInvite handshake named) o s.filing
      (s.handshakeInvite handshake named o).filing := by
  unfold handshakeInvite
  split
  · exact .refl
  · have first : Writes chain s (.handshakeInvite handshake named) o s.filing
        ⟨s.store.put (invitation handshake named o.freshId), s.filedFor⟩ :=
      .single (.put (.invite rfl rfl fresh))
    have minted : (s.store.put (invitation handshake named o.freshId)).conversation o.freshId =
        some (invitation handshake named o.freshId) := TransportStore.put_there _ _
    refine first.trans (file_writes (f := ⟨_, _⟩)
      (.inbound rfl rfl minted ?_ (.inr (.inr (.inl ⟨_, _, rfl, rfl⟩)))))
    intro _ known
    cases named with
    | none => exact absurd rfl known
    | some address => exact (sound address rfl).2

theorem acceptance_writes (answer : sender = chain.sender txid) :
    Writes chain s (.acceptance txid) o s.filing (s.applyParkedAcceptance txid sender o).filing := by
  unfold applyParkedAcceptance
  cases parked : s.acceptances.find? fun e => decide (e.1 = txid) with
  | none => exact .refl
  | some entry =>
    obtain ⟨named, claim⟩ := entry
    have same : named = txid := of_decide_eq_true (List.find?_some parked :)
    subst same
    have member := List.mem_of_find?_eq_some parked
    simp only
    cases found : s.store.conversation claim.conversationId with
    | none => exact .refl
    | some existing =>
      simp only
      split
      · exact .refl
      case isFalse passes =>
        rw [not_or, not_not, not_not] at passes
        obtain ⟨waits, complete⟩ := passes
        obtain ⟨_, contact, known⟩ := acceptanceVerdict_complete complete
        have contact := Option.some.inj contact
        have truly : existing.contactAddress = chain.sender named := contact.symm.trans answer
        have home := TransportStore.conversation_id found
        refine refile_writes (f := s.filing) home ?_ ?_
        · refine .complete _ _ _ ?_ waits known (.inr ⟨named, claim, rfl, member, rfl, rfl, truly⟩)
          rw [conversation_unhide, home]
          exact found
        · intro store there
          exact .inbound rfl rfl there (fun _ _ => truly) (.inr (.inr (.inr ⟨named, claim, rfl, member, rfl⟩)))

end Handshakes

section Parked

theorem foldSiblings_writes {h : Hub} {parked : ParkedComm} (bound : KeySlot) (now : Nat)
    (hosts : Hosts chain s (.adoptFold txid parked) row sender h.store) (same : h.comms = s.comms)
    (sound : s.Sound chain) (answer : sender = chain.sender txid) :
    Writes chain s (.adoptFold txid parked) o h.filing
      (h.foldSiblings txid parked sender row.conversationId bound now).filing := by
  unfold foldSiblings
  dsimp only
  refine recordParkedRows_writes
    (h := { h with
      comms := h.comms.withoutSiblings parked.alias_
      refuted := (h.comms.strangers parked.alias_ sender).foldl RefutedTxids.note h.refuted })
    bound _ now ⟨hosts.found, hosts.contact, hosts.known, hosts.free, hosts.standing⟩ ?_
  intro entry member
  rcases List.mem_cons.mp member with rfl | sibling
  · exact ⟨answer, .inr ⟨txid, parked, rfl, .inl rfl⟩⟩
  · rw [same] at sibling
    obtain ⟨listed, both⟩ := List.mem_filter.mp sibling
    have named := (of_decide_eq_true both).2
    exact ⟨sound.parked entry listed sender named, .inr ⟨txid, parked, rfl, .inr listed⟩⟩

theorem releaseFile_writes {rows : List (String × ParkedComm)}
    (sound : (Act.releaseFile id sender rows).Sound chain) :
    Writes chain s (.releaseFile id sender rows) o s.filing (s.releaseFile id sender rows o).filing := by
  unfold releaseFile
  cases found : s.store.conversation id with
  | none => cases rows <;> exact .refl
  | some row =>
    cases rows with
    | nil => exact .refl
    | cons first rest =>
      simp only
      split
      · exact .refl
      case isFalse lands =>
        rw [not_or, not_or, Bool.not_eq_true, not_not, Bool.not_eq_true] at lands
        obtain ⟨free, contact, standing⟩ := lands
        obtain ⟨claimed, known⟩ := commSenderVerdict_contact contact
        have same := Option.some.inj claimed
        have home := TransportStore.conversation_id found
        subst home
        refine (unhide_writes (f := s.filing) row.conversationId).trans ?_
        refine recordParkedRows_writes
          (h := { s with store := s.store.unhideOnInbound row.conversationId }) _ _ o.now ?_ ?_
        · exact ⟨(conversation_unhide _ _ _).trans found, same.symm, same ▸ known, free,
            .inl (unhide_standing standing _)⟩
        · intro entry member
          obtain ⟨named, honest⟩ := sound entry member
          exact ⟨honest sender named, .inl ⟨_, rfl, member⟩⟩

theorem adoptFold_writes {parked : ParkedComm} (sound : s.Sound chain) (fresh : o.freshId ∉ s.minted)
    (answer : ∀ sender, o.sender = some sender → sender = chain.sender txid) :
    Writes chain s (.adoptFold txid parked) o s.filing (s.adoptFold chain txid parked o).1.filing := by
  unfold adoptFold
  cases named : o.sender with
  | none => exact .refl
  | some sender =>
    have truly := answer sender named
    have known : sender ≠ "" := truly ▸ chain.named txid
    simp only
    split
    · exact .refl
    split
    · exact .refl
    case isFalse unblocked =>
      have free := Bool.eq_false_iff.mpr unblocked
      cases routed : s.store.conversationByAlias parked.alias_ with
      | some row =>
        obtain ⟨found, _⟩ := TransportStore.conversationByAlias_some routed
        simp only
        split
        case h_1 contact =>
          have same := Option.some.inj (commSenderVerdict_contact contact).1
          split
          · exact .refl
          case isFalse standing =>
            refine (unhide_writes (f := s.filing) row.conversationId).trans ?_
            refine foldSiblings_writes
              (h := { s with store := s.store.unhideOnInbound row.conversationId }) _ _ ?_ rfl sound truly
            exact ⟨(conversation_unhide _ _ _).trans found, same.symm, known, free,
              .inl (unhide_standing (Bool.eq_false_iff.mpr standing) _)⟩
        · exact .refl
        · exact .refl
        · exact .refl
      | none =>
        cases held : s.store.conversationByContactAddress sender with
        | some existing =>
          obtain ⟨found, same, _⟩ := TransportStore.conversationByContactAddress_some held
          have unrouted := TransportStore.conversationByAlias_none routed found
          simp only
          split
          · exact .refl
          case isFalse fills =>
            have gap : existing.theirAlias = none := by
              cases theirs : existing.theirAlias with
              | none => rfl
              | some other =>
                rw [theirs] at fills
                have other_ : other = parked.alias_ := by simpa using fills
                unfold TransportStore.answers at unrouted
                rw [theirs, other_] at unrouted
                simp at unrouted
            have there : (s.store.unhideOnInbound existing.conversationId).conversation
                existing.conversationId = some existing := (conversation_unhide _ _ _).trans found
            have put : Writes chain s (.adoptFold txid parked) o s.filing
                ⟨(s.store.unhideOnInbound existing.conversationId).put (adopted existing parked.alias_),
                  s.filedFor⟩ :=
              (unhide_writes (f := s.filing) existing.conversationId).tail (.put (.adopt rfl there
                (same.symm ▸ known) (same.trans truly) (same.symm ▸ free) unrouted gap))
            refine put.trans ?_
            have waits : (adopted existing parked.alias_).status = .pendingInbound →
                existing.status = .pendingInbound := by
              intro waits
              by_contra other
              unfold adopted at waits
              dsimp only at waits
              split at waits
              · cases waits
              · exact other waits
            have hosts : Hosts chain s (.adoptFold txid parked) (adopted existing parked.alias_) sender
                ((s.store.unhideOnInbound existing.conversationId).put (adopted existing parked.alias_)) :=
              ⟨TransportStore.put_there _ _, same, known, free, .inr ⟨existing, found, gap, waits⟩⟩
            have folded := foldSiblings_writes (o := o)
              (h := { s with
                store := (s.store.unhideOnInbound existing.conversationId).put
                  (adopted existing parked.alias_) }) (existing.boundBranch, existing.boundIndex)
              (parked.blockTimeMs.getD o.now) hosts rfl sound truly
            exact folded
        | none =>
          simp only
          split
          · exact .refl
          · subst truly
            have put : Writes chain s (.adoptFold txid parked) o s.filing
                ⟨s.store.put (revivedConversation (chain.sender txid) parked.alias_ parked.slot
                  (parked.blockTimeMs.getD o.now) o.freshId), s.filedFor⟩ :=
              .single (.put (.revive _ rfl rfl free fresh))
            refine put.trans ?_
            have hosts : Hosts chain s (.adoptFold txid parked)
                (revivedConversation (chain.sender txid) parked.alias_ parked.slot
                  (parked.blockTimeMs.getD o.now) o.freshId) (chain.sender txid)
                (s.store.put (revivedConversation (chain.sender txid) parked.alias_ parked.slot
                  (parked.blockTimeMs.getD o.now) o.freshId)) :=
              ⟨TransportStore.put_there _ _, rfl, known, free, .inl (Bool.and_false _)⟩
            exact foldSiblings_writes
              (h := { s with
                store := s.store.put (revivedConversation (chain.sender txid) parked.alias_ parked.slot
                  (parked.blockTimeMs.getD o.now) o.freshId) }) _ _ hosts rfl sound rfl

end Parked

section Naming

theorem backfill_writes (answer : ∀ sender, o.sender = some sender → sender = chain.sender txid) :
    Writes chain s (.backfill txid) o s.filing (s.backfill chain txid o).1.filing := by
  unfold backfill
  split
  case h_1 sender row named waiting =>
    obtain ⟨answered, _⟩ := Option.filter_eq_some_iff.mp named
    obtain ⟨listed, waits⟩ := List.mem_filter.mp (List.argmax_mem waiting)
    have found := TransportStore.mem_listConversations.mp listed
    obtain ⟨nameable, _⟩ := Bool.and_eq_true_iff.mp waits
    obtain ⟨unnamed, _⟩ := Bool.and_eq_true_iff.mp nameable
    have blank := (of_decide_eq_true unnamed).2
    have put : Writes chain s (.backfill txid) o s.filing
        ⟨s.store.put { row with contactAddress := sender }, s.filedFor⟩ :=
      .single (.put (.name found blank rfl (answer sender answered)))
    exact put.trans (named_writes (h := { s with store := s.store.put _ }) _ _ _)
  · exact .refl

theorem resweepName_writes (answer : ∀ sender, o.sender = some sender → sender = chain.sender txid) :
    Writes chain s (.resweepName id txid) o s.filing (s.resweepName id o).1.filing := by
  unfold resweepName
  split
  case h_1 sender row named found =>
    split
    · exact .refl
    case isFalse unnamed =>
      have home := TransportStore.conversation_id found
      subst home
      have put : Writes chain s (.resweepName row.conversationId txid) o s.filing
          ⟨s.store.put { row with contactAddress := sender }, s.filedFor⟩ :=
        .single (.put (.name found (not_not.mp unnamed) rfl (answer sender named)))
      exact put.trans (named_writes (h := { s with store := s.store.put _ }) _ _ _)
  · exact .refl

theorem stashRowIsFree_absent {store : TransportStore} {record : ConversationRecord}
    (free : stashRowIsFree store record = true) : store.conversation record.conversationId = none := by
  unfold stashRowIsFree at free
  simp only [Bool.and_eq_true] at free
  exact Option.isNone_iff_eq_none.mp free.1.1.1

theorem restore_writes (payload : SavedHandshakePayload) (windows : Nat × Nat) :
    Writes chain s (.restore payload windows) o s.filing (s.restore chain payload windows o).filing := by
  unfold restore
  split
  case h_1 address decodes valid =>
    obtain ⟨named, _⟩ := Bool.and_eq_true_iff.mp decodes
    have spelled := chain.spelled _ (Bool.and_eq_true_iff.mp named).2
    dsimp only
    split
    · exact .refl
    case isFalse allowed =>
      rw [not_or, Bool.not_eq_true, Bool.not_eq_false] at allowed
      obtain ⟨free, fits⟩ := allowed
      exact (ReflTransGen.single (.put (.restore rfl valid spelled free (stashRowIsFree_absent fits)))).trans
        (merge_writes (f := ⟨_, _⟩) address)
  · exact .refl

theorem unhideRow_writes {h : Hub} (found : h.store.conversation row.conversationId = some row) :
    Writes chain s act o h.filing (h.unhideRow row).filing := by
  unfold unhideRow
  split
  case isTrue shows =>
    obtain ⟨_, contact⟩ := Bool.and_eq_true_iff.mp shows
    exact .single (.reveal found (of_decide_eq_true contact))
  case isFalse => exact .refl

theorem argmax_found {store : TransportStore} {address : String} {keep : ConversationRecord → Bool} {β : Type}
    [LinearOrder β] {rank : ConversationRecord → β}
    (best : ((store.conversationsForContactAddress address).filter keep).argmax rank = some row) :
    store.conversation row.conversationId = some row ∧ row.contactAddress = address ∧ keep row = true := by
  obtain ⟨listed, kept⟩ := List.mem_filter.mp (List.argmax_mem best)
  obtain ⟨found, same, _⟩ := TransportStore.mem_conversationsForContactAddress.mp listed
  exact ⟨found, same, kept⟩

theorem route_writes (address : String) :
    Writes chain s act o s.filing (s.route chain address).filing := by
  unfold route
  split
  case h_1 row best =>
    obtain ⟨dest, _, best⟩ := Option.bind_eq_some_iff.mp best
    exact unhideRow_writes (argmax_found best).1
  · exact .refl

theorem prepareHandshake_writes (address : String) :
    Writes chain s act o s.filing (s.prepareHandshake chain address o).1.filing := by
  unfold prepareHandshake
  split
  · exact .refl
  case h_2 dest valid =>
    dsimp only
    cases best : ((s.store.conversationsForContactAddress dest).filter handshakeReuses).argmax
        establishedRank with
    | none =>
      dsimp only
      split <;> exact .refl
    | some row =>
      have shown : Writes chain s act o s.filing (s.unhideRow row).filing :=
        unhideRow_writes (argmax_found best).1
      dsimp only
      split <;> exact shown

theorem prepareAcceptNamed_writes {theirAlias : String}
    (answer : ∀ sender, o.sender = some sender → sender = chain.sender txid) :
    Writes chain s (.prepareAcceptNamed id theirAlias txid) o s.filing
      (s.prepareAcceptNamed chain id theirAlias o).1.filing := by
  unfold prepareAcceptNamed
  split
  · exact .refl
  case h_2 sender named =>
    obtain ⟨answered, _⟩ := Option.filter_eq_some_iff.mp named
    split
    · cases found : s.store.conversation id with
      | none => exact merge_writes (f := s.filing) sender
      | some row =>
        dsimp only
        split
        case isTrue blank =>
          have home := TransportStore.conversation_id found
          subst home
          exact (ReflTransGen.single (.put (.name found blank rfl (answer sender answered)))).trans
            (merge_writes (f := ⟨_, _⟩) sender)
        case isFalse => exact merge_writes (f := s.filing) sender
    · exact .refl

end Naming

section Intents

theorem own_writes {kept : ConversationRecord} {m : MessageRecord} {f : Filing}
    (put : Put chain s act o f.store kept) (home : m.conversationId = kept.conversationId)
    (direction : m.direction = .outbound) (kind : m.kind = .handshake)
    (source : ∃ intent, act = .apply intent m.txid) :
    Writes chain s act o f { f with store := (f.store.put kept).recordMessage m } := by
  have there : (f.store.put kept).conversation m.conversationId = some kept := by
    rw [home]
    exact TransportStore.put_there _ _
  exact (ReflTransGen.single (.put put)).trans (file_writes (f := ⟨_, _⟩) (.own direction kind there source))

theorem applyHandshake_writes (snapshot : ConversationRecord) (reseal : List UInt8) (timestampMs : Nat) :
    Writes chain s (.apply (.handshake snapshot reseal timestampMs) txid) o s.filing
      (s.applyHandshake snapshot reseal timestampMs txid o).filing := by
  unfold applyHandshake
  dsimp only
  have filed : ∀ kept : ConversationRecord, kept.conversationId = snapshot.conversationId →
      Put chain s (.apply (.handshake snapshot reseal timestampMs) txid) o s.store kept →
      Writes chain s (.apply (.handshake snapshot reseal timestampMs) txid) o s.filing
        ⟨(s.store.put kept).recordMessage (ownRow txid kept.conversationId .handshake reseal timestampMs none
          (kept.boundBranch, kept.boundIndex) .ciphMsg), s.filedFor⟩ := by
    intro kept home put
    exact own_writes put rfl rfl rfl ⟨_, rfl⟩
  cases found : s.store.conversation snapshot.conversationId with
  | none => exact filed _ rfl (.invited rfl rfl found)
  | some live => exact filed _ rfl (.reinvited rfl rfl found)

theorem applyAccept_writes (contactAddress myAlias : String) (reseal : List UInt8) (timestampMs : Nat) :
    Writes chain s (.apply (.accept id contactAddress myAlias reseal timestampMs) txid) o s.filing
      (s.applyAccept id contactAddress myAlias reseal timestampMs txid o).1.filing := by
  unfold applyAccept
  cases found : s.store.conversation id with
  | none => exact .refl
  | some existing =>
    have home := TransportStore.conversation_id found
    subst home
    have put : Put chain s (.apply (.accept existing.conversationId contactAddress myAlias reseal timestampMs)
        txid) o s.store { existing with
          contactAddress := contactAddress
          myAlias := myAlias
          status := .active
          lastActivityUnixMs := timestampMs
          createdUnixMs := acceptedAt s.store contactAddress existing.conversationId timestampMs } :=
      .accept _ rfl rfl found
    exact own_writes put rfl rfl rfl ⟨_, rfl⟩

theorem applyComm_writes (aliasOnWire : String) (reseal : List UInt8) (sealedTo : KeySlot) (timestampMs : Nat)
    (wire : WireNamespace) :
    Writes chain s (.apply (.comm id aliasOnWire reseal sealedTo timestampMs wire) txid) o s.filing
      (s.applyComm id aliasOnWire reseal sealedTo timestampMs wire txid).filing := by
  unfold applyComm
  dsimp only
  have sent : Writes chain s (.apply (.comm id aliasOnWire reseal sealedTo timestampMs wire) txid) o s.filing
      ⟨s.store.recordMessage (ownRow txid id .comm reseal timestampMs (some aliasOnWire) sealedTo wire),
        s.filedFor⟩ := file_writes (f := s.filing) (.sent rfl rfl rfl)
  split
  case h_1 existing found =>
    have home := TransportStore.conversation_id found
    subst home
    exact sent.tail (.put (.touch _ found))
  · exact sent

theorem applyIntent_writes (intent : TransportIntent) :
    Writes chain s (.apply intent txid) o s.filing (s.applyIntent intent txid o).1.filing := by
  cases intent with
  | bcast => exact .refl
  | handshake conversation reseal timestampMs => exact applyHandshake_writes _ _ _
  | accept conversationId contactAddress myAlias reseal timestampMs => exact applyAccept_writes _ _ _ _
  | comm conversationId aliasOnWire reseal sealedTo timestampMs wire => exact applyComm_writes _ _ _ _ _
  | selfStash covered timestampMs =>
    unfold applyIntent
    dsimp only
    split <;> exact .refl

theorem startSweep_writes (addresses : List String) :
    Writes chain s act o s.filing (s.startSweep addresses).filing := by
  unfold startSweep
  have all : ∀ (addresses : List String) (f : Filing), Writes chain s act o f
      { f with
        store := addresses.foldl (fun store address => store.purgeContactRows address true) f.store } := by
    intro addresses
    induction addresses with
    | nil => exact fun _ => .refl
    | cons address rest ih => exact fun f => (purge_writes address true).trans (ih _)
  exact all addresses s.filing

end Intents

/-- Every section's writes, each with what licenses it. -/
theorem perform_writes (sound : s.Sound chain) (here : act.Sound chain) (answers : s.answers chain act o = true) :
    Writes chain s act o s.filing (s.perform chain o act).1.filing := by
  unfold Hub.answers at answers
  obtain ⟨truly, oracle⟩ := Bool.and_eq_true_iff.mp answers
  have fresh := (of_decide_eq_true oracle).1
  have answer : ∀ txid, asks act = some txid → ∀ sender, o.sender = some sender → sender = chain.sender txid := by
    intro txid asked sender named
    rw [asked, named] at truly
    exact of_decide_eq_true truly
  cases act with
  | commFile routed slot envelope => exact commFile_writes routed slot envelope
  | removeArchiveRow txid => exact removeArchiveRow_writes txid
  | handshakeOverride handshake old => exact handshakeOverride_writes here
  | handshakeComplete handshake sender id => exact handshakeComplete_writes id here
  | handshakePark handshake id =>
    unfold perform handshakePark
    dsimp only
    split <;> exact .refl
  | handshakeContact handshake sender => exact handshakeContact_writes here
  | handshakeInvite handshake sender => exact handshakeInvite_writes fresh here
  | releaseFile id sender rows => exact releaseFile_writes here
  | adopt txid =>
    unfold perform adopt
    dsimp only
    split <;> exact .refl
  | adoptFold txid parked => exact adoptFold_writes sound fresh (answer txid rfl)
  | acceptance txid =>
    unfold perform
    dsimp only
    split
    case h_1 sender named => exact acceptance_writes (answer txid rfl sender named)
    · exact .refl
  | backfill txid => exact backfill_writes (answer txid rfl)
  | resweepName id txid => exact resweepName_writes (answer txid rfl)
  | restore payload windows => exact restore_writes payload windows
  | stashSave state =>
    unfold perform
    dsimp only
    split <;> exact .refl
  | hide id => exact hide_writes (f := s.filing) id
  | clearRows id => exact remove_writes (f := s.filing) _
  | route address => exact route_writes address
  | blockList address alias_ =>
    unfold perform blockList
    dsimp only
    split <;> exact .refl
  | blockPurge address alias_ ids => exact purge_writes (f := s.filing) address false
  | blockForget alias_ ids => cases alias_ <;> exact .refl
  | unblock address =>
    unfold perform unblock
    dsimp only
    split <;> exact .refl
  | prepareComm id =>
    unfold perform prepareComm
    dsimp only
    split
    · exact .refl
    · split <;> exact .refl
  | wipeStore => exact .single (.wipe rfl)
  | prepareHandshake address => exact prepareHandshake_writes address
  | prepareAcceptNamed id theirAlias txid => exact prepareAcceptNamed_writes (answer txid rfl)
  | takePlan nonce =>
    unfold perform takePlan
    dsimp only
    split
    · split <;> exact .refl
    · exact .refl
  | apply intent txid => exact applyIntent_writes intent
  | startMerge => exact mergeAll_writes (f := s.filing)
  | startSweep addresses => exact startSweep_writes addresses
  | _ => exact .refl

end Kaspaverse.Transport.Hub
