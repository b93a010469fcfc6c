import Kaspaverse.Transport.HubRows

namespace Kaspaverse.Transport

open Hub

/-- A comm lands in no row that is gone, and what an accept or an invite was prepared for is whom its row
    belongs to as it is applied, if the row knows its contact. -/
def Hub.landsAtHome (s : Hub) (_ : Oracle) : Act → Bool
  | .commFile routed _ _ => decide (routed.verdict ≠ .contact) || (s.store.conversation routed.conversationId).isSome
  | .apply (.handshake snapshot _ _) _ =>
    (s.store.conversation snapshot.conversationId).all fun row => decide (row.contactAddress = snapshot.contactAddress)
  | .apply (.accept conversationId contactAddress _ _ _) _ =>
    (s.store.conversation conversationId).all fun row =>
      decide (row.contactAddress = "" ∨ row.contactAddress = contactAddress)
  | _ => true

variable {chain : Chain} {s next : Hub} {act : Act} {o : Oracle} {f f' : Filing} {held : Finset String}
  {row : ConversationRecord} {id address txid : String}

/-- Every inbound comm is in the thread of the contact it was filed for, whom no block holds, and a
    blocked address has knocks alone. -/
structure Shut (chain : Chain) (held : Finset String) (f : Filing) : Prop where
  comms : ∀ txid m, f.store.message txid = some m → m.direction = .inbound → m.kind = .comm →
    ∃ row, f.store.conversation m.conversationId = some row ∧ f.filedFor.lookup txid = some row.contactAddress ∧
      row.contactAddress ≠ "" ∧ row.contactAddress ∉ held ∧
        (m.provenance = .nodeScanned → row.contactAddress = chain.sender txid)
  rows : ∀ id row, f.store.conversation id = some row → row.contactAddress ∈ held → row.status = .pendingInbound

/-- What a section that writes knows of the blocks: who is held is blocked, and the one whose block an
    accept or an invite lifts is not held. -/
structure Lifts (s : Hub) (act : Act) (held : Finset String) : Prop where
  blocked : ∀ address ∈ held, address ∈ s.blocked
  invited : ∀ snapshot reseal timestampMs txid, act = .apply (.handshake snapshot reseal timestampMs) txid →
    snapshot.contactAddress ∉ held
  accepted : ∀ id address myAlias reseal timestampMs txid row,
    act = .apply (.accept id address myAlias reseal timestampMs) txid → s.store.conversation id = some row →
      address ∉ held

theorem Lifts.free (lifts : Lifts s act held) (known : address ≠ "") (free : s.isBlocked address = false) :
    address ∉ held := fun member => isBlocked_of_known known free (lifts.blocked address member)

section Puts

/-- A row that knows its contact keeps it. -/
theorem Put.keeps_contact (licence : Put chain s act o f.store row) (known : s.Known chain)
    (lands : s.landsAtHome o act = true) {old : ConversationRecord}
    (there : f.store.conversation row.conversationId = some old) (contact : old.contactAddress ≠ "") :
    row.contactAddress = old.contactAddress := by
  have same : ∀ {other : ConversationRecord}, f.store.conversation row.conversationId = some other → old = other :=
    fun found => Option.some.inj (there.symm.trans found)
  cases licence with
  | touch last found => rw [same found]
  | name found blank asks answer =>
    rw [same found] at contact
    exact absurd blank contact
  | refresh section_ address found home waits named =>
    rw [same found] at contact ⊢
    rcases named with kept | ⟨blank, _⟩
    · exact kept
    · exact absurd blank contact
  | complete alias_ slot now found waits known section_ =>
    rw [same found]
    rfl
  | contact section_ found known truly =>
    rw [same found]
    rfl
  | adopt section_ found known truly free unrouted gap =>
    rw [same found]
    rfl
  | invite section_ start fresh =>
    rw [start] at there
    exact absurd (known.minted _ _ there) fresh
  | revive now section_ start free fresh =>
    rw [start] at there
    exact absurd (known.minted _ _ there) fresh
  | restore section_ valid spelled free absent =>
    have missing := there.symm.trans absent
    cases missing
  | invited section_ start absent =>
    have missing := there.symm.trans absent
    cases missing
  | @reinvited snapshot live reseal timestampMs txid section_ start found =>
    subst section_
    have stays := (Option.all_eq_true _ _).mp lands live (start ▸ found)
    rw [same found]
    exact (of_decide_eq_true stays).symm
  | @accept old' contactAddress myAlias reseal timestampMs txid created section_ start found =>
    subst section_
    have stays := (Option.all_eq_true _ _).mp lands old' (start ▸ found)
    rw [same found] at contact ⊢
    rcases of_decide_eq_true stays with blank | kept
    · exact absurd blank contact
    · exact kept.symm

/-- A row that is written for an address that is held waits for our accept. -/
theorem Put.shut (licence : Put chain s act o f.store row) (written : Written s act o f)
    (lifts : Lifts s act held) (shut : Shut chain held f) (contact : row.contactAddress ∈ held) :
    row.status = .pendingInbound := by
  cases licence with
  | @touch old last found => exact shut.rows old.conversationId old found contact
  | name found blank asks answer => exact (written.rows _ _ found).blank blank
  | refresh section_ address found home waits named => exact waits
  | @complete old alias_ slot now found waits known section_ =>
    have still := shut.rows old.conversationId old found contact
    rw [waits] at still
    cases still
  | @contact old handshake section_ found known truly =>
    have still := shut.rows old.conversationId old found contact
    have theirs := ((written.rows _ _ found).invitation still).1
    unfold refreshedContact
    dsimp only
    rw [if_neg fun mine => by rw [theirs] at mine; cases mine.1]
    exact still
  | adopt section_ found known truly free unrouted gap => exact absurd contact (lifts.free known free)
  | invite section_ start fresh => rfl
  | @revive txid parked now section_ start free fresh =>
    exact absurd contact (lifts.free (chain.named txid) free)
  | restore section_ valid spelled free absent =>
    exact absurd contact (lifts.free (chain.proper _ _ valid) free)
  | @invited snapshot reseal timestampMs txid section_ start absent =>
    exact absurd contact (lifts.invited snapshot _ _ _ section_)
  | @reinvited snapshot live reseal timestampMs txid section_ start found =>
    exact absurd contact (lifts.invited snapshot _ _ _ section_)
  | accept created section_ start found =>
    exact absurd contact (lifts.accepted _ _ _ _ _ _ _ section_ (start ▸ found))

end Puts

section Writes

theorem Shut.put (shut : Shut chain held f) (licence : Put chain s act o f.store row) (known : s.Known chain)
    (lands : s.landsAtHome o act = true) (written : Written s act o f) (lifts : Lifts s act held) :
    Shut chain held { f with store := f.store.put row } := by
  refine ⟨?_, ?_⟩
  · intro txid m found inbound comm
    obtain ⟨old, there, filed, contact, free, truly⟩ := shut.comms txid m found inbound comm
    by_cases same : m.conversationId = row.conversationId
    · rw [same] at there
      have kept := licence.keeps_contact known lands there contact
      refine ⟨row, ?_, ?_, ?_, ?_, ?_⟩
      · show (f.store.put row).conversation m.conversationId = some row
        rw [TransportStore.conversation_put, if_pos same]
      · rw [kept]
        exact filed
      · rw [kept]
        exact contact
      · rw [kept]
        exact free
      · rw [kept]
        exact truly
    · refine ⟨old, ?_, filed, contact, free, truly⟩
      show (f.store.put row).conversation m.conversationId = some old
      rw [TransportStore.conversation_put, if_neg same]
      exact there
  · intro id other found contact
    change (f.store.put row).conversation id = some other at found
    rw [TransportStore.conversation_put] at found
    split at found
    · cases found
      exact licence.shut written lifts shut contact
    · exact shut.rows id other found contact

theorem Shut.fewer (shut : Shut chain held f) (store : TransportStore)
    (rows : ∀ id, store.conversation id = f.store.conversation id)
    (comms : ∀ txid m, store.message txid = some m → m.direction = .inbound → m.kind = .comm →
      f.store.message txid = some m) : Shut chain held { f with store := store } := by
  refine ⟨?_, ?_⟩
  · intro txid m found inbound comm
    obtain ⟨row, there, filed, contact⟩ := shut.comms txid m (comms txid m found inbound comm) inbound comm
    exact ⟨row, (rows _).trans there, filed, contact⟩
  · intro id row found contact
    exact shut.rows id row ((rows id).symm.trans found) contact

theorem Enters.shut {m : MessageRecord} {sender : String} (licence : Enters chain s act f.store m sender)
    (here : act.Sound chain) (lands : s.landsAtHome o act = true) (lifts : Lifts s act held) :
    ∃ row, f.store.conversation m.conversationId = some row ∧ sender = row.contactAddress ∧
      row.contactAddress ≠ "" ∧ row.contactAddress ∉ held ∧
        (m.provenance = .nodeScanned → row.contactAddress = chain.sender m.txid) := by
  cases licence with
  | @comm row routed slot envelope now section_ is claimed found contact known free standing =>
    subst section_ is contact
    refine ⟨row, found, rfl, known, lifts.free known free, ?_⟩
    intro scanned
    have node : routed.comm.origin = .node := by
      cases origin : routed.comm.origin with
      | node => rfl
      | fill =>
        unfold commRow EventOrigin.rowSource at scanned
        rw [origin] at scanned
        cases scanned
    exact here.1 node _ claimed
  | orphan now section_ is claimed verdict start missing =>
    subst section_
    rw [start] at missing
    unfold landsAtHome at lands
    simp only [verdict, missing] at lands
    cases lands
  | @parked row txid comm bound now is source truly found contact known free standing =>
    subst is contact
    exact ⟨row, found, rfl, known, lifts.free known free, fun _ => truly⟩

/-- A comm that enters is in the thread of whom it is filed for, and the others stay. -/
theorem Shut.enter (shut : Shut chain held f) {m : MessageRecord} {sender : String} (store : TransportStore)
    (rows : ∀ id, store.conversation id = f.store.conversation id)
    (message : ∀ txid, store.message txid = some m ∧ txid = m.txid ∨ store.message txid = f.store.message txid ∧
      txid ≠ m.txid)
    (home : ∃ row, f.store.conversation m.conversationId = some row ∧ sender = row.contactAddress ∧
      row.contactAddress ≠ "" ∧ row.contactAddress ∉ held ∧
        (m.provenance = .nodeScanned → row.contactAddress = chain.sender m.txid)) :
    Shut chain held ⟨store, f.filedFor.insert m.txid sender⟩ := by
  refine ⟨?_, fun id row found => shut.rows id row ((rows id).symm.trans found)⟩
  intro txid other found inbound comm
  rcases message txid with ⟨here, rfl⟩ | ⟨before, apart⟩
  · have same : m = other := Option.some.inj (here.symm.trans found)
    subst same
    obtain ⟨row, there, rfl, contact⟩ := home
    exact ⟨row, (rows _).trans there, AList.lookup_insert _, contact⟩
  · obtain ⟨row, there, filed, contact⟩ := shut.comms txid other (before.symm.trans found) inbound comm
    refine ⟨row, (rows _).trans there, ?_, contact⟩
    show (f.filedFor.insert m.txid sender).lookup txid = _
    rw [AList.lookup_insert_ne apart]
    exact filed

theorem Shut.merge (shut : Shut chain held f) (address : String) :
    Shut chain held { f with store := (f.store.merge address).1 } := by
  rcases TransportStore.merge_cases f.store address with short | ⟨host, rows, merged, _⟩
  · rw [short]
    exact shut
  · have kept := kept_mergedHost f.store host rows
    have best := merged.best
    have contact : (f.store.mergedHost host.1 rows).contactAddress = address := kept.address.trans best.2.1
    refine ⟨?_, ?_⟩
    · intro txid m found inbound comm
      obtain ⟨before, was, ⟨rfl, stays⟩ | ⟨moved, rfl⟩⟩ := merged.message_cases found
      · obtain ⟨row, there, filed, named, free, truly⟩ := shut.comms txid m was inbound comm
        by_cases home : m.conversationId = host.id
        · have same : row = host.1 := by
            rw [home, best.1] at there
            exact (Option.some.inj there).symm
          have whom : row.contactAddress = (f.store.mergedHost host.1 rows).contactAddress := by
            rw [same, contact]
            exact best.2.1
          rw [whom] at filed named free truly
          exact ⟨_, by rw [home]; exact merged.keeps, filed, named, free, truly⟩
        · exact ⟨row, merged.stays there home stays, filed, named, free, truly⟩
      · obtain ⟨row, there, filed, named, free, truly⟩ := shut.comms txid before was inbound comm
        obtain ⟨old, gone, whose, _⟩ := merged.folded moved
        have same : old = row := Option.some.inj (gone.symm.trans there)
        subst same
        rw [whose, ← contact] at filed named free truly
        exact ⟨_, merged.keeps, filed, named, free, truly⟩
    · intro id row found held_
      rcases merged.conversation_cases found with ⟨_, rfl⟩ | ⟨_, _, before⟩
      · have still : host.1.status = .pendingInbound := by
          apply shut.rows _ _ best.1
          rw [best.2.1, ← contact]
          exact held_
        have status := kept.status
        rw [if_neg fun both => both.1 still] at status
        exact status.trans still
      · exact shut.rows id row before held_

theorem Write.shut (write : Write chain s act o f f') (known : s.Known chain) (here : act.Sound chain)
    (lands : s.landsAtHome o act = true) (lifts : Lifts s act held) (written : Written s act o f)
    (shut : Shut chain held f) : Shut chain held f' := by
  cases write with
  | put licence => exact shut.put licence known lands written lifts
  | reveal found contact => exact shut.fewer _ (fun _ => rfl) fun _ _ found _ _ => found
  | conceal section_ empty =>
    apply shut.fewer
    · exact fun id => TransportStore.conversation_conceal _ _ id
    · intro txid m found _ _
      rw [TransportStore.message_conceal] at found
      exact found
  | @enter m sender absent licence =>
    apply shut.enter
    · exact fun id => TransportStore.conversation_recordMessage _ _ id
    · intro txid
      rw [TransportStore.message_recordMessage]
      by_cases same : txid = m.txid
      · exact .inl ⟨if_pos ⟨same, same ▸ absent⟩, same⟩
      · exact .inr ⟨if_neg fun both => same both.1, same⟩
    · exact licence.shut here lands lifts
  | @reenter m sender wins licence =>
    apply shut.enter
    · exact fun id => TransportStore.conversation_overrideMessage _ _ id
    · intro txid
      rw [TransportStore.message_overrideMessage]
      by_cases same : txid = m.txid
      · exact .inl ⟨if_pos ⟨same, wins⟩, same⟩
      · exact .inr ⟨if_neg fun both => same both.1, same⟩
    · exact licence.shut here lands lifts
  | @file m absent licence =>
    apply shut.fewer
    · exact fun id => TransportStore.conversation_recordMessage _ _ id
    · intro txid other found inbound comm
      rw [TransportStore.message_recordMessage] at found
      split at found
      · cases found
        cases licence with
        | inbound direction kind =>
          rw [comm] at kind
          cases kind
        | own direction =>
          rw [inbound] at direction
          cases direction
        | sent section_ start is =>
          rw [is] at inbound
          cases inbound
      · exact found
  | override section_ start wins =>
    apply shut.fewer
    · exact fun id => TransportStore.conversation_overrideMessage _ _ id
    · intro txid other found inbound comm
      rw [TransportStore.message_overrideMessage] at found
      split at found
      · cases found
        cases comm
      · exact found
  | remove txids =>
    apply shut.fewer
    · exact fun id => TransportStore.conversation_removeMessages _ _ id
    · intro txid m found _ _
      rw [TransportStore.message_removeMessages] at found
      split at found
      · cases found
      · exact found
  | @drop gone known empty =>
    refine ⟨?_, ?_⟩
    · intro txid m found inbound comm
      obtain ⟨row, there, filed, contact⟩ := shut.comms txid m found inbound comm
      refine ⟨row, ?_, filed, contact⟩
      show (f.store.drop gone).conversation m.conversationId = some row
      rw [TransportStore.conversation_drop, if_neg (empty txid m found)]
      exact there
    · intro id row found contact
      change (f.store.drop gone).conversation id = some row at found
      rw [TransportStore.conversation_drop] at found
      split at found
      · cases found
      · exact shut.rows id row found contact
  | merge address => exact shut.merge address
  | wipe section_ => exact ⟨fun _ _ found => (nomatch found), fun _ _ found => (nomatch found)⟩

theorem writes_shut (writes : Writes chain s act o f f') (known : s.Known chain) (here : act.Sound chain)
    (lands : s.landsAtHome o act = true) (lifts : Lifts s act held) (fits : ∀ intent ∈ intents act, intent.Fit s)
    (written : Written s act o f) (shut : Shut chain held f) : Shut chain held f' := by
  have both : Written s act o f' ∧ Shut chain held f' := by
    induction writes with
    | refl => exact ⟨written, shut⟩
    | tail _ write ih => exact ⟨write.written fits ih.1, write.shut known here lands lifts ih.1 ih.2⟩
  exact both.2

end Writes

section Blocks

theorem conversation_purgeRows (store : TransportStore) (ids : List String) (id : String) :
    (ids.foldl TransportStore.purgeRow store).conversation id =
      if id ∈ ids then none else store.conversation id := by
  induction ids generalizing store with
  | nil => simp
  | cons first rest ih =>
    rw [List.foldl_cons, ih, conversation_purgeRow]
    by_cases later : id ∈ rest
    · simp [later]
    · by_cases same : id = first <;> simp [later, same]

/-- Behind its purge an address has no row. -/
theorem purge_clears {store : TransportStore} (known : address ≠ "")
    (found : (store.purgeContactRows address false).conversation id = some row) : row.contactAddress ≠ address := by
  unfold TransportStore.purgeContactRows at found
  rw [conversation_purgeRows] at found
  split at found
  · cases found
  case isFalse kept =>
    intro contact
    apply kept
    have home := TransportStore.conversation_id found
    unfold TransportStore.purgeIds
    rw [List.mem_map]
    refine ⟨row, List.mem_filter.mpr ⟨?_, rfl⟩, home⟩
    rw [TransportStore.mem_conversationsForContactAddress, home]
    exact ⟨found, contact, known⟩

theorem mem_unblock {list : List String} {gone : String} :
    address ∈ list.filter (· ≠ gone) ↔ address ∈ list ∧ address ≠ gone := by
  rw [List.mem_filter, decide_eq_true_iff]

theorem liftBlock_blocked (gone : String) (blocked : ∀ address ∈ s.held, address ∈ s.blocked) :
    ∀ address ∈ (s.liftBlockOnContact gone o).held, address ∈ (s.liftBlockOnContact gone o).blocked := by
  intro address member
  obtain ⟨apart, before⟩ := Finset.mem_erase.mp member
  unfold liftBlockOnContact
  dsimp only
  split
  · exact mem_unblock.mpr ⟨blocked address before, apart⟩
  · exact blocked address before

/-- Only a block's purge makes it hold, and who is held is blocked. -/
theorem perform_held (blocked : ∀ address ∈ s.held, address ∈ s.blocked) :
    (∀ address ∈ (s.perform chain o act).1.held, address ∈ (s.perform chain o act).1.blocked) ∧
      ((∀ address ∈ (s.perform chain o act).1.held, address ∈ s.held) ∨
        ∃ address alias_ ids, act = .blockPurge address alias_ ids ∧
          ∀ other ∈ (s.perform chain o act).1.held, other ∈ s.held ∨ other = address) := by
  have keep : ∀ next : Hub, next.blocked = s.blocked ∧ next.held = s.held →
      (∀ address ∈ next.held, address ∈ next.blocked) ∧ ((∀ address ∈ next.held, address ∈ s.held) ∨
        ∃ address alias_ ids, act = .blockPurge address alias_ ids ∧
          ∀ other ∈ next.held, other ∈ s.held ∨ other = address) := by
    rintro next ⟨same, still⟩
    rw [same, still]
    exact ⟨blocked, .inl fun _ member => member⟩
  have folded : Folds act → (s.perform chain o act).1.desk = s.desk := perform_desk
  cases act with
  | stashSave state =>
    apply keep
    unfold perform
    dsimp only
    split <;> exact ⟨rfl, rfl⟩
  | blockList address alias_ =>
    unfold perform blockList
    dsimp only
    split
    · exact keep s ⟨rfl, rfl⟩
    · refine ⟨?_, .inl fun _ member => member⟩
      intro other member
      dsimp only at member ⊢
      split
      · exact blocked other member
      · exact List.mem_cons_of_mem _ (blocked other member)
  | blockPurge address alias_ ids =>
    unfold perform blockPurge
    dsimp only
    split
    case isTrue listed =>
      refine ⟨?_, .inr ⟨address, alias_, ids, rfl, ?_⟩⟩
      · intro other member
        rcases Finset.mem_insert.mp member with rfl | before
        · exact listed
        · exact blocked other before
      · intro other member
        rcases Finset.mem_insert.mp member with same | before
        · exact .inr same
        · exact .inl before
    case isFalse => exact keep { s with store := _ } ⟨rfl, rfl⟩
  | unblock address =>
    unfold perform unblock
    dsimp only
    split
    · exact keep s ⟨rfl, rfl⟩
    · refine ⟨?_, .inl fun _ member => Finset.mem_of_mem_erase member⟩
      intro other member
      obtain ⟨apart, before⟩ := Finset.mem_erase.mp member
      exact mem_unblock.mpr ⟨blocked other before, apart⟩
  | prepareComm id =>
    apply keep
    unfold perform prepareComm
    dsimp only
    split
    · exact ⟨rfl, rfl⟩
    · split <;> exact ⟨rfl, rfl⟩
  | takePlan nonce =>
    apply keep
    unfold perform takePlan
    dsimp only
    split
    · split <;> exact ⟨rfl, rfl⟩
    · exact ⟨rfl, rfl⟩
  | apply intent txid =>
    cases intent with
    | handshake snapshot reseal timestampMs =>
      exact ⟨liftBlock_blocked _ blocked, .inl fun _ member => Finset.mem_of_mem_erase member⟩
    | accept id address myAlias reseal timestampMs =>
      unfold perform applyIntent applyAccept
      dsimp only
      split
      · exact keep s ⟨rfl, rfl⟩
      · exact ⟨liftBlock_blocked _ blocked, .inl fun _ member => Finset.mem_of_mem_erase member⟩
    | selfStash covered timestampMs =>
      apply keep
      unfold perform applyIntent
      dsimp only
      split <;> exact ⟨rfl, rfl⟩
    | _ => exact keep _ ⟨rfl, rfl⟩
  | _ =>
    first
      | exact keep _ ⟨congrArg Desk.blocked (folded True.intro), congrArg Desk.held (folded True.intro)⟩
      | exact keep _ ⟨rfl, rfl⟩

/-- The section that lifts a block leaves its address unheld. -/
theorem perform_lifts (blocked : ∀ address ∈ s.held, address ∈ s.blocked)
    (fewer : ∀ address ∈ (s.perform chain o act).1.held, address ∈ s.held) :
    Lifts s act (s.perform chain o act).1.held := by
  refine ⟨fun address member => blocked address (fewer address member), ?_, ?_⟩
  · rintro snapshot reseal timestampMs txid rfl member
    have lifted := Finset.mem_erase.mp (show snapshot.contactAddress ∈ s.held.erase _ from member)
    apply lifted.1
    split <;> rfl
  · rintro id address myAlias reseal timestampMs txid row rfl there member
    change address ∈ (s.applyAccept id address myAlias reseal timestampMs txid o).1.held at member
    unfold applyAccept at member
    rw [there] at member
    exact (Finset.mem_erase.mp member).1 rfl

end Blocks

section Runs

open Machine

/-- Every block in force is kept. -/
structure Hub.Guarded (chain : Chain) (s : Hub) : Prop where
  known : s.Known chain
  blocked : ∀ address ∈ s.held, address ∈ s.blocked
  shut : Shut chain s.held s.filing

theorem Shut.mono {fewer : Finset String} (shut : Shut chain held f) (sub : ∀ address ∈ fewer, address ∈ held) :
    Shut chain fewer f := by
  refine ⟨?_, fun id row found contact => shut.rows id row found (sub _ contact)⟩
  intro txid m found inbound comm
  obtain ⟨row, there, filed, contact, free, truly⟩ := shut.comms txid m found inbound comm
  exact ⟨row, there, filed, contact, fun member => free (sub _ member), truly⟩

/-- The purge of a block has left its address no row, so no comm either. -/
theorem Shut.purged (shut : Shut chain s.held f) {more : Finset String}
    (fits : ∀ id row, f.store.conversation id = some row → row.Fit)
    (clear : address ≠ "" → ∀ id row, f.store.conversation id = some row → row.contactAddress ≠ address)
    (adds : ∀ other ∈ more, other ∈ s.held ∨ other = address) : Shut chain more f := by
  refine ⟨?_, ?_⟩
  · intro txid m found inbound comm
    obtain ⟨row, there, filed, contact, free, truly⟩ := shut.comms txid m found inbound comm
    refine ⟨row, there, filed, contact, ?_, truly⟩
    intro member
    rcases adds _ member with before | same
    · exact free before
    · exact clear (same ▸ contact) _ row there same
  · intro id row found contact
    rcases adds _ contact with before | same
    · exact shut.rows id row found before
    · apply (fits id row found).blank
      by_contra named
      exact clear (same ▸ named) id row found same

theorem step_guarded {e : Event} (guarded : s.Guarded chain) (meets : meeting landsAtHome s e = true)
    (steps : step chain s e = some next) : next.Guarded chain := by
  have known := step_known guarded.known steps
  rcases step_cases steps with ⟨call, o, act, rest, rfl, performed⟩ | idle
  · have here := sound_flight guarded.known.sound performed.here
    have lands := performed.meets meets
    have fits : ∀ intent ∈ intents act, intent.Fit s := fun intent member =>
      guarded.known.intents intent (.inl ⟨act, performed.here, member⟩)
    have writes := performed.writes guarded.known.sound
    have held := @perform_held chain s act o guarded.blocked
    have same : next.held = (s.perform chain o act).1.held ∧ next.blocked = (s.perform chain o act).1.blocked := by
      rw [performed.after]
      exact ⟨rfl, rfl⟩
    rw [← same.1, ← same.2] at held
    refine ⟨known, held.1, ?_⟩
    rcases held.2 with fewer | ⟨address, alias_, ids, rfl, adds⟩
    · have lifts : Lifts s act next.held := by
        rw [same.1]
        exact perform_lifts guarded.blocked (same.1 ▸ fewer)
      exact writes_shut writes guarded.known here lands lifts fits guarded.known.written
        (guarded.shut.mono fewer)
    · have lifts : Lifts s (.blockPurge address alias_ ids) s.held :=
        ⟨guarded.blocked, fun _ _ _ _ is => (nomatch is), fun _ _ _ _ _ _ _ is => (nomatch is)⟩
      have shut := writes_shut writes guarded.known here lands lifts fits guarded.known.written guarded.shut
      refine shut.purged known.rows ?_ adds
      intro named id row found
      rw [performed.after] at found
      exact purge_clears named found
  · refine ⟨known, ?_, ?_⟩
    · rw [idle.held, idle.blocked]
      exact guarded.blocked
    · rw [idle.held, idle.filing]
      exact guarded.shut

theorem launch_guarded : launch.Guarded chain :=
  ⟨launch_known, fun _ member => absurd member (Finset.notMem_empty _), fun _ _ found => (nomatch found),
    fun _ _ found => (nomatch found)⟩

theorem block_holds {es : List Event}
    (meets : Meets (step chain) (fun s e => meeting landsAtHome s e = true) launch es)
    (reached : Machine.run (step chain) launch es = some s) :
    ∀ address ∈ s.held,
      (∀ id row, s.store.conversation id = some row → row.contactAddress = address →
        row.status = .pendingInbound) ∧
      ∀ txid m, s.store.message txid = some m → m.direction = .inbound → m.kind = .comm →
        s.filedFor.lookup txid ≠ some address ∧ (m.provenance = .nodeScanned → chain.sender txid ≠ address) := by
  have guarded := run_invariant_meeting (fun _ _ _ => step_guarded) launch_guarded meets reached
  intro address member
  refine ⟨?_, ?_⟩
  · rintro id row found rfl
    exact guarded.shut.rows id row found member
  · intro txid m found inbound comm
    obtain ⟨row, _, filed, _, free, truly⟩ := guarded.shut.comms txid m found inbound comm
    refine ⟨?_, ?_⟩
    · intro whose
      rw [show s.filing.filedFor = s.filedFor from rfl, whose] at filed
      exact free (Option.some.inj filed ▸ member)
    · intro scanned sent
      exact free (truly scanned ▸ sent ▸ member)

/-- Our walk reads a comm from `kaspa:a`. -/
def pageComm : InboundComm :=
  ⟨"letter", some "theirs", some [2], some 9, some "kaspa:a", .node, .ciphMsg⟩

/-- Its thread is blocked before the comm comes in. -/
def blockedFirst : List Event :=
  .fillBegin 0 :: foldRow 0 0 (backupOf "thread") ++ .call 1 (.block "thread") :: performs 1 7 calm ++
    .call 2 (.inboundComm pageComm) :: performs 2 5 calm

theorem block_holds_before : ∃ s, Machine.run (step plainChain) launch blockedFirst = some s ∧ "kaspa:a" ∈ s.held ∧
    ∀ id row, s.store.conversation id = some row → row.contactAddress = "kaspa:a" →
      row.status = .pendingInbound := by
  have holds : (Machine.run (step plainChain) launch blockedFirst).any (fun s => decide ("kaspa:a" ∈ s.held)) =
      true := by decide +kernel
  obtain ⟨s, reached, held⟩ := (Option.any_eq_true _ _).mp holds
  have held := of_decide_eq_true held
  exact ⟨s, reached, held, (block_holds (by decide +kernel) reached "kaspa:a" held).1⟩

/-- Or while it is being decrypted. -/
def blockedMeanwhile : List Event :=
  .fillBegin 0 :: foldRow 0 0 (backupOf "thread") ++ .call 2 (.inboundComm pageComm) :: performs 2 4 calm ++
    .call 1 (.block "thread") :: performs 1 7 calm ++ performs 2 1 calm

theorem blocked_comm_filed : ∃ s, Machine.run (step plainChain) launch blockedMeanwhile = some s ∧
    ¬ ∀ address ∈ s.held, ∀ txid m, s.store.message txid = some m → m.direction = .inbound → m.kind = .comm →
      s.filedFor.lookup txid ≠ some address ∧ (m.provenance = .nodeScanned → plainChain.sender txid ≠ address) := by
  have filed : (Machine.run (step plainChain) launch blockedMeanwhile).any (fun s =>
      decide ("kaspa:a" ∈ s.held) && (s.store.message "letter").any fun m =>
        decide (m.direction = .inbound ∧ m.kind = .comm ∧ m.provenance = .nodeScanned)) = true := by
    decide +kernel
  obtain ⟨s, reached, both⟩ := (Option.any_eq_true _ _).mp filed
  obtain ⟨held, there⟩ := Bool.and_eq_true_iff.mp both
  obtain ⟨m, found, is⟩ := (Option.any_eq_true _ _).mp there
  obtain ⟨inbound, comm, scanned⟩ := of_decide_eq_true is
  refine ⟨s, reached, ?_⟩
  intro keeps
  exact (keeps "kaspa:a" (of_decide_eq_true held) "letter" m found inbound comm).2 scanned rfl

end Runs

end Kaspaverse.Transport
