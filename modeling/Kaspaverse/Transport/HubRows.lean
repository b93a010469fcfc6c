import Kaspaverse.Transport.HubNext

namespace Kaspaverse.Transport

open Hub

variable {chain : Chain} {s next : Hub} {act : Act} {o : Oracle} {f f' : Filing} {store : TransportStore}
  {row : ConversationRecord} {id address : String}

/-- What a conversation's record keeps: an unknown contact is an invitation's, an invitation has their
    alias and none of ours, and every other row outranks it. -/
structure ConversationRecord.Fit (row : ConversationRecord) : Prop where
  blank : row.contactAddress = "" → row.status = .pendingInbound
  invitation : row.status = .pendingInbound →
    row.initiatedByMe = false ∧ row.myAlias = "" ∧ row.theirAlias.isSome = true
  outranks : row.status ≠ .pendingInbound →
    row.myAlias ≠ "" ∨ row.theirAlias.isSome = true ∧ row.status = .active

/-- What an intent brings to its commit: a snapshot is of no invitation, and its id is nobody else's. -/
def TransportIntent.Fit (s : Hub) : TransportIntent → Prop
  | .handshake snapshot _ _ =>
    snapshot.contactAddress ≠ "" ∧ snapshot.status ≠ .pendingInbound ∧ snapshot.myAlias ≠ "" ∧
      snapshot.conversationId ∈ s.minted ∧
        ∀ row, s.store.conversation snapshot.conversationId = some row → row.status ≠ .pendingInbound
  | .accept _ contactAddress myAlias _ _ => contactAddress ≠ "" ∧ myAlias ≠ ""
  | _ => True

structure Hub.Known (chain : Chain) (s : Hub) : Prop where
  sound : s.Sound chain
  rows : ∀ id row, s.store.conversation id = some row → row.Fit
  minted : ∀ id row, s.store.conversation id = some row → id ∈ s.minted
  intents : ∀ intent, s.Carries intent → intent.Fit s

section Puts

theorem Put.fit (licence : Put chain s act o store row)
    (rows : ∀ id old, store.conversation id = some old → old.Fit)
    (intents : ∀ intent ∈ intents act, intent.Fit s) : row.Fit := by
  cases licence with
  | @touch old last found =>
    obtain ⟨blank, invitation, outranks⟩ := rows _ _ found
    exact ⟨blank, invitation, outranks⟩
  | @name old sender txid found unnamed asks answer =>
    obtain ⟨blank, invitation, outranks⟩ := rows _ _ found
    refine ⟨fun none_ => ?_, invitation, outranks⟩
    exact absurd none_ (answer ▸ chain.named txid)
  | @refresh old handshake replaced section_ address found home waits named =>
    obtain ⟨_, invitation, _⟩ := rows _ _ found
    obtain ⟨mine, alias_, _⟩ := invitation waits
    exact ⟨fun _ => waits, fun _ => ⟨mine, alias_, rfl⟩, fun other => absurd waits other⟩
  | complete alias_ slot now found waits known section_ =>
    refine ⟨fun none_ => absurd none_ known, ?_, fun _ => .inr ⟨rfl, rfl⟩⟩
    intro other
    cases other
  | @contact old handshake section_ found known truly =>
    obtain ⟨_, invitation, outranks⟩ := rows _ _ found
    have status : (refreshedContact old handshake).status = old.status ∨
        old.initiatedByMe = true ∧ (refreshedContact old handshake).status = .active := by
      unfold refreshedContact
      dsimp only
      split
      case isTrue mine => exact .inr ⟨mine.1, rfl⟩
      case isFalse => exact .inl rfl
    refine ⟨fun none_ => absurd none_ known, ?_, ?_⟩
    · intro waits
      rcases status with same | ⟨_, active⟩
      · obtain ⟨mine, alias_, _⟩ := invitation (same ▸ waits)
        exact ⟨mine, alias_, rfl⟩
      · rw [active] at waits
        cases waits
    · intro other
      rcases status with same | ⟨_, active⟩
      · rcases outranks (same ▸ other) with mine | ⟨_, active⟩
        · exact .inl mine
        · exact .inr ⟨rfl, same.trans active⟩
      · exact .inr ⟨rfl, active⟩
  | @adopt old txid parked section_ found known truly free unrouted gap =>
    obtain ⟨_, invitation, outranks⟩ := rows _ _ found
    have status : (adopted old parked.alias_).status = .active ∨ (adopted old parked.alias_).status = old.status ∧
        old.status ≠ .pendingOutbound := by
      unfold adopted
      dsimp only
      split
      case isTrue => exact .inl rfl
      case isFalse other => exact .inr ⟨rfl, other⟩
    refine ⟨fun none_ => absurd none_ known, ?_, ?_⟩
    · intro waits
      rcases status with active | ⟨same, _⟩
      · rw [active] at waits
        cases waits
      · obtain ⟨mine, alias_, _⟩ := invitation (same ▸ waits)
        exact ⟨mine, alias_, rfl⟩
    · intro other
      rcases status with active | ⟨same, sent⟩
      · exact .inr ⟨rfl, active⟩
      · refine .inr ⟨rfl, ?_⟩
        cases is : old.status with
        | pendingOutbound => exact absurd is sent
        | pendingInbound => exact absurd (same.trans is) other
        | active => exact same.trans is
  | invite section_ start fresh => exact ⟨fun _ => rfl, fun _ => ⟨rfl, rfl, rfl⟩, fun other => absurd rfl other⟩
  | @revive txid parked now section_ start free fresh =>
    refine ⟨fun none_ => absurd none_ (chain.named txid), ?_, fun _ => .inr ⟨rfl, rfl⟩⟩
    intro waits
    cases waits
  | @restore payload windows address section_ valid spelled free absent =>
    refine ⟨fun none_ => absurd none_ (chain.proper _ _ valid), ?_, fun _ => .inl spelled⟩
    intro waits
    unfold restoredConversation at waits
    dsimp only at waits
    split at waits <;> cases waits
  | @invited snapshot reseal timestampMs txid section_ start absent =>
    subst section_
    obtain ⟨known, other, mine, _⟩ := intents _ List.mem_cons_self
    exact ⟨fun none_ => absurd none_ known, fun waits => absurd waits other, fun _ => .inl mine⟩
  | @reinvited snapshot live reseal timestampMs txid section_ start found =>
    subst section_ start
    obtain ⟨known, other, mine, _, nobody⟩ := intents _ List.mem_cons_self
    refine ⟨fun none_ => absurd none_ known, ?_, fun _ => .inl mine⟩
    intro waits
    unfold mergeHandshakeCommit at waits
    dsimp only at waits
    split at waits
    · exact absurd waits other
    · exact absurd waits (nobody live found)
  | @accept old contactAddress myAlias reseal timestampMs txid created section_ start found =>
    subst section_
    obtain ⟨known, mine⟩ := intents _ List.mem_cons_self
    refine ⟨fun none_ => absurd none_ known, ?_, fun _ => .inl mine⟩
    intro waits
    cases waits

/-- A row that waits for our accept waited before, or is a new one. -/
theorem Put.waits (licence : Put chain s act o store row) (intents : ∀ intent ∈ intents act, intent.Fit s)
    (waits : row.status = .pendingInbound) :
    (∃ old, store.conversation row.conversationId = some old ∧ old.status = .pendingInbound) ∨
      (∃ handshake sender, act = .handshakeInvite handshake sender) ∧ row.conversationId ∉ s.minted := by
  cases licence with
  | touch last found => exact .inl ⟨_, found, waits⟩
  | name found unnamed asks answer => exact .inl ⟨_, found, waits⟩
  | refresh section_ address found home still named => exact .inl ⟨_, found, still⟩
  | complete alias_ slot now found still known section_ => cases waits
  | contact section_ found known truly =>
    refine .inl ⟨_, found, ?_⟩
    unfold refreshedContact at waits
    dsimp only at waits
    split at waits
    · cases waits
    · exact waits
  | adopt section_ found known truly free unrouted gap =>
    refine .inl ⟨_, found, ?_⟩
    unfold adopted at waits
    dsimp only at waits
    split at waits
    · cases waits
    · exact waits
  | invite section_ start fresh => exact .inr ⟨⟨_, _, section_⟩, fresh⟩
  | revive now section_ start free fresh => cases waits
  | restore section_ valid spelled free absent =>
    unfold restoredConversation at waits
    dsimp only at waits
    split at waits <;> cases waits
  | invited section_ start absent =>
    subst section_
    obtain ⟨_, other, _⟩ := intents _ List.mem_cons_self
    exact absurd waits other
  | reinvited section_ start found =>
    subst section_ start
    obtain ⟨_, other, _, _, nobody⟩ := intents _ List.mem_cons_self
    unfold mergeHandshakeCommit at waits
    dsimp only at waits
    split at waits
    · exact absurd waits other
    · exact absurd waits (nobody _ found)
  | accept created section_ start found => cases waits

/-- A row that is written was there, or its id is one the section brings. -/
theorem Put.known (licence : Put chain s act o store row) (intents : ∀ intent ∈ intents act, intent.Fit s) :
    (∃ old, store.conversation row.conversationId = some old) ∨ row.conversationId ∈ draws o act ∨
      row.conversationId ∈ s.minted := by
  cases licence with
  | touch last found => exact .inl ⟨_, found⟩
  | name found unnamed asks answer => exact .inl ⟨_, found⟩
  | refresh section_ address found home still named => exact .inl ⟨_, found⟩
  | complete alias_ slot now found still known section_ => exact .inl ⟨_, found⟩
  | contact section_ found known truly => exact .inl ⟨_, found⟩
  | adopt section_ found known truly free unrouted gap => exact .inl ⟨_, found⟩
  | invite section_ start fresh =>
    rw [section_]
    exact .inr (.inl List.mem_cons_self)
  | revive now section_ start free fresh =>
    rw [section_]
    exact .inr (.inl List.mem_cons_self)
  | restore section_ valid spelled free absent =>
    rw [section_]
    exact .inr (.inl List.mem_cons_self)
  | invited section_ start absent =>
    subst section_
    exact .inr (.inr (intents _ List.mem_cons_self).2.2.2.1)
  | reinvited section_ start found => exact .inl ⟨_, found⟩
  | accept created section_ start found => exact .inl ⟨_, found⟩

end Puts

section Merges

open TransportStore

variable {full : TransportStore} {host : Row} {rows : List Row}

theorem mergedHost_initiated (store : TransportStore) (host : ConversationRecord) (rows : List Row) :
    (store.mergedHost host rows).initiatedByMe = host.initiatedByMe := by
  have folded : ∀ (rows : List Row) (folding : Folding),
      (rows.foldl (Folding.take store) folding).host.initiatedByMe = folding.host.initiatedByMe := by
    intro rows
    induction rows with
    | nil => exact fun _ => rfl
    | cons row rest ih =>
      intro folding
      rw [List.foldl_cons, ih]
      unfold Folding.take Folding.takeMine Folding.takeTheirs
      dsimp only
      split <;> split <;> first | rfl | (split <;> rfl)
  unfold mergedHost
  dsimp only
  split <;> exact folded rows (.start store host)

/-- An invitation is kept over invitations alone. -/
theorem TransportStore.Merged.invitations (merged : Merged store full address host rows)
    (fits : ∀ id row, store.conversation id = some row → row.Fit) (waits : host.1.status = .pendingInbound)
    {member : Row} (held : member ∈ rows) : member.1.status = .pendingInbound := by
  by_contra other
  have order := ((contactRows_split merged.split).1 member held).2.2
  have found := (merged.listed (List.mem_append_left [host] held)).1
  have best := (fits _ _ merged.best.1).invitation waits
  have rank := mergeRank_le order
  have noMine : decide (host.1.myAlias ≠ "") = false := decide_eq_false (not_not.mpr best.2.1)
  have inactive : decide (host.1.status = .active) = false := by
    rw [waits]
    rfl
  unfold mergeRank at rank
  rw [noMine, best.2.2, inactive] at rank
  simp only [Prod.Lex.toLex_le_toLex] at rank
  have least : ∀ has : Bool, ¬ has < false := by decide
  rcases (fits _ _ found).outranks other with mine | ⟨theirs, active⟩
  · rw [decide_eq_true mine] at rank
    simp [least] at rank
  · rw [theirs, decide_eq_true active] at rank
    simp [least] at rank

theorem TransportStore.Merged.fit (merged : Merged store full address host rows)
    (fits : ∀ id row, store.conversation id = some row → row.Fit) : (store.mergedHost host.1 rows).Fit := by
  have kept := kept_mergedHost store host rows
  have best := fits _ _ merged.best.1
  have initiated := mergedHost_initiated store host.1 rows
  refine ⟨?_, ?_, ?_⟩
  · intro none_
    rw [kept.address, merged.best.2.1] at none_
    exact absurd none_ merged.named
  · intro waits
    have still : host.1.status = .pendingInbound := by
      have status := kept.status
      rw [waits] at status
      split at status
      · cases status
      · exact status.symm
    obtain ⟨mine, alias_, theirs⟩ := best.invitation still
    refine ⟨initiated.trans mine, ?_, ?_⟩
    · by_contra has
      obtain ⟨member, held, hasMine⟩ := kept.hasMine_iff.mp has
      rcases List.mem_cons.mp held with rfl | held
      · exact (of_decide_eq_true hasMine) alias_
      · have waits := merged.invitations fits still held
        have found := (merged.listed (List.mem_append_left [host] held)).1
        exact (of_decide_eq_true hasMine) ((fits _ _ found).invitation waits).2.1
    · exact kept.hasTheirs_iff.mpr ⟨host, List.mem_cons_self, theirs⟩
  · intro other
    have still : host.1.status ≠ .pendingInbound := by
      intro waits
      have status := kept.status
      rw [if_neg fun both => both.1 waits] at status
      exact other (status.trans waits)
    rcases best.outranks still with mine | ⟨theirs, active⟩
    · exact .inl (kept.hasMine_iff.mpr ⟨host, List.mem_cons_self, decide_eq_true mine⟩)
    · refine .inr ⟨kept.hasTheirs_iff.mpr ⟨host, List.mem_cons_self, theirs⟩, ?_⟩
      have status := kept.status
      split at status
      · exact status
      · exact status.trans active

theorem mergedHost_waits {host : Row} {rows : List Row}
    (waits : (store.mergedHost host.1 rows).status = .pendingInbound) : host.1.status = .pendingInbound := by
  have status := (kept_mergedHost store host rows).status
  rw [waits] at status
  split at status
  · cases status
  · exact status.symm

end Merges

section Writes

/-- Part-way through a section: every row is fit, an invitation waited before or is new, and every id
    was there or is drawn. -/
structure Written (s : Hub) (act : Act) (o : Oracle) (f : Filing) : Prop where
  rows : ∀ id row, f.store.conversation id = some row → row.Fit
  waits : ∀ id row, f.store.conversation id = some row → row.status = .pendingInbound →
    (∃ old, s.store.conversation id = some old ∧ old.status = .pendingInbound) ∨
      (∃ handshake sender, act = .handshakeInvite handshake sender) ∧ id ∉ s.minted
  minted : ∀ id row, f.store.conversation id = some row → id ∈ draws o act ∨ id ∈ s.minted

theorem Hub.Known.written (known : s.Known chain) : Written s act o s.filing :=
  ⟨known.rows, fun _ _ found waits => .inl ⟨_, found, waits⟩, fun id row found => .inr (known.minted id row found)⟩

theorem Written.same {f : Filing} (written : Written s act o f)
    (same : ∀ id, f'.store.conversation id = f.store.conversation id) : Written s act o f' :=
  ⟨fun id row found => written.rows id row ((same id).symm.trans found),
    fun id row found => written.waits id row ((same id).symm.trans found),
    fun id row found => written.minted id row ((same id).symm.trans found)⟩

theorem Written.put (written : Written s act o f) (licence : Put chain s act o f.store row)
    (intents : ∀ intent ∈ intents act, intent.Fit s) :
    Written s act o { f with store := f.store.put row } := by
  refine ⟨?_, ?_, ?_⟩
  · intro id other found
    change (f.store.put row).conversation id = some other at found
    rw [TransportStore.conversation_put] at found
    split at found
    · cases found
      exact licence.fit written.rows intents
    · exact written.rows id other found
  · intro id other found waits
    change (f.store.put row).conversation id = some other at found
    rw [TransportStore.conversation_put] at found
    split at found
    case isTrue same =>
      cases found
      subst same
      rcases licence.waits intents waits with ⟨old, before, still⟩ | fresh
      · exact written.waits _ _ before still
      · exact .inr fresh
    · exact written.waits id other found waits
  · intro id other found
    change (f.store.put row).conversation id = some other at found
    rw [TransportStore.conversation_put] at found
    split at found
    case isTrue same =>
      subst same
      rcases licence.known intents with ⟨old, before⟩ | brought
      · exact written.minted _ _ before
      · exact brought
    · exact written.minted id other found

theorem Written.merge (written : Written s act o f) (address : String) :
    Written s act o { f with store := (f.store.merge address).1 } := by
  rcases TransportStore.merge_cases f.store address with short | ⟨host, rows, merged, _⟩
  · rw [short]
    exact written
  · refine ⟨?_, ?_, ?_⟩
    · intro id row found
      rcases merged.conversation_cases found with ⟨_, rfl⟩ | ⟨_, _, before⟩
      · exact merged.fit written.rows
      · exact written.rows id row before
    · intro id row found waits
      rcases merged.conversation_cases found with ⟨rfl, rfl⟩ | ⟨_, _, before⟩
      · exact written.waits _ _ merged.best.1 (mergedHost_waits waits)
      · exact written.waits id row before waits
    · intro id row found
      rcases merged.conversation_cases found with ⟨rfl, rfl⟩ | ⟨_, _, before⟩
      · exact written.minted _ _ merged.best.1
      · exact written.minted id row before

theorem Write.written (write : Write chain s act o f f') (intents : ∀ intent ∈ intents act, intent.Fit s)
    (written : Written s act o f) : Written s act o f' := by
  cases write with
  | put licence => exact written.put licence intents
  | reveal found contact => exact written.same fun _ => rfl
  | conceal section_ empty => exact written.same fun id => TransportStore.conversation_conceal _ _ _
  | enter absent licence => exact written.same fun id => TransportStore.conversation_recordMessage _ _ _
  | reenter wins licence => exact written.same fun id => TransportStore.conversation_overrideMessage _ _ _
  | file absent licence => exact written.same fun id => TransportStore.conversation_recordMessage _ _ _
  | override section_ start wins => exact written.same fun id => TransportStore.conversation_overrideMessage _ _ _
  | remove txids => exact written.same fun id => TransportStore.conversation_removeMessages _ _ _
  | @drop gone known empty =>
    have before : ∀ id row, (f.store.drop gone).conversation id = some row → f.store.conversation id = some row := by
      intro id row found
      rw [TransportStore.conversation_drop] at found
      split at found
      · cases found
      · exact found
    exact ⟨fun id row found => written.rows id row (before id row found),
      fun id row found => written.waits id row (before id row found),
      fun id row found => written.minted id row (before id row found)⟩
  | merge address => exact written.merge address
  | wipe section_ => exact ⟨fun _ _ found => (nomatch found), fun _ _ found => (nomatch found),
      fun _ _ found => (nomatch found)⟩

theorem writes_written (writes : Writes chain s act o f f') (intents : ∀ intent ∈ intents act, intent.Fit s)
    (written : Written s act o f) : Written s act o f' := by
  induction writes with
  | refl => exact written
  | tail _ write ih => exact write.written intents ih

end Writes

section Steps

variable {call : Nat} {rest : List Act} {e : Event}

theorem Hub.Performed.written (performed : Performed chain s call o act rest next) (known : s.Known chain) :
    Written s act o next.filing :=
  writes_written (performed.writes known.sound) (fun intent member => known.intents intent
    (.inl ⟨act, performed.here, member⟩)) known.written

/-- What is prepared is fit as it is. -/
theorem allot_fit {intent : TransportIntent} (answers : s.answers chain act o = true) (prepared : Act.allot intent ∈ (s.perform chain o act).2) :
    match intent with
    | .handshake snapshot _ _ => snapshot.contactAddress ≠ "" ∧ snapshot.status ≠ .pendingInbound ∧
        snapshot.myAlias ≠ "" ∧ ((∃ address, act = .prepareHandshake address) ∧
          snapshot.conversationId ∈ draws o act ∧ snapshot.conversationId ∉ s.minted ∨
          ∃ row, s.store.conversation snapshot.conversationId = some row ∧ row.status ≠ .pendingInbound)
    | .accept _ contactAddress myAlias _ _ => contactAddress ≠ "" ∧ myAlias ≠ ""
    | _ => True := by
  unfold Hub.answers at answers
  obtain ⟨truly, oracle⟩ := Bool.and_eq_true_iff.mp answers
  obtain ⟨fresh, named⟩ := of_decide_eq_true oracle
  cases perform_next prepared with
  | @allotHandshake address dest reuse valid reuses =>
    have proper := chain.proper _ _ valid
    cases reuse with
    | none => exact ⟨proper, by simp [outgoing], named, .inl ⟨⟨_, rfl⟩, List.mem_cons_self, fresh⟩⟩
    | some row =>
      obtain ⟨found, contact, kept⟩ := reuses row rfl
      have other : row.status ≠ .pendingInbound := by
        intro waits
        unfold handshakeReuses at kept
        rw [waits] at kept
        simp at kept
      refine ⟨?_, other, ?_, .inr ⟨row, found, other⟩⟩
      · exact contact ▸ proper
      · unfold outgoing
        dsimp only
        split
        case isTrue mine => exact mine
        case isFalse => exact named
  | allotComm found sendable => exact True.intro
  | @allotAccept sender conversationId theirAlias txid answer =>
    rw [answer] at truly
    have same : sender = chain.sender txid := of_decide_eq_true truly
    exact ⟨same ▸ chain.named txid, named⟩
  | allotStash => exact True.intro

theorem step_known (known : s.Known chain) (steps : step chain s e = some next) : next.Known chain := by
  have sound := step_sound known.sound steps
  rcases step_cases steps with ⟨call, o, act, rest, rfl, performed⟩ | idle
  · have written := performed.written known
    have minted : ∀ id, id ∈ draws o act ∨ id ∈ s.minted → id ∈ next.minted := by
      intro id held
      rw [performed.minted, Finset.mem_union, List.mem_toFinset]
      exact held
    refine ⟨sound, written.rows, fun id row found => minted id (written.minted id row found), ?_⟩
    -- an id that is nobody else's stays so: an invitation is new, or waited before
    have keeps : ∀ id, id ∈ s.minted → (∀ old, s.store.conversation id = some old → old.status ≠ .pendingInbound) →
        ∀ row, next.store.conversation id = some row → row.status ≠ .pendingInbound := by
      intro id held nobody row found waits
      rcases written.waits id row found waits with ⟨old, before, still⟩ | ⟨_, fresh⟩
      · exact nobody old before still
      · exact fresh held
    intro intent carries
    rcases performed.carries carries with before | prepared
    · have fit := known.intents intent before
      cases intent with
      | handshake snapshot reseal timestampMs =>
        obtain ⟨contact, other, mine, held, nobody⟩ := fit
        exact ⟨contact, other, mine, minted _ (.inr held), keeps _ held nobody⟩
      | accept id address myAlias reseal timestampMs => exact fit
      | _ => exact True.intro
    · have fit := allot_fit performed.answers prepared
      cases intent with
      | handshake snapshot reseal timestampMs =>
        obtain ⟨contact, other, mine, ⟨⟨address, section_⟩, drawn, fresh⟩ | ⟨row, found, is⟩⟩ := fit
        · refine ⟨contact, other, mine, minted _ (.inl drawn), ?_⟩
          intro row found waits
          rcases written.waits _ row found waits with ⟨old, before, _⟩ | ⟨⟨_, _, invites⟩, _⟩
          · exact fresh (known.minted _ _ before)
          · rw [section_] at invites
            cases invites
        · have held := known.minted _ _ found
          refine ⟨contact, other, mine, minted _ (.inr held), keeps _ held ?_⟩
          intro old before
          rw [found] at before
          cases before
          exact is
      | accept id address myAlias reseal timestampMs => exact fit
      | _ => exact True.intro
  · have same : next.store = s.store := congrArg Filing.store idle.filing
    refine ⟨sound, ?_, ?_, ?_⟩
    · rw [same]
      exact known.rows
    · rw [same, idle.minted]
      exact known.minted
    · intro intent carries
      have fit := known.intents intent (idle.carries carries)
      cases intent with
      | handshake snapshot reseal timestampMs =>
        unfold TransportIntent.Fit
        rw [same, idle.minted]
        exact fit
      | accept id address myAlias reseal timestampMs => exact fit
      | _ => exact True.intro

theorem launch_known : launch.Known chain := by
  refine ⟨launch_sound, fun _ _ found => (nomatch found), fun _ _ found => (nomatch found), ?_⟩
  rintro intent (⟨act, ⟨_, _, found, _⟩, _⟩ | ⟨_, stored⟩ | ⟨_, stored⟩)
  · cases found
  · cases stored
  · cases stored

end Steps

end Kaspaverse.Transport
