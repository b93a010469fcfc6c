import Mathlib
import Kaspaverse.Transport.HubMoves

namespace Kaspaverse.Transport.Hub

variable {chain : Chain} {s : Hub} {act : Act} {o : Oracle} {txid sender : String}

section Parked

variable {parked : ParkedComms} {comm : ParkedComm} {entry : String × ParkedComm}

theorem evict_mem {entries : List (String × ParkedComm)} (member : entry ∈ ParkedComms.evict entries) :
    entry ∈ entries := by
  induction entries with
  | nil => exact member
  | cons oldest rest ih =>
    unfold ParkedComms.evict at member
    split at member
    · exact List.mem_cons_of_mem _ (ih member)
    · exact member

theorem park_mem (member : entry ∈ (parked.park txid comm).entries) :
    entry ∈ parked.entries ∨ entry = (txid, comm) := by
  unfold ParkedComms.park at member
  split at member
  · exact .inl member
  · rcases List.mem_append.mp (evict_mem member) with earlier | last
    · exact .inl earlier
    · exact .inr (List.mem_singleton.mp last)

theorem find_mem (found : parked.find txid = some comm) : (txid, comm) ∈ parked.entries := by
  unfold ParkedComms.find at found
  obtain ⟨entry, there, rfl⟩ := Option.map_eq_some_iff.mp found
  have same : entry.1 = txid := of_decide_eq_true (List.find?_some there :)
  rw [← same]
  exact List.mem_of_find?_eq_some there

end Parked

/-- What a section hands on is sound, and so is what it parks. -/
structure Hands (chain : Chain) (after : Hub × List Act) : Prop where
  acts : ∀ act ∈ after.2, act.Sound chain
  parked : ∀ e ∈ after.1.comms.entries, e.2.Honest chain e.1

theorem Hands.nothing (sound : s.Sound chain) : Hands chain (s, []) := ⟨List.forall_mem_nil _, sound.parked⟩

theorem Hands.one (sound : s.Sound chain) (here : act.Sound chain) : Hands chain (s, [act]) := by
  refine ⟨?_, sound.parked⟩
  intro other member
  rw [List.mem_singleton] at member
  rw [member]
  exact here

theorem Hands.quiet {after : Hub} (sound : s.Sound chain) (same : after.comms = s.comms) :
    Hands chain (after, []) := by
  refine ⟨List.forall_mem_nil _, ?_⟩
  show ∀ e ∈ after.comms.entries, _
  rw [same]
  exact sound.parked

theorem Hands.fewer {after : Hub} {acts : List Act} (sound : s.Sound chain)
    (parked : ∀ e ∈ after.comms.entries, e ∈ s.comms.entries) (handed : ∀ act ∈ acts, act.Sound chain) :
    Hands chain (after, acts) := ⟨handed, fun e member => sound.parked e (parked e member)⟩

theorem disprove_sound : ∀ act ∈ disprove txid, act.Sound chain := by
  intro act member
  rcases List.mem_cons.mp member with rfl | member
  · exact True.intro
  · rw [List.mem_singleton.mp member]
    exact True.intro

theorem recordParkedRows_comms (h : Hub) (id sender : String) (bound : KeySlot)
    (rows : List (String × ParkedComm)) (now : Nat) :
    (h.recordParkedRows id sender bound rows now).comms = h.comms := by
  have all : ∀ (rows : List (String × ParkedComm)) (h : Hub),
      (rows.foldl (recordParked id sender bound now) h).comms = h.comms := by
    intro rows
    induction rows with
    | nil => exact fun _ => rfl
    | cons row rest ih =>
      intro h
      rw [List.foldl_cons, ih]
      unfold recordParked
      split <;> rfl
  exact all rows h

theorem named_hands {h : Hub} {id : String} {alias_ : Option String} (sound : s.Sound chain)
    (same : h.comms = s.comms) : Hands chain (h.named id sender alias_) := by
  refine ⟨?_, ?_⟩
  · intro act member
    obtain ⟨_, _, rfl⟩ := List.mem_map.mp member
    exact True.intro
  · show ∀ e ∈ h.comms.entries, _
    rw [same]
    exact sound.parked

section Sections

variable {comm : InboundComm} {alias_ : String} {routed : RoutedComm}

theorem commStored_sound (honest : comm.Honest chain) : ∀ act ∈ s.commStored comm, act.Sound chain := by
  intro act member
  unfold commStored at member
  split at member
  case h_1 old alias_ stored _ =>
    have node : comm.origin = .node := by
      unfold Transport.commStored overridable at stored
      split at stored
      · cases stored
      · split at stored
        case isTrue allowed => exact (of_decide_eq_true allowed).1
        case isFalse => cases stored
    split at member
    · rcases List.mem_append.mp member with first | last
      · exact disprove_sound act first
      · rw [List.mem_singleton.mp last]
        exact ⟨honest, fun replaces => nomatch replaces⟩
    · rw [List.mem_singleton.mp member]
      exact ⟨honest, fun _ => node⟩
  · rw [List.mem_singleton.mp member]
    exact ⟨honest, fun replaces => nomatch replaces⟩
  · cases member

theorem commSenderVerdict_awaits {origin : EventOrigin} {named : Option String} {address : String}
    {verdict : CommSenderVerdict} (is : commSenderVerdict origin named address = verdict)
    (awaits : verdict = .awaitSender ∨ verdict = .awaitContact) : origin = .node := by
  subst is
  unfold commSenderVerdict at awaits
  cases named with
  | none =>
    simp only at awaits
    split at awaits
    case isTrue node => exact node
    case isFalse => simp at awaits
  | some sender =>
    simp only at awaits
    split at awaits
    · simp at awaits
    · split at awaits
      case isTrue both => exact both.2
      case isFalse => simp at awaits

theorem commRoute_sound {replaces : Option MessageRecord} (honest : comm.Honest chain)
    (allowed : replaces.isSome = true → comm.origin = .node) :
    ∀ act ∈ s.commRoute comm alias_ replaces, act.Sound chain := by
  intro act member
  unfold commRoute at member
  split at member
  · rcases List.mem_append.mp member with first | last
    · split at first
      · exact disprove_sound act first
      · cases first
    · rw [List.mem_singleton.mp last]
      exact honest
  case h_2 row _ =>
    split at member
    · cases member
    case h_2 verdict ok =>
      have judged : commSenderVerdict comm.origin comm.sender row.contactAddress = verdict := by
        unfold commRouted at ok
        split at ok
        · cases ok
        · split at ok
          · cases ok
          · exact Except.ok.inj ok
      dsimp only at member
      split at member
      · rw [List.mem_singleton.mp member]
        exact ⟨honest, allowed, .inl rfl⟩
      · split at member
        · rcases List.mem_append.mp member with first | last
          · split at first
            · exact disprove_sound act first
            · cases first
          · rw [List.mem_singleton.mp last]
            exact True.intro
        · cases member
      · split at member
        · cases member
        · rw [List.mem_singleton.mp member]
          exact ⟨honest, allowed, .inr (commSenderVerdict_awaits judged (.inl rfl))⟩
      · split at member
        · cases member
        · rw [List.mem_singleton.mp member]
          exact ⟨honest, allowed, .inr (commSenderVerdict_awaits judged (.inr rfl))⟩

theorem commOpen_sound (sound : (Act.commOpen routed).Sound chain) :
    ∀ act ∈ commOpen routed o, act.Sound chain := by
  intro act member
  unfold commOpen at member
  split at member
  · split at member
    · rw [List.mem_singleton.mp member]
      exact fun _ named => nomatch named
    · rw [List.mem_singleton.mp member]
      exact sound
  · cases member

theorem commFile_hands {slot : KeySlot} {envelope : List UInt8} (sound : s.Sound chain)
    (here : (Act.commFile routed slot envelope).Sound chain) :
    Hands chain (s.commFile routed slot envelope o, []) := by
  unfold commFile
  dsimp only
  split
  · split <;> exact .quiet sound rfl
  case h_2 holds =>
    refine ⟨List.forall_mem_nil _, ?_⟩
    intro entry member
    rcases park_mem member with earlier | rfl
    · exact sound.parked entry earlier
    · have node : routed.comm.origin = .node := by
        unfold commRechecked at holds
        split at holds
        · split at holds <;> cases holds
        · split at holds
          · cases holds
          · split at holds
            · cases holds
            · split at holds
              · cases holds
              case h_2 waits => exact commSenderVerdict_awaitContact waits
              · cases holds
      exact here.1 node
  · unfold recordComm
    dsimp only
    split
    · split <;> exact .quiet sound rfl
    · split <;> exact .quiet sound rfl

end Sections

section Handshakes

variable {handshake : OpenedHandshake}

theorem handshakeStored_sound {inbound : InboundHandshake} (here : (Act.handshakeStored inbound).Sound chain) :
    ∀ act ∈ s.handshakeStored inbound, act.Sound chain := by
  intro act member
  unfold handshakeStored at member
  split at member
  · split at member
    case isTrue allowed =>
      rw [List.mem_singleton.mp member]
      refine ⟨here, ?_⟩
      intro old found
      rw [found] at allowed
      simp only [Option.any_some, overridable, decide_eq_true_eq] at allowed
      exact ⟨allowed.1, TransportStore.message_txid found⟩
    case isFalse => cases member
  · rw [List.mem_singleton.mp member]
    exact ⟨here, fun _ none_ => nomatch none_⟩

theorem handshakeOpen_sound {inbound : InboundHandshake} {replaces : Option MessageRecord}
    (here : (Act.handshakeOpen inbound replaces).Sound chain) :
    ∀ act ∈ handshakeOpen inbound replaces o, act.Sound chain := by
  intro act member
  unfold handshakeOpen at member
  split at member
  · dsimp only at member
    split at member
    · rw [List.mem_singleton.mp member]
      exact ⟨here.1, (here.2 _ rfl).1, (here.2 _ rfl).2⟩
    · rw [List.mem_singleton.mp member]
      exact here.1
  · cases member

theorem handshakeResolve_sound (here : (Act.handshakeResolve handshake).Sound chain)
    (answer : ∀ sender, o.sender = some sender → sender = chain.sender handshake.txid) :
    ∀ act ∈ handshakeResolve handshake o, act.Sound chain := by
  intro act member
  unfold handshakeResolve at member
  dsimp only at member
  have resolved : handshake.Resolved chain
      (if handshake.origin = .node then handshake.pageSender.or o.sender else none) := by
    intro address named
    split at named
    case isTrue node =>
      refine ⟨node, ?_⟩
      cases page : handshake.pageSender with
      | none =>
        rw [page] at named
        exact answer address named
      | some first =>
        rw [page] at named
        exact here node address (page.trans named)
    case isFalse => cases named
  split at member
  · rw [List.mem_singleton.mp member]
    exact resolved
  · rw [List.mem_singleton.mp member]
    exact resolved

theorem handshakeAwaiting_sound {named : Option String} (here : handshake.Resolved chain named) :
    ∀ act ∈ s.handshakeAwaiting handshake named, act.Sound chain := by
  intro act member
  unfold handshakeAwaiting at member
  split at member
  · rw [List.mem_singleton.mp member]
    exact here
  · split at member
    case h_1 complete =>
      obtain ⟨_, same, _⟩ := acceptanceVerdict_complete complete
      rw [List.mem_singleton.mp member]
      rw [same] at here ⊢
      exact here
    · rw [List.mem_singleton.mp member]
      exact here
    case h_3 waits =>
      rw [List.mem_singleton.mp member]
      unfold acceptanceVerdict at waits
      split at waits
      · cases waits
      case isFalse node => exact not_not.mp node
    · cases member

theorem handshakeMatch_sound {named : Option String} (here : handshake.Resolved chain named) :
    ∀ act ∈ s.handshakeMatch handshake named, act.Sound chain := by
  intro act member
  unfold handshakeMatch at member
  split at member
  · split at member
    · rw [List.mem_singleton.mp member]
      exact here
    · rw [List.mem_singleton.mp member]
      exact here
  · rw [List.mem_singleton.mp member]
    exact here

end Handshakes

section Parting

theorem release_hands {id alias_ : String} (sound : s.Sound chain) : Hands chain (s.release id alias_ sender) := by
  unfold release
  apply Hands.fewer sound
  · exact fun entry member => List.mem_of_mem_filter member
  · intro act member
    rcases List.mem_append.mp member with first | last
    · obtain ⟨_, _, rfl⟩ := List.mem_map.mp first
      exact True.intro
    · rw [List.mem_singleton.mp last]
      intro entry sibling
      obtain ⟨listed, both⟩ := List.mem_filter.mp sibling
      exact ⟨(of_decide_eq_true both).2, sound.parked entry listed⟩

theorem adopt_hands (sound : s.Sound chain) : Hands chain (s.adopt txid) := by
  unfold adopt
  split
  · exact .nothing sound
  case h_2 parked found =>
    apply Hands.fewer sound
    · exact fun entry member => List.mem_of_mem_filter member
    · intro act member
      rw [List.mem_singleton.mp member]
      exact sound.parked _ (find_mem found)

theorem foldSiblings_hands {h : Hub} {parked : ParkedComm} {id : String} {bound : KeySlot} {now : Nat}
    (sound : s.Sound chain) (same : h.comms = s.comms) :
    Hands chain (h.foldSiblings txid parked sender id bound now, []) := by
  apply Hands.fewer sound
  · intro entry member
    unfold foldSiblings at member
    rw [recordParkedRows_comms] at member
    rw [← same]
    exact List.mem_of_mem_filter member
  · exact List.forall_mem_nil _

theorem adoptFold_hands {parked : ParkedComm} (sound : s.Sound chain)
    (answer : ∀ sender, o.sender = some sender → sender = chain.sender txid) :
    Hands chain (s.adoptFold chain txid parked o) := by
  have refuses : ∀ sender, Hands chain (s, [.note txid, .forget parked.alias_ sender none]) := by
    intro sender
    apply Hands.fewer sound fun _ member => member
    intro act member
    simp only [List.mem_cons, List.not_mem_nil, or_false] at member
    rcases member with rfl | rfl <;> exact True.intro
  unfold adoptFold
  cases named : o.sender with
  | none => exact .nothing sound
  | some sender =>
    simp only
    split
    · exact .nothing sound
    split
    · exact .one sound True.intro
    cases routed : s.store.conversationByAlias parked.alias_ with
    | some row =>
      simp only
      split
      · split
        · exact refuses sender
        · exact foldSiblings_hands sound rfl
      · refine ⟨List.forall_mem_nil _, ?_⟩
        intro entry member
        rcases park_mem member with earlier | rfl
        · exact sound.parked entry earlier
        · intro other is
          cases is
          exact answer sender named
      · exact refuses sender
      · exact refuses sender
    | none =>
      cases held : s.store.conversationByContactAddress sender with
      | some existing =>
        simp only
        split
        · exact .nothing sound
        · exact foldSiblings_hands sound rfl
      | none =>
        simp only
        split
        · exact .nothing sound
        · exact foldSiblings_hands sound rfl

theorem applyParkedAcceptance_comms (s : Hub) (txid sender : String) (o : Oracle) :
    (s.applyParkedAcceptance txid sender o).comms = s.comms := by
  unfold applyParkedAcceptance
  split
  · rfl
  · dsimp only
    split
    · rfl
    · split <;> rfl

theorem releaseFile_comms (s : Hub) (id sender : String) (rows : List (String × ParkedComm)) (o : Oracle) :
    (s.releaseFile id sender rows o).comms = s.comms := by
  unfold releaseFile
  split
  · rfl
  · rfl
  · split
    · rfl
    · rw [recordParkedRows_comms]

theorem handshakeOverride_hands {handshake : OpenedHandshake} {old : MessageRecord} (sound : s.Sound chain) :
    Hands chain (s.handshakeOverride chain handshake old) := by
  unfold handshakeOverride
  dsimp only
  split
  · exact .nothing sound
  · split
    · exact .quiet sound rfl
    · split
      · exact .quiet sound rfl
      · split
        · exact .quiet sound rfl
        · exact named_hands sound rfl

theorem applyIntent_hands {intent : TransportIntent} (sound : s.Sound chain) :
    Hands chain (s.applyIntent intent txid o) := by
  cases intent with
  | accept id address myAlias reseal timestampMs =>
    unfold applyIntent applyAccept
    dsimp only
    split
    · exact .nothing sound
    · refine ⟨?_, sound.parked⟩
      intro act member
      obtain ⟨_, _, rfl⟩ := List.mem_map.mp member
      exact True.intro
  | selfStash covered timestampMs =>
    unfold applyIntent
    dsimp only
    split <;> exact .quiet sound rfl
  | _ => exact .quiet sound rfl

/-- A section of another kind hands on nothing that carries a sender. -/
def Act.Plain : Act → Prop
  | .note _ | .forget _ _ _ | .release _ _ _ | .resweepName _ _ | .stashSave _ | .blockList _ _ | .blockIds _ _
  | .seal | .blockPurge _ _ _ | .blockForget _ _ | .blockRetain _ | .allot _ | .storeIntent _ _ | .storePlan _ _
  | .prepareAcceptNamed _ _ _ | .commitCheck _ _ | .takePlan _ | .takeIntent _ _ | .abandonPlan | .abandonIntent
  | .broadcast _ _ | .apply _ _ | .startSweep _ => True
  | _ => False

theorem Act.Plain.sound (plain : Act.Plain act) : act.Sound chain := by
  cases act <;> first | exact True.intro | exact plain.elim

theorem Hands.plain {after : Hub × List Act} (sound : s.Sound chain)
    (fewer : ∀ e ∈ after.1.comms.entries, e ∈ s.comms.entries) (plain : ∀ act ∈ after.2, Act.Plain act) :
    Hands chain after :=
  ⟨fun act member => (plain act member).sound, fun e member => sound.parked e (fewer e member)⟩

theorem forget_hands {alias_ : String} {first : Option String} (sound : s.Sound chain) :
    Hands chain (s.forget alias_ sender first) := by
  apply Hands.plain sound
  · exact fun e member => List.mem_of_mem_filter member
  · intro act member
    obtain ⟨_, _, rfl⟩ := List.mem_map.mp member
    exact True.intro

theorem prepareAcceptNamed_hands {id theirAlias : String} (sound : s.Sound chain) :
    Hands chain (s.prepareAcceptNamed chain id theirAlias o) := by
  unfold prepareAcceptNamed
  split
  · exact .nothing sound
  · split
    · apply Hands.plain sound fun _ member => member
      intro act member
      rcases List.mem_cons.mp member with rfl | member
      · exact True.intro
      · split_ifs at member
        · cases member
        · rw [List.mem_singleton.mp member]
          exact True.intro
    · exact .one sound True.intro

theorem prepareHandshake_hands {address : String} (sound : s.Sound chain) :
    Hands chain (s.prepareHandshake chain address o) := by
  have shown : ∀ row : Option ConversationRecord, (row.elim s s.unhideRow).comms = s.comms := by
    intro row
    cases row with
    | none => rfl
    | some row =>
      rw [Option.elim_some]
      unfold unhideRow
      split <;> rfl
  unfold prepareHandshake
  split
  · exact .nothing sound
  · dsimp only
    cases best : ((s.store.conversationsForContactAddress _).filter handshakeReuses).argmax
        establishedRank with
    | none =>
      dsimp only
      split
      · exact .nothing sound
      · refine Hands.plain sound (fun _ member => member) ?_
        intro act member
        rw [List.mem_singleton.mp member]
        exact True.intro
    | some row =>
      have same := shown (some row)
      rw [Option.elim_some] at same
      dsimp only
      split
      · exact .quiet sound same
      · refine Hands.plain sound ?_ ?_
        · intro e member
          rw [← same]
          exact member
        · intro act member
          rw [List.mem_singleton.mp member]
          exact True.intro

end Parting

/-- What follows a sound section is sound. -/
theorem perform_hands (sound : s.Sound chain) (here : act.Sound chain) (answers : s.answers chain act o = true) :
    Hands chain (s.perform chain o act) := by
  have answer : ∀ txid, asks act = some txid → ∀ sender, o.sender = some sender → sender = chain.sender txid := by
    intro txid asked sender named
    obtain ⟨truly, _⟩ := Bool.and_eq_true_iff.mp answers
    rw [asked, named] at truly
    exact of_decide_eq_true truly
  cases act with
  | commClaim comm =>
    unfold perform
    dsimp only
    split
    · exact .one sound here
    · exact .nothing sound
  | commStored comm => exact ⟨commStored_sound here, sound.parked⟩
  | commRoute comm alias_ replaces => exact ⟨commRoute_sound here.1 here.2, sound.parked⟩
  | commWaits routed =>
    unfold perform
    dsimp only
    split
    · exact .nothing sound
    · exact .one sound here
  | commOpen routed => exact ⟨commOpen_sound here, sound.parked⟩
  | commFile routed slot envelope => exact commFile_hands sound here
  | revive comm alias_ =>
    unfold perform
    dsimp only
    split
    case isTrue tries =>
      refine .one sound ⟨here, ?_⟩
      unfold revivalRefusal at tries
      split at tries
      · cases tries
      case isFalse node => exact not_not.mp node
    case isFalse => exact .nothing sound
  | reviveOpen comm alias_ =>
    refine ⟨?_, sound.parked⟩
    intro act member
    change act ∈ reviveOpen comm alias_ o at member
    unfold reviveOpen at member
    split at member
    · rw [List.mem_singleton.mp member]
      exact here.1 here.2
    · cases member
  | park txid comm =>
    refine ⟨List.forall_mem_nil _, ?_⟩
    intro entry member
    rcases park_mem member with earlier | rfl
    · exact sound.parked entry earlier
    · exact here
  | removeArchiveRow txid =>
    apply Hands.quiet sound
    unfold removeArchiveRow
    split <;> rfl
  | handshakeStored handshake => exact ⟨handshakeStored_sound here, sound.parked⟩
  | handshakeOpen handshake replaces => exact ⟨handshakeOpen_sound here, sound.parked⟩
  | handshakeOverride handshake old => exact handshakeOverride_hands sound
  | handshakeResolve handshake => exact ⟨handshakeResolve_sound here (answer _ rfl), sound.parked⟩
  | handshakeAwaiting handshake sender => exact ⟨handshakeAwaiting_sound here, sound.parked⟩
  | handshakeComplete handshake sender id =>
    apply Hands.quiet sound
    unfold handshakeComplete
    split
    · rfl
    · split <;> rfl
  | handshakePark handshake id =>
    apply Hands.quiet sound
    unfold handshakePark
    split <;> rfl
  | handshakeMatch handshake sender => exact ⟨handshakeMatch_sound here, sound.parked⟩
  | handshakeContact handshake sender =>
    unfold perform handshakeContact
    dsimp only
    split
    · exact .one sound here
    · exact .quiet sound rfl
  | handshakeInvite handshake sender =>
    apply Hands.quiet sound
    unfold handshakeInvite
    split <;> rfl
  | release id alias_ sender => exact release_hands sound
  | releaseFile id sender rows => exact .quiet sound (releaseFile_comms _ _ _ _ _)
  | adopt txid => exact adopt_hands sound
  | adoptFold txid parked => exact adoptFold_hands sound (answer _ rfl)
  | forget alias_ sender first => exact forget_hands sound
  | acceptance txid =>
    apply Hands.quiet sound
    split
    · exact applyParkedAcceptance_comms _ _ _ _
    · rfl
  | backfill txid =>
    unfold perform backfill
    dsimp only
    split
    · exact named_hands sound rfl
    · exact .nothing sound
  | resweep =>
    refine Hands.plain sound (fun _ member => member) ?_
    intro act member
    obtain ⟨row, _, made⟩ := List.mem_filterMap.mp member
    obtain ⟨_, _, rfl⟩ := Option.map_eq_some_iff.mp made
    exact True.intro
  | resweepName id txid =>
    unfold perform resweepName
    dsimp only
    split
    · split
      · exact .nothing sound
      · exact named_hands sound rfl
    · exact .nothing sound
  | restore payload windows =>
    apply Hands.quiet sound
    unfold restore
    split
    · dsimp only
      split <;> rfl
    · rfl
  | stashLoad run provenTxid =>
    refine Hands.plain sound (fun _ member => member) ?_
    intro act member
    change act ∈ s.stashLoad run provenTxid at member
    unfold stashLoad at member
    dsimp only at member
    split at member
    · rw [List.mem_singleton.mp member]
      exact True.intro
    · cases member
  | stashSave state =>
    apply Hands.quiet sound
    split <;> rfl
  | route address =>
    apply Hands.quiet sound
    unfold route unhideRow
    split
    · split <;> rfl
    · rfl
  | blockRead id =>
    refine Hands.plain sound (fun _ member => member) ?_
    intro act member
    change act ∈ s.blockRead id at member
    unfold blockRead at member
    split at member
    · cases member
    · split at member
      · cases member
      · rw [List.mem_singleton.mp member]
        exact True.intro
  | blockList address alias_ =>
    unfold perform blockList
    dsimp only
    split
    · exact .nothing sound
    · refine Hands.plain sound (fun _ member => member) ?_
      intro act member
      rw [List.mem_singleton.mp member]
      exact True.intro
  | blockIds address alias_ =>
    refine Hands.plain sound (fun _ member => member) ?_
    intro act member
    rcases List.mem_cons.mp member with rfl | member
    · exact True.intro
    · rw [List.mem_singleton.mp member]
      exact True.intro
  | blockPurge address alias_ ids =>
    refine Hands.plain sound (fun _ member => member) ?_
    intro act member
    rw [List.mem_singleton.mp member]
    exact True.intro
  | blockForget alias_ ids =>
    refine Hands.plain sound ?_ ?_
    · intro e member
      cases alias_ with
      | none => exact member
      | some alias_ => exact List.mem_of_mem_filter member
    · intro act member
      rw [List.mem_singleton.mp member]
      exact True.intro
  | unblock address =>
    apply Hands.quiet sound
    unfold unblock
    split <;> rfl
  | wipeComms => exact ⟨List.forall_mem_nil _, List.forall_mem_nil _⟩
  | prepareHandshake address => exact prepareHandshake_hands sound
  | prepareComm id =>
    unfold perform prepareComm
    dsimp only
    split
    · exact .nothing sound
    · split
      · refine Hands.plain sound (fun _ member => member) ?_
        intro act member
        rw [List.mem_singleton.mp member]
        exact True.intro
      · exact .nothing sound
  | prepareAccept id =>
    refine Hands.plain sound (fun _ member => member) ?_
    intro act member
    change act ∈ s.prepareAccept chain id o at member
    unfold prepareAccept at member
    split at member
    · cases member
    · split at member
      · cases member
      · split at member
        · split at member
          · rw [List.mem_singleton.mp member]
            exact True.intro
          · cases member
        · cases member
  | prepareAcceptNamed id theirAlias txid => exact prepareAcceptNamed_hands sound
  | prepareStash =>
    refine Hands.plain sound (fun _ member => member) ?_
    intro act member
    change act ∈ s.prepareStash chain o at member
    unfold prepareStash at member
    split at member
    · cases member
    · rw [List.mem_singleton.mp member]
      exact True.intro
  | allot intent =>
    refine Hands.plain sound (fun _ member => member) ?_
    intro act member
    change act ∈ (if o.ok then [Act.storeIntent s.nonce intent] else []) at member
    split at member
    · rw [List.mem_singleton.mp member]
      exact True.intro
    · cases member
  | storeIntent nonce intent =>
    refine Hands.plain sound (fun _ member => member) ?_
    intro act member
    rw [List.mem_singleton.mp member]
    exact True.intro
  | commit nonce =>
    refine Hands.plain sound (fun _ member => member) ?_
    intro act member
    change act ∈ s.commit nonce at member
    unfold commit at member
    split at member <;> rw [List.mem_singleton.mp member] <;> exact True.intro
  | commitCheck nonce target =>
    refine Hands.plain sound (fun _ member => member) ?_
    intro act member
    change act ∈ s.commitCheck nonce target at member
    unfold commitCheck at member
    split at member
    · simp only [List.mem_cons, List.not_mem_nil, or_false] at member
      rcases member with rfl | rfl <;> exact True.intro
    · rw [List.mem_singleton.mp member]
      exact True.intro
  | takePlan nonce =>
    unfold perform takePlan
    dsimp only
    split
    · split
      · refine Hands.plain sound (fun _ member => member) ?_
        intro act member
        rw [List.mem_singleton.mp member]
        exact True.intro
      · exact .nothing sound
    · exact .nothing sound
  | takeIntent nonce built =>
    refine Hands.plain sound (fun _ member => member) ?_
    intro act member
    rw [List.mem_singleton.mp member]
    exact True.intro
  | broadcast built intent =>
    refine Hands.plain sound (fun _ member => member) ?_
    intro act member
    change act ∈ broadcast intent o at member
    unfold broadcast at member
    split at member
    · rw [List.mem_singleton.mp member]
      exact True.intro
    · cases member
  | apply intent txid => exact applyIntent_hands sound
  | startBlocked =>
    refine Hands.plain sound (fun _ member => member) ?_
    intro act member
    rw [List.mem_singleton.mp member]
    exact True.intro
  | _ => exact .quiet sound rfl

end Kaspaverse.Transport.Hub
