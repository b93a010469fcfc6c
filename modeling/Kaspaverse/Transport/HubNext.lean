import Kaspaverse.Transport.HubRuns

namespace Kaspaverse.Transport.Hub

variable {chain : Chain} {s next : Hub} {act other : Act} {o : Oracle}

/-- Which sections may follow one of their call, and what they take over from it. -/
inductive Next (chain : Chain) (s : Hub) (o : Oracle) : Act → Act → Prop
  | note (act : Act) (txid : String) : Next chain s o act (.note txid)
  | removeArchiveRow (act : Act) (txid : String) : Next chain s o act (.removeArchiveRow txid)
  | release (act : Act) (conversationId alias_ sender : String) :
    Next chain s o act (.release conversationId alias_ sender)
  | commStored {comm : InboundComm} (unrefuted : comm.origin = .fill → s.refuted.contains comm.txid = false) :
    Next chain s o (.commClaim comm) (.commStored comm)
  | commRoute (comm : InboundComm) (alias_ : String) (replaces : Option MessageRecord) :
    Next chain s o (.commStored comm) (.commRoute comm alias_ replaces)
  | revive (comm : InboundComm) (alias_ : String) (replaces : Option MessageRecord) :
    Next chain s o (.commRoute comm alias_ replaces) (.revive comm alias_)
  | commWaits {comm : InboundComm} {routed : RoutedComm} (alias_ : String) (replaces : Option MessageRecord)
    (same : routed.comm = comm) : Next chain s o (.commRoute comm alias_ replaces) (.commWaits routed)
  | commOpen {comm : InboundComm} {routed : RoutedComm} (alias_ : String) (replaces : Option MessageRecord)
    (same : routed.comm = comm) : Next chain s o (.commRoute comm alias_ replaces) (.commOpen routed)
  | waited (routed : RoutedComm) : Next chain s o (.commWaits routed) (.commOpen routed)
  | parkUnnamed (routed : RoutedComm) (parked : ParkedComm) (awaits : routed.verdict = .awaitSender) :
    Next chain s o (.commOpen routed) (.park routed.comm.txid parked)
  | commFile (routed : RoutedComm) (slot : KeySlot) (envelope : List UInt8) :
    Next chain s o (.commOpen routed) (.commFile routed slot envelope)
  | reviveOpen {comm : InboundComm} (alias_ : String) (node : comm.origin = .node) :
    Next chain s o (.revive comm alias_) (.reviveOpen comm alias_)
  | parkUnrouted (comm : InboundComm) (alias_ : String) (parked : ParkedComm) :
    Next chain s o (.reviveOpen comm alias_) (.park comm.txid parked)
  | handshakeOpen (handshake : InboundHandshake) (replaces : Option MessageRecord) :
    Next chain s o (.handshakeStored handshake) (.handshakeOpen handshake replaces)
  | handshakeOverride {handshake : InboundHandshake} {opened : OpenedHandshake} (old : MessageRecord)
    (same : opened.txid = handshake.txid) (origin : opened.origin = handshake.origin) :
    Next chain s o (.handshakeOpen handshake (some old)) (.handshakeOverride opened old)
  | handshakeResolve {handshake : InboundHandshake} {opened : OpenedHandshake}
    (same : opened.txid = handshake.txid) (origin : opened.origin = handshake.origin) :
    Next chain s o (.handshakeOpen handshake none) (.handshakeResolve opened)
  | handshakeAwaiting (handshake : OpenedHandshake) (sender : Option String) :
    Next chain s o (.handshakeResolve handshake) (.handshakeAwaiting handshake sender)
  | resolveMatch (handshake : OpenedHandshake) (sender : Option String) :
    Next chain s o (.handshakeResolve handshake) (.handshakeMatch handshake sender)
  | awaitMatch (handshake : OpenedHandshake) (sender : Option String) :
    Next chain s o (.handshakeAwaiting handshake sender) (.handshakeMatch handshake sender)
  | handshakeComplete (handshake : OpenedHandshake) (resolved : Option String) (sender conversationId : String) :
    Next chain s o (.handshakeAwaiting handshake resolved) (.handshakeComplete handshake sender conversationId)
  | handshakePark (handshake : OpenedHandshake) (resolved : Option String) (conversationId : String) :
    Next chain s o (.handshakeAwaiting handshake resolved) (.handshakePark handshake conversationId)
  | handshakeContact (handshake : OpenedHandshake) (sender : String) :
    Next chain s o (.handshakeMatch handshake (some sender)) (.handshakeContact handshake sender)
  | matchInvite (handshake : OpenedHandshake) (sender : Option String) :
    Next chain s o (.handshakeMatch handshake sender) (.handshakeInvite handshake sender)
  | contactInvite (handshake : OpenedHandshake) (sender : String) :
    Next chain s o (.handshakeContact handshake sender) (.handshakeInvite handshake (some sender))
  | releaseFile {rows : List (String × ParkedComm)} (conversationId alias_ sender : String)
    (held : ∀ row ∈ rows, row ∈ s.comms.entries) :
    Next chain s o (.release conversationId alias_ sender) (.releaseFile conversationId sender rows)
  | adoptFold {txid : String} {parked : ParkedComm} (held : (txid, parked) ∈ s.comms.entries) :
    Next chain s o (.adopt txid) (.adoptFold txid parked)
  | forget (txid : String) (parked : ParkedComm) (sender : String) (first : Option String) :
    Next chain s o (.adoptFold txid parked) (.forget parked.alias_ sender first)
  | resweepName (conversationId txid : String) : Next chain s o .resweep (.resweepName conversationId txid)
  | stashSave {run : Nat} {txid : String} {state : StashState} (stored : s.stash = some state) :
    Next chain s o (.stashLoad run txid) (.stashSave { state with confirmedReadable := true })
  | blockList (conversationId address : String) (alias_ : Option String) :
    Next chain s o (.blockRead conversationId) (.blockList address alias_)
  | blockIds {address : String} {alias_ : Option String} (saved : o.ok = true) :
    Next chain s o (.blockList address alias_) (.blockIds address alias_)
  | seal (address : String) (alias_ : Option String) : Next chain s o (.blockIds address alias_) .seal
  | blockPurge (address : String) (alias_ : Option String) (ids : List String) :
    Next chain s o (.blockIds address alias_) (.blockPurge address alias_ ids)
  | blockForget (address : String) (alias_ : Option String) (ids : List String) :
    Next chain s o (.blockPurge address alias_ ids) (.blockForget alias_ ids)
  | blockRetain (alias_ : Option String) (ids : List String) :
    Next chain s o (.blockForget alias_ ids) (.blockRetain ids)
  | allotHandshake {address dest : String} {reuse : Option ConversationRecord}
    (valid : chain.mainnet address = some dest)
    (reuses : ∀ row, reuse = some row → s.store.conversation row.conversationId = some row ∧
      row.contactAddress = dest ∧ handshakeReuses row = true) :
    Next chain s o (.prepareHandshake address) (.allot (.handshake (outgoing reuse dest o) o.bytes o.now))
  | allotComm {row : ConversationRecord} {conversationId : String}
    (found : s.store.conversation conversationId = some row) (sendable : commSendable row = true) :
    Next chain s o (.prepareComm conversationId)
      (.allot (.comm conversationId row.myAlias o.bytes (row.boundBranch, row.boundIndex) o.now o.wire))
  | prepareAcceptNamed {row : ConversationRecord} {conversationId : String} (theirAlias txid : String)
    (found : s.store.conversation conversationId = some row) (waits : row.status = .pendingInbound)
    (shown : s.store.isHidden conversationId = false) :
    Next chain s o (.prepareAccept conversationId) (.prepareAcceptNamed conversationId theirAlias txid)
  | allotAccept {sender : String} (conversationId theirAlias txid : String) (answer : o.sender = some sender) :
    Next chain s o (.prepareAcceptNamed conversationId theirAlias txid)
      (.allot (.accept conversationId sender o.freshAlias o.bytes o.now))
  | allotStash : Next chain s o .prepareStash (.allot (.selfStash (s.stashable chain) o.now))
  | storeIntent (intent : TransportIntent) : Next chain s o (.allot intent) (.storeIntent s.nonce intent)
  | storePlan (nonce : Nat) (intent : TransportIntent) :
    Next chain s o (.storeIntent nonce intent) (.storePlan nonce intent)
  | commitCheck (nonce : Nat) (target : String) : Next chain s o (.commit nonce) (.commitCheck nonce target)
  | takePlan (nonce : Nat) : Next chain s o (.commit nonce) (.takePlan nonce)
  | abandonPlan (nonce : Nat) (target : String) : Next chain s o (.commitCheck nonce target) .abandonPlan
  | abandonIntent (nonce : Nat) (target : String) : Next chain s o (.commitCheck nonce target) .abandonIntent
  | checked (nonce : Nat) (target : String) : Next chain s o (.commitCheck nonce target) (.takePlan nonce)
  | takeIntent {nonce stored : Nat} {built : TransportIntent} (plan : s.plan = some (stored, built)) :
    Next chain s o (.takePlan nonce) (.takeIntent nonce built)
  | broadcast {intent : Option TransportIntent} (nonce : Nat) (built : TransportIntent)
    (taken : ∀ taken, intent = some taken → ∃ stored, s.intent = some (stored, taken)) :
    Next chain s o (.takeIntent nonce built) (.broadcast built intent)
  | apply (built intent : TransportIntent) :
    Next chain s o (.broadcast built (some intent)) (.apply intent o.txid)
  | startSweep (addresses : List String) : Next chain s o .startBlocked (.startSweep addresses)

section Sections

theorem disprove_next {txid : String} (member : other ∈ disprove txid) : Next chain s o act other := by
  rcases List.mem_cons.mp member with rfl | member
  · exact .note _ _
  · rw [List.mem_singleton.mp member]
    exact .removeArchiveRow _ _

theorem commStored_next {comm : InboundComm} (member : other ∈ s.commStored comm) :
    Next chain s o (.commStored comm) other := by
  unfold commStored at member
  split at member
  · split at member
    · rcases List.mem_append.mp member with first | last
      · exact disprove_next first
      · rw [List.mem_singleton.mp last]
        exact .commRoute _ _ _
    · rw [List.mem_singleton.mp member]
      exact .commRoute _ _ _
  · rw [List.mem_singleton.mp member]
    exact .commRoute _ _ _
  · cases member

theorem commRoute_next {comm : InboundComm} {alias_ : String} {replaces : Option MessageRecord}
    (member : other ∈ s.commRoute comm alias_ replaces) :
    Next chain s o (.commRoute comm alias_ replaces) other := by
  unfold commRoute at member
  split at member
  · rcases List.mem_append.mp member with first | last
    · split at first
      · exact disprove_next first
      · cases first
    · rw [List.mem_singleton.mp last]
      exact .revive _ _ _
  · split at member
    · cases member
    · dsimp only at member
      split at member
      · rw [List.mem_singleton.mp member]
        exact .commOpen _ _ rfl
      · split at member
        · rcases List.mem_append.mp member with first | last
          · split at first
            · exact disprove_next first
            · cases first
          · rw [List.mem_singleton.mp last]
            exact .note _ _
        · cases member
      · split at member
        · cases member
        · rw [List.mem_singleton.mp member]
          exact .commWaits _ _ rfl
      · split at member
        · cases member
        · rw [List.mem_singleton.mp member]
          exact .commWaits _ _ rfl

theorem commOpen_next {routed : RoutedComm} (member : other ∈ commOpen routed o) :
    Next chain s o (.commOpen routed) other := by
  unfold commOpen at member
  split at member
  · split at member
    case isTrue awaits =>
      rw [List.mem_singleton.mp member]
      exact .parkUnnamed _ _ awaits
    · rw [List.mem_singleton.mp member]
      exact .commFile _ _ _
  · cases member

theorem handshakeStored_next {handshake : InboundHandshake} (member : other ∈ s.handshakeStored handshake) :
    Next chain s o (.handshakeStored handshake) other := by
  unfold handshakeStored at member
  split at member
  · split at member
    · rw [List.mem_singleton.mp member]
      exact .handshakeOpen _ _
    · cases member
  · rw [List.mem_singleton.mp member]
    exact .handshakeOpen _ _

theorem handshakeOpen_next {handshake : InboundHandshake} {replaces : Option MessageRecord}
    (member : other ∈ handshakeOpen handshake replaces o) :
    Next chain s o (.handshakeOpen handshake replaces) other := by
  unfold handshakeOpen at member
  split at member
  · dsimp only at member
    split at member
    · rw [List.mem_singleton.mp member]
      exact .handshakeOverride _ rfl rfl
    · rw [List.mem_singleton.mp member]
      exact .handshakeResolve rfl rfl
  · cases member

theorem named_next {h : Hub} {id sender : String} {alias_ : Option String}
    (member : other ∈ (h.named id sender alias_).2) : Next chain s o act other := by
  obtain ⟨_, _, rfl⟩ := List.mem_map.mp member
  exact .release _ _ _ _

theorem handshakeOverride_next {handshake : OpenedHandshake} {old : MessageRecord}
    (member : other ∈ (s.handshakeOverride chain handshake old).2) :
    Next chain s o (.handshakeOverride handshake old) other := by
  unfold handshakeOverride at member
  dsimp only at member
  split at member
  · cases member
  · split at member
    · cases member
    · split at member
      · cases member
      · split at member
        · cases member
        · exact named_next member

theorem handshakeResolve_next {handshake : OpenedHandshake} (member : other ∈ handshakeResolve handshake o) :
    Next chain s o (.handshakeResolve handshake) other := by
  unfold handshakeResolve at member
  dsimp only at member
  split at member
  · rw [List.mem_singleton.mp member]
    exact .handshakeAwaiting _ _
  · rw [List.mem_singleton.mp member]
    exact .resolveMatch _ _

theorem handshakeAwaiting_next {handshake : OpenedHandshake} {sender : Option String}
    (member : other ∈ s.handshakeAwaiting handshake sender) :
    Next chain s o (.handshakeAwaiting handshake sender) other := by
  unfold handshakeAwaiting at member
  split at member
  · rw [List.mem_singleton.mp member]
    exact .awaitMatch _ _
  · split at member
    · rw [List.mem_singleton.mp member]
      exact .handshakeComplete _ _ _ _
    · rw [List.mem_singleton.mp member]
      exact .awaitMatch _ _
    · rw [List.mem_singleton.mp member]
      exact .handshakePark _ _ _
    · cases member

theorem handshakeMatch_next {handshake : OpenedHandshake} {sender : Option String}
    (member : other ∈ s.handshakeMatch handshake sender) :
    Next chain s o (.handshakeMatch handshake sender) other := by
  unfold handshakeMatch at member
  split at member
  · split at member
    · rw [List.mem_singleton.mp member]
      exact .handshakeContact _ _
    · rw [List.mem_singleton.mp member]
      exact .matchInvite _ _
  · rw [List.mem_singleton.mp member]
    exact .matchInvite _ _

theorem release_next {conversationId alias_ sender : String}
    (member : other ∈ (s.release conversationId alias_ sender).2) :
    Next chain s o (.release conversationId alias_ sender) other := by
  rcases List.mem_append.mp member with refused | last
  · obtain ⟨_, _, rfl⟩ := List.mem_map.mp refused
    exact .note _ _
  · rw [List.mem_singleton.mp last]
    exact .releaseFile _ _ _ fun _ sibling => List.mem_of_mem_filter sibling

theorem adoptFold_next {txid : String} {parked : ParkedComm}
    (member : other ∈ (s.adoptFold chain txid parked o).2) : Next chain s o (.adoptFold txid parked) other := by
  have refuse : ∀ {sender}, other ∈ [Act.note txid, Act.forget parked.alias_ sender none] →
      Next chain s o (.adoptFold txid parked) other := by
    intro sender refused
    rcases List.mem_cons.mp refused with rfl | last
    · exact .note _ _
    · rw [List.mem_singleton.mp last]
      exact .forget _ _ _ _
  unfold adoptFold at member
  split at member
  · cases member
  · dsimp only at member
    split at member
    · cases member
    split at member
    · rw [List.mem_singleton.mp member]
      exact .forget _ _ _ _
    split at member
    · split at member
      · split at member
        · exact refuse member
        · cases member
      · cases member
      · exact refuse member
      · exact refuse member
    · split at member
      · split at member <;> cases member
      · split at member <;> cases member

theorem prepareHandshake_next {address : String} (member : other ∈ (s.prepareHandshake chain address o).2) :
    Next chain s o (.prepareHandshake address) other := by
  unfold prepareHandshake at member
  split at member
  · cases member
  case h_2 dest valid =>
    dsimp only at member
    have reuses : ∀ row, ((s.store.conversationsForContactAddress dest).filter handshakeReuses).argmax
        establishedRank = some row → s.store.conversation row.conversationId = some row ∧
          row.contactAddress = dest ∧ handshakeReuses row = true := fun _ best => argmax_found best
    cases best : ((s.store.conversationsForContactAddress dest).filter handshakeReuses).argmax
        establishedRank with
    | none =>
      rw [best] at member reuses
      dsimp only at member
      split at member
      · cases member
      · rw [List.mem_singleton.mp member]
        exact .allotHandshake valid reuses
    | some row =>
      rw [best] at member reuses
      dsimp only at member
      split at member
      · cases member
      · rw [List.mem_singleton.mp member]
        exact .allotHandshake valid reuses

theorem prepareAccept_next {id : String} (member : other ∈ s.prepareAccept chain id o) :
    Next chain s o (.prepareAccept id) other := by
  unfold prepareAccept at member
  split at member
  · cases member
  case h_2 row found =>
    split at member
    · cases member
    case isFalse passes =>
      rw [not_or, not_or, not_not, Bool.not_eq_true] at passes
      split at member
      · split at member
        · rw [List.mem_singleton.mp member]
          exact .prepareAcceptNamed _ _ found passes.1 passes.2.1
        · cases member
      · cases member

theorem prepareAcceptNamed_next {id theirAlias txid : String}
    (member : other ∈ (s.prepareAcceptNamed chain id theirAlias o).2) :
    Next chain s o (.prepareAcceptNamed id theirAlias txid) other := by
  unfold prepareAcceptNamed at member
  split at member
  · cases member
  case h_2 sender named =>
    obtain ⟨answer, _⟩ := Option.filter_eq_some_iff.mp named
    split at member
    · rcases List.mem_cons.mp member with rfl | member
      · exact .release _ _ _ _
      · split_ifs at member
        · cases member
        · rw [List.mem_singleton.mp member]
          exact .allotAccept _ _ _ answer
    · rw [List.mem_singleton.mp member]
      exact .allotAccept _ _ _ answer

theorem applyIntent_next {intent : TransportIntent} {txid : String}
    (member : other ∈ (s.applyIntent intent txid o).2) : Next chain s o (.apply intent txid) other := by
  cases intent with
  | accept id address myAlias reseal timestampMs =>
    unfold applyIntent applyAccept at member
    dsimp only at member
    split at member
    · cases member
    · obtain ⟨_, _, rfl⟩ := List.mem_map.mp member
      exact .release _ _ _ _
  | _ => cases member

end Sections

/-- Every section that follows is one that may. -/
theorem perform_next (member : other ∈ (s.perform chain o act).2) : Next chain s o act other := by
  cases act with
  | commClaim comm =>
    unfold perform at member
    dsimp only at member
    split at member
    case isTrue claims =>
      rw [List.mem_singleton.mp member]
      refine .commStored ?_
      intro fill
      unfold Transport.commClaim at claims
      rw [if_neg (not_not.mpr fill)] at claims
      split at claims
      · cases claims
      case isFalse unrefuted => exact Bool.eq_false_iff.mpr unrefuted
    · cases member
  | commStored comm => exact commStored_next member
  | commRoute comm alias_ replaces => exact commRoute_next member
  | commWaits routed =>
    unfold perform at member
    dsimp only at member
    split at member
    · cases member
    · rw [List.mem_singleton.mp member]
      exact .waited _
  | commOpen routed => exact commOpen_next member
  | revive comm alias_ =>
    unfold perform at member
    dsimp only at member
    split at member
    case isTrue tries =>
      rw [List.mem_singleton.mp member]
      refine .reviveOpen _ ?_
      unfold revivalRefusal at tries
      split at tries
      · cases tries
      case isFalse node => exact not_not.mp node
    · cases member
  | reviveOpen comm alias_ =>
    change other ∈ reviveOpen comm alias_ o at member
    unfold reviveOpen at member
    split at member
    · rw [List.mem_singleton.mp member]
      exact .parkUnrouted _ _ _
    · cases member
  | handshakeStored handshake => exact handshakeStored_next member
  | handshakeOpen handshake replaces => exact handshakeOpen_next member
  | handshakeOverride handshake old => exact handshakeOverride_next member
  | handshakeResolve handshake => exact handshakeResolve_next member
  | handshakeAwaiting handshake sender => exact handshakeAwaiting_next member
  | handshakeMatch handshake sender => exact handshakeMatch_next member
  | handshakeContact handshake sender =>
    unfold perform handshakeContact at member
    dsimp only at member
    split at member
    · rw [List.mem_singleton.mp member]
      exact .contactInvite _ _
    · cases member
  | release id alias_ sender => exact release_next member
  | adopt txid =>
    unfold perform adopt at member
    dsimp only at member
    split at member
    · cases member
    case h_2 parked found =>
      rw [List.mem_singleton.mp member]
      exact .adoptFold (find_mem found)
  | adoptFold txid parked => exact adoptFold_next member
  | forget alias_ sender first =>
    obtain ⟨_, _, rfl⟩ := List.mem_map.mp member
    exact .note _ _
  | backfill txid =>
    unfold perform backfill at member
    dsimp only at member
    split at member
    · exact named_next member
    · cases member
  | resweep =>
    obtain ⟨row, _, made⟩ := List.mem_filterMap.mp member
    obtain ⟨_, _, rfl⟩ := Option.map_eq_some_iff.mp made
    exact .resweepName _ _
  | resweepName id txid =>
    unfold perform resweepName at member
    dsimp only at member
    split at member
    · split at member
      · cases member
      · exact named_next member
    · cases member
  | stashLoad run provenTxid =>
    change other ∈ s.stashLoad run provenTxid at member
    unfold stashLoad at member
    dsimp only at member
    split at member
    case isTrue proves =>
      rw [List.mem_singleton.mp member]
      cases stored : s.stash with
      | none =>
        rw [stored] at proves
        exact absurd rfl proves.2.2.1
      | some state => exact .stashSave stored
    · cases member
  | blockRead id =>
    change other ∈ s.blockRead id at member
    unfold blockRead at member
    split at member
    · cases member
    · split at member
      · cases member
      · rw [List.mem_singleton.mp member]
        exact .blockList _ _ _
  | blockList address alias_ =>
    unfold perform blockList at member
    dsimp only at member
    split at member
    · cases member
    case isFalse saved =>
      rw [List.mem_singleton.mp member]
      exact .blockIds (Bool.eq_true_of_not_eq_false saved)
  | blockIds address alias_ =>
    rcases List.mem_cons.mp member with rfl | member
    · exact .seal _ _
    · rw [List.mem_singleton.mp member]
      exact .blockPurge _ _ _
  | blockPurge address alias_ ids =>
    rw [List.mem_singleton.mp member]
    exact .blockForget _ _ _
  | blockForget alias_ ids =>
    rw [List.mem_singleton.mp member]
    exact .blockRetain _ _
  | prepareHandshake address => exact prepareHandshake_next member
  | prepareComm id =>
    unfold perform prepareComm at member
    dsimp only at member
    split at member
    · cases member
    case h_2 row found =>
      split at member
      case isTrue sendable =>
        rw [List.mem_singleton.mp member]
        exact .allotComm found sendable
      · cases member
  | prepareAccept id => exact prepareAccept_next member
  | prepareAcceptNamed id theirAlias txid => exact prepareAcceptNamed_next member
  | prepareStash =>
    change other ∈ s.prepareStash chain o at member
    unfold prepareStash at member
    split at member
    · cases member
    · rw [List.mem_singleton.mp member]
      exact .allotStash
  | allot intent =>
    change other ∈ (if o.ok then [Act.storeIntent s.nonce intent] else []) at member
    split at member
    · rw [List.mem_singleton.mp member]
      exact .storeIntent _
    · cases member
  | storeIntent nonce intent =>
    rw [List.mem_singleton.mp member]
    exact .storePlan _ _
  | commit nonce =>
    change other ∈ s.commit nonce at member
    unfold commit at member
    split at member
    · rw [List.mem_singleton.mp member]
      exact .commitCheck _ _
    · rw [List.mem_singleton.mp member]
      exact .takePlan _
  | commitCheck nonce target =>
    change other ∈ s.commitCheck nonce target at member
    unfold commitCheck at member
    split at member
    · rcases List.mem_cons.mp member with rfl | member
      · exact .abandonPlan _ _
      · rw [List.mem_singleton.mp member]
        exact .abandonIntent _ _
    · rw [List.mem_singleton.mp member]
      exact .checked _ _
  | takePlan nonce =>
    unfold perform takePlan at member
    dsimp only at member
    split at member
    case h_1 stored built plan =>
      split at member
      · rw [List.mem_singleton.mp member]
        exact .takeIntent plan
      · cases member
    · cases member
  | takeIntent nonce built =>
    rw [List.mem_singleton.mp member]
    refine .broadcast _ _ ?_
    intro taken is
    unfold Pending.takeIntent at is
    split at is
    · split at is
      · cases is
        exact ⟨_, ‹_›⟩
      · cases is
    · cases is
  | broadcast built intent =>
    change other ∈ broadcast intent o at member
    unfold broadcast at member
    split at member
    · rw [List.mem_singleton.mp member]
      exact .apply _ _
    · cases member
  | apply intent txid => exact applyIntent_next member
  | startBlocked =>
    rw [List.mem_singleton.mp member]
    exact .startSweep _
  | _ => cases member

section Intents

variable {id : Nat} {rest : List Act} {intent : TransportIntent}

/-- The intents a section carries on. -/
def intents : Act → List TransportIntent
  | .allot intent | .storeIntent _ intent | .storePlan _ intent | .takeIntent _ intent | .apply intent _ => [intent]
  | .broadcast built intent => built :: intent.toList
  | _ => []

/-- Some prepare made this intent, and no commit has applied it yet. -/
def Carries (s : Hub) (intent : TransportIntent) : Prop :=
  (∃ act, s.InFlight act ∧ intent ∈ intents act) ∨ (∃ nonce, s.plan = some (nonce, intent)) ∨
    ∃ nonce, s.intent = some (nonce, intent)

theorem applyIntent_slots (intent : TransportIntent) (txid : String) :
    (s.applyIntent intent txid o).1.plan = s.plan ∧ (s.applyIntent intent txid o).1.intent = s.intent := by
  cases intent with
  | accept id address myAlias reseal timestampMs =>
    unfold applyIntent applyAccept
    dsimp only
    split <;> exact ⟨rfl, rfl⟩
  | selfStash covered timestampMs =>
    unfold applyIntent
    dsimp only
    split <;> exact ⟨rfl, rfl⟩
  | _ => exact ⟨rfl, rfl⟩

theorem folds_slots (folds : Folds act) :
    (s.perform chain o act).1.plan = s.plan ∧ (s.perform chain o act).1.intent = s.intent := by
  have same : (s.perform chain o act).1.desk = s.desk := perform_desk folds
  exact ⟨congrArg Desk.plan same, congrArg Desk.intent same⟩

/-- What the two slots hold was there, or is what the section stores. -/
theorem perform_slots :
    (∀ stored, (s.perform chain o act).1.plan = some stored → s.plan = some stored ∨ act = .storePlan stored.1 stored.2) ∧
      ∀ stored, (s.perform chain o act).1.intent = some stored →
        s.intent = some stored ∨ act = .storeIntent stored.1 stored.2 := by
  have keep : ∀ next : Hub, next.plan = s.plan ∧ next.intent = s.intent →
      (∀ stored, next.plan = some stored → s.plan = some stored ∨ act = .storePlan stored.1 stored.2) ∧
        ∀ stored, next.intent = some stored → s.intent = some stored ∨ act = .storeIntent stored.1 stored.2 :=
    fun next same => ⟨fun stored is => .inl (same.1.symm.trans is), fun stored is => .inl (same.2.symm.trans is)⟩
  cases act with
  | stashSave state =>
    apply keep
    unfold perform
    dsimp only
    split <;> exact ⟨rfl, rfl⟩
  | blockList address alias_ =>
    apply keep
    unfold perform blockList
    dsimp only
    split <;> exact ⟨rfl, rfl⟩
  | unblock address =>
    apply keep
    unfold perform unblock
    dsimp only
    split <;> exact ⟨rfl, rfl⟩
  | abandonPlan => exact ⟨fun _ is => (nomatch is), fun _ is => .inl is⟩
  | abandonIntent => exact ⟨fun _ is => .inl is, fun _ is => (nomatch is)⟩
  | prepareComm id =>
    apply keep
    unfold perform prepareComm
    dsimp only
    split
    · exact ⟨rfl, rfl⟩
    · split <;> exact ⟨rfl, rfl⟩
  | storeIntent nonce intent =>
    refine ⟨fun _ is => .inl is, ?_⟩
    intro stored is
    cases is
    exact .inr rfl
  | storePlan nonce built =>
    refine ⟨?_, fun _ is => .inl is⟩
    intro stored is
    cases is
    exact .inr rfl
  | takePlan nonce =>
    unfold perform takePlan
    dsimp only
    split
    · split
      · exact ⟨fun _ is => (nomatch is), fun _ is => .inl is⟩
      · exact keep s ⟨rfl, rfl⟩
    · exact keep s ⟨rfl, rfl⟩
  | takeIntent nonce built =>
    refine ⟨fun _ is => .inl is, ?_⟩
    intro stored is
    change (Pending.takeIntent s.intent nonce).2 = some stored at is
    unfold Pending.takeIntent at is
    split at is
    · split at is
      · cases is
      · exact .inl is
    · cases is
  | apply intent txid => exact keep _ (applyIntent_slots intent txid)
  | _ => first | exact keep _ (folds_slots True.intro) | exact keep _ ⟨rfl, rfl⟩

theorem Performed.carries (performed : Performed chain s id o act rest next) (carries : next.Carries intent) :
    s.Carries intent ∨ Act.allot intent ∈ (s.perform chain o act).2 := by
  have here : ∀ {other}, act = other → intent ∈ intents other → s.Carries intent := by
    rintro _ rfl member
    exact .inl ⟨act, performed.here, member⟩
  have slots := @perform_slots chain s act o
  rcases carries with ⟨other, flight, member⟩ | ⟨nonce, stored⟩ | ⟨nonce, stored⟩
  · rcases performed.flight flight with before | handed
    · exact .inl (.inl ⟨other, before, member⟩)
    · cases perform_next handed with
      | allotHandshake | allotComm | allotAccept | allotStash =>
        rw [List.mem_singleton.mp member]
        exact .inr handed
      | storeIntent | storePlan => exact .inl (here rfl member)
      | takeIntent plan =>
        rw [List.mem_singleton.mp member]
        exact .inl (.inr (.inl ⟨_, plan⟩))
      | broadcast nonce built taken =>
        rcases List.mem_cons.mp member with rfl | last
        · exact .inl (here rfl List.mem_cons_self)
        · obtain ⟨stored, is⟩ := taken intent (Option.mem_toList.mp last)
          exact .inl (.inr (.inr ⟨stored, is⟩))
      | apply built => exact .inl (here rfl (List.mem_cons_of_mem _ member))
      | _ => cases member
  · rw [performed.after] at stored
    rcases slots.1 _ stored with before | stores
    · exact .inl (.inr (.inl ⟨nonce, before⟩))
    · exact .inl (here stores List.mem_cons_self)
  · rw [performed.after] at stored
    rcases slots.2 _ stored with before | stores
    · exact .inl (.inr (.inr ⟨nonce, before⟩))
    · exact .inl (here stores List.mem_cons_self)

theorem entry_carries (entry : Entry chain act) : intents act = [] := by
  cases entry with
  | @call call _ truthful member =>
    cases call with
    | block | wipe | clear | abandon | start =>
      simp only [Call.acts, List.mem_cons, List.not_mem_nil, or_false] at member
      rcases member with rfl | rfl | rfl | rfl | rfl | rfl | rfl <;> rfl
    | _ =>
      rw [List.mem_singleton.mp member]
      rfl
  | @fold row _ member =>
    cases row <;> rw [List.mem_singleton.mp member] <;> rfl
  | prove run txid => rfl

theorem Idle.carries (idle : Idle chain s next) (carries : next.Carries intent) : s.Carries intent := by
  rcases carries with ⟨act, flight, member⟩ | ⟨nonce, stored⟩ | ⟨nonce, stored⟩
  · rcases idle.flight act flight with before | entry
    · exact .inl ⟨act, before, member⟩
    · rw [entry_carries entry] at member
      cases member
  · rcases idle.plan with same | gone
    · exact .inr (.inl ⟨nonce, same.symm.trans stored⟩)
    · rw [gone] at stored
      cases stored
  · rcases idle.intent with same | gone
    · exact .inr (.inr ⟨nonce, same.symm.trans stored⟩)
    · rw [gone] at stored
      cases stored

end Intents

end Kaspaverse.Transport.Hub
