import Kaspaverse.Transport.HubRuns

namespace Kaspaverse.Transport

open Hub

/-- Every message is filed in a conversation there is. -/
def TransportStore.Housed (store : TransportStore) : Prop :=
  ∀ txid m, store.message txid = some m → ∃ row, store.conversation m.conversationId = some row

/-- What a section files in a row it read before its slow step goes to a row that is still there: a
    comm behind its decrypt, node truth over an archive's row, and our own comm behind its broadcast, to
    the contact it was prepared for and under a transaction no archive filed before. -/
def Hub.follows (s : Hub) (_ : Oracle) : Act → Bool
  | .commFile routed _ _ => decide (routed.verdict ≠ .contact) || (s.store.conversation routed.conversationId).isSome
  | .handshakeOverride handshake old =>
    !s.store.overrides (handshake.row old.conversationId) || (s.store.conversation old.conversationId).isSome
  | .apply (.comm conversationId aliasOnWire reseal sealedTo timestampMs wire) txid =>
    (s.store.conversation conversationId).any (fun row => decide
      (s.addressed.lookup (.comm conversationId aliasOnWire reseal sealedTo timestampMs wire) =
        some row.contactAddress)) && (s.store.message txid).isNone
  | _ => true

variable {chain : Chain} {s next : Hub} {act : Act} {o : Oracle} {f f' : Filing} {store : TransportStore}

section Writes

variable {row : ConversationRecord} {m : MessageRecord} {id sender : String}

theorem TransportStore.Housed.put (housed : store.Housed) (row : ConversationRecord) : (store.put row).Housed := by
  intro txid m found
  obtain ⟨home, there⟩ := housed txid m found
  by_cases same : m.conversationId = row.conversationId
  · exact ⟨row, by rw [TransportStore.conversation_put, if_pos same]⟩
  · exact ⟨home, by rw [TransportStore.conversation_put, if_neg same]; exact there⟩

theorem TransportStore.Housed.recordMessage (housed : store.Housed)
    (there : store.conversation m.conversationId = some row) : (store.recordMessage m).Housed := by
  intro txid other found
  rw [TransportStore.message_recordMessage] at found
  rw [TransportStore.conversation_recordMessage]
  split at found
  · cases found
    exact ⟨row, there⟩
  · exact housed txid other found

theorem TransportStore.Housed.overrideMessage (housed : store.Housed)
    (there : store.conversation m.conversationId = some row) : (store.overrideMessage m).Housed := by
  intro txid other found
  rw [TransportStore.message_overrideMessage] at found
  rw [TransportStore.conversation_overrideMessage]
  split at found
  · cases found
    exact ⟨row, there⟩
  · exact housed txid other found

theorem TransportStore.Housed.removeMessages (housed : store.Housed) (txids : List String) :
    (store.removeMessages txids).Housed := by
  intro txid m found
  rw [TransportStore.message_removeMessages] at found
  rw [TransportStore.conversation_removeMessages]
  split at found
  · cases found
  · exact housed txid m found

theorem TransportStore.Housed.drop (housed : store.Housed)
    (empty : ∀ txid m, store.message txid = some m → m.conversationId ≠ id) : (store.drop id).Housed := by
  intro txid m found
  obtain ⟨home, there⟩ := housed txid m found
  exact ⟨home, by rw [TransportStore.conversation_drop, if_neg (empty txid m found)]; exact there⟩

theorem TransportStore.Housed.merge (housed : store.Housed) (address : String) : (store.merge address).1.Housed := by
  rcases TransportStore.merge_cases store address with short | ⟨host, rows, merged, _⟩
  · rw [short]
    exact housed
  · intro txid m found
    obtain ⟨before, held, kept | ⟨_, rfl⟩⟩ := merged.message_cases found
    · obtain ⟨rfl, stays⟩ := kept
      obtain ⟨home, there⟩ := housed txid m held
      by_cases best : m.conversationId = host.id
      · exact ⟨_, by rw [best]; exact merged.keeps⟩
      · exact ⟨home, merged.stays there best stays⟩
    · exact ⟨_, merged.keeps⟩

theorem Enters.housed (licence : Enters chain s act store m sender) (followed : follows s o act = true) :
    ∃ row, store.conversation m.conversationId = some row := by
  cases licence with
  | comm now section_ is claimed found => exact ⟨_, by rw [is]; exact found⟩
  | orphan now section_ is claimed verdict start missing =>
    subst section_ start
    unfold follows at followed
    simp only [verdict, missing] at followed
    cases followed
  | parked bound now is source truly found => exact ⟨_, by rw [is]; exact found⟩

theorem Files.housed (licence : Files chain s act o store m) (followed : follows s o act = true) :
    ∃ row, store.conversation m.conversationId = some row := by
  cases licence with
  | inbound direction kind found => exact ⟨_, found⟩
  | own direction kind found => exact ⟨_, found⟩
  | sent section_ start is =>
    subst section_ start
    obtain ⟨standing, _⟩ := Bool.and_eq_true_iff.mp followed
    obtain ⟨row, there, _⟩ := (Option.any_eq_true _ _).mp standing
    exact ⟨row, by rw [is]; exact there⟩

theorem Write.housed (write : Write chain s act o f f') (followed : follows s o act = true)
    (housed : f.store.Housed) : f'.store.Housed := by
  cases write with
  | put licence => exact housed.put _
  | reveal found contact => exact housed
  | conceal section_ empty =>
    intro txid m found
    rw [TransportStore.message_conceal] at found
    rw [TransportStore.conversation_conceal]
    exact housed txid m found
  | enter absent licence =>
    obtain ⟨row, there⟩ := licence.housed followed
    exact housed.recordMessage there
  | reenter wins licence =>
    obtain ⟨row, there⟩ := licence.housed followed
    exact housed.overrideMessage there
  | file absent licence =>
    obtain ⟨row, there⟩ := licence.housed followed
    exact housed.recordMessage there
  | @override handshake old section_ start wins =>
    subst section_
    have there : (f.store.conversation old.conversationId).isSome = true := by
      rcases Bool.or_eq_true_iff.mp followed with plain | there
      · rw [← start, wins] at plain
        cases plain
      · rw [start]
        exact there
    obtain ⟨row, there⟩ := Option.isSome_iff_exists.mp there
    exact housed.overrideMessage there
  | remove txids => exact housed.removeMessages txids
  | drop known empty => exact housed.drop empty
  | merge address => exact housed.merge address
  | wipe section_ => exact fun _ _ found => nomatch found

theorem writes_housed (writes : Writes chain s act o f f') (followed : follows s o act = true)
    (housed : f.store.Housed) : f'.store.Housed := by
  induction writes with
  | refl => exact housed
  | tail _ write ih => exact write.housed followed ih

end Writes

section Runs

open Machine

theorem step_housed {e : Event} (holds : s.Sound chain ∧ s.store.Housed) (meets : meeting follows s e = true)
    (steps : step chain s e = some next) : next.Sound chain ∧ next.store.Housed := by
  obtain ⟨sound, housed⟩ := holds
  refine ⟨step_sound sound steps, ?_⟩
  rcases step_cases steps with ⟨id, o, act, rest, rfl, performed⟩ | idle
  · exact writes_housed (performed.writes sound) (performed.meets meets) housed
  · have same : next.store = s.store := congrArg Filing.store idle.filing
    rw [same]
    exact housed

/-- Our own comm, filed under its transaction. -/
theorem applyComm_files {conversationId txid : String} {row : ConversationRecord} (aliasOnWire : String)
    (reseal : List UInt8) (sealedTo : KeySlot) (timestampMs : Nat) (wire : WireNamespace)
    (there : s.store.conversation conversationId = some row) (absent : s.store.message txid = none) :
    ∃ kept, (s.applyComm conversationId aliasOnWire reseal sealedTo timestampMs wire txid).store.message txid =
        some (ownRow txid conversationId .comm reseal timestampMs (some aliasOnWire) sealedTo wire) ∧
      (s.applyComm conversationId aliasOnWire reseal sealedTo timestampMs wire txid).store.conversation
        conversationId = some kept ∧ kept.contactAddress = row.contactAddress := by
  have home := TransportStore.conversation_id there
  unfold applyComm
  dsimp only
  rw [TransportStore.conversation_recordMessage, there]
  refine ⟨{ row with lastActivityUnixMs := timestampMs }, ?_, ?_, rfl⟩
  · show (TransportStore.recordMessage _ _).message txid = _
    rw [TransportStore.message_recordMessage]
    exact if_pos ⟨rfl, absent⟩
  · rw [TransportStore.conversation_put]
    exact if_pos home.symm

theorem messages_stay_housed {es : List Event}
    (meets : Meets (step chain) (fun s e => meeting follows s e = true) launch es)
    (reached : Machine.run (step chain) launch es = some s) :
    s.store.Housed ∧
      ∀ id o conversationId aliasOnWire reseal sealedTo timestampMs wire txid rest next,
        s.calls.lookup id = some
          (.apply (.comm conversationId aliasOnWire reseal sealedTo timestampMs wire) txid :: rest) →
        meeting follows s (.perform id o) = true → step chain s (.perform id o) = some next →
        ∃ m row, next.store.message txid = some m ∧ m.direction = .outbound ∧
          next.store.conversation m.conversationId = some row ∧
            s.addressed.lookup (.comm conversationId aliasOnWire reseal sealedTo timestampMs wire) =
              some row.contactAddress := by
  have start : launch.Sound chain ∧ launch.store.Housed := ⟨launch_sound, fun _ _ found => nomatch found⟩
  have holds := run_invariant_meeting (fun _ _ _ => step_housed) start meets reached
  refine ⟨holds.2, ?_⟩
  intro id o conversationId aliasOnWire reseal sealedTo timestampMs wire txid rest next head met steps
  obtain ⟨act, _, performed⟩ := step_perform steps
  have first := performed.head
  rw [head] at first
  cases first
  obtain ⟨standing, absent⟩ := Bool.and_eq_true_iff.mp (performed.meets met)
  obtain ⟨row, there, addressed⟩ := (Option.any_eq_true _ _).mp standing
  obtain ⟨kept, filed, stands, contact⟩ := applyComm_files aliasOnWire reseal sealedTo timestampMs wire there
    (Option.isNone_iff_eq_none.mp absent)
  refine ⟨ownRow txid conversationId .comm reseal timestampMs (some aliasOnWire) sealedTo wire, kept, ?_, rfl,
    ?_, ?_⟩
  · rw [performed.after]
    exact filed
  · rw [performed.after]
    exact stands
  · rw [contact]
    exact of_decide_eq_true addressed

/-- A message is prepared for a thread and broadcast. -/
def sending : List Event :=
  .fillBegin 0 :: foldRow 0 0 (backupOf "thread") ++ .call 1 (.prepareComm "thread") :: performs 1 4 calm ++
    .call 2 (.commit 1) :: performs 2 4 calm

theorem messages_stay_housed_sent : ∃ s, Machine.run (step plainChain) launch (sending ++ performs 2 1 calm) = some s ∧
    s.store.Housed := by
  have lasts : (Machine.run (step plainChain) launch (sending ++ performs 2 1 calm)).isSome = true := by
    decide +kernel
  obtain ⟨s, reached⟩ := Option.isSome_iff_exists.mp lasts
  exact ⟨s, reached, (messages_stay_housed (by decide +kernel) reached).1⟩

/-- While it is broadcast, its thread is hidden and folded into the one a backup brings back. -/
def mergedAway : List Event :=
  sending ++ .call 3 (.hide "thread") :: performs 3 1 calm ++ foldRow 0 4 (backupOf "again") ++ performs 2 1 calm

theorem sent_message_loses_thread : ∃ s, Machine.run (step plainChain) launch mergedAway = some s ∧
    ¬ s.store.Housed := by
  have lost : (Machine.run (step plainChain) launch mergedAway).any (fun s => (s.store.message "sent").any fun m =>
      (s.store.conversation m.conversationId).isNone) = true := by
    decide +kernel
  obtain ⟨s, reached, filed⟩ := (Option.any_eq_true _ _).mp lost
  obtain ⟨m, found, gone⟩ := (Option.any_eq_true _ _).mp filed
  refine ⟨s, reached, ?_⟩
  intro housed
  obtain ⟨row, there⟩ := housed "sent" m found
  rw [there] at gone
  cases gone

end Runs

end Kaspaverse.Transport
