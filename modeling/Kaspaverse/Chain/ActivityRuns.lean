import Kaspaverse.Kvlog.CrashConsistency
import Kaspaverse.Library.Machine
import Kaspaverse.Chain.Activity

namespace Kaspaverse.Chain

open Kvlog TransactionRecord

section Runs

variable {ρ : Type} {codec : Codec (TransactionRecord ρ)} {hash : Bytes → UInt32}
  {display : TransactionId → String}

theorem restampedOnly_unstamped {held record : TransactionRecord ρ}
    (same : restampedOnly codec held record = true) : held.unstamped = record.unstamped := by
  unfold restampedOnly at same
  split at same
  · cases same
  · split at same
    case h_1 a b encoded held' =>
      have equal : a = b := beq_iff_eq.mp same
      rw [equal] at encoded
      have one := codec.inverts _ _ encoded
      rw [codec.inverts _ _ held'] at one
      have records := Option.some.inj one
      rw [records]
      rfl
    case h_2 => cases same

/-- A record the store keeps over a new one outranks it, or is the same but for its stamp. -/
theorem refusal_some {existing record : TransactionRecord ρ} {refused : Upserted}
    (refuses : ActivityStore.refusal codec existing record = some refused) :
    record.rank < existing.rank ∨ existing.unstamped = record.unstamped := by
  unfold ActivityStore.refusal at refuses
  split at refuses
  case isTrue provenance =>
    rw [Bool.and_eq_true, isOutgoingData_iff] at provenance
    left
    rw [rank_of_incoming provenance.1]
    exact provenance.2
  case isFalse =>
    split at refuses
    case isTrue fee =>
      rw [Bool.and_eq_true, carriesFee_iff] at fee
      left
      rw [rank_of_change fee.1]
      exact fee.2
    case isFalse =>
      split at refuses
      case isTrue same => exact Or.inr (restampedOnly_unstamped same)
      case isFalse => cases refuses

/-- A ranked record the store takes does not rank below the one held. -/
theorem refusal_none {existing record : TransactionRecord ρ} (ranked : record.isRanked = true)
    (takes : ActivityStore.refusal codec existing record = none) : existing.rank ≤ record.rank := by
  unfold ActivityStore.refusal at takes
  split at takes
  case isTrue => cases takes
  case isFalse provenance =>
    split at takes
    case isTrue => cases takes
    case isFalse fee =>
      rw [Bool.and_eq_true, isOutgoingData_iff, not_and] at provenance
      rw [Bool.and_eq_true, carriesFee_iff, not_and] at fee
      rcases isRanked_cases ranked with incoming | change | states
      · have low := provenance incoming
        omega
      · have low := fee change
        rw [rank_of_change change]
        omega
      · have high : existing.rank ≤ 2 := by
          unfold rank
          split
          · omega
          · split <;> omega
        rw [rank_of_fee states]
        exact high

/-- What an upsert that succeeds does: it keeps the held record and the store as it is, or the store
    holds the new one. -/
theorem upsert_cases {write : Write} {record : TransactionRecord ρ}
    {store after : ActivityStore ρ} {outcome : Upserted}
    (reads : Rereads codec hash (activityKey display) (v1ActivityFrame codec display) store)
    (did : store.upsert codec hash display write record = (.ok outcome, after)) :
    (∃ existing, store.get display record.id = some existing ∧ after = store ∧
      (record.rank < existing.rank ∨ existing.unstamped = record.unstamped)) ∨
    (Rereads codec hash (activityKey display) (v1ActivityFrame codec display) after ∧
      after.1.contents = store.1.contents.apply (activityKey display) (.upsert record) ∧
      ∀ existing, store.get display record.id = some existing → record.isRanked = true →
        existing.rank ≤ record.rank) := by
  unfold ActivityStore.upsert at did
  split at did
  case h_1 refused kept =>
    cases did
    obtain ⟨existing, held, refuses⟩ := Option.bind_eq_some_iff.mp kept
    exact Or.inl ⟨existing, held, rfl, refusal_some refuses⟩
  case h_2 takes =>
    right
    cases performed : store.1.upsert codec hash write (activityKey display record) record store.2 with
    | mk result next =>
      rw [performed] at did
      cases result with
      | error e => cases did
      | ok wrote =>
        cases did
        have performs : (Op.put (.upsert record)).perform codec hash (activityKey display) ⟨write, true⟩
            store = (.ok wrote, after) :=
          performed
        obtain ⟨kept, contents⟩ := reads.put performs
        refine ⟨kept, contents, ?_⟩
        intro existing held ranked
        rw [held] at takes
        exact refusal_none ranked takes

theorem get_upsert {store after : ActivityStore ρ} {record : TransactionRecord ρ}
    (contents : after.1.contents = store.1.contents.apply (activityKey display) (.upsert record))
    (txid : TransactionId) : after.get display txid =
      if activityKey display record = display txid then some record else store.get display txid := by
  have lookup := congrArg (fun contents => Contents.record contents (display txid)) contents
  change after.get display txid =
    Function.update store.1.contents.record (activityKey display record) (some record) (display txid)
    at lookup
  rw [lookup, Function.update_apply]
  by_cases same : activityKey display record = display txid
  · rw [if_pos same, if_pos same.symm]
  · rw [if_neg same, if_neg (Ne.symm same)]
    rfl

/-- The last of the records that rank highest. -/
def LastGreatest (seen : List (TransactionRecord ρ)) (last : TransactionRecord ρ) : Prop :=
  ∃ before after, seen = before ++ last :: after ∧ (∀ record ∈ before, record.rank ≤ last.rank) ∧
    ∀ record ∈ after, record.rank < last.rank

theorem LastGreatest.mem {seen : List (TransactionRecord ρ)} {last : TransactionRecord ρ}
    (greatest : LastGreatest seen last) : last ∈ seen := by
  obtain ⟨before, after, rfl, _⟩ := greatest
  simp

theorem LastGreatest.le {seen : List (TransactionRecord ρ)} {last record : TransactionRecord ρ}
    (greatest : LastGreatest seen last) (member : record ∈ seen) : record.rank ≤ last.rank := by
  obtain ⟨before, after, rfl, early, late⟩ := greatest
  rcases List.mem_append.mp member with earlier | later
  · exact early record earlier
  · rcases List.mem_cons.mp later with rfl | behind
    · exact Nat.le_refl _
    · exact Nat.le_of_lt (late record behind)

theorem LastGreatest.below {seen : List (TransactionRecord ρ)} {last record : TransactionRecord ρ}
    (greatest : LastGreatest seen last) (lower : record.rank < last.rank) :
    LastGreatest (seen ++ [record]) last := by
  obtain ⟨before, after, rfl, early, late⟩ := greatest
  refine ⟨before, after ++ [record], by simp, early, ?_⟩
  intro other member
  rcases List.mem_append.mp member with known | new
  · exact late other known
  · rw [List.mem_singleton.mp new]
    exact lower

theorem LastGreatest.top {seen : List (TransactionRecord ρ)} {record : TransactionRecord ρ}
    (above : ∀ other ∈ seen, other.rank ≤ record.rank) : LastGreatest (seen ++ [record]) record :=
  ⟨seen, [], rfl, above, fun _ none => nomatch none⟩

/-- What the store keeps of the records of one txid: the last that ranks highest, but for its stamp. -/
def Tracks (seen : List (TransactionRecord ρ)) : Option (TransactionRecord ρ) → Prop
  | none => seen = []
  | some stored => ∃ last, LastGreatest seen last ∧ stored.unstamped = last.unstamped

variable (display) in
/-- The records of a txid that arrive. -/
def arrivals (txid : TransactionId) (events : List (ActivityEvent ρ)) : List (TransactionRecord ρ) :=
  events.filterMap fun
    | .upsert record _ => if activityKey display record = display txid then some record else none
    | .reload _ => none

theorem Tracks.upsert {seen : List (TransactionRecord ρ)} {record : TransactionRecord ρ}
    {write : Write} {store after : ActivityStore ρ} {outcome : Upserted} {txid : TransactionId}
    (reads : Rereads codec hash (activityKey display) (v1ActivityFrame codec display) store)
    (tracks : Tracks seen (store.get display txid))
    (ranked : activityKey display record = display txid → record.isRanked = true)
    (did : store.upsert codec hash display write record = (.ok outcome, after)) :
    Tracks (seen ++ if activityKey display record = display txid then [record] else [])
      (after.get display txid) := by
  by_cases same : activityKey display record = display txid
  · rw [if_pos same]
    have found : store.get display record.id = store.get display txid :=
      congrArg store.1.records.lookup same
    rcases upsert_cases reads did with ⟨existing, held, rfl, keeps⟩ | ⟨_, contents, takes⟩
    · rw [found] at held
      rw [held] at tracks ⊢
      obtain ⟨last, greatest, alike⟩ := tracks
      have level : existing.rank = last.rank := by
        rw [← rank_unstamped existing, alike, rank_unstamped]
      rcases keeps with lower | restamped
      · exact ⟨last, greatest.below (level ▸ lower), alike⟩
      · refine ⟨record, LastGreatest.top ?_, restamped⟩
        intro other member
        have even : record.rank = existing.rank := by
          rw [← rank_unstamped record, ← restamped, rank_unstamped]
        have below := greatest.le member
        omega
    · rw [get_upsert contents, if_pos same]
      refine ⟨record, LastGreatest.top ?_, rfl⟩
      intro other member
      cases held : store.get display txid with
      | none =>
        rw [held] at tracks
        rw [tracks] at member
        cases member
      | some existing =>
        rw [held] at tracks
        obtain ⟨last, greatest, alike⟩ := tracks
        have level : existing.rank = last.rank := by
          rw [← rank_unstamped existing, alike, rank_unstamped]
        have below := greatest.le member
        have taken := takes existing (by rw [found, held]) (ranked same)
        omega
  · rw [if_neg same, List.append_nil]
    rcases upsert_cases reads did with ⟨_, _, rfl, _⟩ | ⟨_, contents, _⟩
    · exact tracks
    · rw [get_upsert contents, if_neg same]
      exact tracks

/-- What one step keeps: the store reads back, and tracks the records of each txid. -/
theorem Tracks.step {name : String} {store next : ActivityStore ρ} {event : ActivityEvent ρ}
    {seen : List (TransactionRecord ρ)} {txid : TransactionId}
    (reads : Rereads codec hash (activityKey display) (v1ActivityFrame codec display) store)
    (tracks : Tracks seen (store.get display txid))
    (ranked : ∀ record ∈ arrivals display txid [event], record.isRanked = true)
    (happens : store.step codec hash display name event = some next) :
    Rereads codec hash (activityKey display) (v1ActivityFrame codec display) next ∧
      Tracks (seen ++ arrivals display txid [event]) (next.get display txid) := by
  cases event with
  | upsert record write =>
    simp only [ActivityStore.step] at happens
    cases did : store.upsert codec hash display write record with
    | mk result after =>
      rw [did] at happens
      cases result with
      | error e => cases happens
      | ok outcome =>
        cases happens
        have arrived : arrivals display txid [.upsert record write] =
            if activityKey display record = display txid then [record] else [] := by
          by_cases same : activityKey display record = display txid <;> simp [arrivals, same]
        rw [arrived] at ranked ⊢
        constructor
        · rcases upsert_cases reads did with ⟨_, _, rfl, _⟩ | ⟨kept, _⟩
          · exact reads
          · exact kept
        · apply tracks.upsert reads ?_ did
          intro same
          exact ranked record (by rw [if_pos same]; exact List.mem_singleton_self _)
  | reload io =>
    simp only [ActivityStore.step] at happens
    cases loaded : ActivityStore.load codec hash display name io store.2 with
    | error e =>
      rw [loaded] at happens
      cases happens
    | ok after =>
      rw [loaded] at happens
      cases happens
      obtain ⟨kept, same⟩ := reads.reload loaded
      have lookup : next.get display txid = store.get display txid :=
        congrArg (fun contents => contents.record (display txid)) same
      refine ⟨kept, ?_⟩
      have nothing : arrivals display txid ([.reload io] : List (ActivityEvent ρ)) = [] := rfl
      rw [nothing, List.append_nil, lookup]
      exact tracks

theorem Tracks.run {name : String} {start final : ActivityStore ρ} {events : List (ActivityEvent ρ)}
    {seen : List (TransactionRecord ρ)} {txid : TransactionId}
    (reads : Rereads codec hash (activityKey display) (v1ActivityFrame codec display) start)
    (tracks : Tracks seen (start.get display txid))
    (ranked : ∀ record ∈ arrivals display txid events, record.isRanked = true)
    (ran : Machine.run (ActivityStore.step codec hash display name) start events = some final) :
    Tracks (seen ++ arrivals display txid events) (final.get display txid) := by
  induction events generalizing start seen with
  | nil =>
    cases ran
    rw [arrivals, List.filterMap_nil, List.append_nil]
    exact tracks
  | cons event events ih =>
    obtain ⟨next, happens, later⟩ := Machine.run_cons_some ran
    have parts : arrivals display txid (event :: events) =
        arrivals display txid [event] ++ arrivals display txid events := by
      rw [arrivals, arrivals, arrivals, ← List.filterMap_append]
      rfl
    rw [parts] at ranked ⊢
    obtain ⟨kept, tracked⟩ := tracks.step reads
      (fun record member => ranked record (List.mem_append_left _ member)) happens
    rw [← List.append_assoc]
    exact ih kept tracked (fun record member => ranked record (List.mem_append_right _ member)) later

/-- A record equal to the held one but for its stamp is never written over a stamped row. -/
theorem restamp_unchanged {write : Write} {record held : TransactionRecord ρ}
    {store after : ActivityStore ρ} {outcome : Upserted}
    (found : store.get display record.id = some held) (stamped : held.unixtimeMsec.isSome = true)
    (same : record.unstamped = held.unstamped)
    (did : store.upsert codec hash display write record = (.ok outcome, after)) :
    outcome = .unchanged ∧ after = store := by
  obtain ⟨stamp, isStamp⟩ := Option.isSome_iff_exists.mp stamped
  have restamped : { record with unixtimeMsec := some stamp } = held := by
    have back := congrArg (fun r : TransactionRecord ρ => { r with unixtimeMsec := some stamp }) same
    change { record with unixtimeMsec := some stamp } = { held with unixtimeMsec := some stamp } at back
    rw [back, ← isStamp]
  have level : record.rank = held.rank := by
    rw [← rank_unstamped record, same, rank_unstamped]
  have noProvenance : (record.isIncomingData && held.isOutgoingData) = false := by
    rw [Bool.eq_false_iff, Ne, Bool.and_eq_true, isOutgoingData_iff, not_and]
    intro incoming
    have low := rank_of_incoming incoming
    omega
  have noFee : (record.isChange && held.carriesFee) = false := by
    rw [Bool.eq_false_iff, Ne, Bool.and_eq_true, carriesFee_iff, not_and]
    intro change
    have low := rank_of_change change
    omega
  have refusal : ActivityStore.refusal codec held record =
      if restampedOnly codec held record then some .unchanged else none := by
    simp only [ActivityStore.refusal, noProvenance, noFee, Bool.false_eq_true, if_false]
  unfold ActivityStore.upsert at did
  rw [found, Option.bind_some, refusal, restampedOnly, isStamp] at did
  simp only [restamped] at did
  cases encoded : codec.encode held with
  | ok bytes =>
    simp only [encoded, beq_self_eq_true, if_true] at did
    cases did
    exact ⟨rfl, rfl⟩
  | error reason =>
    -- the held row does not encode, so the log's own comparison fails
    have lookup : store.1.records.lookup (activityKey display record) = some held := found
    have heldFails : upsertBody codec held = .error (encodeError reason) := by
      simp [upsertBody, Frame.body, encoded, Except.map, Except.mapError]
    simp only [encoded, Bool.false_eq_true, if_false, Log.upsert, lookup, heldFails] at did
    cases made : upsertBody codec record with
    | error e =>
      rw [made] at did
      cases did
    | ok body =>
      rw [made] at did
      cases did

/-- Whatever order a txid's records arrive in, and whenever the log is loaded again, the row is the
    last of those that rank highest, under the first stamp it came with. -/
theorem originated_send_never_downgraded {name : String} {io : LoadIo} {disk : Disk}
    {start final : ActivityStore ρ} {events : List (ActivityEvent ρ)} {txid : TransactionId}
    (loaded : ActivityStore.load codec hash display name io disk = .ok start)
    (ranked : ∀ record ∈ arrivals display txid events, record.isRanked = true)
    (ran : Machine.run (ActivityStore.step codec hash display name) start events = some final) :
    let seen := (start.get display txid).toList ++ arrivals display txid events
    (final.get display txid = none → seen = []) ∧
    (∀ stored, final.get display txid = some stored →
      (∀ record ∈ seen, record.rank ≤ stored.rank) ∧ (∃ record ∈ seen, record.rank = stored.rank) ∧
      (stored.direction ≠ .incoming ↔ ∃ record ∈ seen, record.isOutgoingData = true) ∧
      (stored.feeSompi.isSome = true ↔ ∃ record ∈ seen, record.carriesFee = true) ∧
      ∃ last, LastGreatest seen last ∧ stored.direction = last.direction ∧
        stored.feeSompi = last.feeSompi) ∧
    ∀ (write : Write) (record held : TransactionRecord ρ) (after : ActivityStore ρ) (outcome : Upserted),
      final.get display record.id = some held → held.unixtimeMsec.isSome = true →
      record.unstamped = held.unstamped →
      final.upsert codec hash display write record = (.ok outcome, after) →
      outcome = .unchanged ∧ after = final := by
  intro seen
  have tracked : Tracks seen (final.get display txid) := by
    apply Tracks.run (load_rereads loaded) ?_ ranked ran
    cases start.get display txid with
    | none => rfl
    | some held =>
      have only : LastGreatest ([] ++ [held]) held := LastGreatest.top fun _ none => nomatch none
      exact ⟨held, only, rfl⟩
  refine ⟨?_, ?_, ?_⟩
  · intro absent
    rw [absent] at tracked
    exact tracked
  · intro stored held
    rw [held] at tracked
    obtain ⟨last, greatest, alike⟩ := tracked
    have level : stored.rank = last.rank := by
      rw [← rank_unstamped stored, alike, rank_unstamped]
    have direction : stored.direction = last.direction := by
      rw [← direction_unstamped stored, alike, direction_unstamped]
    have fee : stored.feeSompi = last.feeSompi := by
      rw [← feeSompi_unstamped stored, alike, feeSompi_unstamped]
    have above : ∀ record ∈ seen, record.rank ≤ stored.rank := by
      intro record member
      rw [level]
      exact greatest.le member
    refine ⟨above, ⟨last, greatest.mem, level.symm⟩, ?_, ?_, last, greatest, direction, fee⟩
    · rw [direction_spends]
      constructor
      · intro spends
        rw [isOutgoingData_iff, level, ← isOutgoingData_iff] at spends
        exact ⟨last, greatest.mem, spends⟩
      · intro ⟨record, member, spends⟩
        rw [isOutgoingData_iff] at spends ⊢
        exact Nat.lt_of_lt_of_le spends (above record member)
    · rw [feeSompi_isSome]
      constructor
      · intro states
        rw [carriesFee_iff, level, ← carriesFee_iff] at states
        exact ⟨last, greatest.mem, states⟩
      · intro ⟨record, member, states⟩
        rw [carriesFee_iff] at states ⊢
        exact Nat.lt_of_lt_of_le states (above record member)
  · intro write record held after outcome found stamped same did
    exact restamp_unchanged found stamped same did

end Runs

section Sample

def spend : SpendData := ⟨some 5, 20, 14, none⟩

def ownOutgoing : TransactionRecord Unit := ⟨7, some 100, .outgoing 1 spend (), ()⟩

def ownBatch : TransactionRecord Unit := ⟨7, some 101, .batch 1 spend (), ()⟩

def ownChange : TransactionRecord Unit := ⟨7, some 102, .change spend (), ()⟩

/-- A code for the records of a short list: a record's place in it. -/
def placeCodec {T : Type} [DecidableEq T] (records : List T) (short : records.length ≤ 256) : Codec T where
  encode record :=
    if record ∈ records then .ok [UInt8.ofNat (records.idxOf record)] else .error "no record"
  decode
    | [place] => records[place.toNat]?
    | _ => none
  inverts := by
    intro record bytes encoded
    split at encoded
    case isFalse => cases encoded
    case isTrue member =>
      cases encoded
      have inside := List.idxOf_lt_length_of_mem member
      have byte : (UInt8.ofNat (records.idxOf record)).toNat = records.idxOf record := by
        rw [UInt8.toNat_ofNat']
        exact Nat.mod_eq_of_lt (by omega)
      simp only [byte]
      rw [List.getElem?_eq_getElem inside, List.getElem_idxOf]

def sampleCodec : Codec (TransactionRecord Unit) := placeCodec [ownOutgoing, ownBatch, ownChange] (by decide)

def printed (txid : TransactionId) : String := toString txid.toNat

def noActivity : ActivityStore Unit := (⟨"activity", ∅, ∅, 0, false, none, false⟩, ⟨[], ∅⟩)

theorem load_noActivity :
    ActivityStore.load sampleCodec crc32 printed "activity" working ⟨[], ∅⟩ = .ok noActivity := by
  unfold ActivityStore.load load
  rw [checksumHolds_crc32]
  rfl

def arrive (record : TransactionRecord Unit) : ActivityEvent Unit := .upsert record .lands

def sampleRun (events : List (ActivityEvent Unit)) : Option (ActivityStore Unit) :=
  Machine.run (ActivityStore.step sampleCodec crc32 printed "activity") noActivity events

/-- The change of a send arrives, then the send, and after a reload the change again. -/
theorem originated_send_of_sample : ∃ final stored,
    sampleRun [arrive ownChange, arrive ownOutgoing, .reload working, arrive ownChange] = some final ∧
      final.get printed 7 = some stored ∧ stored.rank = 2 := by
  have runs : (sampleRun [arrive ownChange, arrive ownOutgoing, .reload working,
      arrive ownChange]).isSome = true := by
    decide +kernel
  obtain ⟨final, ran⟩ := Option.isSome_iff_exists.mp runs
  have ranked : ∀ record ∈ arrivals printed 7 [arrive ownChange, arrive ownOutgoing, .reload working,
      arrive ownChange], record.isRanked = true := by
    decide +kernel
  obtain ⟨absent, held, _⟩ := originated_send_never_downgraded load_noActivity ranked ran
  cases found : final.get printed 7 with
  | none => exact absurd (absent found) (by decide +kernel)
  | some stored =>
    obtain ⟨above, ⟨record, member, level⟩, _⟩ := held stored found
    have low := above ownOutgoing (by decide +kernel)
    have high : ∀ record ∈ (noActivity.get printed 7).toList ++ arrivals printed 7 [arrive ownChange,
        arrive ownOutgoing, .reload working, arrive ownChange], record.rank ≤ 2 := by
      decide +kernel
    have two : ownOutgoing.rank = 2 := by decide
    have most := high record member
    exact ⟨final, stored, ran, found, by omega⟩

/-- The order of two records that both state a fee decides the row's direction. -/
theorem direction_depends_on_order : ¬ ∀ (first second : List (ActivityEvent Unit))
    (one other : ActivityStore Unit), first.Perm second → sampleRun first = some one →
    sampleRun second = some other →
    (one.get printed 7).map direction = (other.get printed 7).map direction := by
  intro stated
  have runs : (sampleRun [arrive ownOutgoing, arrive ownBatch]).isSome = true ∧
      (sampleRun [arrive ownBatch, arrive ownOutgoing]).isSome = true := by
    decide +kernel
  obtain ⟨one, ranOne⟩ := Option.isSome_iff_exists.mp runs.1
  obtain ⟨other, ranOther⟩ := Option.isSome_iff_exists.mp runs.2
  have same := stated _ _ one other (List.Perm.swap _ _ []) ranOne ranOther
  have directions : ((sampleRun [arrive ownOutgoing, arrive ownBatch]).bind fun store =>
        (store.get printed 7).map direction) = some .change ∧
      ((sampleRun [arrive ownBatch, arrive ownOutgoing]).bind fun store =>
        (store.get printed 7).map direction) = some .outgoing := by
    decide +kernel
  rw [ranOne, ranOther, Option.bind_some, Option.bind_some, same] at directions
  rw [directions.1] at directions
  cases directions.2

end Sample

end Kaspaverse.Chain
