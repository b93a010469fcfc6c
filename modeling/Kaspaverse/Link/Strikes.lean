import Mathlib
import Kaspaverse.Library.Cooldown
import Kaspaverse.Library.Machine
import Kaspaverse.Link.Health

namespace Kaspaverse.Link

open Core Cooldown EndpointHealth

inductive Call
  | strike (url : Text) (nowUnix : Nat) (reason : StrikeReason)
  | withhold (url : Text) (reason : StrikeReason)
  | cleanRun (url : Text)
  | markHealthy (url : Text) (nowUnix : Nat)
  | recordRun (url : Text) (runSecs : Nat)
  /-- A save and a load of its file. The save meets the records in the order given. -/
  | reload (met : List (Text × HealthRecord))

namespace Call

/-- The call's key is one the ledger is given, and its numbers are of their types. -/
def Sent : Call → Prop
  | strike url nowUnix _ => Keyed url ∧ nowUnix < 2 ^ 64
  | withhold url _ => Keyed url
  | cleanRun url => Keyed url
  | markHealthy url nowUnix => Keyed url ∧ nowUnix < 2 ^ 64
  | recordRun url runSecs => Keyed url ∧ runSecs < 2 ^ 64
  | reload _ => True

def clock : Call → Option Nat
  | strike _ nowUnix _ => some nowUnix
  | markHealthy _ nowUnix => some nowUnix
  | _ => none

instance (url : Text) : Decidable (Keyed url) := inferInstanceAs (Decidable (_ ∧ _))

instance : DecidablePred Sent
  | strike _ _ _ => inferInstanceAs (Decidable (_ ∧ _))
  | withhold _ _ => inferInstanceAs (Decidable (Keyed _))
  | cleanRun _ => inferInstanceAs (Decidable (Keyed _))
  | markHealthy _ _ => inferInstanceAs (Decidable (_ ∧ _))
  | recordRun _ _ => inferInstanceAs (Decidable (_ ∧ _))
  | reload _ => .isTrue True.intro

/-- What the call tells of the endpoint's strikes. -/
def mark (url : Text) : Call → Option Mark
  | strike other nowUnix _ => if other = url then some (.struck nowUnix) else none
  | cleanRun other => if other = url then some .cleared else none
  | _ => none

end Call

def step (health : EndpointHealth) : Call → Option EndpointHealth
  | .strike url nowUnix reason => some (health.strike url nowUnix reason).1
  | .withhold url reason => some (health.withhold url reason)
  | .cleanRun url => some (health.cleanRun url)
  | .markHealthy url nowUnix => some (health.markHealthy url nowUnix)
  | .recordRun url runSecs => some (health.recordRun url runSecs)
  | .reload met => if met.Perm health.rows then some (load (save met)) else none

/-- The strikes a new one is counted on top of. -/
def HealthRecord.kept (record : HealthRecord) (nowUnix : Nat) : Nat :=
  if STRIKE_WINDOW_SECS < nowUnix - record.lastStrikeUnix then 0 else record.strikes

/-- No sum of the call passes the end of its type. -/
def InRange (health : EndpointHealth) : Call → Prop
  | .strike url nowUnix _ =>
    (health.entry url).kept nowUnix + 1 < 2 ^ 32 ∧ nowUnix + DEMOTION_COOLDOWN_SECS < 2 ^ 64
  | _ => True

instance (health : EndpointHealth) : DecidablePred (InRange health)
  | .strike _ _ _ => inferInstanceAs (Decidable (_ ∧ _))
  | .withhold _ _ | .cleanRun _ | .markHealthy _ _ | .recordRun _ _ | .reload _ => .isTrue True.intro

structure Told (calls : List Call) : Prop where
  sent : ∀ call ∈ calls, call.Sent
  timely : (calls.filterMap Call.clock).Pairwise (· ≤ ·)

/-- The endpoint's counted strikes and clean runs, latest first. -/
def history (url : Text) (calls : List Call) : List Mark :=
  counted STRIKE_DEDUP_SECS (calls.filterMap (Call.mark url))

namespace EndpointHealth

@[simp] theorem lookup_put (health : EndpointHealth) (url : Text) (record : HealthRecord) :
    (health.put url record).records.lookup url = some record :=
  AList.lookup_insert _

theorem lookup_put_ne (health : EndpointHealth) {url other : Text} (apart : other ≠ url) (record : HealthRecord) :
    (health.put url record).records.lookup other = health.records.lookup other :=
  AList.lookup_insert_ne apart

@[simp] theorem entry_put (health : EndpointHealth) (url : Text) (record : HealthRecord) :
    (health.put url record).entry url = record := by
  simp [entry]

theorem isDemoted_iff (health : EndpointHealth) (url : Text) (t : Nat) :
    health.isDemoted url t = true ↔ t < (health.entry url).demotedUntilUnix := by
  unfold isDemoted entry
  cases health.records.lookup url with
  | none => simp [HealthRecord.blank]
  | some record => simp

theorem lookup_cleanRun_ne (health : EndpointHealth) {url other : Text} (apart : other ≠ url) :
    (health.cleanRun url).records.lookup other = health.records.lookup other := by
  unfold cleanRun
  split
  · exact lookup_put_ne health apart _
  · rfl

theorem entry_cleanRun (health : EndpointHealth) (url : Text) :
    (health.cleanRun url).entry url = { health.entry url with strikes := 0 } := by
  unfold cleanRun
  split
  next record found => simp [entry, found]
  next absent => simp [entry, absent, HealthRecord.blank]

theorem lookup_strike_ne (health : EndpointHealth) {url other : Text} (apart : other ≠ url) (nowUnix : Nat)
    (reason : StrikeReason) : (health.strike url nowUnix reason).1.records.lookup other = health.records.lookup other := by
  fun_cases strike health url nowUnix reason <;> exact lookup_put_ne health apart _

theorem strike_same {health : EndpointHealth} {url : Text} {nowUnix : Nat} (reason : StrikeReason)
    (standing : 0 < (health.entry url).strikes)
    (close : nowUnix - (health.entry url).lastStrikeUnix < STRIKE_DEDUP_SECS) :
    Agree (health.strike url nowUnix reason).1 health := by
  intro other
  by_cases own : other = url
  · subst own
    have found : health.records.lookup other = some (health.entry other) := by
      unfold entry at standing ⊢
      cases lookup : health.records.lookup other with
      | none => simp [lookup, HealthRecord.blank] at standing
      | some record => rfl
    simp [strike, standing, close, found]
  · exact lookup_strike_ne health own nowUnix reason

theorem entry_strike {health : EndpointHealth} {url : Text} {nowUnix : Nat} {reason : StrikeReason}
    (fresh : ¬ (0 < (health.entry url).strikes ∧ nowUnix - (health.entry url).lastStrikeUnix < STRIKE_DEDUP_SECS))
    (inRange : InRange health (.strike url nowUnix reason)) :
    (health.strike url nowUnix reason).1.entry url =
      { health.entry url with
        strikes := (health.entry url).kept nowUnix + 1
        lastStrikeUnix := nowUnix
        lastReason := reason
        demotedUntilUnix :=
          if 0 < (health.entry url).kept nowUnix then nowUnix + DEMOTION_COOLDOWN_SECS
          else (health.entry url).demotedUntilUnix } := by
  have counter : ((health.entry url).kept nowUnix + 1) % 2 ^ 32 = (health.entry url).kept nowUnix + 1 :=
    Nat.mod_eq_of_lt inRange.1
  have end_ : (nowUnix + DEMOTION_COOLDOWN_SECS) % 2 ^ 64 = nowUnix + DEMOTION_COOLDOWN_SECS :=
    Nat.mod_eq_of_lt inRange.2
  simp only [strike, if_neg fresh, ← HealthRecord.kept.eq_1, counter, end_]
  by_cases again : 0 < (health.entry url).kept nowUnix
  · have demotes : DEMOTE_AT_STRIKES ≤ (health.entry url).kept nowUnix + 1 := Nat.succ_le_succ again
    simp [demotes, again]
  · have first : (health.entry url).kept nowUnix = 0 := by omega
    simp [first, DEMOTE_AT_STRIKES]

theorem Sound.entry {health : EndpointHealth} (sound : health.Sound) (url : Text) : (health.entry url).Fits := by
  unfold EndpointHealth.entry
  cases found : health.records.lookup url with
  | none => constructor <;> decide
  | some record => exact (sound url record found).2

theorem Sound.put {health : EndpointHealth} (sound : health.Sound) {url : Text} (keyed : Keyed url)
    {record : HealthRecord} (fits : record.Fits) : (health.put url record).Sound := by
  intro other held found
  rcases KeyMap.lookup_insert_some.mp found with ⟨rfl, rfl⟩ | ⟨-, before⟩
  · exact ⟨keyed, fits⟩
  · exact sound other held before

theorem Sound.strike {health : EndpointHealth} (sound : health.Sound) {url : Text} (keyed : Keyed url) {nowUnix : Nat}
    (clock : nowUnix < 2 ^ 64) (reason : StrikeReason) : (health.strike url nowUnix reason).1.Sound := by
  have before := sound.entry url
  have counter : ∀ n, n % 2 ^ 32 < 2 ^ 32 := fun n => Nat.mod_lt n (by decide)
  have end_ : (nowUnix + DEMOTION_COOLDOWN_SECS) % 2 ^ 64 < 2 ^ 64 := Nat.mod_lt _ (by decide)
  fun_cases EndpointHealth.strike health url nowUnix reason with
  | case1 => exact sound.put keyed before
  | case2 => exact sound.put keyed { before with strikes := counter _, struck := clock, demoted := end_ }
  | case3 => exact sound.put keyed { before with strikes := counter _, struck := clock }

theorem Sound.cleanRun {health : EndpointHealth} (sound : health.Sound) {url : Text} (keyed : Keyed url) :
    (health.cleanRun url).Sound := by
  fun_cases EndpointHealth.cleanRun health url with
  | case1 record found => exact sound.put keyed { (sound url record found).2 with strikes := by simp }
  | case2 => exact sound

end EndpointHealth

theorem step_sound {health after : EndpointHealth} (sound : health.Sound) {call : Call} (sent : call.Sent)
    (stepped : step health call = some after) : after.Sound := by
  cases call with
  | strike url nowUnix reason =>
    cases stepped
    exact sound.strike sent.1 sent.2 reason
  | withhold url reason =>
    cases stepped
    have few : min ((health.entry url).withheld + 1) (2 ^ 32 - 1) < 2 ^ 32 :=
      Nat.lt_of_le_of_lt (Nat.min_le_right _ _) (by decide)
    exact sound.put sent { sound.entry url with withheld := few }
  | cleanRun url =>
    cases stepped
    exact sound.cleanRun sent
  | markHealthy url nowUnix =>
    cases stepped
    exact sound.put sent.1 { sound.entry url with healthy := sent.2 }
  | recordRun url runSecs =>
    cases stepped
    exact sound.put sent.1 { sound.entry url with ran := sent.2 }
  | reload met =>
    simp only [step] at stepped
    split at stepped
    next perm =>
      cases stepped
      intro url record found
      rw [agree_load_save sound perm] at found
      exact sound url record found
    next => cases stepped

/-- What a record's counters tell of the strikes behind it. -/
structure Tallies (marks : List Mark) (record : HealthRecord) : Prop where
  live : ∀ last earlier, marks = .struck last :: earlier → 0 < record.strikes ∧ record.lastStrikeUnix = last
  clear : (∀ last earlier, marks ≠ .struck last :: earlier) → record.strikes = 0
  demoted : record.demotedUntilUnix = cooldownEnd STRIKE_WINDOW_SECS DEMOTION_COOLDOWN_SECS marks

/-- The strikes and the demotion of an endpoint. -/
def standing (health : EndpointHealth) (url : Text) : Nat × Nat × Nat :=
  ((health.entry url).strikes, (health.entry url).lastStrikeUnix, (health.entry url).demotedUntilUnix)

theorem Tallies.congr {marks : List Mark} {health after : EndpointHealth} {url : Text}
    (tallies : Tallies marks (health.entry url)) (same : standing after url = standing health url) :
    Tallies marks (after.entry url) := by
  simp only [standing, Prod.mk.injEq] at same
  constructor
  · rw [same.1, same.2.1]
    exact tallies.live
  · rw [same.1]
    exact tallies.clear
  · rw [same.2.2]
    exact tallies.demoted

theorem standing_of_lookup {health after : EndpointHealth} {url : Text}
    (same : after.records.lookup url = health.records.lookup url) : standing after url = standing health url := by
  simp [standing, EndpointHealth.entry, same]

theorem standing_put (health : EndpointHealth) (url target : Text) {record : HealthRecord}
    (strikes : record.strikes = (health.entry target).strikes)
    (last : record.lastStrikeUnix = (health.entry target).lastStrikeUnix)
    (demoted : record.demotedUntilUnix = (health.entry target).demotedUntilUnix) :
    standing (health.put target record) url = standing health url := by
  by_cases own : url = target
  · subst own
    simp [standing, strikes, last, demoted]
  · exact standing_of_lookup (lookup_put_ne health own record)

/-- A call that says nothing of an endpoint's strikes changes none of them. -/
theorem step_standing {health after : EndpointHealth} (sound : health.Sound) {call : Call}
    (stepped : step health call = some after) {url : Text} (silent : call.mark url = none) :
    standing after url = standing health url := by
  cases call with
  | strike target nowUnix reason =>
    cases stepped
    have apart : url ≠ target := by
      rintro rfl
      simp [Call.mark] at silent
    exact standing_of_lookup (lookup_strike_ne health apart nowUnix reason)
  | withhold target reason =>
    cases stepped
    exact standing_put health url target rfl rfl rfl
  | cleanRun target =>
    cases stepped
    have apart : url ≠ target := by
      rintro rfl
      simp [Call.mark] at silent
    exact standing_of_lookup (lookup_cleanRun_ne health apart)
  | markHealthy target nowUnix =>
    cases stepped
    exact standing_put health url target rfl rfl rfl
  | recordRun target runSecs =>
    cases stepped
    exact standing_put health url target rfl rfl rfl
  | reload met =>
    simp only [step] at stepped
    split at stepped
    next perm =>
      cases stepped
      exact standing_of_lookup (agree_load_save sound perm url)
    next => cases stepped

theorem cooldownEnd_alone {marks : List Mark} (alone : ∀ last earlier, marks ≠ .struck last :: earlier) (s : Nat) :
    cooldownEnd STRIKE_WINDOW_SECS DEMOTION_COOLDOWN_SECS (.struck s :: marks) =
      cooldownEnd STRIKE_WINDOW_SECS DEMOTION_COOLDOWN_SECS marks := by
  rcases marks with _ | ⟨_ | _, earlier⟩
  · rfl
  · exact absurd rfl (alone _ _)
  · rfl

theorem count_alone {marks : List Mark} (alone : ∀ last earlier, marks ≠ .struck last :: earlier) (s : Nat) :
    count STRIKE_DEDUP_SECS marks (.struck s) = .struck s :: marks := by
  rcases marks with _ | ⟨_ | _, earlier⟩
  · rfl
  · exact absurd rfl (alone _ _)
  · rfl

theorem tallies_first {marks : List Mark} {health : EndpointHealth} {url : Text} {nowUnix : Nat}
    (tallies : Tallies marks (health.entry url)) (alone : ∀ last earlier, marks ≠ .struck last :: earlier)
    {reason : StrikeReason} (inRange : InRange health (.strike url nowUnix reason)) :
    Tallies (.struck nowUnix :: marks) ((health.strike url nowUnix reason).1.entry url) := by
  have none_ := tallies.clear alone
  have kept : (health.entry url).kept nowUnix = 0 := by
    simp [HealthRecord.kept, none_]
  rw [entry_strike (by simp [none_]) inRange]
  constructor
  · intro last earlier same
    cases same
    simp
  · intro lone
    exact absurd rfl (lone _ _)
  · simp [kept, tallies.demoted, cooldownEnd_alone alone]

theorem tallies_next {earlier : List Mark} {health : EndpointHealth} {url : Text} {last nowUnix : Nat}
    (tallies : Tallies (.struck last :: earlier) (health.entry url)) (apart : ¬ nowUnix - last < STRIKE_DEDUP_SECS)
    {reason : StrikeReason} (inRange : InRange health (.strike url nowUnix reason)) :
    Tallies (.struck nowUnix :: .struck last :: earlier) ((health.strike url nowUnix reason).1.entry url) := by
  obtain ⟨some_, struck⟩ := tallies.live last earlier rfl
  rw [entry_strike (by simp [struck, apart]) inRange]
  constructor
  · intro last earlier same
    cases same
    simp
  · intro lone
    exact absurd rfl (lone _ _)
  · by_cases close : nowUnix ≤ last + STRIKE_WINDOW_SECS
    · have kept : (health.entry url).kept nowUnix = (health.entry url).strikes := by
        rw [HealthRecord.kept, if_neg (by omega)]
      simp [kept, some_, cooldownEnd, close]
    · have kept : (health.entry url).kept nowUnix = 0 := by
        rw [HealthRecord.kept, if_pos (by omega)]
      simp [kept, tallies.demoted, cooldownEnd, close]

theorem tallies_strike {marks : List Mark} {health : EndpointHealth} {url : Text} {nowUnix : Nat}
    (tallies : Tallies marks (health.entry url)) {reason : StrikeReason}
    (inRange : InRange health (.strike url nowUnix reason)) :
    Tallies (count STRIKE_DEDUP_SECS marks (.struck nowUnix)) ((health.strike url nowUnix reason).1.entry url) := by
  by_cases alone : ∀ last earlier, marks ≠ .struck last :: earlier
  · rw [count_alone alone]
    exact tallies_first tallies alone inRange
  · push Not at alone
    obtain ⟨last, earlier, rfl⟩ := alone
    by_cases close : nowUnix - last < STRIKE_DEDUP_SECS
    · obtain ⟨some_, struck⟩ := tallies.live last earlier rfl
      have same := strike_same reason some_ (by rw [struck]; exact close)
      rw [count, if_pos close]
      exact tallies.congr (standing_of_lookup (same url))
    · rw [count, if_neg close]
      exact tallies_next tallies close inRange

theorem tallies_cleared {marks : List Mark} {record : HealthRecord} (tallies : Tallies marks record) :
    Tallies (.cleared :: marks) { record with strikes := 0 } := by
  constructor
  · intro last earlier same
    cases same
  · intro _
    rfl
  · exact tallies.demoted

theorem history_snoc (url : Text) (calls : List Call) (call : Call) :
    history url (calls ++ [call]) = match call.mark url with
      | some mark => count STRIKE_DEDUP_SECS (history url calls) mark
      | none => history url calls := by
  unfold history
  rw [List.filterMap_append]
  cases found : call.mark url with
  | none => simp [found]
  | some mark => simp [found, counted_snoc]

theorem step_tallies {health after : EndpointHealth} (sound : health.Sound) {calls : List Call} {call : Call}
    (inRange : InRange health call) (stepped : step health call = some after) {url : Text}
    (tallies : Tallies (history url calls) (health.entry url)) :
    Tallies (history url (calls ++ [call])) (after.entry url) := by
  rw [history_snoc]
  cases told : call.mark url with
  | none => exact tallies.congr (step_standing sound stepped told)
  | some mark =>
    cases call with
    | strike target nowUnix reason =>
      simp only [Call.mark] at told
      split at told
      next own =>
        cases told
        cases stepped
        subst own
        exact tallies_strike tallies inRange
      next => cases told
    | cleanRun target =>
      simp only [Call.mark] at told
      split at told
      next own =>
        cases told
        cases stepped
        subst own
        simp only [entry_cleanRun, count_cleared]
        exact tallies_cleared tallies
      next => cases told
    | withhold | markHealthy | recordRun | reload => cases told

theorem Told.left {first rest : List Call} (told : Told (first ++ rest)) : Told first := by
  have timely := told.timely
  rw [List.filterMap_append, List.pairwise_append] at timely
  exact ⟨fun call member => told.sent call (List.mem_append_left _ member), timely.1⟩

/-- Along every run the ledger stays sound and its counters tell each endpoint's strikes. -/
theorem run_tallies {calls : List Call} {health : EndpointHealth}
    (ran : Machine.run step .empty calls = some health) (told : Told calls)
    (inRange : Machine.Meets step InRange .empty calls) :
    health.Sound ∧ ∀ url, Tallies (history url calls) (health.entry url) := by
  have along : Told calls → Machine.Meets step InRange .empty calls →
      health.Sound ∧ ∀ url, Tallies (history url calls) (health.entry url) := by
    refine Machine.run_history (p := fun calls health => Told calls → Machine.Meets step InRange .empty calls →
      health.Sound ∧ ∀ url, Tallies (history url calls) (health.entry url)) ?_ ?_ ran
    · intro _ _
      constructor
      · intro url record found
        cases found
      · intro url
        constructor
        · intro last earlier same
          cases same
        · intro _
          rfl
        · rfl
    · intro first call mid next reached ih stepped told inRange
      obtain ⟨sound, tallies⟩ := ih told.left inRange.left
      have sent : call.Sent := told.sent call (by simp)
      have allowed : InRange mid call := (inRange.right reached).1
      exact ⟨step_sound sound sent stepped, fun url => step_tallies sound allowed stepped (tallies url)⟩
  exact along told inRange

theorem time_mark {url : Text} {call : Call} {mark : Mark} (told : call.mark url = some mark) {s : Nat}
    (timed : mark.time = some s) : call.clock = some s := by
  cases call with
  | strike target nowUnix reason =>
    simp only [Call.mark] at told
    split at told
    · cases told
      exact timed
    · cases told
  | cleanRun target =>
    simp only [Call.mark] at told
    split at told <;> cases told
    cases timed
  | withhold | markHealthy | recordRun | reload => cases told

/-- A strike is timed by the clock of its call. -/
theorem times_marks (url : Text) (calls : List Call) :
    (times (calls.filterMap (Call.mark url))).Sublist (calls.filterMap Call.clock) := by
  induction calls with
  | nil => exact List.Sublist.refl _
  | cons call calls ih =>
    have behind : (calls.filterMap Call.clock).Sublist ((call :: calls).filterMap Call.clock) :=
      (List.sublist_cons_self call calls).filterMap _
    cases told : call.mark url with
    | none =>
      rw [List.filterMap_cons_none told]
      exact ih.trans behind
    | some mark =>
      rw [List.filterMap_cons_some told, times]
      cases timed : mark.time with
      | none =>
        rw [List.filterMap_cons_none timed]
        exact ih.trans behind
      | some s =>
        rw [List.filterMap_cons_some timed, List.filterMap_cons_some (time_mark told timed)]
        exact ih.cons_cons s

theorem falling_history {calls : List Call} (told : Told calls) (url : Text) :
    (times (history url calls)).Pairwise (· ≥ ·) :=
  falling_counted (told.timely.sublist (times_marks url calls))

theorem mem_clocks {url : Text} {calls : List Call} {s : Nat} (member : s ∈ times (history url calls)) :
    s ∈ calls.filterMap Call.clock :=
  (times_marks url calls).subset (mem_times_counted member)

/-- The ledger's law: who sits out, which strikes count, what leaves an endpoint alone, and what a reload keeps. -/
theorem demotion_follows_strikes {calls : List Call} {health : EndpointHealth}
    (ran : Machine.run step .empty calls = some health) (told : Told calls)
    (inRange : Machine.Meets step InRange .empty calls) :
    (∀ url t, (∀ clock ∈ calls.filterMap Call.clock, clock ≤ t) →
      (health.isDemoted url t = true ↔
        ∃ s, Condemned STRIKE_WINDOW_SECS (history url calls) s ∧ s ≤ t ∧ t < s + DEMOTION_COOLDOWN_SECS)) ∧
    (∀ url last earlier nowUnix reason, history url calls = .struck last :: earlier →
      nowUnix - last < STRIKE_DEDUP_SECS → Agree (health.strike url nowUnix reason).1 health) ∧
    (∀ call after url, step health call = some after → call.mark url = none →
      standing after url = standing health url) ∧
    (∀ met : List (Text × HealthRecord), met.Perm health.rows →
      (∀ cached nowUnix k ignoreDemotions ranks,
        (load (save met)).racePantry cached nowUnix k ignoreDemotions ranks =
          health.racePantry cached nowUnix k ignoreDemotions ranks) ∧
      (∀ nowUnix, (load (save met)).demotedSet nowUnix = health.demotedSet nowUnix) ∧
      (∀ url nowUnix, (load (save met)).hasLiveStrike url nowUnix = health.hasLiveStrike url nowUnix)) ∧
    (∀ rows : List (Text × HealthRecord × Nat), (rows.map Prod.fst).Nodup →
      (∀ r ∈ rows, Keyed r.1 ∧ r.2.1.Fits ∧ 4 ≤ r.2.2) →
      ∀ url record, (load (saveOlder rows)).records.lookup url = some record ↔
        ∃ written width, (url, written, width) ∈ rows ∧ record = written.older width) := by
  obtain ⟨sound, tallies⟩ := run_tallies ran told inRange
  refine ⟨?_, ?_, ?_, ?_, ?_⟩
  · intro url t late
    have falling := falling_history told url
    rw [isDemoted_iff, (tallies url).demoted, lt_cooldownEnd_iff falling]
    constructor
    · rintro ⟨s, condemned, early⟩
      exact ⟨s, condemned, late s (mem_clocks condemned.mem), early⟩
    · rintro ⟨s, condemned, -, early⟩
      exact ⟨s, condemned, early⟩
  · intro url last earlier nowUnix reason latest close
    obtain ⟨some_, struck⟩ := (tallies url).live last earlier latest
    exact strike_same reason some_ (by rw [struck]; exact close)
  · intro call after url stepped silent
    exact step_standing sound stepped silent
  · intro met perm
    have agree := agree_load_save sound perm
    exact ⟨agree.racePantry, agree.demotedSet, agree.hasLiveStrike⟩
  · intro rows distinct fit url record
    exact lookup_load_saveOlder distinct fit

def node : Text := "wss://n".toList

/-- Two strikes with one withheld between them, then a relaunch. -/
def relaunched : List Call :=
  [.strike node 100 .drop, .withhold node .ownLoad, .strike node 150 .stall,
    .reload [(node, ⟨2, 150, 750, 0, .stall, 1, 0⟩)]]

theorem demotion_follows_strikes_relaunched : ∃ health, Machine.run step .empty relaunched = some health ∧
    (health.isDemoted node 700 = true ↔
      ∃ s, Condemned STRIKE_WINDOW_SECS (history node relaunched) s ∧ s ≤ 700 ∧
        700 < s + DEMOTION_COOLDOWN_SECS) := by
  have law := @demotion_follows_strikes relaunched _ rfl ⟨by decide, by decide⟩ (by decide)
  exact ⟨_, rfl, law.1 node 700 (by decide)⟩

section Counted

/-- The counted strikes where a clean run does not end the incident before it. -/
def countAcross (marks : List Mark) : Mark → List Mark
  | .struck now =>
    if (times marks).head?.any fun last => decide (now - last < STRIKE_DEDUP_SECS) then marks else .struck now :: marks
  | .cleared => .cleared :: marks

def historyAcross (url : Text) (calls : List Call) : List Mark :=
  (calls.filterMap (Call.mark url)).foldl countAcross []

/-- A clean run between two strikes of one moment, and a third strike. -/
def forgiven : List Call := [.strike node 100 .drop, .cleanRun node, .strike node 101 .drop, .strike node 115 .stall]

/-- Two strikes in the last minute a `u64` clock has. -/
def lastMinute : List Call := [.strike node (2 ^ 64 - 30) .drop, .strike node (2 ^ 64 - 15) .drop]

/-- A strike every ten seconds. -/
def steady (n : Nat) : List Call := (List.range n).map fun i => .strike node (10 * i) .drop

def steadily : Nat → EndpointHealth
  | 0 => .empty
  | n + 1 => ((steadily n).strike node (10 * n) .drop).1

theorem steady_succ (n : Nat) : steady (n + 1) = steady n ++ [.strike node (10 * n) .drop] := by
  simp [steady, List.range_succ]

theorem run_steady (n : Nat) : Machine.run step .empty (steady n) = some (steadily n) := by
  induction n with
  | zero => rfl
  | succ n ih =>
    rw [steady_succ, Machine.run_append, ih]
    rfl

theorem historyAcross_steady (n : Nat) :
    historyAcross node (steady n) = (List.range n).reverse.map fun i => .struck (10 * i) := by
  induction n with
  | zero => rfl
  | succ n ih =>
    have grown : historyAcross node (steady (n + 1)) = countAcross (historyAcross node (steady n)) (.struck (10 * n)) := by
      simp [historyAcross, steady_succ, Call.mark]
    rw [grown, ih, List.range_succ, List.reverse_append]
    cases n with
    | zero => rfl
    | succ n =>
      have apart : ¬ (10 * (n + 1) - 10 * n < STRIKE_DEDUP_SECS) := by
        simp [STRIKE_DEDUP_SECS]
        omega
      simp [countAcross, List.range_succ, times, Mark.time]
      omega

theorem entry_steadily (n : Nat) (few : n + 1 < 2 ^ 32) :
    (steadily (n + 1)).entry node = ⟨n + 1, 10 * n, if n = 0 then 0 else 10 * n + 600, 0, .drop, 0, 0⟩ := by
  induction n with
  | zero => decide
  | succ n ih =>
    have before := ih (by omega)
    have kept : ((steadily (n + 1)).entry node).kept (10 * (n + 1)) = n + 1 := by
      rw [before, HealthRecord.kept, if_neg (by simp [STRIKE_WINDOW_SECS]; omega)]
    rw [steadily, entry_strike]
    · rw [kept, before]
      simp [DEMOTION_COOLDOWN_SECS]
    · rw [before]
      simp [STRIKE_DEDUP_SECS]
      omega
    · constructor
      · rw [kept]
        omega
      · simp only [DEMOTION_COOLDOWN_SECS]
        omega

theorem told_steady (n : Nat) (few : n ≤ 2 ^ 32) : Told (steady n) := by
  constructor
  · intro call member
    obtain ⟨i, within, rfl⟩ := List.mem_map.mp member
    have small := List.mem_range.mp within
    exact ⟨by decide, by omega⟩
  · have clocks : (steady n).filterMap Call.clock = (List.range n).map (10 * ·) := by
      rw [steady, List.filterMap_map, ← List.filterMap_eq_map]
      rfl
    rw [clocks, List.pairwise_map]
    exact List.pairwise_lt_range.imp fun before => Nat.mul_le_mul_left 10 (Nat.le_of_lt before)

/-- The counter is back at zero with the last of its strikes, and that strike starts no cooldown. -/
theorem steadily_wraps {n : Nat} (whole : n + 2 = 2 ^ 32) :
    (steadily (n + 2)).isDemoted node (10 * (n + 1) + 595) = false := by
  have before := entry_steadily n (by rw [← whole]; exact Nat.lt_succ_self _)
  have first : n ≠ 0 := by
    rintro rfl
    exact absurd whole (by decide)
  have counter : (n + 1 + 1) % 2 ^ 32 = 0 := by
    rw [show n + 1 + 1 = 2 ^ 32 from whole, Nat.mod_self]
  have inside : ¬ 600 < 10 * (n + 1) - 10 * n := by omega
  have apart : ¬ 10 * (n + 1) - 10 * n < 10 := by omega
  have after : ((steadily (n + 2)).entry node).demotedUntilUnix = 10 * n + 600 := by
    rw [steadily]
    simp only [strike, before, STRIKE_DEDUP_SECS, STRIKE_WINDOW_SECS, DEMOTE_AT_STRIKES, apart, inside, counter,
      and_false, if_false]
    simp [first]
  rw [← Bool.not_eq_true, isDemoted_iff, after]
  omega

theorem condemned_steady (n : Nat) :
    Condemned STRIKE_WINDOW_SECS (historyAcross node (steady (n + 2))) (10 * (n + 1)) := by
  rw [historyAcross_steady]
  refine ⟨[], [], (List.range n).reverse.map fun i => .struck (10 * i), 10 * n, ?_, by simp, ?_⟩
  · simp [List.range_succ]
  · simp only [STRIKE_WINDOW_SECS]
    omega

/-- With a clean run that leaves the incident open, or past the end of a type, the law fails. -/
theorem clean_run_reopens_incident :
    (Told forgiven ∧ ∃ health, Machine.run step .empty forgiven = some health ∧ health.isDemoted node 115 = true ∧
      ¬ ∃ s, Condemned STRIKE_WINDOW_SECS (historyAcross node forgiven) s ∧ s ≤ 115 ∧ 115 < s + DEMOTION_COOLDOWN_SECS) ∧
    (Told lastMinute ∧ ∃ health, Machine.run step .empty lastMinute = some health ∧
      health.isDemoted node (2 ^ 64 - 15) = false ∧
      ∃ s, Condemned STRIKE_WINDOW_SECS (historyAcross node lastMinute) s ∧ s ≤ 2 ^ 64 - 15 ∧
        2 ^ 64 - 15 < s + DEMOTION_COOLDOWN_SECS) ∧
    ∃ n t, Told (steady n) ∧ (∀ clock ∈ (steady n).filterMap Call.clock, clock ≤ t) ∧
      ∃ health, Machine.run step .empty (steady n) = some health ∧ health.isDemoted node t = false ∧
        ∃ s, Condemned STRIKE_WINDOW_SECS (historyAcross node (steady n)) s ∧ s ≤ t ∧ t < s + DEMOTION_COOLDOWN_SECS := by
  obtain ⟨n, whole⟩ : ∃ n : Nat, n + 2 = 2 ^ 32 := ⟨2 ^ 32 - 2, by decide⟩
  refine ⟨⟨⟨by decide, by decide⟩, _, rfl, by decide, ?_⟩, ⟨⟨by decide, by decide⟩, _, rfl, by decide, ?_⟩,
    n + 2, 10 * (n + 1) + 595, told_steady _ (Nat.le_of_eq whole), ?_, _, run_steady _, steadily_wraps whole,
    10 * (n + 1), condemned_steady n, by omega, by simp only [DEMOTION_COOLDOWN_SECS]; omega⟩
  · rintro ⟨s, condemned, -, early⟩
    have sits := (lt_cooldownEnd_iff (by decide) 115).mpr ⟨s, condemned, early⟩
    exact absurd sits (by decide)
  · exact ⟨2 ^ 64 - 15, ⟨[], [], [], 2 ^ 64 - 30, by decide, by decide, by decide⟩, by decide, by decide⟩
  · intro clock member
    obtain ⟨call, listed, timed⟩ := List.mem_filterMap.mp member
    obtain ⟨i, within, rfl⟩ := List.mem_map.mp listed
    have small := List.mem_range.mp within
    cases timed
    omega

end Counted

end Kaspaverse.Link
