import Mathlib
import Kaspaverse.Library.KeyedMap
import Kaspaverse.Library.Tabbed
import Kaspaverse.Link.Reason

namespace Kaspaverse.Link

open Core Tabbed

def STRIKE_WINDOW_SECS : Nat := 600

def DEMOTE_AT_STRIKES : Nat := 2

def DEMOTION_COOLDOWN_SECS : Nat := 600

def STRIKE_DEDUP_SECS : Nat := 10

def PANTRY_FRESH_SECS : Nat := 7 * 24 * 3600

structure HealthRecord where
  strikes : Nat
  lastStrikeUnix : Nat
  demotedUntilUnix : Nat
  /-- 0 where the endpoint was never seen healthy. -/
  lastHealthyUnix : Nat
  lastReason : StrikeReason
  withheld : Nat
  lastRunSecs : Nat
deriving DecidableEq

def HealthRecord.blank : HealthRecord := ⟨0, 0, 0, 0, .unknown, 0, 0⟩

/-- The demotion ledger. -/
structure EndpointHealth where
  records : KeyMap Text HealthRecord

namespace EndpointHealth

def empty : EndpointHealth := ⟨∅⟩

/-- `entry(url).or_default()`. -/
def entry (health : EndpointHealth) (url : Text) : HealthRecord := (health.records.lookup url).getD .blank

def put (health : EndpointHealth) (url : Text) (record : HealthRecord) : EndpointHealth :=
  ⟨health.records.insert url record⟩

/-- Counts a strike, unless it is of the incident counted last; whether the endpoint is now demoted.
    The counter is a `u32` and the clock a `u64`: past their ends both wrap. -/
def strike (health : EndpointHealth) (url : Text) (nowUnix : Nat) (reason : StrikeReason) : EndpointHealth × Bool :=
  let record := health.entry url
  if 0 < record.strikes ∧ nowUnix - record.lastStrikeUnix < STRIKE_DEDUP_SECS then
    (health.put url record, decide (nowUnix < record.demotedUntilUnix))
  else
    let kept := if STRIKE_WINDOW_SECS < nowUnix - record.lastStrikeUnix then 0 else record.strikes
    let strikes := (kept + 1) % 2 ^ 32
    let struck := { record with strikes := strikes, lastStrikeUnix := nowUnix, lastReason := reason }
    if DEMOTE_AT_STRIKES ≤ strikes then
      (health.put url { struck with demotedUntilUnix := (nowUnix + DEMOTION_COOLDOWN_SECS) % 2 ^ 64 }, true)
    else (health.put url struck, false)

def withhold (health : EndpointHealth) (url : Text) (reason : StrikeReason) : EndpointHealth :=
  let record := health.entry url
  health.put url { record with withheld := min (record.withheld + 1) (2 ^ 32 - 1), lastReason := reason }

def recordRun (health : EndpointHealth) (url : Text) (runSecs : Nat) : EndpointHealth :=
  health.put url { health.entry url with lastRunSecs := runSecs }

def cleanRun (health : EndpointHealth) (url : Text) : EndpointHealth :=
  match health.records.lookup url with
  | some record => health.put url { record with strikes := 0 }
  | none => health

def markHealthy (health : EndpointHealth) (url : Text) (nowUnix : Nat) : EndpointHealth :=
  health.put url { health.entry url with lastHealthyUnix := nowUnix }

def isDemoted (health : EndpointHealth) (url : Text) (nowUnix : Nat) : Bool :=
  (health.records.lookup url).any fun record => decide (nowUnix < record.demotedUntilUnix)

def hasLiveStrike (health : EndpointHealth) (url : Text) (nowUnix : Nat) : Bool :=
  (health.records.lookup url).any fun record =>
    decide (0 < record.strikes) && decide (nowUnix - record.lastStrikeUnix ≤ STRIKE_WINDOW_SECS)

def rows (health : EndpointHealth) : List (Text × HealthRecord) := health.records.entries.map fun e => (e.1, e.2)

def demotedSet (health : EndpointHealth) (nowUnix : Nat) : Finset Text :=
  ((health.rows.filter fun row => decide (nowUnix < row.2.demotedUntilUnix)).map Prod.fst).toFinset

/-- Best rank first, then most recently healthy, then by address. -/
def dialsBefore (ranks : KeyMap Text Nat) (a b : Text × HealthRecord) : Bool :=
  let rank := fun url => (ranks.lookup url).getD (2 ^ 64 - 1)
  if rank a.1 ≠ rank b.1 then decide (rank a.1 < rank b.1)
  else if a.2.lastHealthyUnix ≠ b.2.lastHealthyUnix then decide (b.2.lastHealthyUnix < a.2.lastHealthyUnix)
  else decide (a.1 ≤ b.1)

def racePantry (health : EndpointHealth) (cached : Option Text) (nowUnix k : Nat) (ignoreDemotions : Bool)
    (ranks : KeyMap Text Nat) : List Text :=
  let fresh := health.rows.filter fun row =>
    decide (0 < row.2.lastHealthyUnix) && decide (nowUnix - row.2.lastHealthyUnix ≤ PANTRY_FRESH_SECS) &&
      (ignoreDemotions || decide (row.2.demotedUntilUnix ≤ nowUnix)) && decide (some row.1 ≠ cached)
  ((fresh.mergeSort (dialsBefore ranks)).take k).map Prod.fst

end EndpointHealth

section File

def isWsUrl (url : Text) : Bool := "wss://".toList.isPrefixOf url || "ws://".toList.isPrefixOf url

def parseU64 (text : Text) : Option Nat := parseBelow (2 ^ 64) text

/-- One line of the ledger's file. The columns behind the fourth came later, and a file without them is read. -/
def loadLine (line : Text) : Option (Text × HealthRecord) :=
  match columns line with
  | url :: s :: l :: d :: later =>
    if isWsUrl url then do
      let strikes ← parseU32 s
      let last ← parseU64 l
      let until_ ← parseU64 d
      some (url, {
        strikes := strikes
        lastStrikeUnix := last
        demotedUntilUnix := until_
        lastHealthyUnix := (later[0]?.bind parseU64).getD 0
        lastReason := later[1]?.elim .unknown StrikeReason.fromToken
        withheld := (later[2]?.bind parseU32).getD 0
        lastRunSecs := (later[3]?.bind parseU64).getD 0 })
    else none
  | _ => none

def load (text : Text) : EndpointHealth :=
  ⟨KeyMap.ofRows ((lines text).filterMap loadLine)⟩

def cells (url : Text) (record : HealthRecord) : List Text :=
  [url, decimal record.strikes, decimal record.lastStrikeUnix, decimal record.demotedUntilUnix,
    decimal record.lastHealthyUnix, record.lastReason.asToken, decimal record.withheld, decimal record.lastRunSecs]

/-- The file of a ledger whose records an iteration meets in this order. -/
def save (rows : List (Text × HealthRecord)) : Text := page (rows.map fun r => row (cells r.1 r.2))

/-- A record as a file of `width` columns gives it back. -/
def HealthRecord.older (width : Nat) (record : HealthRecord) : HealthRecord :=
  { record with
    lastHealthyUnix := if 5 ≤ width then record.lastHealthyUnix else 0
    lastReason := if 6 ≤ width then record.lastReason else .unknown
    withheld := if 7 ≤ width then record.withheld else 0
    lastRunSecs := if 8 ≤ width then record.lastRunSecs else 0 }

/-- A file whose rows are each as wide as the build that wrote it made them. -/
def saveOlder (rows : List (Text × HealthRecord × Nat)) : Text :=
  page (rows.map fun r => row ((cells r.1 r.2.1).take r.2.2))

/-- What the source's integer types hold. -/
structure HealthRecord.Fits (record : HealthRecord) : Prop where
  strikes : record.strikes < 2 ^ 32
  struck : record.lastStrikeUnix < 2 ^ 64
  demoted : record.demotedUntilUnix < 2 ^ 64
  healthy : record.lastHealthyUnix < 2 ^ 64
  withheld : record.withheld < 2 ^ 32
  ran : record.lastRunSecs < 2 ^ 64

/-- A key the ledger is given: dialable, and a WebSocket's. -/
def Keyed (url : Text) : Prop := candidateUrlIsClean url = true ∧ isWsUrl url = true

theorem parseU32_decimal {n : Nat} (small : n < 2 ^ 32) : parseU32 (decimal n) = some n := by
  have same : parseU32 (decimal n) = parseBelow (2 ^ 32) (decimal n) := by
    have digit : isDigit = Char.isDigit := rfl
    have commuted : (fun acc (c : Char) => acc * 10 + (c.toNat - '0'.toNat)) = fun acc c => 10 * acc + (c.toNat - '0'.toNat) := by
      funext acc c
      rw [Nat.mul_comm]
    simp only [parseU32, parseBelow, digit, commuted, Nat.ofDigitChars_eq_foldl]
  rw [same, parseBelow_decimal small]

theorem parseU64_decimal {n : Nat} (small : n < 2 ^ 64) : parseU64 (decimal n) = some n := parseBelow_decimal small

theorem decimal_plain (n : Nat) : ∀ c ∈ decimal n, isWhitespace c = false := by
  intro c member
  have digit := isDigit_of_mem_decimal member
  simp only [Char.isDigit, Bool.and_eq_true, decide_eq_true_eq] at digit
  have low : 48 ≤ c.toNat := digit.1
  have high : c.toNat ≤ 57 := digit.2
  simp [isWhitespace]
  omega

theorem cells_plain {url : Text} (keyed : Keyed url) (record : HealthRecord) :
    ∀ cell ∈ cells url record, ∀ c ∈ cell, isWhitespace c = false := by
  intro cell member
  simp only [cells, List.mem_cons, List.not_mem_nil, or_false] at member
  rcases member with rfl | rfl | rfl | rfl | rfl | rfl | rfl | rfl
  · exact clean_plain keyed.1
  all_goals first | exact decimal_plain _ | exact StrikeReason.asToken_plain _

theorem oneLine_row {some_ : List Text} (plain : ∀ cell ∈ some_, ∀ c ∈ cell, isWhitespace c = false) :
    OneLine (row some_) := by
  have outside : ∀ c ∈ row some_, c = '\t' ∨ isWhitespace c = false := by
    intro c member
    rcases mem_row member with tab | ⟨cell, within, found⟩
    · exact Or.inl tab
    · exact Or.inr (plain cell within c found)
  constructor
  · intro feed
    exact absurd (outside _ feed) (by decide)
  · intro return_
    exact absurd (outside _ (List.mem_of_getLast? return_)) (by decide)

theorem loadLine_row {url : Text} (keyed : Keyed url) {record : HealthRecord} (fits : record.Fits) {width : Nat}
    (wide : 4 ≤ width) : loadLine (row ((cells url record).take width)) = some (url, record.older width) := by
  have plain : ∀ cell ∈ (cells url record).take width, '\t' ∉ cell := by
    intro cell member tab
    have blank := cells_plain keyed record cell (List.mem_of_mem_take member) _ tab
    exact absurd blank (by decide)
  obtain ⟨more, rfl⟩ : ∃ more, width = more + 4 := ⟨width - 4, by omega⟩
  have read : columns (row ((cells url record).take (more + 4))) = (cells url record).take (more + 4) :=
    columns_row (by simp [cells]) plain
  have strikes := parseU32_decimal fits.strikes
  have struck := parseU64_decimal fits.struck
  have demoted := parseU64_decimal fits.demoted
  have healthy := parseU64_decimal fits.healthy
  have withheld := parseU32_decimal fits.withheld
  have ran := parseU64_decimal fits.ran
  rw [loadLine, read]
  match more with
  | 0 | 1 | 2 | 3 | more + 4 =>
    simp [cells, keyed.2, strikes, struck, demoted, healthy, withheld, ran, StrikeReason.fromToken_asToken,
      HealthRecord.older]

theorem load_saveOlder {rows : List (Text × HealthRecord × Nat)}
    (sound : ∀ r ∈ rows, Keyed r.1 ∧ r.2.1.Fits ∧ 4 ≤ r.2.2) :
    load (saveOlder rows) = ⟨KeyMap.ofRows (rows.map fun r => (r.1, r.2.1.older r.2.2))⟩ := by
  have plain : ∀ line ∈ rows.map fun r => row ((cells r.1 r.2.1).take r.2.2), OneLine line := by
    intro line member
    obtain ⟨r, within, rfl⟩ := List.mem_map.mp member
    apply oneLine_row
    intro cell listed
    exact cells_plain (sound r within).1 r.2.1 cell (List.mem_of_mem_take listed)
  have loaded : (rows.map fun r => row ((cells r.1 r.2.1).take r.2.2)).filterMap loadLine =
      rows.map fun r => (r.1, r.2.1.older r.2.2) := by
    rw [List.filterMap_map, ← List.filterMap_eq_map]
    apply List.filterMap_congr
    intro r within
    obtain ⟨keyed, fits, wide⟩ := sound r within
    exact loadLine_row keyed fits wide
  rw [load, saveOlder, lines_page plain, loaded]

theorem lookup_load_saveOlder {rows : List (Text × HealthRecord × Nat)} (distinct : (rows.map Prod.fst).Nodup)
    (sound : ∀ r ∈ rows, Keyed r.1 ∧ r.2.1.Fits ∧ 4 ≤ r.2.2) {url : Text} {record : HealthRecord} :
    (load (saveOlder rows)).records.lookup url = some record ↔
      ∃ written width, (url, written, width) ∈ rows ∧ record = written.older width := by
  have keys : ((rows.map fun r => (r.1, r.2.1.older r.2.2)).map Prod.fst).Nodup := by
    rw [List.map_map]
    exact distinct
  rw [load_saveOlder sound, KeyMap.lookup_ofRows keys, List.mem_map]
  constructor
  · rintro ⟨⟨_, written, width⟩, member, same⟩
    cases same
    exact ⟨written, width, member, rfl⟩
  · rintro ⟨written, width, member, rfl⟩
    exact ⟨_, member, rfl⟩

theorem save_eq (rows : List (Text × HealthRecord)) : save rows = saveOlder (rows.map fun r => (r.1, r.2, 8)) := by
  unfold save saveOlder
  rw [List.map_map]
  rfl

theorem load_save {rows : List (Text × HealthRecord)} (sound : ∀ r ∈ rows, Keyed r.1 ∧ r.2.Fits) :
    load (save rows) = ⟨KeyMap.ofRows rows⟩ := by
  have wide : ∀ r ∈ rows.map fun r => (r.1, r.2, 8), Keyed r.1 ∧ r.2.1.Fits ∧ 4 ≤ r.2.2 := by
    intro r member
    obtain ⟨written, within, rfl⟩ := List.mem_map.mp member
    exact ⟨(sound written within).1, (sound written within).2, by simp⟩
  have whole : (rows.map fun r => (r.1, r.2, 8)).map (fun r : Text × HealthRecord × Nat => (r.1, r.2.1.older r.2.2)) =
      rows := by
    rw [List.map_map]
    exact List.map_id rows
  rw [save_eq, load_saveOlder wide, whole]

end File

namespace EndpointHealth

theorem mem_rows {health : EndpointHealth} {url : Text} {record : HealthRecord} :
    (url, record) ∈ health.rows ↔ health.records.lookup url = some record := by
  rw [← KeyMap.mem_entries_iff, rows, List.mem_map]
  constructor
  · rintro ⟨e, member, same⟩
    cases same
    exact member
  · intro member
    exact ⟨_, member, rfl⟩

theorem distinct_rows (health : EndpointHealth) : (health.rows.map Prod.fst).Nodup := by
  have keys : health.rows.map Prod.fst = health.records.keys := by
    rw [rows, List.map_map]
    rfl
  rw [keys]
  exact health.records.keys_nodup

/-- Two ledgers with the same record for every endpoint. -/
def Agree (health other : EndpointHealth) : Prop := ∀ url, health.records.lookup url = other.records.lookup url

theorem Agree.rows_perm {health other : EndpointHealth} (agree : Agree health other) :
    health.rows.Perm other.rows := by
  have entries : health.records.entries.Perm other.records.entries := by
    apply List.lookup_ext health.records.nodupKeys other.records.nodupKeys
    intro url record
    exact iff_of_eq (congrArg (record ∈ ·) (agree url))
  exact entries.map _

theorem agree_of_perm {health : EndpointHealth} {met : List (Text × HealthRecord)} (perm : met.Perm health.rows) :
    Agree ⟨.ofRows met⟩ health := by
  intro url
  apply KeyMap.lookup_ext
  intro record
  rw [KeyMap.lookup_ofRows ((perm.map Prod.fst).nodup_iff.mpr health.distinct_rows), perm.mem_iff, mem_rows]

theorem dialsBefore_total (ranks : KeyMap Text Nat) (a b : Text × HealthRecord) :
    (dialsBefore ranks a b || dialsBefore ranks b a) = true := by
  simp only [dialsBefore]
  have urls := le_total a.1 b.1
  grind

theorem dialsBefore_trans (ranks : KeyMap Text Nat) (a b c : Text × HealthRecord)
    (first : dialsBefore ranks a b = true) (second : dialsBefore ranks b c = true) : dialsBefore ranks a c = true := by
  simp only [dialsBefore] at first second ⊢
  have urls : a.1 ≤ b.1 → b.1 ≤ c.1 → a.1 ≤ c.1 := le_trans
  grind

theorem dialsBefore_antisymm (ranks : KeyMap Text Nat) (a b : Text × HealthRecord)
    (first : dialsBefore ranks a b = true) (second : dialsBefore ranks b a = true) : a.1 = b.1 := by
  simp only [dialsBefore] at first second
  have urls : a.1 ≤ b.1 → b.1 ≤ a.1 → a.1 = b.1 := le_antisymm
  grind

theorem Agree.racePantry {health other : EndpointHealth} (agree : Agree health other) (cached : Option Text)
    (nowUnix k : Nat) (ignoreDemotions : Bool) (ranks : KeyMap Text Nat) :
    health.racePantry cached nowUnix k ignoreDemotions ranks = other.racePantry cached nowUnix k ignoreDemotions ranks := by
  simp only [EndpointHealth.racePantry]
  generalize keep_def : (fun row : Text × HealthRecord =>
    decide (0 < row.2.lastHealthyUnix) && decide (nowUnix - row.2.lastHealthyUnix ≤ PANTRY_FRESH_SECS) &&
      (ignoreDemotions || decide (row.2.demotedUntilUnix ≤ nowUnix)) && decide (some row.1 ≠ cached)) = keep
  have sorted : ∀ l : List (Text × HealthRecord), (l.mergeSort (dialsBefore ranks)).Pairwise fun a b => dialsBefore ranks a b = true :=
    List.pairwise_mergeSort (dialsBefore_trans ranks) (dialsBefore_total ranks)
  have same : (health.rows.filter keep).mergeSort (dialsBefore ranks) = (other.rows.filter keep).mergeSort (dialsBefore ranks) := by
    apply List.Perm.eq_of_pairwise _ (sorted _) (sorted _)
    · exact (List.mergeSort_perm _ _).trans ((agree.rows_perm.filter keep).trans (List.mergeSort_perm _ _).symm)
    · intro a b here there ab ba
      have url : a.1 = b.1 := dialsBefore_antisymm ranks a b ab ba
      have left : health.records.lookup a.1 = some a.2 :=
        mem_rows.mp (List.mem_filter.mp (List.mem_mergeSort.mp here)).1
      have right : other.records.lookup b.1 = some b.2 :=
        mem_rows.mp (List.mem_filter.mp (List.mem_mergeSort.mp there)).1
      rw [agree, url, right] at left
      exact Prod.ext url (Option.some.inj left).symm
  rw [same]

theorem Agree.demotedSet {health other : EndpointHealth} (agree : Agree health other) (nowUnix : Nat) :
    health.demotedSet nowUnix = other.demotedSet nowUnix :=
  List.toFinset_eq_of_perm _ _ ((agree.rows_perm.filter _).map _)

theorem Agree.hasLiveStrike {health other : EndpointHealth} (agree : Agree health other) (url : Text) (nowUnix : Nat) :
    health.hasLiveStrike url nowUnix = other.hasLiveStrike url nowUnix := by
  rw [EndpointHealth.hasLiveStrike, agree]
  rfl

theorem Agree.isDemoted {health other : EndpointHealth} (agree : Agree health other) (url : Text) (nowUnix : Nat) :
    health.isDemoted url nowUnix = other.isDemoted url nowUnix := by
  rw [EndpointHealth.isDemoted, agree]
  rfl

/-- Every key can be dialed and every number fits its type. -/
def Sound (health : EndpointHealth) : Prop :=
  ∀ url record, health.records.lookup url = some record → Keyed url ∧ record.Fits

theorem agree_load_save {health : EndpointHealth} (sound : health.Sound) {met : List (Text × HealthRecord)}
    (perm : met.Perm health.rows) : Agree (load (save met)) health := by
  have listed : ∀ r ∈ met, Keyed r.1 ∧ r.2.Fits := by
    intro r member
    exact sound r.1 r.2 (mem_rows.mp (perm.mem_iff.mp member))
  rw [load_save listed]
  exact agree_of_perm perm

end EndpointHealth

end Kaspaverse.Link
