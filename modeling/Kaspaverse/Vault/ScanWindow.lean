import Kaspaverse.Library.Bytes
import Kaspaverse.Chain.Discovery

namespace Kaspaverse.Vault

open Chain

def GAP_LIMIT : Nat := 30
def DISCOVERY_DEPTH : Nat := 256
def MAX_DISCOVERY_DEPTH : Nat := 512
def MANUAL_DISCOVERY_DEPTH : Nat := 2048
def MAX_SCAN_MARK : Nat := 2048
def MAX_CHANGE_CURSOR : Nat := 100000
def MAX_WINDOW : Nat := MAX_CHANGE_CURSOR + 1

/-- `u32::saturating_add`. -/
def saturatingAdd (a b : Nat) : Nat := min (a + b) 4294967295

inductive ScanReach
  | automatic
  | manual
  deriving DecidableEq

def ScanReach.depthFor : ScanReach → Nat → Nat
  | .automatic, seen => min (max DISCOVERY_DEPTH (saturatingAdd seen GAP_LIMIT)) MAX_DISCOVERY_DEPTH
  | .manual, _ => MANUAL_DISCOVERY_DEPTH

/-- The two files and the process's memo; `saved` says that the process's last write of the marks, if
    it has made one, succeeded. -/
structure Marks where
  scanWindow : Option Bytes
  changeCursor : Option Bytes
  memo : Option (Nat × Nat)
  saved : Bool
  deriving DecidableEq

/-- A process starts with whatever is on disk. -/
def Marks.start (scanWindow changeCursor : Option Bytes) : Marks := ⟨scanWindow, changeCursor, none, true⟩

/-- A count past its ceiling reads as unset. -/
def persistedCount (raw ceiling : Nat) : Nat := if ceiling < raw then 0 else raw

def changeCursor (m : Marks) : Nat :=
  persistedCount (((m.changeCursor.filter fun b => b.length == 4).map leValue).getD 0) MAX_CHANGE_CURSOR

/-- What the file says, each half validated. -/
def diskMarks (m : Marks) : Nat × Nat :=
  ((m.scanWindow.filter fun b => b.length == 8).map fun b =>
    (persistedCount (leValue (b.take 4)) MAX_SCAN_MARK, persistedCount (leValue (b.drop 4)) MAX_SCAN_MARK)).getD (0, 0)

def memoMarks (m : Marks) : Nat × Nat :=
  (m.memo.map fun marks =>
    (persistedCount marks.1 MAX_SCAN_MARK, persistedCount marks.2 MAX_SCAN_MARK)).getD (0, 0)

def scanHighWater (m : Marks) : Nat × Nat :=
  (max (diskMarks m).1 (memoMarks m).1, max (diskMarks m).2 (memoMarks m).2)

/-- The memo first, then the file; a write that fails leaves the file as it was. -/
def setScanHighWater (receiveHi changeHi : Nat) (persists : Bool) (m : Marks) : Marks :=
  let prev := m.memo.getD (0, 0)
  let grown := (max prev.1 receiveHi, max prev.2 changeHi)
  { m with
    memo := some grown
    scanWindow := if persists then some (leBytes 4 grown.1 ++ leBytes 4 grown.2) else m.scanWindow
    saved := persists }

def windowFrom (receiveSeen changeSeen changeCursor : Nat) : Nat × Nat :=
  (min (max GAP_LIMIT (saturatingAdd receiveSeen GAP_LIMIT)) MAX_WINDOW,
    min (max (max GAP_LIMIT (saturatingAdd changeSeen GAP_LIMIT)) (saturatingAdd changeCursor 1)) MAX_WINDOW)

def walletWindow (m : Marks) : Nat × Nat :=
  windowFrom (scanHighWater m).1 (scanHighWater m).2 (changeCursor m)

inductive Branch
  | receive
  | change
  deriving DecidableEq

/-- A pair's half for a branch. -/
def Branch.of : Branch → Nat × Nat → Nat
  | .receive, pair => pair.1
  | .change, pair => pair.2

theorem of_le {a b : Nat × Nat} (below : a ≤ b) (branch : Branch) : branch.of a ≤ branch.of b := by
  cases branch with
  | receive => exact below.1
  | change => exact below.2

variable {Address Failure : Type} [DecidableEq Address]

/-- How the node answers the chunks of one branch. -/
abbrev Node (Address Failure : Type) := Nat → List Address → Except Failure (List (BalanceEntry Address))

/-- A found index as a count; nothing found stays at the known mark. -/
def mark (known : Nat) : Except Failure (Option Nat) → Nat
  | .ok (some index) => max known (saturatingAdd index 1)
  | _ => known

section Passes

-- the keychain's address of each branch and index
variable (address : Branch → Nat → Address)

/-- A branch's answer in a pass: its addresses as deep as the pass reaches, put to the node. -/
def foundOn (branch : Branch) (reach : ScanReach) (node : Node Address Failure) (m : Marks) :
    Except Failure (Option Nat) :=
  highestFundedIndex node ((List.range (reach.depthFor (branch.of (scanHighWater m)))).map (address branch))

def persistFromProbe (reach : ScanReach) (receive change : Node Address Failure) (persists : Bool) (m : Marks) :
    Except Failure (Nat × Nat) × Marks :=
  let known := scanHighWater m
  let foundReceive := foundOn address .receive reach receive m
  let foundChange := foundOn address .change reach change m
  let seen := (mark known.1 foundReceive, mark known.2 foundChange)
  let next := if seen ≠ known then setScanHighWater seen.1 seen.2 persists m else m
  let outcome := match foundReceive, foundChange with
    | .ok _, .ok _ => .ok seen
    | .error failure, _ => .error failure
    | _, .error failure => .error failure
  (outcome, next)

inductive ScanEvent (Address Failure : Type)
  | pass (reach : ScanReach) (receive change : Node Address Failure) (persists : Bool)
  -- the vault is locked when the addresses are derived, or the pass's deadline fires
  | dropped
  | restart

def step (m : Marks) : ScanEvent Address Failure → Marks
  | .pass reach receive change persists => (persistFromProbe address reach receive change persists m).2
  | .dropped => m
  | .restart => .start m.scanWindow m.changeCursor

def after (m : Marks) (events : List (ScanEvent Address Failure)) : Marks := events.foldl (step address) m

/-- The events all belong to one process. -/
def SameProcess (events : List (ScanEvent Address Failure)) : Prop := ∀ e ∈ events, e ≠ .restart

end Passes

section Counts

theorem persistedCount_le (raw ceiling : Nat) : persistedCount raw ceiling ≤ ceiling := by
  unfold persistedCount
  split <;> omega

theorem persistedCount_self {raw ceiling : Nat} (fits : raw ≤ ceiling) : persistedCount raw ceiling = raw :=
  if_neg (by omega)

theorem diskMarks_le (m : Marks) : diskMarks m ≤ (MAX_SCAN_MARK, MAX_SCAN_MARK) := by
  unfold diskMarks
  cases m.scanWindow.filter fun b => b.length == 8 with
  | none => exact ⟨Nat.zero_le _, Nat.zero_le _⟩
  | some b => exact ⟨persistedCount_le _ _, persistedCount_le _ _⟩

theorem memoMarks_le (m : Marks) : memoMarks m ≤ (MAX_SCAN_MARK, MAX_SCAN_MARK) := by
  unfold memoMarks
  cases m.memo with
  | none => exact ⟨Nat.zero_le _, Nat.zero_le _⟩
  | some marks => exact ⟨persistedCount_le _ _, persistedCount_le _ _⟩

theorem scanHighWater_le (m : Marks) : scanHighWater m ≤ (MAX_SCAN_MARK, MAX_SCAN_MARK) :=
  ⟨max_le (diskMarks_le m).1 (memoMarks_le m).1, max_le (diskMarks_le m).2 (memoMarks_le m).2⟩

theorem depthFor_le (reach : ScanReach) (seen : Nat) : reach.depthFor seen ≤ MANUAL_DISCOVERY_DEPTH := by
  cases reach with
  | automatic => exact le_trans (min_le_right _ _) (by decide)
  | manual => exact le_refl _

/-- A mark that a pass can write, read back, is itself. -/
theorem diskMarks_written {m : Marks} {marks : Nat × Nat} (fits : marks ≤ (MAX_SCAN_MARK, MAX_SCAN_MARK))
    (written : m.scanWindow = some (leBytes 4 marks.1 ++ leBytes 4 marks.2)) : diskMarks m = marks := by
  obtain ⟨receive, change⟩ := marks
  have low : receive ≤ MAX_SCAN_MARK := fits.1
  have high : change ≤ MAX_SCAN_MARK := fits.2
  have small : MAX_SCAN_MARK < 256 ^ 4 := by decide
  have first : leValue (leBytes 4 receive) = receive := leValue_leBytes (lt_of_le_of_lt low small)
  have second : leValue (leBytes 4 change) = change := leValue_leBytes (lt_of_le_of_lt high small)
  simp [diskMarks, written, Option.filter, first, second, persistedCount_self low, persistedCount_self high]

/-- The window is as wide as the marks say. -/
theorem windowFrom_mono {a b : Nat × Nat} (wider : a ≤ b) (cursor : Nat) :
    windowFrom a.1 a.2 cursor ≤ windowFrom b.1 b.2 cursor := by
  have widened (branch : Branch) : saturatingAdd (branch.of a) GAP_LIMIT ≤ saturatingAdd (branch.of b) GAP_LIMIT := by
    exact min_le_min_right _ (Nat.add_le_add_right (of_le wider branch) GAP_LIMIT)
  constructor
  · exact min_le_min_right _ (max_le_max_left _ (widened .receive))
  · exact min_le_min_right _ (max_le_max_right _ (max_le_max_left _ (widened .change)))

theorem windowFrom_between (receive change cursor : Nat) (branch : Branch) :
    GAP_LIMIT ≤ branch.of (windowFrom receive change cursor) ∧
      branch.of (windowFrom receive change cursor) ≤ MAX_WINDOW := by
  cases branch <;> simp only [windowFrom, Branch.of, GAP_LIMIT, MAX_WINDOW, MAX_CHANGE_CURSOR] <;> omega

theorem windowFrom_covers {receive change cursor : Nat} (branch : Branch) {index : Nat}
    (seen : index < branch.of (receive, change)) (fits : branch.of (receive, change) ≤ MAX_SCAN_MARK) :
    index < branch.of (windowFrom receive change cursor) := by
  cases branch <;>
    simp only [windowFrom, Branch.of, saturatingAdd, GAP_LIMIT, MAX_WINDOW, MAX_CHANGE_CURSOR,
      MAX_SCAN_MARK] at seen fits ⊢ <;> omega

end Counts

section Kept

variable (address : Branch → Nat → Address)

theorem foundOn_lt {branch : Branch} {reach : ScanReach} {node : Node Address Failure} {m : Marks} {index : Nat}
    (found : foundOn address branch reach node m = .ok (some index)) : index < MANUAL_DISCOVERY_DEPTH := by
  have inside := highestFundedIndex_lt node found
  rw [List.length_map, List.length_range] at inside
  exact lt_of_lt_of_le inside (depthFor_le _ _)

theorem le_mark (known : Nat) (found : Except Failure (Option Nat)) : known ≤ mark known found := by
  unfold mark
  split
  · exact le_max_left _ _
  · exact le_refl _

theorem mark_le {branch : Branch} {reach : ScanReach} {node : Node Address Failure} {m : Marks} {known : Nat}
    (fits : known ≤ MAX_SCAN_MARK) : mark known (foundOn address branch reach node m) ≤ MAX_SCAN_MARK := by
  cases found : foundOn address branch reach node m with
  | error failure => exact fits
  | ok highest =>
    cases highest with
    | none => exact fits
    | some index =>
      have inside := foundOn_lt address found
      simp only [mark, saturatingAdd, MAX_SCAN_MARK, MANUAL_DISCOVERY_DEPTH] at fits inside ⊢
      omega

theorem mark_covers {branch : Branch} {reach : ScanReach} {node : Node Address Failure} {m : Marks} {index known : Nat}
    (found : foundOn address branch reach node m = .ok (some index)) :
    index < mark known (foundOn address branch reach node m) := by
  have inside := foundOn_lt address found
  rw [found]
  simp only [mark, saturatingAdd, MANUAL_DISCOVERY_DEPTH] at inside ⊢
  omega

/-- What every state keeps: the memo is one a pass can write, and once written it is on disk. -/
structure Sound (m : Marks) : Prop where
  fits : m.memo.getD (0, 0) ≤ (MAX_SCAN_MARK, MAX_SCAN_MARK)
  stored : m.saved = true → scanHighWater m = diskMarks m

theorem Sound.memo_eq {m : Marks} (sound : Sound m) : memoMarks m = m.memo.getD (0, 0) := by
  have fits := sound.fits
  unfold memoMarks
  cases memo : m.memo with
  | none => rfl
  | some marks =>
    rw [memo] at fits
    exact Prod.ext (persistedCount_self fits.1) (persistedCount_self fits.2)

theorem start_sound (scanWindow cursor : Option Bytes) : Sound (Marks.start scanWindow cursor) where
  fits := ⟨Nat.zero_le _, Nat.zero_le _⟩
  stored _ := by simp [scanHighWater, memoMarks, Marks.start]

/-- Marks at least as high as the known ones are known once set, and on disk once written. -/
theorem set_spec {m : Marks} (sound : Sound m) {seen : Nat × Nat} (known : scanHighWater m ≤ seen)
    (fits : seen ≤ (MAX_SCAN_MARK, MAX_SCAN_MARK)) (persists : Bool) :
    Sound (setScanHighWater seen.1 seen.2 persists m) ∧
      scanHighWater (setScanHighWater seen.1 seen.2 persists m) = seen ∧
      diskMarks m ≤ diskMarks (setScanHighWater seen.1 seen.2 persists m) := by
  have below : m.memo.getD (0, 0) ≤ seen := by
    rw [← sound.memo_eq]
    exact ⟨le_trans (le_max_right _ _) known.1, le_trans (le_max_right _ _) known.2⟩
  have disk : diskMarks m ≤ seen := ⟨le_trans (le_max_left _ _) known.1, le_trans (le_max_left _ _) known.2⟩
  have grown : (max (m.memo.getD (0, 0)).1 seen.1, max (m.memo.getD (0, 0)).2 seen.2) = seen :=
    Prod.ext (max_eq_right below.1) (max_eq_right below.2)
  have memo : memoMarks (setScanHighWater seen.1 seen.2 persists m) = seen := by
    simp only [memoMarks, setScanHighWater, Option.map_some, Option.getD_some, max_eq_right below.1,
      max_eq_right below.2]
    exact Prod.ext (persistedCount_self fits.1) (persistedCount_self fits.2)
  have stored : diskMarks (setScanHighWater seen.1 seen.2 persists m) = if persists then seen else diskMarks m := by
    cases persists with
    | true =>
      refine diskMarks_written fits ?_
      simp only [setScanHighWater, if_true, max_eq_right below.1, max_eq_right below.2]
    | false => rfl
  have high : scanHighWater (setScanHighWater seen.1 seen.2 persists m) = seen := by
    rw [scanHighWater, memo, stored]
    cases persists with
    | true => exact Prod.ext (max_self _) (max_self _)
    | false => exact Prod.ext (max_eq_right disk.1) (max_eq_right disk.2)
  refine ⟨⟨?_, fun saved => ?_⟩, high, ?_⟩
  · simp only [setScanHighWater, grown, Option.getD_some]
    exact fits
  · obtain rfl : persists = true := saved
    rw [high, stored, if_pos rfl]
  · rw [stored]
    split
    · exact disk
    · exact le_refl _

/-- One pass: the marks are those found and those known. -/
theorem pass_spec {m : Marks} (sound : Sound m) (reach : ScanReach) (receive change : Node Address Failure)
    (persists : Bool) :
    let next := step address m (.pass reach receive change persists)
    Sound next ∧ next.changeCursor = m.changeCursor ∧ diskMarks m ≤ diskMarks next ∧
      scanHighWater next = (mark (scanHighWater m).1 (foundOn address .receive reach receive m),
        mark (scanHighWater m).2 (foundOn address .change reach change m)) := by
  intro next
  have known := scanHighWater_le m
  have fits : (mark (scanHighWater m).1 (foundOn address .receive reach receive m),
      mark (scanHighWater m).2 (foundOn address .change reach change m)) ≤ (MAX_SCAN_MARK, MAX_SCAN_MARK) :=
    ⟨mark_le address known.1, mark_le address known.2⟩
  by_cases same : (mark (scanHighWater m).1 (foundOn address .receive reach receive m),
      mark (scanHighWater m).2 (foundOn address .change reach change m)) = scanHighWater m
  · have stays : next = m := by simp [next, step, persistFromProbe, same]
    rw [stays, same]
    exact ⟨sound, rfl, le_refl _, rfl⟩
  · have written : next = setScanHighWater (mark (scanHighWater m).1 (foundOn address .receive reach receive m))
        (mark (scanHighWater m).2 (foundOn address .change reach change m)) persists m := by
      simp [next, step, persistFromProbe, same]
    obtain ⟨kept, high, disk⟩ := set_spec sound ⟨le_mark _ _, le_mark _ _⟩ fits persists
    rw [written]
    exact ⟨kept, rfl, disk, high⟩

theorem step_sound {m : Marks} (sound : Sound m) (e : ScanEvent Address Failure) :
    Sound (step address m e) ∧ (step address m e).changeCursor = m.changeCursor ∧
      diskMarks m ≤ diskMarks (step address m e) := by
  cases e with
  | pass reach receive change persists =>
    obtain ⟨kept, cursor, disk, _⟩ := pass_spec address sound reach receive change persists
    exact ⟨kept, cursor, disk⟩
  | dropped => exact ⟨sound, rfl, le_refl _⟩
  | restart => exact ⟨start_sound _ _, rfl, le_refl _⟩

theorem step_grows {m : Marks} (sound : Sound m) (e : ScanEvent Address Failure) (lives : e ≠ .restart) :
    scanHighWater m ≤ scanHighWater (step address m e) := by
  cases e with
  | pass reach receive change persists =>
    obtain ⟨_, _, _, high⟩ := pass_spec address sound reach receive change persists
    rw [high]
    exact ⟨le_mark _ _, le_mark _ _⟩
  | dropped => exact le_refl _
  | restart => exact absurd rfl lives

theorem after_sound {m : Marks} (sound : Sound m) (events : List (ScanEvent Address Failure)) :
    Sound (after address m events) ∧ (after address m events).changeCursor = m.changeCursor ∧
      diskMarks m ≤ diskMarks (after address m events) := by
  induction events generalizing m with
  | nil => exact ⟨sound, rfl, le_refl _⟩
  | cons e events ih =>
    obtain ⟨kept, cursor, disk⟩ := step_sound address sound e
    obtain ⟨last, same, more⟩ := ih kept
    exact ⟨last, same.trans cursor, le_trans disk more⟩

theorem after_grows {m : Marks} (sound : Sound m) (events : List (ScanEvent Address Failure))
    (lives : SameProcess events) : scanHighWater m ≤ scanHighWater (after address m events) := by
  induction events generalizing m with
  | nil => exact le_refl _
  | cons e events ih =>
    obtain ⟨kept, _, _⟩ := step_sound address sound e
    have grown := step_grows address sound e (lives e (by simp))
    exact le_trans grown (ih kept fun other there => lives other (by simp [there]))

theorem walletWindow_covers {m : Marks} {branch : Branch} {index : Nat} (seen : index < branch.of (scanHighWater m)) :
    index < branch.of (walletWindow m) := by
  refine windowFrom_covers branch seen ?_
  cases branch with
  | receive => exact (scanHighWater_le m).1
  | change => exact (scanHighWater_le m).2

/-- What a pass found, the marks cover from then on. -/
theorem pass_covers {m : Marks} (sound : Sound m) (reach : ScanReach) (node : Branch → Node Address Failure)
    (persists : Bool) {branch : Branch} {index : Nat}
    (found : foundOn address branch reach (node branch) m = .ok (some index)) :
    index < branch.of (scanHighWater (step address m (.pass reach (node .receive) (node .change) persists))) := by
  obtain ⟨_, _, _, high⟩ := pass_spec address sound reach (node .receive) (node .change) persists
  rw [high]
  cases branch with
  | receive => exact mark_covers address found
  | change => exact mark_covers address found

end Kept

theorem discovery_keeps_its_finds (address : Branch → Nat → Address) :
    (∀ (probe : Node Address Failure) (addresses : List Address), addresses.Nodup → addresses.length ≤ 2 ^ 32 →
      (SomeFailed probe addresses → ∃ failure, highestFundedIndex probe addresses = .error failure) ∧
      (¬ SomeFailed probe addresses → ∃ highest, highestFundedIndex probe addresses = .ok highest ∧
        GreatestOf {index | Reported probe addresses index} highest)) ∧
    ∀ (scanWindow cursor : Option Bytes) (before : List (ScanEvent Address Failure)),
      let m := after address (.start scanWindow cursor) before
      (∀ events : List (ScanEvent Address Failure), SameProcess events → walletWindow m ≤ walletWindow (after address m events)) ∧
      (∀ reach (node : Branch → Node Address Failure) persists branch index,
        foundOn address branch reach (node branch) m = .ok (some index) →
        let passed := step address m (.pass reach (node .receive) (node .change) persists)
        ∀ events : List (ScanEvent Address Failure), SameProcess events ∨ passed.saved = true →
          index < branch.of (walletWindow (after address passed events))) ∧
      ∀ branch : Branch, GAP_LIMIT ≤ branch.of (walletWindow m) ∧ branch.of (walletWindow m) ≤ MAX_WINDOW := by
  refine ⟨fun probe addresses distinct short =>
    ⟨highestFundedIndex_fails probe, highestFundedIndex_finds probe distinct short⟩, fun scanWindow cursor before => ?_⟩
  intro m
  obtain ⟨sound, _, _⟩ := after_sound address (start_sound scanWindow cursor) before
  refine ⟨fun events lives => ?_, fun reach node persists branch index found => ?_,
    fun branch => windowFrom_between _ _ _ branch⟩
  · obtain ⟨_, same, _⟩ := after_sound address sound events
    have grown := windowFrom_mono (after_grows address sound events lives) (changeCursor m)
    have cursorSame : changeCursor (after address m events) = changeCursor m := by
      unfold changeCursor
      rw [same]
    rw [walletWindow, walletWindow, cursorSame]
    exact grown
  · intro passed events kept
    have covered := pass_covers address sound reach node persists found
    obtain ⟨next, _, _⟩ := step_sound address sound (.pass reach (node .receive) (node .change) persists)
    apply walletWindow_covers
    rcases kept with lives | saved
    · exact lt_of_lt_of_le covered (of_le (after_grows address next events lives) branch)
    · obtain ⟨_, _, disk⟩ := after_sound address next events
      rw [next.stored saved] at covered
      have onward : diskMarks passed ≤ scanHighWater (after address passed events) :=
        ⟨le_trans disk.1 (le_max_left _ _), le_trans disk.2 (le_max_left _ _)⟩
      exact lt_of_lt_of_le covered (of_le onward branch)

/-- Funds at change index 77, found by the first pass and written, are watched after a restart. -/
theorem discovery_keeps_its_finds_restored :
    let address : Branch → Nat → Nat := fun branch index => branch.of (2 * index, 2 * index + 1)
    let node : Branch → Node Nat String := fun _ _ chunk => .ok (chunk.map fun a => ⟨a, if a = 155 then some 5 else none⟩)
    let passed := step address (.start none none) (.pass .automatic (node .receive) (node .change) true)
    77 < Branch.change.of (walletWindow (after address passed ([.restart] : List (ScanEvent Nat String)))) := by
  intro address node passed
  have found : foundOn address .change .automatic (node .change) (.start none none) = .ok (some 77) := by decide +kernel
  have saved : passed.saved = true := by decide +kernel
  exact ((discovery_keeps_its_finds address).2 none none []).2.1 .automatic node true .change 77 found [.restart]
    (.inr saved)

end Kaspaverse.Vault
