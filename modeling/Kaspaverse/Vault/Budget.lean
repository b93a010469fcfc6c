import Mathlib
import Kaspaverse.Vault.Session

namespace Kaspaverse.Vault

namespace Lockout

theorem fromBytes_toBytes {lockout : Lockout} (attempts : lockout.failedAttempts < 2 ^ 32)
    (locked : lockout.lockedUntil < 2 ^ 64) : fromBytes lockout.toBytes = some lockout := by
  have first : (leBytes 4 lockout.failedAttempts ++ leBytes 8 lockout.lockedUntil).take 4 =
      leBytes 4 lockout.failedAttempts := List.take_left' (length_leBytes _ _)
  have second : (leBytes 4 lockout.failedAttempts ++ leBytes 8 lockout.lockedUntil).drop 4 =
      leBytes 8 lockout.lockedUntil := List.drop_left' (length_leBytes _ _)
  have whole : (leBytes 8 lockout.lockedUntil).take 8 = leBytes 8 lockout.lockedUntil :=
    List.take_of_length_le (le_of_eq (length_leBytes _ _))
  unfold fromBytes toBytes
  rw [if_neg (by simp), first, second, whole, leValue_leBytes attempts, leValue_leBytes locked]

end Lockout

theorem readLockout_writeLockout {files : Files} {lockout : Lockout}
    (attempts : lockout.failedAttempts < 2 ^ 32) (locked : lockout.lockedUntil < 2 ^ 64) :
    (files.writeLockout lockout).readLockout = lockout := by
  show ((some lockout.toBytes).bind Lockout.fromBytes).getD .default = lockout
  rw [Option.bind_some, Lockout.fromBytes_toBytes attempts locked]
  rfl

theorem readLockout_congr {files other : Files} (same : files.lockout = other.lockout) :
    files.readLockout = other.readLockout := by
  unfold Files.readLockout
  rw [same]

section Delay

theorem lockoutDelaySecs_le (failed : Nat) : lockoutDelaySecs failed ≤ 3600 := by
  unfold lockoutDelaySecs
  split
  · omega
  · exact Nat.min_le_right _ _

/-- The wait never gets shorter with another failure. -/
theorem lockoutDelaySecs_mono {fewer more : Nat} (h : fewer ≤ more) :
    lockoutDelaySecs fewer ≤ lockoutDelaySecs more := by
  unfold lockoutDelaySecs
  split
  · exact Nat.zero_le _
  case isFalse past =>
    rw [if_neg (by omega)]
    have capped : min (fewer - LOCKOUT_FREE_ATTEMPTS - 1) 7 ≤ min (more - LOCKOUT_FREE_ATTEMPTS - 1) 7 := by
      omega
    have power : 30 * 2 ^ min (fewer - LOCKOUT_FREE_ATTEMPTS - 1) 7 ≤
        30 * 2 ^ min (more - LOCKOUT_FREE_ATTEMPTS - 1) 7 :=
      Nat.mul_le_mul_left 30 (Nat.pow_le_pow_right (by decide) capped)
    omega

theorem lockoutDelaySecs_pos (failed : Nat) (past : LOCKOUT_FREE_ATTEMPTS < failed) :
    0 < lockoutDelaySecs failed := by
  unfold lockoutDelaySecs
  rw [if_neg (by omega)]
  have power : 0 < 2 ^ min (failed - LOCKOUT_FREE_ATTEMPTS - 1) 7 := Nat.two_pow_pos _
  omega

theorem lockoutDelaySecs_hour {failed : Nat} (many : 13 ≤ failed) : lockoutDelaySecs failed = 3600 := by
  have free : LOCKOUT_FREE_ATTEMPTS = 5 := rfl
  have capped : min (failed - LOCKOUT_FREE_ATTEMPTS - 1) 7 = 7 := by omega
  unfold lockoutDelaySecs
  rw [if_neg (by omega), capped]
  rfl

end Delay

/-- The attempt whose secret a gate holder has yet to settle. -/
def Holder.unsettled : Holder → Option Attempt
  | .entered attempt | .sampled attempt _ | .proving attempt _ _ | .migrating attempt _ _ _
  | .migrateStaged attempt _ _ _ | .proven attempt _ _ | .settling attempt => some attempt
  | .rekeying _ _ _ | .rekeyStaged _ _ _ => none

namespace Session

variable {core : Core}

def unsettled (s : Session) : Option Attempt := s.gate.bind Holder.unsettled

/-- When the next secret may be tried, from the history. -/
def waitsUntil (failures : List Nat) : Nat :=
  match failures.getLast? with
  | none => 0
  | some last =>
    if failures.length ≤ LOCKOUT_FREE_ATTEMPTS then 0 else last + lockoutDelaySecs failures.length

/-- No clock reading comes near the year 280,000. -/
def CLOCK_END : Nat := 2 ^ 43

/-- What an attempt carries of its admission: a re-seal's next secret is sealable. -/
def Attempt.Sealable (attempt : Attempt) : Prop :=
  ∀ next params kind, attempt.lane = .reseal next params kind →
    ∃ checked, checkSealInputs next params kind attempt.pepper = .ok checked

/-- The disk's budget is the history's. -/
structure Budget (s : Session) : Prop where
  counted : s.files.readLockout = ⟨s.failures.length, waitsUntil s.failures⟩
  spaced : ∀ last, s.failures.getLast? = some last →
    3600 * (s.failures.length - 13) ≤ last ∧ last ≤ s.now
  held : ∀ attempt, s.unsettled = some attempt →
    attempt.lockout = s.files.readLockout ∧ waitsUntil s.failures ≤ attempt.now ∧
      attempt.now ≤ s.now ∧ Attempt.Sealable attempt

theorem waitsUntil_append (failures : List Nat) (now : Nat) :
    waitsUntil (failures ++ [now]) =
      if failures.length + 1 ≤ LOCKOUT_FREE_ATTEMPTS then 0
      else now + lockoutDelaySecs (failures.length + 1) := by
  unfold waitsUntil
  rw [List.getLast?_concat]
  simp only [List.length_append, List.length_singleton]

/-- Nothing that the budget reads has changed but the clock. -/
structure Frames (s after : Session) : Prop where
  lockout : after.files.lockout = s.files.lockout
  failures : after.failures = s.failures
  unsettled : ∀ attempt, after.unsettled = some attempt → s.unsettled = some attempt
  now : s.now ≤ after.now

theorem Budget.frames {s after : Session} (budget : Budget s) (frames : Frames s after) :
    Budget after where
  counted := by
    rw [readLockout_congr frames.lockout, frames.failures]
    exact budget.counted
  spaced := by
    rw [frames.failures]
    intro last found
    obtain ⟨many, early⟩ := budget.spaced last found
    exact ⟨many, le_trans early frames.now⟩
  held := by
    intro attempt found
    obtain ⟨same, waited, early, sealable⟩ := budget.held attempt (frames.unsettled attempt found)
    rw [readLockout_congr frames.lockout, frames.failures]
    exact ⟨same, waited, le_trans early frames.now, sealable⟩

theorem Budget.few {s : Session} (budget : Budget s) (clock : s.now < CLOCK_END) :
    s.failures.length < 2 ^ 32 - 1 := by
  cases found : s.failures.getLast? with
  | none =>
    rw [List.getLast?_eq_none_iff.mp found]
    decide
  | some last =>
    obtain ⟨many, early⟩ := budget.spaced last found
    have far : CLOCK_END = 2 ^ 43 := rfl
    omega

/-- A settled attempt leaves the budget the history's, when the lane judged the secret as the
    blob did. -/
theorem Budget.settle {s : Session} (budget : Budget s) (clock : s.now < CLOCK_END)
    {attempt : Attempt} (held : s.unsettled = some attempt) {judged truth : Verdict}
    (fair : judged = truth) {gate : Option Holder} (done : gate.bind Holder.unsettled = none) :
    Budget (s.settle attempt judged truth gate) := by
  subst fair
  obtain ⟨same, waited, early, _⟩ := budget.held attempt held
  have far : CLOCK_END = 2 ^ 43 := rfl
  have none_left : ∀ other, (s.settle attempt judged judged gate).unsettled = some other → False := by
    intro other found
    rw [show (s.settle attempt judged judged gate).unsettled = gate.bind Holder.unsettled from rfl,
      done] at found
    cases found
  cases judged with
  | right =>
    refine ⟨?_, (fun last found => nomatch found), fun other found => (none_left other found).elim⟩
    exact readLockout_writeLockout (by decide) (by decide)
  | unbound =>
    refine ⟨budget.counted, budget.spaced, fun other found => (none_left other found).elim⟩
  | wrong =>
    have few := budget.few clock
    have count : min (attempt.lockout.failedAttempts + 1) (2 ^ 32 - 1) = s.failures.length + 1 := by
      rw [same, budget.counted]
      show min (s.failures.length + 1) (2 ^ 32 - 1) = s.failures.length + 1
      omega
    have delay := lockoutDelaySecs_le (s.failures.length + 1)
    refine ⟨?_, ?_, fun other found => (none_left other found).elim⟩
    · show (s.files.writeLockout _).readLockout = ⟨(s.failures ++ [attempt.now]).length,
        waitsUntil (s.failures ++ [attempt.now])⟩
      rw [waitsUntil_append, List.length_append, List.length_singleton, count]
      by_cases free : s.failures.length + 1 ≤ LOCKOUT_FREE_ATTEMPTS
      · have nothing : lockoutDelaySecs (s.failures.length + 1) = 0 := if_pos free
        have earlier : attempt.lockout.lockedUntil = 0 := by
          rw [same, budget.counted]
          show waitsUntil s.failures = 0
          unfold waitsUntil
          split
          · rfl
          · exact if_pos (by omega)
        rw [if_pos free, nothing, if_neg (by decide), earlier]
        exact readLockout_writeLockout (show s.failures.length + 1 < 2 ^ 32 by omega) (Nat.two_pow_pos 64)
      · have positive := lockoutDelaySecs_pos (s.failures.length + 1) (by omega)
        have until_ : min (attempt.now + lockoutDelaySecs (s.failures.length + 1)) (2 ^ 64 - 1) =
            attempt.now + lockoutDelaySecs (s.failures.length + 1) := by omega
        rw [if_neg free, if_pos positive, until_]
        exact readLockout_writeLockout (show s.failures.length + 1 < 2 ^ 32 by omega)
          (show attempt.now + lockoutDelaySecs (s.failures.length + 1) < 2 ^ 64 by omega)
    · intro last found
      have newest : attempt.now = last := by
        rw [show (s.settle attempt .wrong .wrong gate).failures = s.failures ++ [attempt.now] from rfl,
          List.getLast?_concat] at found
        exact Option.some.inj found
      subst newest
      show 3600 * ((s.failures ++ [attempt.now]).length - 13) ≤ attempt.now ∧ attempt.now ≤ s.now
      rw [List.length_append, List.length_singleton]
      refine ⟨?_, early⟩
      by_cases many : 13 ≤ s.failures.length
      · have hour := lockoutDelaySecs_hour many
        cases before : s.failures.getLast? with
        | none =>
          rw [List.getLast?_eq_none_iff.mp before] at many
          exact absurd many (by decide)
        | some earlier =>
          have spaced := (budget.spaced earlier before).1
          unfold waitsUntil at waited
          rw [before] at waited
          simp only at waited
          have free : LOCKOUT_FREE_ATTEMPTS = 5 := rfl
          rw [if_neg (by omega), hour] at waited
          omega
      · omega

section Steps

theorem create_lockout (files : Files) : files.create.1.lockout = files.lockout := by
  unfold Files.create
  split <;> rfl

theorem rename_lockout {files after : Files} (renamed : files.rename = some after) :
    after.lockout = files.lockout := by
  unfold Files.rename at renamed
  obtain ⟨node, _, rfl⟩ := Option.map_eq_some_iff.mp renamed
  rfl

theorem Frames.refl (s : Session) : Frames s s := ⟨rfl, rfl, fun _ h => h, le_refl _⟩

theorem Frames.sealJob {s before : Session} (frames : Frames s before) (id : Nat) (entropy : Entropy)
    (ask : Ask) (pepper : Option Bytes) (epoch : Nat) (seed : Except CoreError Seed) :
    Frames s (sealJob core before id entropy ask pepper epoch seed) := by
  unfold Session.sealJob
  split
  · exact ⟨frames.lockout, frames.failures, frames.unsettled, frames.now⟩
  · split <;> exact ⟨frames.lockout, frames.failures, frames.unsettled, frames.now⟩

theorem progress_frames {s after : Session} {id : Nat} {entropy : Entropy} {creation : Creation}
    (happens : s.progress core id entropy creation = some after) : Frames s after := by
  unfold progress at happens
  split at happens
  · cases happens
    split <;> exact ⟨rfl, rfl, fun _ h => h, le_refl _⟩
  · cases happens
    split <;> exact ⟨rfl, rfl, fun _ h => h, le_refl _⟩
  · cases happens
    exact ⟨rfl, rfl, fun _ h => h, le_refl _⟩
  · split at happens
    · cases happens
      exact ⟨rfl, rfl, fun _ h => h, le_refl _⟩
    · cases happens
      have taken : Frames s { s with ceremony := none } := ⟨rfl, rfl, fun _ h => h, le_refl _⟩
      exact taken.sealJob _ _ _ _ _ _
  · cases happens
    exact ⟨rfl, rfl, fun _ h => h, le_refl _⟩
  · split at happens
    · cases happens
      exact ⟨rfl, rfl, fun _ h => h, le_refl _⟩
    · cases happens
      split
      · exact ⟨rfl, rfl, fun _ h => h, le_refl _⟩
      · have taken : Frames s { s with pepper := none } := ⟨rfl, rfl, fun _ h => h, le_refl _⟩
        exact taken.sealJob _ _ _ _ _ _
  · cases happens

theorem setVaultIfCurrent_frames (s : Session) (seed : Seed) (epoch : Nat) :
    Frames s (s.setVaultIfCurrent seed epoch) := by
  unfold setVaultIfCurrent
  split
  · exact ⟨rfl, rfl, fun _ h => h, le_refl _⟩
  · exact Frames.refl s

theorem setVaultIfCurrent_now (s : Session) (seed : Seed) (epoch : Nat) :
    (s.setVaultIfCurrent seed epoch).now = s.now := by
  unfold setVaultIfCurrent
  split <;> rfl

theorem creationStep_frames {s after : Session} {event : Event}
    (happens : s.creationStep core event = some after) : Frames s after := by
  unfold creationStep at happens
  split at happens
  · split at happens
    · cases happens
      exact ⟨create_lockout _, rfl, fun _ h => h, le_refl _⟩
    · cases happens
  · split at happens
    · cases happens
      exact ⟨rfl, rfl, fun _ h => h, le_refl _⟩
    · cases happens
  · split at happens
    · split at happens
      · cases happens
        split
        · exact ⟨rfl, rfl, fun _ h => h, le_refl _⟩
        case h_2 files renamed => exact ⟨rename_lockout renamed, rfl, fun _ h => h, le_refl _⟩
      · cases happens
    · cases happens
  · split at happens
    · cases happens
      exact ⟨rfl, rfl, fun _ h => h, le_refl _⟩
    · cases happens
      exact ⟨rfl, rfl, fun _ h => h, le_refl _⟩
    · cases happens
  · split at happens
    case h_1 job _ =>
      cases happens
      split
      · exact ⟨rfl, rfl, fun _ h => h, le_refl _⟩
      · have install := setVaultIfCurrent_frames { s with reported := job.seed :: s.reported } job.seed
          job.epoch
        exact ⟨install.lockout, install.failures, install.unsettled, install.now⟩
    · cases happens
  · cases happens

theorem verdictOf_reseal (core : Core) (entropy : Entropy) (blob secret : Bytes) {next : Bytes} {params : SealParams}
    {kind : InputKind} {pepper checked : Option Bytes}
    (sealable : checkSealInputs next params kind pepper = .ok checked) :
    verdictOf (resealSeed core.prims entropy blob secret next params kind pepper) =
      verdictOf (unsealSeed core.prims blob secret pepper) := by
  obtain ⟨refused, opened⟩ := resealSeed_checked core.prims entropy blob secret sealable
  cases answer : unsealSeed core.prims blob secret pepper with
  | error e =>
    rw [refused e answer]
    cases e <;> rfl
  | ok seed =>
    obtain ⟨fresh, _, same⟩ := opened seed answer
    rw [same]
    rfl

/-- The KDF's answer settles an attempt, or leaves it proven and unsettled. -/
theorem Budget.prove {s : Session} (budget : Budget s) (clock : s.now < CLOCK_END)
    {entropy : Entropy} {attempt : Attempt} {epoch : Nat} {blob : Bytes}
    (proving : s.gate = some (.proving attempt epoch blob)) :
    Budget (s.prove core entropy attempt epoch blob) := by
  have held : s.unsettled = some attempt := by
    unfold unsettled
    rw [proving]
    rfl
  have sealable := (budget.held attempt held).2.2.2
  unfold Session.prove
  simp only
  split
  · split
    case h_1 e opened => exact budget.settle clock held (by rw [opened]) rfl
    case h_2 seed _ =>
      have waits : ∀ holder : Holder, holder.unsettled = some attempt →
          Budget { s with gate := some holder } := by
        intro holder same
        apply budget.frames
        refine ⟨rfl, rfl, ?_, le_refl _⟩
        intro other found
        rw [held, ← same]
        exact found
      split
      · split
        · exact waits _ rfl
        · exact waits _ rfl
      · exact waits _ rfl
  · exact budget.settle clock held rfl rfl
  case h_3 next params kind lane =>
    obtain ⟨checked, accepted⟩ := sealable next params kind lane
    have judged := verdictOf_reseal core entropy blob attempt.secret accepted
    split
    case h_1 e answer =>
      rw [answer] at judged
      exact budget.settle clock held judged rfl
    case h_2 fresh answer =>
      rw [answer] at judged
      apply budget.settle clock held judged
      cases unsealSeed core.prims blob attempt.secret attempt.pepper <;> rfl

theorem unsettled_of {s : Session} {holder : Holder} (holds : s.gate = some holder) :
    s.unsettled = holder.unsettled := by
  unfold unsettled
  rw [holds]
  rfl

theorem Frames.of_gate {s after : Session} (lockout : after.files.lockout = s.files.lockout)
    (failures : after.failures = s.failures) (now : after.now = s.now)
    (gate : after.unsettled = none ∨ after.unsettled = s.unsettled) : Frames s after := by
  refine ⟨lockout, failures, ?_, le_of_eq now.symm⟩
  intro attempt found
  rcases gate with given | kept
  · rw [given] at found
    cases found
  · rwa [← kept]

theorem holderStep_budget (derives : ∀ seed, core.fromSeed seed = .ok ()) {s after : Session}
    {event : Event} (budget : Budget s) (clock : s.now < CLOCK_END)
    (happens : s.holderStep core event = some after) : Budget after := by
  unfold holderStep at happens
  split at happens
  · split at happens
    case h_1 attempt holds =>
      split at happens
      · cases happens
        exact budget.frames (.of_gate rfl rfl rfl (.inr (unsettled_of holds).symm))
      · cases happens
    · cases happens
  · simp only at happens
    split at happens
    case h_1 attempt holds =>
      split at happens
      · cases happens
      · cases happens
        split
        · exact budget.frames (.of_gate rfl rfl rfl (.inl rfl))
        · exact budget.frames (.of_gate rfl rfl rfl (.inr (unsettled_of holds).symm))
    case h_2 attempt epoch holds =>
      cases happens
      split
      · exact budget.frames (.of_gate rfl rfl rfl (.inl rfl))
      · exact budget.frames (.of_gate rfl rfl rfl (.inr (unsettled_of holds).symm))
    · cases happens
  · split at happens
    case h_1 attempt epoch blob holds =>
      cases happens
      exact budget.prove clock holds
    · cases happens
  · simp only at happens
    split at happens
    case h_1 holds =>
      cases happens
      exact budget.frames (.of_gate (create_lockout _) rfl rfl (.inr (unsettled_of holds).symm))
    case h_2 =>
      cases happens
      exact budget.frames (.of_gate (create_lockout _) rfl rfl (.inl rfl))
    · cases happens
  · split at happens
    case h_1 holds =>
      cases happens
      exact budget.frames (.of_gate rfl rfl rfl (.inr (unsettled_of holds).symm))
    case h_2 =>
      cases happens
      exact budget.frames (.of_gate rfl rfl rfl (.inl rfl))
    · cases happens
  · split at happens
    case h_1 holds =>
      split at happens
      · cases happens
        split
        · exact budget.frames (.of_gate rfl rfl rfl (.inr (unsettled_of holds).symm))
        case h_2 files renamed =>
          exact budget.frames
            (.of_gate (rename_lockout renamed) rfl rfl (.inr (unsettled_of holds).symm))
      · cases happens
    case h_2 =>
      split at happens
      · split at happens
        · cases happens
          split
          · exact budget.frames (.of_gate rfl rfl rfl (.inl rfl))
          case h_2 files renamed =>
            exact budget.frames (.of_gate (rename_lockout renamed) rfl rfl (.inl rfl))
        · cases happens
      · cases happens
    · cases happens
  · split at happens
    case h_1 holds =>
      cases happens
      exact budget.frames (.of_gate rfl rfl rfl (.inr (unsettled_of holds).symm))
    case h_2 holds =>
      cases happens
      exact budget.frames (.of_gate rfl rfl rfl (.inr (unsettled_of holds).symm))
    case h_3 =>
      cases happens
      exact budget.frames (.of_gate rfl rfl rfl (.inl rfl))
    case h_4 =>
      cases happens
      exact budget.frames (.of_gate rfl rfl rfl (.inl rfl))
    · cases happens
  · split at happens
    case h_1 attempt epoch seed holds =>
      cases happens
      rw [derives seed]
      have install := setVaultIfCurrent_frames s seed epoch
      exact budget.frames (.of_gate install.lockout install.failures (setVaultIfCurrent_now s seed epoch)
        (.inr (unsettled_of holds).symm))
    · cases happens
  · split at happens
    case h_1 attempt holds =>
      cases happens
      exact budget.settle clock (unsettled_of holds) rfl rfl
    · cases happens
  · cases happens

/-- What an admission reads and checks, whichever the lane. -/
theorem admit_ok {s : Session} {lane : Lane} {secret : Bytes} {attempt : Attempt}
    (admitted : s.refusals lane secret = .ok attempt) :
    attempt.lockout = s.files.readLockout ∧ attempt.now = s.now ∧
      s.files.readLockout.activeUntil s.now = none ∧ Attempt.Sealable attempt := by
  have gate : ∀ lockout, lockoutGate s.files s.now = .ok lockout →
      lockout = s.files.readLockout ∧ s.files.readLockout.activeUntil s.now = none := by
    intro lockout passed
    unfold lockoutGate at passed
    simp only at passed
    split at passed
    · cases passed
    case h_2 free =>
      cases passed
      exact ⟨rfl, free⟩
  cases passed : lockoutGate s.files s.now with
  | error e =>
    exfalso
    unfold refusals at admitted
    split at admitted
    · rw [passed] at admitted
      cases admitted
    · rw [passed] at admitted
      split at admitted <;> cases admitted
    · rw [passed] at admitted
      split at admitted <;> cases admitted
  | ok lockout =>
    obtain ⟨rfl, free⟩ := gate lockout passed
    unfold refusals at admitted
    split at admitted
    · rw [passed] at admitted
      cases admitted
      exact ⟨rfl, rfl, free, fun next params kind lane => nomatch lane⟩
    · rw [passed] at admitted
      split at admitted
      · cases admitted
      · cases admitted
        exact ⟨rfl, rfl, free, fun next params kind lane => nomatch lane⟩
    case h_3 next params kind =>
      rw [passed] at admitted
      split at admitted
      · cases admitted
      · simp only [Except.bind] at admitted
        split at admitted
        · cases admitted
        · cases accepted : checkSealInputs next params kind s.pepper with
          | error e =>
            rw [accepted] at admitted
            cases admitted
          | ok checked =>
            rw [accepted] at admitted
            cases admitted
            refine ⟨rfl, rfl, free, ?_⟩
            intro other bounds shape lane
            cases lane
            exact ⟨checked, accepted⟩

theorem step_budget (derives : ∀ seed, core.fromSeed seed = .ok ()) {s after : Session}
    {event : Event} (budget : Budget s) (clock : s.now < CLOCK_END)
    (between : ∀ id, event = .installLoad id → s.gate = none)
    (happens : s.step core event = some after) : Budget after := by
  unfold step at happens
  split at happens
  · split at happens
    case isTrue later =>
      cases happens
      exact budget.frames ⟨rfl, rfl, fun _ found => found, later⟩
    · cases happens
  · cases happens
    split
    · exact budget.frames ⟨rfl, rfl, fun _ found => found, le_refl _⟩
    · exact budget
  case h_3 | h_4 | h_5 =>
    cases happens
    exact budget.frames ⟨rfl, rfl, fun _ found => found, le_refl _⟩
  · cases happens
    exact budget.frames (.of_gate rfl rfl rfl (.inl rfl))
  · cases happens
    split
    · exact budget
    · exact budget.frames ⟨rfl, rfl, fun _ found => found, le_refl _⟩
  · cases happens
    split
    · exact budget
    · exact budget.frames ⟨rfl, rfl, fun _ found => found, le_refl _⟩
  · cases happens
    exact budget.frames ⟨rfl, rfl, fun _ found => found, le_refl _⟩
  · split at happens
    · cases happens
    · split at happens
      · cases happens
        exact budget
      · cases happens
        exact budget.frames ⟨rfl, rfl, fun _ found => found, le_refl _⟩
  · split at happens
    · cases happens
    · split at happens
      · cases happens
        exact budget
      · cases happens
        exact budget.frames ⟨rfl, rfl, fun _ found => found, le_refl _⟩
  · obtain ⟨creation, _, progressed⟩ := Option.bind_eq_some_iff.mp happens
    exact budget.frames (progress_frames progressed)
  case h_13 lane secret =>
    split at happens
    · cases happens
    · cases happens
      unfold Session.enter
      split
      · exact budget.frames ⟨rfl, rfl, fun _ found => found, le_refl _⟩
      case h_2 attempt admitted =>
        obtain ⟨lockout, now, free, sealable⟩ := admit_ok admitted
        refine ⟨budget.counted, budget.spaced, ?_⟩
        intro other found
        cases found
        refine ⟨lockout, ?_, le_of_eq now, sealable⟩
        unfold Lockout.activeUntil at free
        rw [budget.counted] at free
        simp only at free
        split at free
        · cases free
        case isFalse waited =>
          rw [now]
          exact Nat.le_of_not_lt waited
  · split at happens
    · cases happens
    · cases happens
      exact budget.frames ⟨rfl, rfl, fun _ found => found, le_refl _⟩
  case h_15 id =>
    split at happens
    · cases happens
    case h_2 seed epoch _ =>
      cases happens
      rw [derives seed]
      have idle := between id rfl
      have install := setVaultIfCurrent_frames { s with loads := s.loads.erase id } seed epoch
      refine ⟨readLockout_writeLockout (by decide) (by decide), (fun last found => nomatch found), ?_⟩
      intro attempt found
      have gone := install.unsettled attempt found
      unfold unsettled at gone
      rw [show ({ s with loads := s.loads.erase id } : Session).gate = s.gate from rfl, idle] at gone
      cases gone
  · exact budget.frames (creationStep_frames happens)
  · exact budget.frames (creationStep_frames happens)
  · exact budget.frames (creationStep_frames happens)
  · exact budget.frames (creationStep_frames happens)
  · exact budget.frames (creationStep_frames happens)
  · exact holderStep_budget derives budget clock happens

theorem prove_now (s : Session) (entropy : Entropy) (attempt : Attempt) (epoch : Nat) (blob : Bytes) :
    (s.prove core entropy attempt epoch blob).now = s.now := by
  unfold Session.prove
  simp only
  repeat' split
  all_goals rfl

theorem holderStep_now {s after : Session} {event : Event}
    (happens : s.holderStep core event = some after) : after.now = s.now := by
  unfold holderStep at happens
  simp only at happens
  repeat' split at happens
  all_goals cases happens
  all_goals first
    | rfl
    | exact prove_now s _ _ _ _
    | exact setVaultIfCurrent_now s _ _

/-- The clock never goes back. -/
theorem step_now {s after : Session} {event : Event} (happens : s.step core event = some after) :
    s.now ≤ after.now := by
  unfold step at happens
  split at happens
  case h_1 =>
    split at happens
    case isTrue later =>
      cases happens
      exact later
    · cases happens
  case h_12 =>
    obtain ⟨creation, _, progressed⟩ := Option.bind_eq_some_iff.mp happens
    exact (progress_frames progressed).now
  case h_13 =>
    split at happens
    · cases happens
    · cases happens
      unfold Session.enter
      split <;> exact le_refl _
  case h_15 =>
    split at happens
    · cases happens
    case h_2 id seed epoch _ =>
      cases happens
      split
      · exact le_refl _
      · exact le_of_eq (setVaultIfCurrent_now { s with loads := s.loads.erase _ } seed epoch).symm
  case h_16 | h_17 | h_18 | h_19 | h_20 => exact (creationStep_frames happens).now
  case h_21 => exact le_of_eq (holderStep_now happens).symm
  all_goals
    repeat' split at happens
    all_goals cases happens
    all_goals exact le_refl _

end Steps

section Runs

/-- No call is under way, and neither the disk nor the history holds a failure. -/
structure Fresh (s : Session) : Prop where
  idle : s.gate = none
  unfailed : s.failures = []
  default : s.files.readLockout = .default

theorem Fresh.budget {s : Session} (fresh : Fresh s) : Budget s where
  counted := by
    rw [fresh.default, fresh.unfailed]
    rfl
  spaced := by
    rw [fresh.unfailed]
    exact fun last found => nomatch found
  held := by
    unfold unsettled
    rw [fresh.idle]
    exact fun attempt found => nomatch found

/-- A biometric load lands between the calls that prove the secret, not inside one. -/
def LoadsBetween (s : Session) (event : Event) : Prop :=
  ∀ id, event = .installLoad id → s.gate = none

theorem run_budget (derives : ∀ seed, core.fromSeed seed = .ok ()) {s final : Session}
    {events : List Event} (budget : Budget s)
    (between : Machine.Meets (step core) LoadsBetween s events)
    (happens : Machine.run (step core) s events = some final) (clock : final.now < CLOCK_END) :
    Budget final := by
  have keeps : ∀ s event after, (s.now < CLOCK_END → Budget s) → LoadsBetween s event →
      s.step core event = some after → after.now < CLOCK_END → Budget after := by
    intro s event after held idle stepped early
    have before := lt_of_le_of_lt (step_now stepped) early
    exact step_budget derives (held before) before idle stepped
  exact Machine.run_invariant_meeting keeps (fun _ => budget) between happens clock

/-- A refusal at the door never looks at the secret. -/
theorem admit_blind {s : Session} {lane : Lane} {secret : Bytes} {e : AppError}
    (refused : s.refusals lane secret = .error e) (other : Bytes) : s.refusals lane other = .error e := by
  unfold refusals at refused ⊢
  cases lane with
  | unlock =>
    cases passed : lockoutGate s.files s.now with
    | error reason =>
      rw [passed] at refused
      exact refused
    | ok lockout =>
      rw [passed] at refused
      cases refused
  | confirm =>
    cases locked : s.vault.isNone with
    | true =>
      rw [locked] at refused
      exact refused
    | false =>
      cases passed : lockoutGate s.files s.now with
      | error reason =>
        rw [locked, passed] at refused
        exact refused
      | ok lockout =>
        rw [locked, passed] at refused
        cases refused
  | reseal next params kind =>
    cases locked : s.vault.isNone with
    | true =>
      rw [locked] at refused
      exact refused
    | false =>
      cases passed : lockoutGate s.files s.now with
      | error reason =>
        rw [locked, passed] at refused
        exact refused
      | ok lockout =>
        rw [locked, passed] at refused
        simp only [Except.bind, Bool.false_eq_true, if_false] at refused ⊢
        split at refused
        · exact refused
        · cases accepted : checkSealInputs next params kind s.pepper with
          | error reason =>
            rw [accepted] at refused
            exact refused
          | ok checked =>
            rw [accepted] at refused
            cases refused

theorem enter_refused {s : Session} {lane : Lane} {secret : Bytes} {e : AppError}
    (refused : s.refusals lane secret = .error e) : s.enter lane secret = { s with pepper := none } := by
  unfold Session.enter
  rw [refused]

/-- A missing binding settles nothing, whatever the lane. -/
theorem prove_unbound (s : Session) (entropy : Entropy) {attempt : Attempt} (epoch : Nat)
    {blob : Bytes} {what : String} (sealable : Attempt.Sealable attempt)
    (unbound : unsealSeed core.prims blob attempt.secret attempt.pepper =
      .error (.deviceBinding what)) :
    s.prove core entropy attempt epoch blob = { s with gate := none } ∧
      answer core entropy attempt blob = .error (.deviceBinding what) := by
  cases lane : attempt.lane with
  | unlock =>
    unfold Session.prove answer
    simp only [lane, unbound]
    exact ⟨rfl, rfl⟩
  | confirm =>
    unfold Session.prove answer
    simp only [lane, unbound]
    exact ⟨rfl, rfl⟩
  | reseal next params kind =>
    obtain ⟨checked, accepted⟩ := sealable next params kind lane
    have same := (resealSeed_checked core.prims entropy blob attempt.secret accepted).1 _ unbound
    unfold Session.prove answer
    simp only [lane, unbound, same]
    exact ⟨rfl, rfl⟩

/-- One guess budget for every door. In every run whose biometric loads fall between the calls,
    the count on disk is the wrong secrets since the last correct one; past the free ones no
    secret meets the KDF before the last one's wait is over, and waits never shrink; and a call
    refused at the door, or for the missing binding, moves nothing and answers alike for every
    secret. -/
theorem guesses_share_one_budget (derives : ∀ seed, core.fromSeed seed = .ok ()) {s final : Session}
    (fresh : Fresh s) {events : List Event}
    (between : Machine.Meets (step core) LoadsBetween s events)
    (happens : Machine.run (step core) s events = some final) (clock : final.now < CLOCK_END) :
    final.files.readLockout.failedAttempts = final.failures.length ∧
      (∀ attempt epoch blob, final.gate = some (.proving attempt epoch blob) →
        LOCKOUT_FREE_ATTEMPTS < final.failures.length →
        ∃ last, final.failures.getLast? = some last ∧
          last + lockoutDelaySecs final.failures.length ≤ attempt.now ∧ attempt.now ≤ final.now) ∧
      (∀ fewer more, fewer ≤ more → lockoutDelaySecs fewer ≤ lockoutDelaySecs more) ∧
      (∀ lane secret e, final.refusals lane secret = .error e →
        (final.enter lane secret).files = final.files ∧
          (final.enter lane secret).failures = final.failures ∧
          ∀ other, final.refusals lane other = .error e ∧
            final.enter lane other = final.enter lane secret) ∧
      ∀ attempt epoch blob entropy what, final.gate = some (.proving attempt epoch blob) →
        unsealSeed core.prims blob attempt.secret attempt.pepper = .error (.deviceBinding what) →
        (final.prove core entropy attempt epoch blob).files = final.files ∧
          (final.prove core entropy attempt epoch blob).failures = final.failures ∧
          ∀ other, other.isEmpty = false →
            answer core entropy { attempt with secret := other } blob =
                answer core entropy attempt blob ∧
              final.prove core entropy { attempt with secret := other } epoch blob =
                final.prove core entropy attempt epoch blob := by
  have budget := run_budget derives fresh.budget between happens clock
  refine ⟨?_, ?_, fun _ _ => lockoutDelaySecs_mono, ?_, ?_⟩
  · rw [budget.counted]
  · intro attempt epoch blob proving many
    obtain ⟨_, waited, early, _⟩ := budget.held attempt (unsettled_of proving)
    unfold waitsUntil at waited
    cases newest : final.failures.getLast? with
    | none =>
      rw [List.getLast?_eq_none_iff.mp newest] at many
      cases many
    | some last =>
      rw [newest] at waited
      simp only at waited
      rw [if_neg (Nat.not_le_of_lt many)] at waited
      exact ⟨last, rfl, waited, early⟩
  · intro lane secret e refused
    rw [enter_refused refused]
    refine ⟨rfl, rfl, fun other => ?_⟩
    have same := admit_blind refused other
    exact ⟨same, enter_refused same⟩
  · intro attempt epoch blob entropy what proving unbound
    have sealable := (budget.held attempt (unsettled_of proving)).2.2.2
    obtain ⟨left, answered⟩ := prove_unbound final entropy epoch sealable unbound
    rw [left]
    refine ⟨rfl, rfl, fun other filled => ?_⟩
    have alike : Attempt.Sealable { attempt with secret := other } := sealable
    obtain ⟨leftToo, answeredToo⟩ := prove_unbound final entropy epoch alike
      (unsealSeed_binding unbound filled)
    exact ⟨answeredToo.trans answered.symm, leftToo⟩

section Sample

def sampleTag (key : Bytes) : Bytes := (key ++ List.replicate TAG_LEN 0).take TAG_LEN

theorem length_sampleTag (key : Bytes) : (sampleTag key).length = TAG_LEN := by
  unfold sampleTag
  rw [List.length_take, List.length_append, List.length_replicate]
  omega

/-- Primitives small enough to evaluate: the key is the password and the salt, the tag its start. -/
def samplePrimitives : Primitives where
  argon2 password salt _ := .ok (password ++ salt)
  encrypt key _ _ message := some (message ++ sampleTag key)
  decrypt key _ _ ciphertext :=
    if ciphertext.drop (ciphertext.length - TAG_LEN) = sampleTag key then
      some (ciphertext.take (ciphertext.length - TAG_LEN))
    else none
  derives _ _ _ _ := ⟨_, rfl⟩
  encrypts _ _ _ _ := ⟨_, rfl⟩
  tagged key _ _ message ciphertext encrypted := by
    cases encrypted
    rw [List.length_append, length_sampleTag]
  opens key _ _ message ciphertext encrypted := by
    cases encrypted
    have size : (message ++ sampleTag key).length - TAG_LEN = message.length := by
      rw [List.length_append, length_sampleTag]
      omega
    rw [size, List.drop_left' rfl, if_pos rfl, List.take_left' rfl]

def sampleSeed (phrase : Phrase) : Seed :=
  ⟨(phrase ++ List.replicate SEED_LEN 0).take SEED_LEN, by
    rw [List.length_take, List.length_append, List.length_replicate]
    omega⟩

def sampleCore : Core := ⟨samplePrimitives, .ok, fun phrase _ => sampleSeed phrase, fun _ => .ok ()⟩

theorem sampleSalt_length : (List.replicate SALT_LEN (7 : UInt8)).length = SALT_LEN := List.length_replicate

theorem sampleNonce_length : (List.replicate NONCE_LEN (9 : UInt8)).length = NONCE_LEN := List.length_replicate

def sampleEntropy : Entropy :=
  ⟨List.replicate SALT_LEN 7, List.replicate NONCE_LEN 9, sampleSalt_length, sampleNonce_length⟩

def sampleBlob : Bytes :=
  (sealSeed samplePrimitives sampleEntropy (sampleSeed [1]) [112] tuned .passphrase none).toOption.getD []

def sampleSession (files : Files) : Session where
  files := files
  vault := none
  epoch := 0
  pepper := none
  ceremony := none
  gate := none
  creations := ∅
  loads := ∅
  now := 100
  owner := none
  reported := []
  failures := []

def sealedSession : Session := sampleSession ⟨[sampleBlob], some 0, none, none⟩

def tryUnlock (secret : Bytes) : List Event :=
  [.enter .unlock secret, .sample, .readBlob, .prove sampleEntropy]

def sixWrong : List Event := (List.replicate 6 (tryUnlock [120])).flatten

/-- Six wrong secrets at second 100, and the seventh has to wait for second 130. -/
theorem guesses_share_one_budget_sixWrong :
    ∃ final, Machine.run (step sampleCore) sealedSession sixWrong = some final ∧
      final.files.readLockout.failedAttempts = 6 ∧
      final.refusals .unlock [112] =
        .error (.msg "too many attempts — locked out for 30 more seconds") ∧
      (final.enter .unlock [112]).failures = final.failures := by
  have runs : (Machine.run (step sampleCore) sealedSession sixWrong).isSome = true := by
    decide +kernel
  obtain ⟨final, happens⟩ := Option.isSome_iff_exists.mp runs
  have six : final.failures.length = 6 ∧ final.now = 100 ∧
      final.refusals .unlock [112] =
        .error (.msg "too many attempts — locked out for 30 more seconds") := by
    have all : (Machine.run (step sampleCore) sealedSession sixWrong).all (fun final =>
        decide (final.failures.length = 6 ∧ final.now = 100 ∧
          final.refusals .unlock [112] =
            .error (.msg "too many attempts — locked out for 30 more seconds"))) = true := by
      decide +kernel
    rw [happens] at all
    exact of_decide_eq_true all
  obtain ⟨length, now, refused⟩ := six
  have idle : Machine.Meets (step sampleCore) LoadsBetween sealedSession sixWrong := by
    apply Machine.meets_of_forall
    rintro event member s id rfl
    simp [sixWrong, tryUnlock] at member
  obtain ⟨counted, _, _, exempt, _⟩ := @guesses_share_one_budget sampleCore (fun _ => rfl) sealedSession final
    (⟨rfl, rfl, rfl⟩ : Fresh sealedSession) sixWrong idle happens (by rw [now]; decide)
  exact ⟨final, happens, counted.trans length, refused, (exempt .unlock [112] _ refused).2.1⟩

end Sample

end Runs

end Session

end Kaspaverse.Vault
