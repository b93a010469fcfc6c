import Mathlib.Data.List.TakeWhile
import Kaspaverse.Library.Asked
import Kaspaverse.Chain.Coins

namespace Kaspaverse.Chain

/-- What the transaction builder says of one amount. -/
inductive ProbeOutcome
  | builds
  | tooSmall
  | tooLarge
  deriving DecidableEq, Repr

def PROBE_LADDER_START_SOMPI : Nat := 1_000_000

def PROBE_PRECISION_SOMPI : Nat := 100_000

def NEAREST_STEPS : Nat := 64

def PROBE_BAND_FRACTIONS_1024 : List Nat :=
  [512, 504, 496, 488, 480, 464, 448, 416, 384, 320, 256, 192, 128, 64, 544, 576, 640, 768]

/-- `u64::saturating_mul`. -/
def saturatingMul (a b : Nat) : Nat := min (a * b) u64Max

/-- What a search knows: the greatest amount refused as too small, the smallest that built and the
    smallest refused as too large. -/
structure Bracket where
  lo : Nat
  hi : Option Nat
  ceiling : Option Nat

section Searches

variable {σ ε : Type*} (probe : Oracle σ ε Nat ProbeOutcome)

/-- The doubling ladder, with so many rungs left. -/
def ladder : Nat → Nat → Nat → σ → Except ε Bracket × σ
  | 0, _, lo, state => (.ok ⟨lo, none, none⟩, state)
  | left + 1, v, lo, state =>
    match probe v state with
    | (.error failure, state) => (.error failure, state)
    | (.ok .builds, state) => (.ok ⟨lo, some v, none⟩, state)
    | (.ok .tooSmall, state) => ladder left (saturatingMul v 2) v state
    | (.ok .tooLarge, state) => (.ok ⟨lo, none, some v⟩, state)

/-- The hunt inside the last window of the ladder. -/
def hunt : Nat → Nat → Nat → σ → Except ε (Nat × Option Nat) × σ
  | 0, lo, _, state => (.ok (lo, none), state)
  | left + 1, lo, top, state =>
    if top - lo ≤ PROBE_PRECISION_SOMPI then (.ok (lo, none), state)
    else
      match probe (lo + (top - lo) / 2) state with
      | (.error failure, state) => (.error failure, state)
      | (.ok .builds, state) => (.ok (lo, some (lo + (top - lo) / 2)), state)
      | (.ok .tooSmall, state) => hunt left (lo + (top - lo) / 2) top state
      | (.ok .tooLarge, state) => hunt left lo (lo + (top - lo) / 2) state

/-- The first sampled fraction of the balance that builds. -/
def rescue (balance : Nat) : List Nat → σ → Except ε (Option Nat) × σ
  | [], state => (.ok none, state)
  | numerator :: rest, state =>
    if balance * numerator / 1024 = 0 then (.ok none, state)
    else
      match probe (balance * numerator / 1024) state with
      | (.error failure, state) => (.error failure, state)
      | (.ok .builds, state) => (.ok (some (balance * numerator / 1024)), state)
      | (.ok _, state) => rescue balance rest state

/-- Bisect down from an anchor. A shrinking window counts as an upper bound. -/
def descend (lo hi : Nat) (state : σ) : Except ε Nat × σ :=
  if hi - lo ≤ PROBE_PRECISION_SOMPI then (.ok hi, state)
  else
    match probe (lo + (hi - lo) / 2) state with
    | (.error failure, state) => (.error failure, state)
    | (.ok .tooSmall, state) => descend (lo + (hi - lo) / 2) hi state
    | (.ok _, state) => descend lo (lo + (hi - lo) / 2) state
termination_by hi - lo
decreasing_by all_goals (simp only [PROBE_PRECISION_SOMPI] at *; omega)

/-- Bisect up from an anchor. -/
def climb (lo hi : Nat) (state : σ) : Except ε Nat × σ :=
  if hi - lo ≤ PROBE_PRECISION_SOMPI then (.ok lo, state)
  else
    match probe (lo + (hi - lo) / 2) state with
    | (.error failure, state) => (.error failure, state)
    | (.ok .builds, state) => climb (lo + (hi - lo) / 2) hi state
    | (.ok _, state) => climb lo (lo + (hi - lo) / 2) state
termination_by hi - lo
decreasing_by all_goals (simp only [PROBE_PRECISION_SOMPI] at *; omega)

/-- Phase 1b, where the ladder found a ceiling and no anchor. -/
def huntedIn (bracket : Bracket) (state : σ) : Except ε (Nat × Option Nat) × σ :=
  match bracket.hi, bracket.ceiling with
  | none, some top => hunt probe 10 bracket.lo top state
  | hi, _ => (.ok (bracket.lo, hi), state)

/-- Phase 1c: an anchor the rescue finds brackets from zero. -/
def rescuedIn (balance : Nat) (found : Nat × Option Nat) (state : σ) : Except ε (Nat × Option Nat) × σ :=
  if found.2 = none ∧ 0 < balance then
    andThen (rescue probe balance PROBE_BAND_FRACTIONS_1024 state) fun anchor state =>
      match anchor with
      | some candidate => (.ok (0, some candidate), state)
      | none => (.ok found, state)
  else (.ok found, state)

def searchMinimum (balance : Nat) (state : σ) : Except ε (Option Nat) × σ :=
  andThen (ladder probe 20 PROBE_LADDER_START_SOMPI 0 state) fun bracket state =>
    andThen (huntedIn probe bracket state) fun found state =>
      andThen (rescuedIn probe balance found state) fun found state =>
        match found.2 with
        | none => (.ok none, state)
        | some hi => andThen (descend probe found.1 hi state) fun v state => (.ok (some v), state)

def searchMaximum (anchor balance : Nat) (state : σ) : Except ε (Option Nat) × σ :=
  if balance ≤ anchor then (.ok none, state)
  else
    match probe anchor state with
    | (.error failure, state) => (.error failure, state)
    | (.ok .builds, state) => andThen (climb probe anchor balance state) fun w state => (.ok (some w), state)
    | (.ok _, state) => (.ok none, state)

/-- One side's probe, where that side has no answer yet and the amount is in bounds. -/
def sideProbe (found : Option Nat) (inBounds : Bool) (candidate : Nat) (state : σ) : Except ε (Option Nat) × σ :=
  if found = none ∧ inBounds = true then
    match probe candidate state with
    | (.error failure, state) => (.error failure, state)
    | (.ok .builds, state) => (.ok (some candidate), state)
    | (.ok _, state) => (.ok none, state)
  else (.ok found, state)

/-- The walk outward, with so many steps left. -/
def nearestFrom (amount floor ceiling : Nat) : Nat → Option Nat × Option Nat → σ →
    Except ε (Option Nat × Option Nat) × σ
  | 0, found, state => (.ok found, state)
  | left + 1, (below, above), state =>
    if below ≠ none ∧ above ≠ none then (.ok (below, above), state)
    else
      andThen (sideProbe probe below
        (floor < amount - saturatingMul PROBE_PRECISION_SOMPI (NEAREST_STEPS - left))
        (amount - saturatingMul PROBE_PRECISION_SOMPI (NEAREST_STEPS - left)) state) fun below state =>
      andThen (sideProbe probe above
        (saturatingAdd amount (saturatingMul PROBE_PRECISION_SOMPI (NEAREST_STEPS - left)) ≤ ceiling)
        (saturatingAdd amount (saturatingMul PROBE_PRECISION_SOMPI (NEAREST_STEPS - left))) state)
        fun above state => nearestFrom amount floor ceiling left (below, above) state

def searchNearestBuildable (amount floor ceiling : Nat) (state : σ) :
    Except ε (Option Nat × Option Nat) × σ :=
  nearestFrom probe amount floor ceiling NEAREST_STEPS (none, none) state

end Searches

section OneBand

/-- The answers of a wallet whose amounts build in one band. Above the band the change is dust, which
    reads like a payment that is too small. -/
def bandOutcome (f g h v : Nat) : ProbeOutcome :=
  if v < f then .tooSmall else if v ≤ g then .builds else if v < h then .tooSmall else .tooLarge

theorem bandOutcome_builds {f g h v : Nat} : bandOutcome f g h v = .builds ↔ f ≤ v ∧ v ≤ g := by
  unfold bandOutcome
  split <;> [skip; split <;> [skip; split]] <;> simp <;> omega

theorem bandOutcome_tooSmall {f g h v : Nat} :
    bandOutcome f g h v = .tooSmall ↔ v < f ∨ (g < v ∧ v < h) := by
  unfold bandOutcome
  split <;> [skip; split <;> [skip; split]] <;> simp <;> omega

theorem bandOutcome_tooLarge {f g h v : Nat} (order : f ≤ g) (inside : g < h) :
    bandOutcome f g h v = .tooLarge ↔ h ≤ v := by
  unfold bandOutcome
  split <;> [skip; split <;> [skip; split]] <;> simp <;> omega

variable {σ ε : Type*} {probe : Oracle σ ε Nat ProbeOutcome} {f g h : Nat}

/-- Where a search for the floor stands: its lower end is under the band or past it, and with an anchor
    in the band it is under it. -/
def Brackets (f g lo : Nat) (hi : Option Nat) : Prop :=
  (lo ≤ f ∨ g < lo) ∧ ∀ v, hi = some v → f ≤ v ∧ v ≤ g ∧ lo ≤ f

theorem brackets_none {lo : Nat} : Brackets f g lo none ↔ lo ≤ f ∨ g < lo := by
  simp [Brackets]

theorem brackets_some {lo v : Nat} : Brackets f g lo (some v) ↔ f ≤ v ∧ v ≤ g ∧ lo ≤ f := by
  simp only [Brackets, Option.some.injEq, forall_eq']
  omega

theorem ladder_brackets (answers : probe.Answers (bandOutcome f g h)) (left v lo : Nat) (state : σ)
    (climbing : lo ≤ v) (outside : lo ≤ f ∨ g < lo) (room : v ≤ u64Max) :
    Finds (fun bracket : Bracket => Brackets f g bracket.lo bracket.hi ∧
        ∀ top, bracket.ceiling = some top → bracket.lo ≤ top)
      (ladder probe left v lo state) := by
  fun_induction ladder probe left v lo state with
  | case1 v lo state => exact Finds.pure ⟨brackets_none.2 outside, by simp⟩ state
  | case2 left v lo state failure next asked => exact (answers.never_fails asked).elim
  | case3 left v lo state next asked =>
    have built := bandOutcome_builds.1 (answers.eq asked)
    have low : lo ≤ f := by omega
    exact Finds.pure ⟨brackets_some.2 ⟨built.1, built.2, low⟩, by simp⟩ next
  | case4 left v lo state next asked ih =>
    have small := bandOutcome_tooSmall.1 (answers.eq asked)
    have higher : v ≤ saturatingMul v 2 := by
      unfold saturatingMul
      omega
    exact ih higher (by omega) (by unfold saturatingMul; omega)
  | case5 left v lo state next asked =>
    exact Finds.pure ⟨brackets_none.2 outside, by simpa using climbing⟩ next

/-- A rung in the band is met before any rung that is too large. -/
theorem ladder_anchors (answers : probe.Answers (bandOutcome f g h)) (left v lo : Nat) (state : σ)
    (order : f ≤ g) (inside : g < h) (room : h ≤ u64Max) (rung : ∃ k < left, f ≤ v * 2 ^ k ∧ v * 2 ^ k ≤ g) :
    Finds (fun bracket : Bracket => bracket.hi ≠ none) (ladder probe left v lo state) := by
  fun_induction ladder probe left v lo state with
  | case1 v lo state =>
    obtain ⟨k, few, _⟩ := rung
    omega
  | case2 left v lo state failure next asked => exact (answers.never_fails asked).elim
  | case3 left v lo state next asked => exact Finds.pure (by simp) next
  | case4 left v lo state next asked ih =>
    have small := bandOutcome_tooSmall.1 (answers.eq asked)
    obtain ⟨k, few, low, high⟩ := rung
    have first : v ≤ v * 2 ^ k := Nat.le_mul_of_pos_right v (Nat.two_pow_pos k)
    cases k with
    | zero => omega
    | succ k =>
      have doubled : v * 2 ^ (k + 1) = v * 2 * 2 ^ k := by
        rw [Nat.pow_succ]
        ac_rfl
      have early : v * 2 ≤ v * 2 * 2 ^ k := Nat.le_mul_of_pos_right _ (Nat.two_pow_pos k)
      have unclamped : saturatingMul v 2 = v * 2 := by
        unfold saturatingMul
        omega
      rw [doubled] at low high
      exact ih ⟨k, by omega, by rw [unclamped]; exact low, by rw [unclamped]; exact high⟩
  | case5 left v lo state next asked =>
    have large := (bandOutcome_tooLarge order inside).1 (answers.eq asked)
    obtain ⟨k, few, low, high⟩ := rung
    have first : v ≤ v * 2 ^ k := Nat.le_mul_of_pos_right v (Nat.two_pow_pos k)
    omega

theorem hunt_brackets (answers : probe.Answers (bandOutcome f g h)) (left lo top : Nat) (state : σ)
    (outside : lo ≤ f ∨ g < lo) :
    Finds (fun found : Nat × Option Nat => Brackets f g found.1 found.2) (hunt probe left lo top state) := by
  fun_induction hunt probe left lo top state with
  | case1 _ lo state => exact ⟨_, rfl, brackets_none.2 outside⟩
  | case2 left lo top state close => exact ⟨_, rfl, brackets_none.2 outside⟩
  | case3 left lo top state wide failure next asked => exact (answers.never_fails asked).elim
  | case4 left lo top state wide next asked =>
    have built := bandOutcome_builds.1 (answers.eq asked)
    have low : lo ≤ f := by omega
    exact ⟨_, rfl, brackets_some.2 ⟨built.1, built.2, low⟩⟩
  | case5 left lo top state wide next asked ih =>
    have small := bandOutcome_tooSmall.1 (answers.eq asked)
    exact ih (by omega)
  | case6 left lo top state wide next asked ih => exact ih outside

theorem huntedIn_brackets (answers : probe.Answers (bandOutcome f g h)) {bracket : Bracket} (state : σ)
    (brackets : Brackets f g bracket.lo bracket.hi) :
    Finds (fun found : Nat × Option Nat =>
        Brackets f g found.1 found.2 ∧ (bracket.hi ≠ none → found.2 ≠ none))
      (huntedIn probe bracket state) := by
  obtain ⟨lo, hi, ceiling⟩ := bracket
  cases hi with
  | some v => exact Finds.pure ⟨brackets, by simp⟩ state
  | none =>
    cases ceiling with
    | none => exact Finds.pure ⟨brackets, by simp⟩ state
    | some top =>
      exact (hunt_brackets answers 10 lo top state (brackets_none.1 brackets)).mono
        fun _ holds => ⟨holds, by simp⟩

/-- The fractions of the balance that are probed: those before the first that rounds to nothing. -/
def sampled (balance : Nat) : List Nat :=
  (PROBE_BAND_FRACTIONS_1024.map fun numerator => balance * numerator / 1024).takeWhile (· ≠ 0)

theorem rescue_anchor (answers : probe.Answers (bandOutcome f g h)) (balance : Nat) (numerators : List Nat)
    (state : σ) :
    Finds (fun anchor : Option Nat => (∀ candidate, anchor = some candidate → f ≤ candidate ∧ candidate ≤ g) ∧
        ((∃ candidate ∈ (numerators.map fun numerator => balance * numerator / 1024).takeWhile (· ≠ 0),
          f ≤ candidate ∧ candidate ≤ g) → anchor ≠ none))
      (rescue probe balance numerators state) := by
  fun_induction rescue probe balance numerators state with
  | case1 state => exact Finds.pure (by simp) state
  | case2 numerator rest state nothing => exact Finds.pure (by simp [nothing]) state
  | case3 numerator rest state positive failure next asked => exact (answers.never_fails asked).elim
  | case4 numerator rest state positive next asked =>
    have built := bandOutcome_builds.1 (answers.eq asked)
    exact Finds.pure (by simpa using built) next
  | case5 numerator rest state positive outcome next refused asked ih =>
    have outside : ¬ (f ≤ balance * numerator / 1024 ∧ balance * numerator / 1024 ≤ g) := by
      intro inBand
      exact refused ((answers.eq asked).symm.trans (bandOutcome_builds.2 inBand))
    refine ih.mono fun anchor ⟨built, found⟩ => ⟨built, ?_⟩
    intro ⟨candidate, sampled, inBand⟩
    refine found ⟨candidate, ?_, inBand⟩
    simp only [List.map_cons, List.takeWhile_cons, decide_not, positive, decide_false, Bool.not_false, if_true,
      List.mem_cons] at sampled
    rcases sampled with rfl | later
    · exact absurd inBand outside
    · simpa using later

theorem rescuedIn_brackets (answers : probe.Answers (bandOutcome f g h)) (balance : Nat)
    {found : Nat × Option Nat} (state : σ) (brackets : Brackets f g found.1 found.2) :
    Finds (fun anchored : Nat × Option Nat => Brackets f g anchored.1 anchored.2 ∧
        ((found.2 ≠ none ∨ ∃ candidate ∈ sampled balance, f ≤ candidate ∧ candidate ≤ g) →
          anchored.2 ≠ none))
      (rescuedIn probe balance found state) := by
  unfold rescuedIn
  split
  · rename_i missing
    refine (rescue_anchor answers balance PROBE_BAND_FRACTIONS_1024 state).andThen ?_
    intro anchor state ⟨built, reached⟩
    cases anchor with
    | none =>
      refine Finds.pure ⟨brackets, ?_⟩ state
      rintro (held | inBand)
      · exact absurd missing.1 held
      · exact absurd rfl (reached inBand)
    | some candidate =>
      have inBand := built candidate rfl
      exact Finds.pure ⟨brackets_some.2 ⟨inBand.1, inBand.2, Nat.zero_le f⟩, by simp⟩ state
  · rename_i settled
    refine Finds.pure ⟨brackets, ?_⟩ state
    rintro (held | ⟨candidate, sampledHere, _⟩)
    · exact held
    · -- a balance of nothing is sampled nowhere
      intro missing
      have nothing : balance = 0 := by
        by_contra positive
        exact settled ⟨missing, by omega⟩
      subst nothing
      simp [sampled, PROBE_BAND_FRACTIONS_1024] at sampledHere

theorem descend_floor (answers : probe.Answers (bandOutcome f g h)) (lo hi : Nat) (state : σ)
    (low : lo ≤ f) (anchored : f ≤ hi) (high : hi ≤ g) :
    Finds (fun v => f ≤ v ∧ v ≤ g ∧ v - f ≤ PROBE_PRECISION_SOMPI) (descend probe lo hi state) := by
  fun_induction descend probe lo hi state with
  | case1 lo hi state close => exact Finds.pure (by omega) state
  | case2 lo hi state wide failure next asked => exact (answers.never_fails asked).elim
  | case3 lo hi state wide next asked ih =>
    have small := bandOutcome_tooSmall.1 (answers.eq asked)
    exact ih (by omega) anchored high
  | case4 lo hi state wide outcome next notSmall asked ih =>
    have under : ¬ lo + (hi - lo) / 2 < f := by
      intro below
      exact notSmall ((answers.eq asked).symm.trans (bandOutcome_tooSmall.2 (.inl below)))
    exact ih low (by omega) (by omega)

theorem climb_ceiling (answers : probe.Answers (bandOutcome f g h)) (lo hi : Nat) (state : σ)
    (low : f ≤ lo) (anchored : lo ≤ g) (high : g < hi) :
    Finds (fun w => lo ≤ w ∧ w ≤ g ∧ g - w ≤ PROBE_PRECISION_SOMPI) (climb probe lo hi state) := by
  fun_induction climb probe lo hi state with
  | case1 lo hi state close => exact Finds.pure (by omega) state
  | case2 lo hi state wide failure next asked => exact (answers.never_fails asked).elim
  | case3 lo hi state wide next asked ih =>
    have built := bandOutcome_builds.1 (answers.eq asked)
    exact (ih built.1 built.2 high).mono fun w holds => by omega
  | case4 lo hi state wide outcome next refused asked ih =>
    have past : ¬ lo + (hi - lo) / 2 ≤ g := by
      intro below
      exact refused ((answers.eq asked).symm.trans (bandOutcome_builds.2 (by omega)))
    exact ih low anchored (by omega)

/-- The first step outward that offers an amount, out of so many. -/
def IsFirst (offers : Nat → Nat → Prop) (steps : Nat) : Option Nat → Prop
  | some v => ∃ k, 1 ≤ k ∧ k ≤ steps ∧ offers k v ∧ ∀ j, 1 ≤ j → j < k → ∀ w, ¬ offers j w
  | none => ∀ k, 1 ≤ k → k ≤ steps → ∀ w, ¬ offers k w

theorem IsFirst.start (offers : Nat → Nat → Prop) : IsFirst offers 0 none := by
  intro k positive few
  omega

theorem IsFirst.later {offers : Nat → Nat → Prop} {steps more : Nat} {v : Nat}
    (first : IsFirst offers steps (some v)) (le : steps ≤ more) : IsFirst offers more (some v) := by
  obtain ⟨k, positive, few, offered, earliest⟩ := first
  exact ⟨k, positive, by omega, offered, earliest⟩

/-- An amount so many steps below that builds, above the floor. -/
def OffersBelow (answer : Nat → ProbeOutcome) (amount floor k v : Nat) : Prop :=
  v + PROBE_PRECISION_SOMPI * k = amount ∧ floor < v ∧ answer v = .builds

/-- An amount so many steps above that builds, up to the ceiling. -/
def OffersAbove (answer : Nat → ProbeOutcome) (amount ceiling k v : Nat) : Prop :=
  v = amount + PROBE_PRECISION_SOMPI * k ∧ v ≤ ceiling ∧ answer v = .builds

theorem sideProbe_first {answer : Nat → ProbeOutcome} (answers : probe.Answers answer)
    {offers : Nat → Nat → Prop} {steps candidate : Nat} {found : Option Nat} {inBounds : Bool} (state : σ)
    (first : IsFirst offers steps found)
    (offered : ∀ w, offers (steps + 1) w ↔ inBounds = true ∧ w = candidate ∧ answer candidate = .builds) :
    Finds (IsFirst offers (steps + 1)) (sideProbe probe found inBounds candidate state) := by
  have onward (missing : found = none) (refused : ¬ (inBounds = true ∧ answer candidate = .builds)) :
      IsFirst offers (steps + 1) none := by
    subst missing
    intro k positive few w offersHere
    rcases Nat.lt_or_ge steps k with last | early
    · obtain rfl : k = steps + 1 := by omega
      have accepted := (offered w).1 offersHere
      exact refused ⟨accepted.1, accepted.2.2⟩
    · exact first k positive early w offersHere
  unfold sideProbe
  split
  · rename_i waiting
    obtain ⟨missing, bounded⟩ := waiting
    cases asked : probe candidate state with
    | mk answered next =>
      cases answered with
      | error failure => exact (answers.never_fails asked).elim
      | ok outcome =>
        have same := answers.eq asked
        cases outcome with
        | builds =>
          subst missing
          refine ⟨_, rfl, steps + 1, by omega, le_refl _, (offered candidate).2 ⟨bounded, rfl, same⟩, ?_⟩
          intro j positive earlier
          exact first j positive (by omega)
        | tooSmall => exact ⟨_, rfl, onward missing (by simp [same])⟩
        | tooLarge => exact ⟨_, rfl, onward missing (by simp [same])⟩
  · rename_i closed
    cases found with
    | some v => exact ⟨_, rfl, first.later (Nat.le_succ steps)⟩
    | none => exact ⟨_, rfl, onward rfl fun both => closed ⟨rfl, both.1⟩⟩

theorem nearestFrom_first {answer : Nat → ProbeOutcome} (answers : probe.Answers answer)
    {amount floor ceiling : Nat} (fits : ceiling ≤ u64Max) (capped : answer u64Max ≠ .builds)
    (left : Nat) (few : left ≤ NEAREST_STEPS) (below above : Option Nat) (state : σ)
    (firstBelow : IsFirst (OffersBelow answer amount floor) (NEAREST_STEPS - left) below)
    (firstAbove : IsFirst (OffersAbove answer amount ceiling) (NEAREST_STEPS - left) above) :
    Finds (fun found : Option Nat × Option Nat =>
        IsFirst (OffersBelow answer amount floor) NEAREST_STEPS found.1 ∧
          IsFirst (OffersAbove answer amount ceiling) NEAREST_STEPS found.2)
      (nearestFrom probe amount floor ceiling left (below, above) state) := by
  induction left generalizing below above state with
  | zero => exact ⟨_, rfl, firstBelow, firstAbove⟩
  | succ left ih =>
    have next : NEAREST_STEPS - left = NEAREST_STEPS - (left + 1) + 1 := by omega
    have unclamped : saturatingMul PROBE_PRECISION_SOMPI (NEAREST_STEPS - left) =
        PROBE_PRECISION_SOMPI * (NEAREST_STEPS - left) := by
      unfold saturatingMul u64Max PROBE_PRECISION_SOMPI NEAREST_STEPS
      omega
    rw [nearestFrom]
    split
    · rename_i both
      obtain ⟨v, rfl⟩ := Option.ne_none_iff_exists'.1 both.1
      obtain ⟨w, rfl⟩ := Option.ne_none_iff_exists'.1 both.2
      exact ⟨_, rfl, firstBelow.later (Nat.sub_le _ _), firstAbove.later (Nat.sub_le _ _)⟩
    · rw [unclamped]
      refine (sideProbe_first answers state firstBelow ?_).andThen ?_
      · intro w
        rw [← next]
        simp only [OffersBelow, decide_eq_true_eq]
        constructor
        · rintro ⟨rfl, higher, built⟩
          simp [higher, built]
        · rintro ⟨higher, rfl, built⟩
          exact ⟨by omega, higher, built⟩
      · intro below state first
        refine (sideProbe_first answers state firstAbove ?_).andThen ?_
        · intro w
          rw [← next]
          simp only [OffersAbove, decide_eq_true_eq]
          unfold saturatingAdd
          constructor
          · rintro ⟨rfl, under, built⟩
            rw [Nat.min_eq_left (le_trans under fits)]
            exact ⟨under, rfl, built⟩
          · rintro ⟨under, rfl, built⟩
            -- at the top of the range nothing builds, so the sum did not saturate
            rcases Nat.le_total (amount + PROBE_PRECISION_SOMPI * (NEAREST_STEPS - left)) u64Max with room | full
            · rw [Nat.min_eq_left room] at under built ⊢
              exact ⟨rfl, under, built⟩
            · rw [Nat.min_eq_right full] at built
              exact absurd built capped
        · intro above state firstUp
          rw [← next] at first firstUp
          exact ih (by omega) below above state first firstUp

theorem searchMinimum_floor (answers : probe.Answers (bandOutcome f g h)) (balance : Nat) (order : f ≤ g)
    (inside : g < h) (room : h ≤ u64Max) (state : σ) :
    Finds (fun floor : Option Nat =>
        (∀ v, floor = some v → f ≤ v ∧ v ≤ g ∧ v - f ≤ PROBE_PRECISION_SOMPI) ∧
        (((∃ k < 20, f ≤ PROBE_LADDER_START_SOMPI * 2 ^ k ∧ PROBE_LADDER_START_SOMPI * 2 ^ k ≤ g) ∨
            ∃ candidate ∈ sampled balance, f ≤ candidate ∧ candidate ≤ g) → floor ≠ none))
      (searchMinimum probe balance state) := by
  have climbed : Finds (fun bracket : Bracket => Brackets f g bracket.lo bracket.hi ∧
      ((∃ k < 20, f ≤ PROBE_LADDER_START_SOMPI * 2 ^ k ∧ PROBE_LADDER_START_SOMPI * 2 ^ k ≤ g) →
        bracket.hi ≠ none)) (ladder probe 20 PROBE_LADDER_START_SOMPI 0 state) := by
    have brackets := ladder_brackets answers 20 PROBE_LADDER_START_SOMPI 0 state (Nat.zero_le _)
      (.inl (Nat.zero_le f)) (by decide)
    by_cases rung : ∃ k < 20, f ≤ PROBE_LADDER_START_SOMPI * 2 ^ k ∧ PROBE_LADDER_START_SOMPI * 2 ^ k ≤ g
    · have anchors := ladder_anchors answers 20 PROBE_LADDER_START_SOMPI 0 state order inside room rung
      exact (brackets.and anchors).mono fun _ both => ⟨both.1.1, fun _ => both.2⟩
    · exact brackets.mono fun _ holds => ⟨holds.1, fun there => absurd there rung⟩
  refine climbed.andThen ?_
  intro bracket state ⟨brackets, onRung⟩
  refine (huntedIn_brackets answers state brackets).andThen ?_
  intro found state ⟨brackets, kept⟩
  refine (rescuedIn_brackets answers balance state brackets).andThen ?_
  intro found state ⟨brackets, anchored⟩
  have reached : ((∃ k < 20, f ≤ PROBE_LADDER_START_SOMPI * 2 ^ k ∧ PROBE_LADDER_START_SOMPI * 2 ^ k ≤ g) ∨
      ∃ candidate ∈ sampled balance, f ≤ candidate ∧ candidate ≤ g) → found.2 ≠ none := by
    intro there
    rcases there with rung | sample
    · exact anchored (.inl (kept (onRung rung)))
    · exact anchored (.inr sample)
  obtain ⟨lo, hi⟩ := found
  cases hi with
  | none => exact ⟨none, rfl, by simp, fun there => absurd rfl (reached there)⟩
  | some hi =>
    obtain ⟨low, high, bottom⟩ := brackets_some.1 brackets
    refine (descend_floor answers lo hi state bottom low high).andThen ?_
    intro v state close
    exact ⟨some v, rfl, by simpa using close, by simp⟩

theorem searchMaximum_ceiling (answers : probe.Answers (bandOutcome f g h)) {anchor balance : Nat}
    (inBand : f ≤ anchor ∧ anchor ≤ g) (whole : bandOutcome f g h balance ≠ .builds) (more : anchor < balance)
    (state : σ) :
    Finds (fun ceiling : Option Nat => ∃ w, ceiling = some w ∧ anchor ≤ w ∧ w ≤ g ∧
        g - w ≤ PROBE_PRECISION_SOMPI)
      (searchMaximum probe anchor balance state) := by
  have past : g < balance := by
    rw [Ne, bandOutcome_builds] at whole
    omega
  have builds := bandOutcome_builds (h := h).2 inBand
  rw [searchMaximum, if_neg (by omega)]
  split
  · rename_i failure next asked
    exact (answers.never_fails asked).elim
  · rename_i next asked
    refine (climb_ceiling answers anchor balance next inBand.1 inBand.2 past).andThen ?_
    intro w state found
    exact ⟨some w, rfl, w, rfl, found⟩
  · rename_i outcome next refused asked
    exact absurd ((answers.eq asked).symm.trans builds) refused

theorem searchNearestBuildable_first (answers : probe.Answers (bandOutcome f g h)) (inside : g < h)
    (room : h ≤ u64Max) (amount floor : Nat) {ceiling : Nat} (fits : ceiling ≤ u64Max) (state : σ) :
    Finds (fun found : Option Nat × Option Nat =>
        IsFirst (OffersBelow (bandOutcome f g h) amount floor) NEAREST_STEPS found.1 ∧
          IsFirst (OffersAbove (bandOutcome f g h) amount ceiling) NEAREST_STEPS found.2)
      (searchNearestBuildable probe amount floor ceiling state) := by
  have capped : bandOutcome f g h u64Max ≠ .builds := by
    rw [Ne, bandOutcome_builds]
    omega
  exact nearestFrom_first answers fits capped NEAREST_STEPS (le_refl _) none none state
    (IsFirst.start _) (IsFirst.start _)

theorem sampled_all {balance : Nat} (enough : 16 ≤ balance) :
    sampled balance = PROBE_BAND_FRACTIONS_1024.map fun numerator => balance * numerator / 1024 := by
  have positive : ∀ candidate ∈ PROBE_BAND_FRACTIONS_1024.map fun numerator => balance * numerator / 1024,
      candidate ≠ 0 := by
    intro candidate there
    simp only [PROBE_BAND_FRACTIONS_1024, List.map_cons, List.map_nil, List.mem_cons, List.not_mem_nil,
      or_false] at there
    rcases there with there | there | there | there | there | there | there | there | there | there | there |
      there | there | there | there | there | there | there <;> omega
  exact List.takeWhile_eq_self_iff.2 fun candidate there => by simpa using positive candidate there

end OneBand

section AnyProbe

variable {σ ε : Type*} (probe : Oracle σ ε Nat ProbeOutcome)

/-- An amount that was not known before was probed and built. -/
def Proved (known found : Option Nat) (asked : List (Nat × Except ε ProbeOutcome)) : Prop :=
  ∀ v, found = some v → known = some v ∨ (v, .ok .builds) ∈ asked

theorem ladder_asks (left v lo : Nat) (kept : σ × List (Nat × Except ε ProbeOutcome)) (room : v ≤ u64Max) :
    Asks left (fun (bracket : Bracket) _ =>
        (∀ hi, bracket.hi = some hi → hi ≤ u64Max) ∧ ∀ top, bracket.ceiling = some top → top ≤ u64Max)
      kept (ladder probe.recorded left v lo kept) := by
  fun_induction ladder probe.recorded left v lo kept with
  | case1 v lo kept => exact Asks.pure (by simp)
  | case2 left v lo kept failure next asked => exact Asks.ask_failed asked
  | case3 left v lo kept next asked => exact Asks.ask asked (Asks.pure (by simpa using room))
  | case4 left v lo kept next asked ih => exact Asks.ask asked (ih (by unfold saturatingMul; omega))
  | case5 left v lo kept next asked => exact Asks.ask asked (Asks.pure (by simpa using room))

theorem hunt_asks (left lo top : Nat) (kept : σ × List (Nat × Except ε ProbeOutcome)) (room : top ≤ u64Max) :
    Asks left (fun (found : Nat × Option Nat) _ => ∀ hi, found.2 = some hi → hi ≤ u64Max)
      kept (hunt probe.recorded left lo top kept) := by
  fun_induction hunt probe.recorded left lo top kept with
  | case1 => exact Asks.pure (by simp)
  | case2 => exact Asks.pure (by simp)
  | case3 left lo top kept wide failure next asked => exact Asks.ask_failed asked
  | case4 left lo top kept wide next asked =>
    have inside : lo + (top - lo) / 2 ≤ u64Max := by omega
    exact Asks.ask asked (Asks.pure (by simpa using inside))
  | case5 left lo top kept wide next asked ih => exact Asks.ask asked (ih room)
  | case6 left lo top kept wide next asked ih => exact Asks.ask asked (ih (by omega))

theorem rescue_asks (balance : Nat) (numerators : List Nat) (kept : σ × List (Nat × Except ε ProbeOutcome))
    (parts : ∀ numerator ∈ numerators, numerator ≤ 1024) :
    Asks numerators.length (fun (anchor : Option Nat) _ => ∀ hi, anchor = some hi → hi ≤ balance)
      kept (rescue probe.recorded balance numerators kept) := by
  fun_induction rescue probe.recorded balance numerators kept with
  | case1 => exact Asks.pure (by simp)
  | case2 => exact Asks.pure (by simp)
  | case3 numerator rest kept positive failure next asked => exact Asks.ask_failed asked
  | case4 numerator rest kept positive next asked =>
    have part : balance * numerator / 1024 ≤ balance := by
      have le := Nat.mul_le_mul_left balance (parts numerator (by simp))
      omega
    exact Asks.ask asked (Asks.pure (by simpa using part))
  | case5 numerator rest kept positive outcome next refused asked ih =>
    exact Asks.ask asked (ih fun other there => parts other (List.mem_cons_of_mem _ there))

theorem descend_asks (lo hi : Nat) (kept : σ × List (Nat × Except ε ProbeOutcome)) {k : Nat}
    (window : hi - lo ≤ 2 ^ k) :
    Asks k (fun _ _ => True) kept (descend probe.recorded lo hi kept) := by
  fun_induction descend probe.recorded lo hi kept generalizing k with
  | case1 => exact Asks.pure trivial
  | case2 lo hi kept wide failure next asked =>
    cases k with
    | zero => simp [PROBE_PRECISION_SOMPI] at wide window; omega
    | succ k => exact Asks.ask_failed asked
  | case3 lo hi kept wide next asked ih =>
    cases k with
    | zero => simp [PROBE_PRECISION_SOMPI] at wide window; omega
    | succ k => exact Asks.ask asked (ih (by rw [Nat.pow_succ] at window; omega))
  | case4 lo hi kept wide outcome next notSmall asked ih =>
    cases k with
    | zero => simp [PROBE_PRECISION_SOMPI] at wide window; omega
    | succ k => exact Asks.ask asked (ih (by rw [Nat.pow_succ] at window; omega))

theorem climb_asks (lo hi : Nat) (kept : σ × List (Nat × Except ε ProbeOutcome)) {k : Nat}
    (window : hi - lo ≤ 2 ^ k) :
    Asks k (fun w asked => w = lo ∨ (w, .ok .builds) ∈ asked) kept (climb probe.recorded lo hi kept) := by
  fun_induction climb probe.recorded lo hi kept generalizing k with
  | case1 => exact Asks.pure (.inl rfl)
  | case2 lo hi kept wide failure next asked =>
    cases k with
    | zero => simp [PROBE_PRECISION_SOMPI] at wide window; omega
    | succ k => exact Asks.ask_failed asked
  | case3 lo hi kept wide next asked ih =>
    cases k with
    | zero => simp [PROBE_PRECISION_SOMPI] at wide window; omega
    | succ k =>
      refine Asks.ask asked ((ih (k := k) (by rw [Nat.pow_succ] at window; omega)).mono (le_refl k) ?_)
      intro w asked found
      simp only [List.mem_cons, Prod.mk.injEq, and_true]
      tauto
  | case4 lo hi kept wide outcome next refused asked ih =>
    cases k with
    | zero => simp [PROBE_PRECISION_SOMPI] at wide window; omega
    | succ k =>
      refine Asks.ask asked ((ih (k := k) (by rw [Nat.pow_succ] at window; omega)).mono (le_refl k) ?_)
      intro w asked found
      simp only [List.mem_cons]
      tauto

theorem huntedIn_asks (bracket : Bracket) (kept : σ × List (Nat × Except ε ProbeOutcome))
    (anchored : ∀ hi, bracket.hi = some hi → hi ≤ u64Max)
    (topped : ∀ top, bracket.ceiling = some top → top ≤ u64Max) :
    Asks 10 (fun (found : Nat × Option Nat) _ => ∀ hi, found.2 = some hi → hi ≤ u64Max)
      kept (huntedIn probe.recorded bracket kept) := by
  unfold huntedIn
  split
  · rename_i missing ceiling
    exact hunt_asks probe 10 bracket.lo _ kept (topped _ ceiling)
  · exact Asks.pure anchored

theorem rescuedIn_asks (balance : Nat) (found : Nat × Option Nat)
    (kept : σ × List (Nat × Except ε ProbeOutcome)) (fits : balance ≤ u64Max)
    (anchored : ∀ hi, found.2 = some hi → hi ≤ u64Max) :
    Asks 18 (fun (found : Nat × Option Nat) _ => ∀ hi, found.2 = some hi → hi ≤ u64Max)
      kept (rescuedIn probe.recorded balance found kept) := by
  unfold rescuedIn
  split
  · have sampling := rescue_asks probe balance PROBE_BAND_FRACTIONS_1024 kept (by decide)
    refine (sampling.andThen 0 ?_)
    intro anchor asked small later
    cases anchor with
    | none => exact Asks.pure anchored
    | some candidate =>
      have part := small candidate rfl
      exact Asks.pure (by intro hi same; cases same; omega)
  · exact Asks.pure anchored

theorem searchMinimum_asks (balance : Nat) (kept : σ × List (Nat × Except ε ProbeOutcome))
    (fits : balance ≤ u64Max) :
    Asks 112 (fun _ _ => True) kept (searchMinimum probe.recorded balance kept) := by
  have rungs := ladder_asks probe 20 PROBE_LADDER_START_SOMPI 0 kept (by decide)
  refine rungs.andThen 92 ?_
  intro bracket asked small later
  refine (huntedIn_asks probe bracket later small.1 small.2).andThen 82 ?_
  intro found asked small later
  refine (rescuedIn_asks probe balance found later fits small).andThen 64 ?_
  intro found asked small later
  split
  · exact Asks.pure trivial
  · rename_i hi anchored
    have window : hi - found.1 ≤ 2 ^ 64 := by
      have le := small hi anchored
      unfold u64Max at le
      omega
    refine (descend_asks probe found.1 hi later window).andThen 0 ?_
    intro v asked _ later
    exact Asks.pure trivial

theorem searchMaximum_asks (anchor balance : Nat) (kept : σ × List (Nat × Except ε ProbeOutcome))
    (fits : balance ≤ u64Max) :
    Asks 65 (Proved none) kept (searchMaximum probe.recorded anchor balance kept) := by
  unfold searchMaximum
  split
  · exact Asks.pure (by simp [Proved])
  · split
    · rename_i failure next asked
      exact Asks.ask_failed asked
    · rename_i next asked
      have window : balance - anchor ≤ 2 ^ 64 := by
        unfold u64Max at fits
        omega
      refine Asks.ask asked ((climb_asks probe anchor balance next window).andThen 0 ?_)
      intro w probed found later
      refine Asks.pure ?_
      intro v same
      cases same
      rcases found with rfl | there
      · simp
      · simp [there]
    · rename_i outcome next refused asked
      exact Asks.ask asked (Asks.pure (by simp [Proved]))

theorem sideProbe_asks (known : Option Nat) (inBounds : Bool) (candidate : Nat)
    (kept : σ × List (Nat × Except ε ProbeOutcome)) :
    Asks 1 (Proved known) kept (sideProbe probe.recorded known inBounds candidate kept) := by
  unfold sideProbe
  split
  · split
    · rename_i failure next asked
      exact Asks.ask_failed asked
    · rename_i next asked
      exact Asks.ask asked (Asks.pure (by simp [Proved]))
    · rename_i outcome next refused asked
      exact Asks.ask asked (Asks.pure (by simp [Proved]))
  · exact Asks.pure fun v same => .inl same

theorem Proved.trans {known middle found : Option Nat} {early late : List (Nat × Except ε ProbeOutcome)}
    (first : Proved known middle early) (second : Proved middle found late) :
    Proved known found (early ++ late) := by
  intro v same
  rcases second v same with held | there
  · rcases first v held with already | there
    · exact .inl already
    · exact .inr (List.mem_append_left late there)
  · exact .inr (List.mem_append_right early there)

theorem Proved.wider {known found : Option Nat} {asked : List (Nat × Except ε ProbeOutcome)}
    (proved : Proved known found asked) (early late : List (Nat × Except ε ProbeOutcome)) :
    Proved known found (early ++ asked ++ late) := by
  intro v same
  rcases proved v same with held | there
  · exact .inl held
  · exact .inr (by simp [there])

theorem nearestFrom_asks (amount floor ceiling left : Nat) (below above : Option Nat)
    (kept : σ × List (Nat × Except ε ProbeOutcome)) :
    Asks (2 * left) (fun (found : Option Nat × Option Nat) asked =>
        Proved below found.1 asked ∧ Proved above found.2 asked)
      kept (nearestFrom probe.recorded amount floor ceiling left (below, above) kept) := by
  induction left generalizing below above kept with
  | zero => exact Asks.pure ⟨fun _ same => .inl same, fun _ same => .inl same⟩
  | succ left ih =>
    rw [nearestFrom]
    split
    · exact Asks.pure ⟨fun _ same => .inl same, fun _ same => .inl same⟩
    · refine ((sideProbe_asks probe below _ _ kept).andThen (2 * left + 1) ?_).mono (by omega)
        fun _ _ holds => holds
      intro lower askedDown provedDown later
      refine ((sideProbe_asks probe above _ _ later).andThen (2 * left) ?_).mono (by omega)
        fun _ _ holds => holds
      intro upper askedUp provedUp last
      refine (ih lower upper last).mono (le_refl _) ?_
      intro found asked ⟨down, up⟩
      constructor
      · have whole := provedDown.trans (down.wider askedUp [])
        simpa using whole
      · have whole := (provedUp.trans up).wider askedDown []
        simpa using whole

end AnyProbe

section Advertised

variable {σ ε : Type*} (probe : Oracle σ ε Nat ProbeOutcome)

/-- The floor and the ceiling are those of the band. A rung of the ladder or a sampled fraction in the
    band is enough for a floor; from sixteen sompi on every fraction is sampled. Whatever the probe
    answers, each search ends, and what the last two offer was probed and built. -/
theorem advertised_bounds_are_real :
    (∀ f g h balance, f ≤ g → g < h → h ≤ u64Max → bandOutcome f g h balance ≠ .builds →
      probe.Answers (bandOutcome f g h) →
      (∀ state, Finds (fun floor : Option Nat =>
          (∀ v, floor = some v → f ≤ v ∧ v ≤ g ∧ v - f ≤ PROBE_PRECISION_SOMPI ∧
            (v < balance → ∀ state, Finds (fun ceiling : Option Nat =>
                ∃ w, ceiling = some w ∧ v ≤ w ∧ w ≤ g ∧ g - w ≤ PROBE_PRECISION_SOMPI)
              (searchMaximum probe v balance state))) ∧
          (((∃ k < 20, f ≤ PROBE_LADDER_START_SOMPI * 2 ^ k ∧ PROBE_LADDER_START_SOMPI * 2 ^ k ≤ g) ∨
              ∃ candidate ∈ sampled balance, f ≤ candidate ∧ candidate ≤ g) → floor ≠ none))
        (searchMinimum probe balance state)) ∧
      ∀ amount floor ceiling state, ceiling ≤ u64Max → Finds (fun found : Option Nat × Option Nat =>
          IsFirst (OffersBelow (bandOutcome f g h) amount floor) NEAREST_STEPS found.1 ∧
            IsFirst (OffersAbove (bandOutcome f g h) amount ceiling) NEAREST_STEPS found.2)
        (searchNearestBuildable probe amount floor ceiling state)) ∧
    (∀ balance, 16 ≤ balance → sampled balance =
      PROBE_BAND_FRACTIONS_1024.map fun numerator => balance * numerator / 1024) ∧
    ∀ kept : σ × List (Nat × Except ε ProbeOutcome),
      (∀ balance ≤ u64Max, Asks 112 (fun _ _ => True) kept (searchMinimum probe.recorded balance kept)) ∧
      (∀ anchor, ∀ balance ≤ u64Max,
        Asks 65 (Proved none) kept (searchMaximum probe.recorded anchor balance kept)) ∧
      ∀ amount floor ceiling, Asks 128 (fun (found : Option Nat × Option Nat) asked =>
          Proved none found.1 asked ∧ Proved none found.2 asked)
        kept (searchNearestBuildable probe.recorded amount floor ceiling kept) := by
  refine ⟨?_, fun balance enough => sampled_all enough, ?_⟩
  · intro f g h balance order inside room whole answers
    refine ⟨fun state => ?_, fun amount floor ceiling state fits =>
      searchNearestBuildable_first answers inside room amount floor fits state⟩
    refine (searchMinimum_floor answers balance order inside room state).mono ?_
    intro floor ⟨inBand, found⟩
    refine ⟨fun v same => ?_, found⟩
    obtain ⟨low, high, close⟩ := inBand v same
    exact ⟨low, high, close, fun more state => searchMaximum_ceiling answers ⟨low, high⟩ whole more state⟩
  · intro kept
    refine ⟨fun balance fits => searchMinimum_asks probe balance kept fits,
      fun anchor balance fits => searchMaximum_asks probe anchor balance kept fits, ?_⟩
    intro amount floor ceiling
    exact nearestFrom_asks probe amount floor ceiling NEAREST_STEPS none none kept

/-- A wallet whose amounts build in one band. -/
def bandProbe (f g h : Nat) : Oracle Unit Unit Nat ProbeOutcome := fun v state => (.ok (bandOutcome f g h v), state)

theorem bandProbe_answers (f g h : Nat) : (bandProbe f g h).Answers (bandOutcome f g h) := fun _ _ => rfl

/-- A payment under 0.05 KAS is dust, and so is the change of one over 4 KAS. -/
theorem advertised_bounds_are_real_fiveKas :
    Finds (fun floor : Option Nat => ∃ v, floor = some v ∧ 5_000_000 ≤ v ∧ v ≤ 5_100_000)
      (searchMinimum (bandProbe 5_000_000 400_000_000 500_000_001) 500_000_000 ()) := by
  have bounds := ((advertised_bounds_are_real (bandProbe 5_000_000 400_000_000 500_000_001)).1 5_000_000 400_000_000
    500_000_001 500_000_000 (by decide) (by decide) (by decide) (by decide) (bandProbe_answers _ _ _)).1 ()
  refine bounds.mono ?_
  intro floor ⟨inBand, found⟩
  obtain ⟨v, rfl⟩ := Option.ne_none_iff_exists'.1 (found (.inl ⟨3, by decide, by decide, by decide⟩))
  obtain ⟨low, _, close, _⟩ := inBand v rfl
  unfold PROBE_PRECISION_SOMPI at close
  exact ⟨v, rfl, low, by omega⟩

/-- Under sixteen sompi the fractions above one half are never sampled: the sampling ends at the first that
    rounds to nothing. -/
theorem unsampled_fraction_is_missed :
    ∃ f g h balance, f ≤ g ∧ g < h ∧ h ≤ u64Max ∧ bandOutcome f g h balance ≠ .builds ∧
      (bandProbe f g h).Answers (bandOutcome f g h) ∧
      (∃ numerator ∈ PROBE_BAND_FRACTIONS_1024,
        f ≤ balance * numerator / 1024 ∧ balance * numerator / 1024 ≤ g) ∧
      (searchMinimum (bandProbe f g h) balance ()).1 = .ok none := by
  refine ⟨11, 11, 12, 15, by decide, by decide, by decide, by decide, bandProbe_answers _ _ _, ?_, rfl⟩
  exact ⟨768, by decide, by decide, by decide⟩

end Advertised

end Kaspaverse.Chain
