import Kaspaverse.Vault.OneWallet

namespace Kaspaverse.Vault

/-- A call that can install a vault: the passphrase unlock that holds the gate, a create or a
    restore, a biometric load. -/
inductive Unlocker
  | passphrase
  | creation (id : Nat)
  | load (id : Nat)
deriving DecidableEq

/-- The epoch a call sampled, while the call is on its way to its install. -/
def Holder.epoch : Holder → Option Nat
  | .sampled _ epoch | .migrating _ epoch _ _ | .migrateStaged _ epoch _ _ | .proven _ epoch _ => some epoch
  | .proving attempt epoch _ => if attempt.lane = .unlock then some epoch else none
  | _ => none

def Creation.epoch : Creation → Option Nat
  | .sampled _ _ epoch | .restoreSampled _ _ epoch => some epoch
  | .ready job | .staged job _ | .landed job => some job.epoch
  | _ => none

/-- The seed a call presents to `set_vault_if_current`. -/
structure Presented where
  unlocker : Unlocker
  seed : Seed
  epoch : Nat
deriving DecidableEq

namespace Session

variable {core : Core} {s after : Session} {event : Event} {unlocker : Unlocker} {epoch : Nat}

def epochOf (s : Session) : Unlocker → Option Nat
  | .passphrase => s.gate.bind Holder.epoch
  | .creation id => (s.creations.lookup id).bind Creation.epoch
  | .load id => (s.loads.lookup id).map Prod.snd

/-- The call that samples the lock epoch in this step. -/
def sampler (s : Session) : Event → Option Unlocker
  | .sample => some .passphrase
  | .progress id _ =>
    match s.creations.lookup id with
    | some (.bound _ _) | some (.restoring _ _) => some (.creation id)
    | _ => none
  | .sampleLoad id _ => some (.load id)
  | _ => none

/-- What this step's call presents to `set_vault_if_current`. A seed that derives no keys gets there
    in no lane. -/
def presents (core : Core) (s : Session) : Event → Option Presented
  | .install =>
    match s.gate with
    | some (.proven _ epoch seed) =>
      if (core.fromSeed seed).isOk then some ⟨.passphrase, seed, epoch⟩ else none
    | _ => none
  | .finishCreation id =>
    match s.creations.lookup id with
    | some (.landed job) =>
      if (core.fromSeed job.seed).isOk then some ⟨.creation id, job.seed, job.epoch⟩ else none
    | _ => none
  | .installLoad id =>
    match s.loads.lookup id with
    | some (seed, epoch) => if (core.fromSeed seed).isOk then some ⟨.load id, seed, epoch⟩ else none
    | none => none
  | _ => none

section Epochs

/-- A call on its way to its install is where a step left it, or sampled in that step. -/
def Carries (s after : Session) (sampler : Option Unlocker) : Prop :=
  ∀ unlocker epoch, after.epochOf unlocker = some epoch →
    s.epochOf unlocker = some epoch ∨ sampler = some unlocker ∧ epoch = s.epoch

theorem Carries.still {sampler : Option Unlocker} (gate : after.gate = s.gate)
    (creations : after.creations = s.creations) (loads : after.loads = s.loads) :
    Carries s after sampler := by
  intro unlocker epoch found
  left
  cases unlocker with
  | passphrase => rwa [epochOf, gate] at found
  | creation id => rwa [epochOf, creations] at found
  | load id => rwa [epochOf, loads] at found

/-- The call at the gate moves on, and takes along the epoch it had or the present one. -/
theorem Carries.hold {sampler : Option Unlocker} (creations : after.creations = s.creations)
    (loads : after.loads = s.loads)
    (held : ∀ epoch, after.gate.bind Holder.epoch = some epoch →
      s.gate.bind Holder.epoch = some epoch ∨ sampler = some .passphrase ∧ epoch = s.epoch) :
    Carries s after sampler := by
  intro unlocker epoch found
  cases unlocker with
  | passphrase => exact held epoch found
  | creation id =>
    left
    rwa [epochOf, creations] at found
  | load id =>
    left
    rwa [epochOf, loads] at found

theorem Carries.setCreation {sampler : Option Unlocker} {before : Session} {id : Nat} {creation : Creation}
    (gate : before.gate = s.gate) (creations : before.creations = s.creations) (loads : before.loads = s.loads)
    (held : ∀ epoch, creation.epoch = some epoch →
      s.epochOf (.creation id) = some epoch ∨ sampler = some (.creation id) ∧ epoch = s.epoch) :
    Carries s (before.setCreation id creation) sampler := by
  intro unlocker epoch found
  cases unlocker with
  | passphrase =>
    left
    rwa [epochOf, show (before.setCreation id creation).gate = s.gate from gate] at found
  | creation other =>
    rw [epochOf, show (before.setCreation id creation).creations = before.creations.insert id creation from rfl,
      creations] at found
    by_cases same : other = id
    · subst same
      rw [AList.lookup_insert] at found
      exact held epoch found
    · rw [AList.lookup_insert_ne same] at found
      exact .inl found
  | load other =>
    left
    rwa [epochOf, show (before.setCreation id creation).loads = s.loads from loads] at found

theorem Carries.dropCreation {sampler : Option Unlocker} {before : Session} {id : Nat}
    (gate : before.gate = s.gate) (creations : before.creations = s.creations) (loads : before.loads = s.loads) :
    Carries s (before.dropCreation id) sampler := by
  intro unlocker epoch found
  left
  cases unlocker with
  | passphrase => rwa [epochOf, show (before.dropCreation id).gate = s.gate from gate] at found
  | creation other =>
    rw [epochOf, show (before.dropCreation id).creations = before.creations.erase id from rfl,
      creations] at found
    by_cases same : other = id
    · subst same
      rw [AList.lookup_erase] at found
      cases found
    · rwa [AList.lookup_erase_ne same] at found
  | load other => rwa [epochOf, show (before.dropCreation id).loads = s.loads from loads] at found

theorem Carries.sealJob {sampler : Option Unlocker} {before : Session} {id : Nat}
    (gate : before.gate = s.gate) (creations : before.creations = s.creations) (loads : before.loads = s.loads)
    (entropy : Entropy) (ask : Ask) (pepper : Option Bytes) (seed : Except CoreError Seed)
    (sampled : s.epochOf (.creation id) = some epoch) :
    Carries s (sealJob core before id entropy ask pepper epoch seed) sampler := by
  unfold Session.sealJob
  split
  · exact .dropCreation gate creations loads
  · split
    · exact .dropCreation gate creations loads
    · refine .setCreation gate creations loads ?_
      rintro epoch ⟨⟩
      exact .inl sampled

end Epochs

section Steps

/-- The install this step makes. -/
def installed (core : Core) (s : Session) (event : Event) : Option Presented :=
  (s.presents core event).filter fun presented => s.epoch = presented.epoch

/-- What a step that is neither a lock nor the end of the process does to the vault's slot. -/
structure Slot (core : Core) (s : Session) (event : Event) (after : Session) : Prop where
  epoch : after.epoch = s.epoch
  vault : after.vault = ((s.installed core event).map Presented.seed).or s.vault
  carries : Carries s after (s.sampler event)

theorem Slot.still (quiet : s.presents core event = none) (epoch : after.epoch = s.epoch)
    (vault : after.vault = s.vault) (carries : Carries s after (s.sampler event)) : Slot core s event after := by
  refine ⟨epoch, ?_, carries⟩
  rw [installed, quiet]
  exact vault

theorem setVaultIfCurrent_slot {presented : Presented} (after : Session) (presents : s.presents core event = some presented)
    (vault : after.vault = s.vault) (epoch : after.epoch = s.epoch) :
    (after.setVaultIfCurrent presented.seed presented.epoch).vault =
        ((s.installed core event).map Presented.seed).or s.vault ∧
      (after.setVaultIfCurrent presented.seed presented.epoch).epoch = s.epoch := by
  rw [installed, presents, Option.filter_some, setVaultIfCurrent, epoch]
  by_cases current : s.epoch = presented.epoch
  · rw [if_pos current, if_pos (decide_eq_true current)]
    exact ⟨rfl, rfl⟩
  · rw [if_neg current, if_neg (by simpa using current)]
    exact ⟨vault, epoch⟩

theorem sealJob_vault (before : Session) (id : Nat) (entropy : Entropy) (ask : Ask) (pepper : Option Bytes)
    (epoch : Nat) (seed : Except CoreError Seed) :
    (sealJob core before id entropy ask pepper epoch seed).vault = before.vault ∧
      (sealJob core before id entropy ask pepper epoch seed).epoch = before.epoch := by
  unfold Session.sealJob
  split
  · exact ⟨rfl, rfl⟩
  · split <;> exact ⟨rfl, rfl⟩

theorem progress_slot {id : Nat} {entropy : Entropy} {creation : Creation}
    (found : s.creations.lookup id = some creation)
    (happens : s.progress core id entropy creation = some after) :
    Slot core s (.progress id entropy) after := by
  have sampled : ∀ epoch, creation.epoch = some epoch → s.epochOf (.creation id) = some epoch := by
    intro epoch at_
    rw [epochOf, found]
    exact at_
  unfold progress at happens
  split at happens
  · cases happens
    split
    · exact .still rfl rfl rfl (.dropCreation rfl rfl rfl)
    · exact .still rfl rfl rfl (.setCreation rfl rfl rfl fun _ none => nomatch none)
  · cases happens
    split
    · exact .still rfl rfl rfl (.dropCreation rfl rfl rfl)
    · exact .still rfl rfl rfl (.setCreation rfl rfl rfl fun _ none => nomatch none)
  · cases happens
    refine .still rfl rfl rfl (.setCreation rfl rfl rfl ?_)
    rintro epoch ⟨⟩
    right
    rw [sampler, found]
    exact ⟨rfl, rfl⟩
  · split at happens
    · cases happens
      exact .still rfl rfl rfl (.dropCreation rfl rfl rfl)
    · cases happens
      exact .still rfl (sealJob_vault ..).2 (sealJob_vault ..).1
        (.sealJob rfl rfl rfl _ _ _ _ (sampled _ rfl))
  · cases happens
    refine .still rfl rfl rfl (.setCreation rfl rfl rfl ?_)
    rintro epoch ⟨⟩
    right
    rw [sampler, found]
    exact ⟨rfl, rfl⟩
  · split at happens
    · cases happens
      exact .still rfl rfl rfl (.dropCreation rfl rfl rfl)
    · cases happens
      split
      · exact .still rfl rfl rfl (.dropCreation rfl rfl rfl)
      · exact .still rfl (sealJob_vault ..).2 (sealJob_vault ..).1
          (.sealJob rfl rfl rfl _ _ _ _ (sampled _ rfl))
  · cases happens

theorem creationStep_slot (happens : s.creationStep core event = some after) : Slot core s event after := by
  unfold creationStep at happens
  split at happens
  case h_1 id =>
    split at happens
    case h_1 job found =>
      cases happens
      refine .still rfl rfl rfl (.setCreation rfl rfl rfl ?_)
      rintro epoch ⟨⟩
      exact .inl (by rw [epochOf, found]; rfl)
    · cases happens
  case h_2 id n =>
    split at happens
    case h_1 job staged found =>
      cases happens
      refine .still rfl rfl rfl (.setCreation rfl rfl rfl ?_)
      rintro epoch ⟨⟩
      exact .inl (by rw [epochOf, found]; rfl)
    · cases happens
  case h_3 id =>
    split at happens
    case h_1 job staged found =>
      split at happens
      · cases happens
        split
        · exact .still rfl rfl rfl (.dropCreation rfl rfl rfl)
        · refine .still rfl rfl rfl (.setCreation rfl rfl rfl ?_)
          rintro epoch ⟨⟩
          exact .inl (by rw [epochOf, found]; rfl)
      · cases happens
    · cases happens
  case h_4 id =>
    split at happens
    · cases happens
      exact .still rfl rfl rfl (.dropCreation rfl rfl rfl)
    · cases happens
      exact .still rfl rfl rfl (.dropCreation rfl rfl rfl)
    · cases happens
  case h_5 id =>
    split at happens
    case h_1 job found =>
      cases happens
      split
      next e fails =>
        refine .still ?_ rfl rfl (.dropCreation rfl rfl rfl)
        rw [presents, found]
        simp only [fails, Except.isOk, Except.toBool, Bool.false_eq_true, if_false]
      next derives =>
        have presented : s.presents core (.finishCreation id) = some ⟨.creation id, job.seed, job.epoch⟩ := by
          rw [presents, found]
          simp only [derives, Except.isOk, Except.toBool, if_true]
        obtain ⟨vault, epoch⟩ := setVaultIfCurrent_slot { s with reported := job.seed :: s.reported }
          presented rfl rfl
        obtain ⟨slot, same⟩ := setVaultIfCurrent_alike { s with reported := job.seed :: s.reported } job.seed
          job.epoch
        rw [same] at vault epoch ⊢
        exact ⟨epoch, vault, .dropCreation rfl rfl rfl⟩
    · cases happens
  · cases happens

theorem Slot.hold (quiet : s.presents core event = none) (epoch : after.epoch = s.epoch)
    (vault : after.vault = s.vault) (creations : after.creations = s.creations) (loads : after.loads = s.loads)
    (held : ∀ epoch, after.gate.bind Holder.epoch = some epoch → s.gate.bind Holder.epoch = some epoch) :
    Slot core s event after :=
  .still quiet epoch vault (.hold creations loads fun epoch found => .inl (held epoch found))

theorem prove_slot {entropy : Entropy} {attempt : Attempt} {blob : Bytes}
    (gate : s.gate = some (.proving attempt epoch blob)) :
    Slot core s (.prove entropy) (s.prove core entropy attempt epoch blob) := by
  simp only [Session.prove]
  split
  next lane =>
    have sampled : s.gate.bind Holder.epoch = some epoch := by
      rw [gate]
      exact if_pos lane
    split
    · exact .hold rfl rfl rfl rfl rfl fun _ none => nomatch none
    · split
      · split
        · exact .hold rfl rfl rfl rfl rfl fun _ same => sampled.trans same
        · exact .hold rfl rfl rfl rfl rfl fun _ same => sampled.trans same
      · exact .hold rfl rfl rfl rfl rfl fun _ same => sampled.trans same
  · exact .hold rfl rfl rfl rfl rfl fun _ none => nomatch none
  · split
    · exact .hold rfl rfl rfl rfl rfl fun _ none => nomatch none
    · refine .hold rfl rfl rfl rfl rfl ?_
      intro other held
      obtain ⟨holder, found, at_⟩ := Option.bind_eq_some_iff.mp held
      obtain ⟨seed, _, rfl⟩ := Option.map_eq_some_iff.mp found
      cases at_

theorem holderStep_slot (happens : s.holderStep core event = some after) : Slot core s event after := by
  unfold holderStep at happens
  split at happens
  · split at happens
    next attempt gate =>
      split at happens
      · cases happens
        refine .still rfl rfl rfl (.hold rfl rfl ?_)
        rintro epoch ⟨⟩
        exact .inr ⟨rfl, rfl⟩
      · cases happens
    · cases happens
  · simp only at happens
    split at happens
    next attempt gate =>
      split at happens
      · cases happens
      next other =>
        cases happens
        split
        · exact .hold rfl rfl rfl rfl rfl fun _ none => nomatch none
        · refine .hold rfl rfl rfl rfl rfl ?_
          intro epoch held
          rw [show (some (Holder.proving attempt s.epoch _)).bind Holder.epoch = none from if_neg other] at held
          cases held
    next attempt epoch gate =>
      cases happens
      split
      · exact .hold rfl rfl rfl rfl rfl fun _ none => nomatch none
      · refine .hold rfl rfl rfl rfl rfl ?_
        intro sampled held
        rw [gate]
        by_cases lane : attempt.lane = .unlock
        · exact (if_pos lane).symm.trans held
        · exact nomatch (if_neg lane).symm.trans held
    · cases happens
  · split at happens
    next attempt epoch blob gate =>
      cases happens
      exact prove_slot gate
    · cases happens
  · simp only at happens
    split at happens
    next attempt epoch seed fresh gate =>
      cases happens
      exact .hold rfl rfl rfl rfl rfl fun _ same => by rw [gate]; exact same
    · cases happens
      exact .hold rfl rfl rfl rfl rfl fun _ none => nomatch none
    · cases happens
  · split at happens
    next attempt epoch seed staged gate =>
      cases happens
      exact .hold rfl rfl rfl rfl rfl fun _ same => by rw [gate]; exact same
    · cases happens
      exact .hold rfl rfl rfl rfl rfl fun _ none => nomatch none
    · cases happens
  · split at happens
    next attempt epoch seed staged gate =>
      split at happens
      · cases happens
        split <;> exact .hold rfl rfl rfl rfl rfl fun _ same => by rw [gate]; exact same
      · cases happens
    · split at happens
      · split at happens
        · cases happens
          split <;> exact .hold rfl rfl rfl rfl rfl fun _ none => nomatch none
        · cases happens
      · cases happens
    · cases happens
  · split at happens
    next attempt epoch seed fresh gate =>
      cases happens
      exact .hold rfl rfl rfl rfl rfl fun _ same => by rw [gate]; exact same
    next attempt epoch seed staged gate =>
      cases happens
      exact .hold rfl rfl rfl rfl rfl fun _ same => by rw [gate]; exact same
    · cases happens
      exact .hold rfl rfl rfl rfl rfl fun _ none => nomatch none
    · cases happens
      exact .hold rfl rfl rfl rfl rfl fun _ none => nomatch none
    · cases happens
  · split at happens
    next attempt epoch seed gate =>
      cases happens
      split
      next e fails =>
        refine .hold ?_ rfl rfl rfl rfl fun _ none => nomatch none
        rw [presents, gate]
        simp only [fails, Except.isOk, Except.toBool, Bool.false_eq_true, if_false]
      next derives =>
        have presented : s.presents core .install = some ⟨.passphrase, seed, epoch⟩ := by
          rw [presents, gate]
          simp only [derives, Except.isOk, Except.toBool, if_true]
        obtain ⟨vault, kept⟩ := setVaultIfCurrent_slot s presented rfl rfl
        obtain ⟨slot, same⟩ := setVaultIfCurrent_alike s seed epoch
        rw [same] at vault kept ⊢
        exact ⟨kept, vault, .hold rfl rfl fun _ none => nomatch none⟩
    · cases happens
  · split at happens
    · cases happens
      exact .hold rfl rfl rfl rfl rfl fun _ none => nomatch none
    · cases happens
  · cases happens

theorem step_slot (happens : s.step core event = some after) (open_ : event ≠ .lock) (alive : event ≠ .crash) :
    Slot core s event after := by
  unfold step at happens
  split at happens
  · split at happens
    · cases happens
      exact .still rfl rfl rfl (.still rfl rfl rfl)
    · cases happens
  · cases happens
    split <;> exact .still rfl rfl rfl (.still rfl rfl rfl)
  · exact absurd rfl open_
  · cases happens
    exact .still rfl rfl rfl (.still rfl rfl rfl)
  · cases happens
    exact .still rfl rfl rfl (.still rfl rfl rfl)
  · exact absurd rfl alive
  · cases happens
    split <;> exact .still rfl rfl rfl (.still rfl rfl rfl)
  · cases happens
    split <;> exact .still rfl rfl rfl (.still rfl rfl rfl)
  · cases happens
    exact .still rfl rfl rfl (.still rfl rfl rfl)
  case h_10 | h_11 =>
    split at happens
    · cases happens
    · split at happens
      · cases happens
        exact .still rfl rfl rfl (.still rfl rfl rfl)
      · cases happens
        exact .still rfl rfl rfl (.setCreation rfl rfl rfl fun _ none => nomatch none)
  · obtain ⟨creation, found, progressed⟩ := Option.bind_eq_some_iff.mp happens
    exact progress_slot found progressed
  · split at happens
    · cases happens
    · cases happens
      unfold Session.enter
      split
      · exact .still rfl rfl rfl (.still rfl rfl rfl)
      · exact .hold rfl rfl rfl rfl rfl fun _ none => nomatch none
  case h_14 id seed =>
    split at happens
    · cases happens
    · cases happens
      refine .still rfl rfl rfl ?_
      intro unlocker epoch found
      cases unlocker with
      | passphrase => exact .inl found
      | creation _ => exact .inl found
      | load other =>
        obtain ⟨⟨seed, sampled⟩, at_, rfl⟩ := Option.map_eq_some_iff.mp found
        rcases KeyMap.lookup_insert_some.mp at_ with ⟨rfl, same⟩ | ⟨_, before⟩
        · cases same
          exact .inr ⟨rfl, rfl⟩
        · exact .inl (by rw [epochOf, before]; rfl)
  case h_15 id =>
    split at happens
    · cases happens
    next seed epoch found =>
      cases happens
      have left_ : Carries s { s with loads := s.loads.erase id } none := by
        intro unlocker sampled held
        cases unlocker with
        | passphrase => exact .inl held
        | creation _ => exact .inl held
        | load other =>
          obtain ⟨⟨seed, sampled⟩, at_, rfl⟩ := Option.map_eq_some_iff.mp held
          exact .inl (by rw [epochOf, (KeyMap.lookup_erase_some.mp at_).2]; rfl)
      split
      next e fails =>
        refine .still ?_ rfl rfl left_
        rw [presents, found]
        simp only [fails, Except.isOk, Except.toBool, Bool.false_eq_true, if_false]
      next derives =>
        have presented : s.presents core (.installLoad id) = some ⟨.load id, seed, epoch⟩ := by
          rw [presents, found]
          simp only [derives, Except.isOk, Except.toBool, if_true]
        obtain ⟨vault, kept⟩ := setVaultIfCurrent_slot { s with loads := s.loads.erase id }
          presented rfl rfl
        obtain ⟨slot, same⟩ := setVaultIfCurrent_alike { s with loads := s.loads.erase id } seed epoch
        rw [same] at vault kept ⊢
        exact ⟨kept, vault, left_⟩
  case h_16 | h_17 | h_18 | h_19 | h_20 => exact creationStep_slot happens
  case h_21 => exact holderStep_slot happens

/-- A call samples once, before which it has no epoch. -/
theorem sampler_fresh (happens : s.step core event = some after) (samples : s.sampler event = some unlocker) :
    s.epochOf unlocker = none := by
  unfold sampler at samples
  split at samples
  · cases samples
    change s.holderStep core .sample = some after at happens
    unfold holderStep at happens
    simp only at happens
    split at happens
    next gate =>
      rw [epochOf, gate]
      rfl
    · cases happens
  next id _ =>
    split at samples
    next found =>
      cases samples
      rw [epochOf, found]
      rfl
    next found =>
      cases samples
      rw [epochOf, found]
      rfl
    · cases samples
  next id _ =>
    cases samples
    simp only [step] at happens
    split at happens
    · cases happens
    next fresh =>
      rw [epochOf, AList.lookup_eq_none.mpr fresh]
      rfl
  · cases samples

theorem presents_epoch {presented : Presented} (presents : s.presents core event = some presented) :
    s.epochOf presented.unlocker = some presented.epoch := by
  unfold Session.presents at presents
  split at presents
  · split at presents
    next gate =>
      split at presents
      · cases presents
        rw [epochOf, gate]
        rfl
      · cases presents
    · cases presents
  · split at presents
    next found =>
      split at presents
      · cases presents
        rw [epochOf, found]
        rfl
      · cases presents
    · cases presents
  · split at presents
    next found =>
      split at presents
      · cases presents
        rw [epochOf, found]
        rfl
      · cases presents
    · cases presents
  · cases presents

end Steps

end Session

/-- An install, with the steps at which its call sampled the epoch and installed. -/
structure Install where
  unlocker : Unlocker
  seed : Seed
  sampledAt : Nat
  installedAt : Nat
deriving DecidableEq

/-- The process and the history of its run, a step at a time: when each `lock_vault` bumped the
    epoch, when each call last sampled it, and the installs since the last lock. A process that
    dies has none. -/
structure Watched where
  session : Session
  clock : Nat
  locks : List Nat
  sampledAt : Unlocker → Nat
  installs : List Install

namespace Watched

open Session

variable {core : Core} {w next : Watched} {event : Event}

/-- The process starts over the files that are there. -/
def launch (s : Session) : Watched := ⟨s.restart, 0, [], fun _ => 0, []⟩

def bumps (w : Watched) : Event → List Nat
  | .lock => w.clock :: w.locks
  | _ => w.locks

def installsAfter (core : Core) (w : Watched) : Event → List Install
  | .lock | .crash => []
  | event =>
    match w.session.installed core event with
    | some presented => ⟨presented.unlocker, presented.seed, w.sampledAt presented.unlocker, w.clock⟩ :: w.installs
    | none => w.installs

def step (core : Core) (w : Watched) (event : Event) : Option Watched :=
  (w.session.step core event).map fun session =>
    { session := session
      clock := w.clock + 1
      locks := w.bumps event
      sampledAt := fun unlocker =>
        if w.session.sampler event = some unlocker then w.clock else w.sampledAt unlocker
      installs := w.installsAfter core event }

/-- No lock has landed since the call sampled the epoch. -/
def Current (w : Watched) (unlocker : Unlocker) : Prop := ∀ lock ∈ w.locks, lock < w.sampledAt unlocker

/-- What carries the run: a call's epoch is the present one exactly as long as no lock has landed
    since its sample. -/
structure Guarded (w : Watched) : Prop where
  vault : w.session.vault = w.installs.head?.map Install.seed
  past : ∀ lock ∈ w.locks, lock < w.clock
  installs : ∀ install ∈ w.installs,
    (∀ lock ∈ w.locks, lock < install.sampledAt) ∧ install.sampledAt < install.installedAt
  sampled : ∀ unlocker epoch, w.session.epochOf unlocker = some epoch →
    epoch ≤ w.session.epoch ∧ (epoch = w.session.epoch ↔ w.Current unlocker) ∧ w.sampledAt unlocker < w.clock

theorem guarded_launch (s : Session) : (launch s).Guarded where
  vault := rfl
  past := fun _ gone => nomatch gone
  installs := fun _ gone => nomatch gone
  sampled := by
    intro unlocker epoch found
    cases unlocker <;> cases found

theorem Guarded.lock (guarded : w.Guarded) (happens : w.step core .lock = some next) : next.Guarded := by
  cases happens
  refine ⟨rfl, ?_, fun _ gone => (nomatch gone), ?_⟩
  · intro lock member
    rcases List.mem_cons.mp member with rfl | before
    · exact Nat.lt_succ_self _
    · exact Nat.lt_succ_of_lt (guarded.past lock before)
  · intro unlocker epoch found
    obtain ⟨old, _, before⟩ := guarded.sampled unlocker epoch (by cases unlocker <;> exact found)
    refine ⟨Nat.le_succ_of_le old, ⟨?_, ?_⟩, Nat.lt_succ_of_lt before⟩
    · intro same
      exact absurd same (Nat.ne_of_lt (Nat.lt_succ_of_le old))
    · intro current
      exact absurd (current w.clock List.mem_cons_self) (Nat.lt_asymm before)

theorem Guarded.crash (guarded : w.Guarded) (happens : w.step core .crash = some next) : next.Guarded := by
  cases happens
  refine ⟨rfl, fun lock member => Nat.lt_succ_of_lt (guarded.past lock member),
    fun _ gone => (nomatch gone), ?_⟩
  intro unlocker epoch found
  cases unlocker <;> cases found

theorem installed_presents {s : Session} {presented : Presented}
    (installs : s.installed core event = some presented) :
    s.presents core event = some presented ∧ s.epoch = presented.epoch := by
  obtain ⟨presents, current⟩ := Option.filter_eq_some_iff.mp installs
  exact ⟨presents, of_decide_eq_true current⟩

theorem Guarded.current (guarded : w.Guarded) {presented : Presented}
    (presents : w.session.presents core event = some presented) :
    (w.session.epoch = presented.epoch ↔ w.Current presented.unlocker) ∧
      w.sampledAt presented.unlocker < w.clock := by
  obtain ⟨_, same, before⟩ := guarded.sampled _ _ (presents_epoch presents)
  exact ⟨⟨fun epoch => same.mp epoch.symm, fun current => (same.mpr current).symm⟩, before⟩

theorem Guarded.step (guarded : w.Guarded) (open_ : event ≠ .lock) (alive : event ≠ .crash)
    (happens : w.step core event = some next) : next.Guarded := by
  obtain ⟨session, moved, rfl⟩ := Option.map_eq_some_iff.mp happens
  have slot := step_slot moved open_ alive
  have locks : w.bumps event = w.locks := by
    unfold bumps
    split
    · exact absurd rfl open_
    · rfl
  have installs : w.installsAfter core event = match w.session.installed core event with
      | some presented => ⟨presented.unlocker, presented.seed, w.sampledAt presented.unlocker, w.clock⟩ :: w.installs
      | none => w.installs := by
    unfold installsAfter
    split
    · exact absurd rfl open_
    · exact absurd rfl alive
    · rfl
  refine ⟨?_, ?_, ?_, ?_⟩
  · simp only [installs]
    rw [slot.vault]
    cases w.session.installed core event with
    | none => exact guarded.vault
    | some presented => rfl
  · simp only [locks]
    exact fun lock member => Nat.lt_succ_of_lt (guarded.past lock member)
  · simp only [locks, installs]
    cases found : w.session.installed core event with
    | none => exact guarded.installs
    | some presented =>
      obtain ⟨presents, epoch⟩ := installed_presents found
      obtain ⟨current, before⟩ := guarded.current presents
      intro install member
      rcases List.mem_cons.mp member with rfl | earlier
      · exact ⟨current.mp epoch, before⟩
      · exact guarded.installs install earlier
  · simp only [Current, locks]
    intro unlocker epoch found
    rw [slot.epoch]
    by_cases samples : w.session.sampler event = some unlocker
    · rw [if_pos samples]
      rcases slot.carries unlocker epoch found with before | ⟨_, rfl⟩
      · rw [sampler_fresh moved samples] at before
        cases before
      · exact ⟨le_refl _, ⟨fun _ => guarded.past, fun _ => rfl⟩, Nat.lt_succ_self _⟩
    · rw [if_neg samples]
      rcases slot.carries unlocker epoch found with before | ⟨now, _⟩
      · obtain ⟨old, same, earlier⟩ := guarded.sampled unlocker epoch before
        exact ⟨old, same, Nat.lt_succ_of_lt earlier⟩
      · exact absurd now samples

theorem run_guarded {s : Session} {events : List Event}
    (happens : Machine.run (Watched.step core) (launch s) events = some w) : w.Guarded := by
  refine Machine.run_invariant ?_ (guarded_launch s) happens
  intro before event after guarded moved
  by_cases locks : event = .lock
  · subst locks
    exact guarded.lock moved
  · by_cases dies : event = .crash
    · subst dies
      exact guarded.crash moved
    · exact guarded.step locks dies moved

theorem Guarded.status (guarded : w.Guarded) :
    w.session.currentStatus.unlocked = decide (0 < w.installs.length) := by
  change w.session.vault.isSome = _
  rw [guarded.vault]
  cases w.installs <;> rfl

theorem presents_ordinary {s : Session} {presented : Presented}
    (presents : s.presents core event = some presented) : event ≠ .lock ∧ event ≠ .crash := by
  constructor <;> rintro rfl <;> cases presents

theorem Guarded.installed (guarded : w.Guarded) {presented : Presented} (happens : w.step core event = some next)
    (presents : w.session.presents core event = some presented) (current : w.Current presented.unlocker) :
    next.session.vault = some presented.seed ∧ next.installs.length = w.installs.length + 1 := by
  obtain ⟨session, moved, rfl⟩ := Option.map_eq_some_iff.mp happens
  obtain ⟨open_, alive⟩ := presents_ordinary presents
  have installs : w.session.installed core event = some presented := by
    rw [Session.installed, presents, Option.filter_some, if_pos]
    exact decide_eq_true ((guarded.current presents).1.mpr current)
  refine ⟨?_, ?_⟩
  · rw [(step_slot moved open_ alive).vault, installs]
    rfl
  · unfold installsAfter
    split
    · exact absurd rfl open_
    · exact absurd rfl alive
    · rw [installs]
      rfl

theorem Guarded.refused (guarded : w.Guarded) {presented : Presented} (happens : w.step core event = some next)
    (presents : w.session.presents core event = some presented) (raced : ¬ w.Current presented.unlocker) :
    next.session.vault = w.session.vault ∧ next.session.epoch = w.session.epoch ∧
      next.installs = w.installs := by
  obtain ⟨session, moved, rfl⟩ := Option.map_eq_some_iff.mp happens
  obtain ⟨open_, alive⟩ := presents_ordinary presents
  have stale : w.session.installed core event = none := by
    rw [Session.installed, presents, Option.filter_some, if_neg]
    exact fun same => raced ((guarded.current presents).1.mp (of_decide_eq_true same))
  have slot := step_slot moved open_ alive
  refine ⟨?_, slot.epoch, ?_⟩
  · rw [slot.vault, stale]
    rfl
  · unfold installsAfter
    split
    · exact absurd rfl open_
    · exact absurd rfl alive
    · rw [stale]

/-- A lock is never overwritten by an unlock it raced. -/
structure LockWins (core : Core) (w : Watched) : Prop where
  status : w.session.currentStatus.unlocked = decide (0 < w.installs.length)
  bumps : ∀ next, w.step core .lock = some next → next.session.currentStatus.unlocked = false
  locked : ∀ lock ∈ w.locks, ∀ seed, w.session.vault = some seed → ∃ install ∈ w.installs,
    install.seed = seed ∧ lock < install.sampledAt ∧ install.sampledAt < install.installedAt
  installs : ∀ event next presented, w.step core event = some next →
    w.session.presents core event = some presented → w.Current presented.unlocker →
      next.session.vault = some presented.seed ∧ next.installs.length = w.installs.length + 1
  refuses : ∀ event next presented, w.step core event = some next →
    w.session.presents core event = some presented → ¬ w.Current presented.unlocker →
      next.session.vault = w.session.vault ∧ next.session.epoch = w.session.epoch ∧
        next.installs = w.installs

/-- Any number of unlocks, creates, restores, biometric loads and locks, in any order of their
    critical sections. -/
theorem lock_is_never_overwritten {s : Session} {events : List Event}
    (happens : Machine.run (Watched.step core) (launch s) events = some w) : LockWins core w := by
  have guarded := run_guarded happens
  refine ⟨guarded.status, ?_, ?_, fun _ _ _ moved presents => guarded.installed moved presents,
    fun _ _ _ moved presents => guarded.refused moved presents⟩
  · intro next moved
    rw [(guarded.lock moved).status]
    cases moved
    rfl
  · intro lock member seed held
    rw [guarded.vault] at held
    obtain ⟨install, first, rfl⟩ := Option.map_eq_some_iff.mp held
    have latest := List.mem_of_head? first
    obtain ⟨sampled, order⟩ := guarded.installs install latest
    exact ⟨install, latest, rfl, sampled lock member, order⟩

def racedUnlock : List Event :=
  [.enter .unlock [112], .sample, .readBlob, .lock, .prove sampleEntropy, .install, .settle]

/-- A lock in the middle of the KDF: that unlock installs nothing, and the next one does. -/
theorem lock_is_never_overwritten_raced :
    ∃ raced unlocked, Machine.run (Watched.step sampleCore) (launch sealedSession) racedUnlock = some raced ∧
      raced.session.currentStatus.unlocked = false ∧
      Machine.run (Watched.step sampleCore) (launch sealedSession)
        (racedUnlock ++ tryUnlock [112] ++ [.install]) = some unlocked ∧
      unlocked.session.currentStatus.unlocked = true ∧
      ∀ lock ∈ unlocked.locks, ∃ install ∈ unlocked.installs, lock < install.sampledAt := by
  have early : (Machine.run (Watched.step sampleCore) (launch sealedSession) racedUnlock).any
      (fun raced => decide (raced.installs.length = 0)) = true := by
    decide +kernel
  have late : (Machine.run (Watched.step sampleCore) (launch sealedSession)
      (racedUnlock ++ tryUnlock [112] ++ [.install])).any
        (fun unlocked => decide (unlocked.installs.length = 1)) = true := by
    decide +kernel
  obtain ⟨raced, happens, none⟩ := (Option.any_eq_true _ _).mp early
  obtain ⟨unlocked, happens', one⟩ := (Option.any_eq_true _ _).mp late
  have held := lock_is_never_overwritten happens'
  have open_ : unlocked.session.currentStatus.unlocked = true := by
    rw [held.status, of_decide_eq_true one]
    rfl
  refine ⟨raced, unlocked, happens, ?_, happens', open_, ?_⟩
  · rw [(lock_is_never_overwritten happens).status, of_decide_eq_true none]
    rfl
  · intro lock member
    obtain ⟨seed, found⟩ := Option.isSome_iff_exists.mp open_
    obtain ⟨install, kept, _, after, _⟩ := held.locked lock member seed found
    exact ⟨install, kept, after⟩

end Watched

end Kaspaverse.Vault
