import Mathlib
import Kaspaverse.Library.KeyedMap
import Kaspaverse.Library.Machine
import Kaspaverse.Vault.Blob

namespace Kaspaverse.Vault

def LOCKOUT_FREE_ATTEMPTS : Nat := 5

/-- The persisted guess budget. The fields are a `u32` and a `u64`. -/
structure Lockout where
  failedAttempts : Nat
  lockedUntil : Nat
deriving DecidableEq

namespace Lockout

def default : Lockout := ⟨0, 0⟩

def activeUntil (lockout : Lockout) (now : Nat) : Option Nat :=
  if now < lockout.lockedUntil then some lockout.lockedUntil else none

def toBytes (lockout : Lockout) : Bytes :=
  leBytes 4 lockout.failedAttempts ++ leBytes 8 lockout.lockedUntil

def fromBytes (bytes : Bytes) : Option Lockout :=
  if bytes.length ≠ 12 then none
  else some ⟨leValue (bytes.take 4), leValue ((bytes.drop 4).take 8)⟩

end Lockout

/-- No wait under the free budget, then 30 s doubling with each failure, capped at one hour. -/
def lockoutDelaySecs (failed : Nat) : Nat :=
  if failed ≤ LOCKOUT_FREE_ATTEMPTS then 0
  else min (30 * 2 ^ min (failed - LOCKOUT_FREE_ATTEMPTS - 1) 7) 3600

inductive AppError
  | msg (text : String)
  | core (e : CoreError)
  | io (what : String)
deriving DecidableEq

/-- A mnemonic's words, as the BIP39 crate holds them. -/
abbrev Phrase := Bytes

/-- The custody crate below the bridge: its primitives, BIP39, and the HD derivation that an
    unlocked vault needs of a seed. -/
structure Core where
  prims : Primitives
  restore : Bytes → Except CoreError Phrase
  toSeed : Phrase → Bytes → Seed
  fromSeed : Seed → Except CoreError Unit

def intoSeed (core : Core) (phrase : Phrase) (extraWord : Bytes) : Except CoreError Seed :=
  if (⟨extraWord.toArray⟩ : ByteArray).validateUTF8 then .ok (core.toSeed phrase extraWord)
  else .error .extraWordEncoding

def tuned : SealParams := ⟨192 * 1024, 3, 1⟩

def isAsciiDigit (b : UInt8) : Bool := decide (48 ≤ b ∧ b ≤ 57)

/-- Ten codes of one digit and the runs in either direction. -/
def isTriviallyGuessablePin (pin : Bytes) : Bool :=
  if pin.length < 2 ∨ ¬ pin.all isAsciiDigit then false
  else
    let pairs := pin.zip pin.tail
    pairs.all (fun (a, b) => a == b) || pairs.all (fun (a, b) => b.toNat == a.toNat + 1) ||
      pairs.all fun (a, b) => a.toNat == b.toNat + 1

def refuseUnsafePin (kind : InputKind) (secret : Bytes) (pepperPresent : Bool) :
    Except AppError Unit :=
  if kind = .digits ∧ isTriviallyGuessablePin secret = true then
    .error (.msg ("that PIN is one of the first anyone would try — pick digits that are not all the " ++
      "same and not in a row"))
  else if kind = .digits ∧ pepperPresent = false then
    .error (.msg ("this phone cannot hardware-bind the vault, so a 6-digit PIN cannot be used here — " ++
      "choose a passphrase instead"))
  else .ok ()

/-- The vault's directory: file contents by inode, and what the blob, its temporary file and the
    lockout file name. -/
structure Files where
  nodes : List Bytes
  blob : Option Nat
  temp : Option Nat
  lockout : Option Bytes

namespace Files

def contents (files : Files) (node : Nat) : Bytes := files.nodes.getD node []

/-- The blob file's bytes. -/
def blobBytes (files : Files) : Option Bytes := files.blob.map files.contents

/-- `File::create`: truncate the temporary file another write left, or make one. -/
def create (files : Files) : Files × Nat :=
  match files.temp with
  | some node => ({ files with nodes := files.nodes.set node [] }, node)
  | none =>
    ({ files with nodes := files.nodes ++ [[]], temp := some files.nodes.length }, files.nodes.length)

/-- Write at an offset of an open file, the gap behind a shorter one read as zeros. -/
def overlay (old : Bytes) (offset : Nat) (bytes : Bytes) : Bytes :=
  old.take offset ++ List.replicate (offset - old.length) 0 ++ bytes ++ old.drop (offset + bytes.length)

def write (files : Files) (node offset : Nat) (bytes : Bytes) : Files :=
  { files with nodes := files.nodes.set node (overlay (files.contents node) offset bytes) }

/-- The rename fails where the temporary file is gone. -/
def rename (files : Files) : Option Files :=
  files.temp.map fun node => { files with blob := some node, temp := none }

def readLockout (files : Files) : Lockout :=
  (files.lockout.bind Lockout.fromBytes).getD .default

def writeLockout (files : Files) (lockout : Lockout) : Files :=
  { files with lockout := some lockout.toBytes }

end Files

/-- An atomic write of the blob in progress: its bytes, its open file, and how far it is. -/
structure Staged where
  bytes : Bytes
  node : Nat
  written : Nat
deriving DecidableEq

/-- The lanes that prove the unlock secret. -/
inductive Lane
  | unlock
  | confirm
  | reseal (next : Bytes) (params : SealParams) (kind : InputKind)
deriving DecidableEq

/-- A call past the lockout gate, with the budget and the clock it read there. -/
structure Attempt where
  lane : Lane
  secret : Bytes
  pepper : Option Bytes
  lockout : Lockout
  now : Nat
deriving DecidableEq

/-- Where the call that holds the unlock gate is. -/
inductive Holder
  | entered (attempt : Attempt)
  | sampled (attempt : Attempt) (epoch : Nat)
  | proving (attempt : Attempt) (epoch : Nat) (blob : Bytes)
  | migrating (attempt : Attempt) (epoch : Nat) (seed : Seed) (fresh : Bytes)
  | migrateStaged (attempt : Attempt) (epoch : Nat) (seed : Seed) (staged : Staged)
  | proven (attempt : Attempt) (epoch : Nat) (seed : Seed)
  | settling (attempt : Attempt)
  | rekeying (attempt : Attempt) (seed : Seed) (fresh : Bytes)
  | rekeyStaged (attempt : Attempt) (seed : Seed) (staged : Staged)
deriving DecidableEq

/-- What a create or a restore was asked. -/
structure Ask where
  passphrase : Bytes
  extraWord : Bytes
  params : SealParams
  kind : InputKind
deriving DecidableEq

/-- A sealed blob on its way to the disk. -/
structure Job where
  seed : Seed
  secret : Bytes
  pepper : Option Bytes
  blob : Bytes
  epoch : Nat
deriving DecidableEq

/-- Where a create or a restore is. -/
inductive Creation
  | asked (ask : Ask)
  | seen (ask : Ask)
  | bound (ask : Ask) (pepper : Option Bytes)
  | sampled (ask : Ask) (pepper : Option Bytes) (epoch : Nat)
  | restoring (ask : Ask) (phrase : Bytes)
  | restoreSampled (ask : Ask) (phrase : Bytes) (epoch : Nat)
  | ready (job : Job)
  | staged (job : Job) (staged : Staged)
  | landed (job : Job)
deriving DecidableEq

/-- Whose blob is on disk: its seed, the secret and pepper it was last sealed under, and the bytes
    that seal made. -/
structure Owner where
  seed : Seed
  secret : Bytes
  pepper : Option Bytes
  blob : Bytes
deriving DecidableEq

/-- The vault process and its files. The last three fields are history, which nothing reads: the
    blob's owner, the seeds whose create or restore reported success, and when each wrong secret
    since the last correct one was tried. -/
structure Session where
  files : Files
  vault : Option Seed
  epoch : Nat
  pepper : Option Bytes
  ceremony : Option Phrase
  gate : Option Holder
  creations : KeyMap Nat Creation
  loads : KeyMap Nat (Seed × Nat)
  now : Nat
  owner : Option Owner
  reported : List Seed
  failures : List Nat

namespace Session

variable (core : Core)

def lockoutGate (files : Files) (now : Nat) : Except AppError Lockout :=
  let lockout := files.readLockout
  match lockout.activeUntil now with
  | some until_ =>
    .error (.msg ("too many attempts — locked out for " ++ toString (until_ - now) ++ " more seconds"))
  | none => .ok lockout

/-- Every refusal before the blob is read: the locked vault, the lockout and the next secret. -/
def refusals (s : Session) (lane : Lane) (secret : Bytes) : Except AppError Attempt :=
  match lane with
  | .unlock => (lockoutGate s.files s.now).map fun lockout => ⟨lane, secret, s.pepper, lockout, s.now⟩
  | .confirm =>
    if s.vault.isNone then .error (.msg "wallet is locked")
    else (lockoutGate s.files s.now).map fun lockout => ⟨lane, secret, s.pepper, lockout, s.now⟩
  | .reseal next params kind =>
    if s.vault.isNone then .error (.msg "wallet is locked")
    else
      (lockoutGate s.files s.now).bind fun lockout =>
        (refuseUnsafePin kind next s.pepper.isSome).bind fun _ =>
          ((checkSealInputs next params kind s.pepper).mapError .core).map fun _ =>
            ⟨lane, secret, s.pepper, lockout, s.now⟩

/-- Take the gate and the pepper. A refusal gives both back empty. -/
def enter (s : Session) (lane : Lane) (secret : Bytes) : Session :=
  match s.refusals lane secret with
  | .error _ => { s with pepper := none }
  | .ok attempt => { s with pepper := none, gate := some (.entered attempt) }

/-- What the secret proved to be, for the budget. A missing binding is no guess. -/
inductive Verdict
  | right
  | unbound
  | wrong
deriving DecidableEq

def verdictOf {α : Type} : Except CoreError α → Verdict
  | .ok _ => .right
  | .error (.deviceBinding _) => .unbound
  | .error _ => .wrong

/-- The budget after an attempt, from the one its gate returned. -/
def settleAttempt (files : Files) (lockout : Lockout) (now : Nat) : Verdict → Files
  | .right => files.writeLockout .default
  | .unbound => files
  | .wrong =>
    let failed := min (lockout.failedAttempts + 1) (2 ^ 32 - 1)
    let delay := lockoutDelaySecs failed
    files.writeLockout
      ⟨failed, if 0 < delay then min (now + delay) (2 ^ 64 - 1) else lockout.lockedUntil⟩

/-- An attempt's history: a wrong secret is one more, a correct one forgets them. -/
def countAttempt (failures : List Nat) (now : Nat) : Verdict → List Nat
  | .right => []
  | .unbound => failures
  | .wrong => failures ++ [now]

/-- Record an attempt as the lane judged it, and in the history as the blob did. -/
def settle (s : Session) (attempt : Attempt) (judged truth : Verdict) (gate : Option Holder) :
    Session :=
  { s with
    files := settleAttempt s.files attempt.lockout attempt.now judged
    failures := countAttempt s.failures attempt.now truth
    gate := gate }

def needsMigration (blob : Bytes) (pepper : Option Bytes) : Bool :=
  match readFacts blob with
  | .ok facts => decide (facts.version < 2) || (!facts.deviceBound && pepper.isSome)
  | .error _ => false

/-- The KDF runs: what the blob says of the secret, and where the lane goes from there. -/
def prove (s : Session) (entropy : Entropy) (attempt : Attempt) (epoch : Nat) (blob : Bytes) :
    Session :=
  let opened := unsealSeed core.prims blob attempt.secret attempt.pepper
  match attempt.lane with
  | .unlock =>
    match opened with
    | .error e => s.settle attempt (verdictOf (.error e : Except CoreError Seed)) (verdictOf opened) none
    | .ok seed =>
      if needsMigration blob attempt.pepper then
        match sealSeed core.prims entropy seed attempt.secret tuned .passphrase attempt.pepper with
        | .error _ => { s with gate := some (.proven attempt epoch seed) }
        | .ok fresh => { s with gate := some (.migrating attempt epoch seed fresh) }
      else { s with gate := some (.proven attempt epoch seed) }
  | .confirm => s.settle attempt (verdictOf opened) (verdictOf opened) none
  | .reseal next params kind =>
    match resealSeed core.prims entropy blob attempt.secret next params kind attempt.pepper with
    | .error e => s.settle attempt (verdictOf (.error e : Except CoreError Bytes)) (verdictOf opened) none
    | .ok fresh =>
      s.settle attempt .right (verdictOf opened) (opened.toOption.map fun seed => .rekeying attempt seed fresh)

/-- What the call's KDF answers its caller. -/
def answer (entropy : Entropy) (attempt : Attempt) (blob : Bytes) : Except CoreError Unit :=
  match attempt.lane with
  | .reseal next params kind =>
    (resealSeed core.prims entropy blob attempt.secret next params kind attempt.pepper).map fun _ => ()
  | _ => (unsealSeed core.prims blob attempt.secret attempt.pepper).map fun _ => ()

/-- Install a vault unless a lock landed since the epoch was sampled. -/
def setVaultIfCurrent (s : Session) (seed : Seed) (epoch : Nat) : Session :=
  if s.epoch = epoch then { s with vault := some seed } else s

/-- What `lock_vault` does under the vault's mutex. Its two drops come later, each under its own. -/
def lockVault (s : Session) : Session :=
  { s with vault := none, epoch := s.epoch + 1 }

structure VaultStatus where
  exists_ : Bool
  unlocked : Bool
  lockedOutUntilUnix : Option Nat
  failedAttempts : Nat
deriving DecidableEq

def isUnlocked (s : Session) : Bool := s.vault.isSome

def currentStatus (s : Session) : VaultStatus :=
  let lockout := s.files.readLockout
  { exists_ := s.files.blob.isSome
    unlocked := s.isUnlocked
    lockedOutUntilUnix := lockout.activeUntil s.now
    failedAttempts := lockout.failedAttempts }

/-- The process dies: the files stay, everything else is gone. -/
def restart (s : Session) : Session :=
  { s with vault := none, epoch := 0, pepper := none, ceremony := none, gate := none,
           creations := ∅, loads := ∅ }

/-- What is written of the blob the next time `n` of its bytes are. -/
def advance (files : Files) (staged : Staged) (n : Nat) : Files × Staged :=
  let piece := (staged.bytes.drop staged.written).take n
  (files.write staged.node staged.written piece, { staged with written := staged.written + piece.length })

def setCreation (s : Session) (id : Nat) (creation : Creation) : Session :=
  { s with creations := s.creations.insert id creation }

def dropCreation (s : Session) (id : Nat) : Session :=
  { s with creations := s.creations.erase id }

/-- The re-seal a create or a restore ends its slow work with, or its refusal. -/
def sealJob (s : Session) (id : Nat) (entropy : Entropy) (ask : Ask) (pepper : Option Bytes)
    (epoch : Nat) (seed : Except CoreError Seed) : Session :=
  match seed with
  | .error _ => s.dropCreation id
  | .ok seed =>
    match sealSeed core.prims entropy seed ask.passphrase ask.params ask.kind pepper with
    | .error _ => s.dropCreation id
    | .ok blob => s.setCreation id (.ready ⟨seed, ask.passphrase, pepper, blob, epoch⟩)

inductive Event
  | tick (now : Nat)
  | installPepper (pepper : Bytes)
  | lock
  /-- what is left of a `lock_vault` that has left the vault's mutex -/
  | dropPepper
  | dropCeremony
  | crash
  | beginCreate (phrase : Phrase)
  | regenerate (phrase : Phrase)
  | abandon
  | askCreate (id : Nat) (ask : Ask)
  | askRestore (id : Nat) (ask : Ask) (phrase : Bytes)
  /-- the next critical section of a create or a restore, up to its seal -/
  | progress (id : Nat) (entropy : Entropy)
  | stageCreation (id : Nat)
  | writeCreation (id n : Nat)
  | renameCreation (id : Nat)
  | failCreation (id : Nat)
  | finishCreation (id : Nat)
  | enter (lane : Lane) (secret : Bytes)
  | sample
  | readBlob
  | prove (entropy : Entropy)
  | stage
  | write (n : Nat)
  | rename
  | failWrite
  | install
  | settle
  | sampleLoad (id : Nat) (seed : Seed)
  | installLoad (id : Nat)

/-- The next critical section of a create or a restore that has not sealed yet. -/
def progress (s : Session) (id : Nat) (entropy : Entropy) : Creation → Option Session
  | .asked ask =>
    some (if s.ceremony.isNone then s.dropCreation id else s.setCreation id (.seen ask))
  | .seen ask =>
    let taken := { s with pepper := none }
    some (match refuseUnsafePin ask.kind ask.passphrase s.pepper.isSome with
      | .error _ => taken.dropCreation id
      | .ok _ => taken.setCreation id (.bound ask s.pepper))
  | .bound ask pepper => some (s.setCreation id (.sampled ask pepper s.epoch))
  | .sampled ask pepper epoch =>
    match s.ceremony with
    | none => some (s.dropCreation id)
    | some phrase =>
      some (sealJob core { s with ceremony := none } id entropy ask pepper epoch
        (intoSeed core phrase ask.extraWord))
  | .restoring ask phrase => some (s.setCreation id (.restoreSampled ask phrase s.epoch))
  | .restoreSampled ask phrase epoch =>
    match (core.restore phrase).bind fun words => intoSeed core words ask.extraWord with
    | .error _ => some (s.dropCreation id)
    | .ok seed =>
      let taken := { s with pepper := none }
      some (match refuseUnsafePin ask.kind ask.passphrase s.pepper.isSome with
        | .error _ => taken.dropCreation id
        | .ok _ => sealJob core taken id entropy ask s.pepper epoch (.ok seed))
  | _ => none

/-- One step of a create or a restore with a sealed blob. -/
def creationStep (s : Session) : Event → Option Session
  | .stageCreation id =>
    match s.creations.lookup id with
    | some (.ready job) =>
      let (files, node) := s.files.create
      some ({ s with files := files }.setCreation id (.staged job ⟨job.blob, node, 0⟩))
    | _ => none
  | .writeCreation id n =>
    match s.creations.lookup id with
    | some (.staged job staged) =>
      let (files, staged) := advance s.files staged n
      some ({ s with files := files }.setCreation id (.staged job staged))
    | _ => none
  | .renameCreation id =>
    match s.creations.lookup id with
    | some (.staged job staged) =>
      if staged.written = staged.bytes.length then
        some (match s.files.rename with
          | none => s.dropCreation id
          | some files =>
            { s with files := files, owner := some ⟨job.seed, job.secret, job.pepper, job.blob⟩ }.setCreation id
              (.landed job))
      else none
    | _ => none
  | .failCreation id =>
    match s.creations.lookup id with
    | some (.ready _) | some (.staged _ _) => some (s.dropCreation id)
    | _ => none
  | .finishCreation id =>
    match s.creations.lookup id with
    | some (.landed job) =>
      some (match core.fromSeed job.seed with
        | .error _ => s.dropCreation id
        | .ok _ =>
          ({ s with reported := job.seed :: s.reported }.setVaultIfCurrent job.seed job.epoch).dropCreation
            id)
    | _ => none
  | _ => none

/-- One step of the call that holds the unlock gate. -/
def holderStep (s : Session) : Event → Option Session
  | .sample =>
    match s.gate with
    | some (.entered attempt) =>
      if attempt.lane = .unlock then some { s with gate := some (.sampled attempt s.epoch) } else none
    | _ => none
  | .readBlob =>
    let read (attempt : Attempt) (epoch : Nat) : Session :=
      match s.files.blobBytes with
      | none => { s with gate := none }
      | some blob => { s with gate := some (.proving attempt epoch blob) }
    match s.gate with
    | some (.entered attempt) => if attempt.lane = .unlock then none else some (read attempt s.epoch)
    | some (.sampled attempt epoch) => some (read attempt epoch)
    | _ => none
  | .prove entropy =>
    match s.gate with
    | some (.proving attempt epoch blob) => some (s.prove core entropy attempt epoch blob)
    | _ => none
  | .stage =>
    let (files, node) := s.files.create
    match s.gate with
    | some (.migrating attempt epoch seed fresh) =>
      some { s with
        files := files, gate := some (.migrateStaged attempt epoch seed ⟨fresh, node, 0⟩) }
    | some (.rekeying attempt seed fresh) =>
      some { s with files := files, gate := some (.rekeyStaged attempt seed ⟨fresh, node, 0⟩) }
    | _ => none
  | .write n =>
    match s.gate with
    | some (.migrateStaged attempt epoch seed staged) =>
      let (files, staged) := advance s.files staged n
      some { s with files := files, gate := some (.migrateStaged attempt epoch seed staged) }
    | some (.rekeyStaged attempt seed staged) =>
      let (files, staged) := advance s.files staged n
      some { s with files := files, gate := some (.rekeyStaged attempt seed staged) }
    | _ => none
  | .rename =>
    match s.gate with
    | some (.migrateStaged attempt epoch seed staged) =>
      if staged.written = staged.bytes.length then
        some (match s.files.rename with
          | none => { s with gate := some (.proven attempt epoch seed) }
          | some files =>
            { s with
              files := files
              owner := some ⟨seed, attempt.secret, attempt.pepper, staged.bytes⟩
              gate := some (.proven attempt epoch seed) })
      else none
    | some (.rekeyStaged attempt seed staged) =>
      match attempt.lane with
      | .reseal next _ _ =>
        if staged.written = staged.bytes.length then
          some (match s.files.rename with
            | none => { s with gate := none }
            | some files =>
              { s with
                files := files
                owner := some ⟨seed, next, attempt.pepper, staged.bytes⟩
                gate := none })
        else none
      | _ => none
    | _ => none
  | .failWrite =>
    match s.gate with
    | some (.migrating attempt epoch seed _) | some (.migrateStaged attempt epoch seed _) =>
      some { s with gate := some (.proven attempt epoch seed) }
    | some (.rekeying _ _ _) | some (.rekeyStaged _ _ _) => some { s with gate := none }
    | _ => none
  | .install =>
    match s.gate with
    | some (.proven attempt epoch seed) =>
      some (match core.fromSeed seed with
        -- the secret was correct, and the budget is not told
        | .error _ => { s with gate := none, failures := [] }
        | .ok _ => { (s.setVaultIfCurrent seed epoch) with gate := some (.settling attempt) })
    | _ => none
  | .settle =>
    match s.gate with
    | some (.settling attempt) => some (s.settle attempt .right .right none)
    | _ => none
  | _ => none

/-- One atomic step of one thread. -/
def step (s : Session) : Event → Option Session
  | .tick now => if s.now ≤ now then some { s with now := now } else none
  | .installPepper pepper =>
    some (if pepper.length = PEPPER_LEN then { s with pepper := some pepper } else s)
  | .lock => some s.lockVault
  | .dropPepper => some { s with pepper := none }
  | .dropCeremony => some { s with ceremony := none }
  | .crash => some s.restart
  | .beginCreate phrase =>
    some (if s.files.blob.isSome ∨ s.ceremony.isSome then s else { s with ceremony := some phrase })
  | .regenerate phrase =>
    some (if s.files.blob.isSome ∨ s.ceremony.isNone then s else { s with ceremony := some phrase })
  | .abandon => some { s with ceremony := none, pepper := none }
  | .askCreate id ask =>
    if id ∈ s.creations then none
    else if ask.extraWord.all (fun b => decide (b < 128)) = false ∨ s.files.blob.isSome then some s
    else some (s.setCreation id (.asked ask))
  | .askRestore id ask phrase =>
    if id ∈ s.creations then none
    else if s.files.blob.isSome then some s
    else some (s.setCreation id (.restoring ask phrase))
  | .progress id entropy => (s.creations.lookup id).bind (s.progress core id entropy)
  | .enter lane secret => if s.gate.isSome then none else some (s.enter lane secret)
  | .sampleLoad id seed =>
    if id ∈ s.loads then none else some { s with loads := s.loads.insert id (seed, s.epoch) }
  | .installLoad id =>
    match s.loads.lookup id with
    | none => none
    | some (seed, epoch) =>
      let left := { s with loads := s.loads.erase id }
      some (match core.fromSeed seed with
        | .error _ => left
        | .ok _ =>
          { (left.setVaultIfCurrent seed epoch) with
            files := s.files.writeLockout .default, failures := [] })
  | .stageCreation id => s.creationStep core (.stageCreation id)
  | .writeCreation id n => s.creationStep core (.writeCreation id n)
  | .renameCreation id => s.creationStep core (.renameCreation id)
  | .failCreation id => s.creationStep core (.failCreation id)
  | .finishCreation id => s.creationStep core (.finishCreation id)
  | event => s.holderStep core event

end Session

end Kaspaverse.Vault
