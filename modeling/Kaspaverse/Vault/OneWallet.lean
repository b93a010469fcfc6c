import Mathlib
import Kaspaverse.Vault.Budget

namespace Kaspaverse.Vault

section Files

namespace Files

theorem contents_set {files : Files} {node other : Nat} {bytes : Bytes}
    (inside : node < files.nodes.length) :
    ({ files with nodes := files.nodes.set node bytes } : Files).contents other =
      if other = node then bytes else files.contents other := by
  unfold contents
  simp only [List.getD_eq_getElem?_getD]
  by_cases same : other = node
  · subst same
    rw [if_pos rfl, List.getElem?_set_self inside]
    rfl
  · rw [if_neg same, List.getElem?_set_ne (fun h => same h.symm)]

theorem overlay_take {bytes : Bytes} {written n : Nat} (inside : written ≤ bytes.length) :
    overlay (bytes.take written) written ((bytes.drop written).take n) =
      bytes.take (written + ((bytes.drop written).take n).length) := by
  have length : (bytes.take written).length = written := by
    rw [List.length_take, Nat.min_eq_left inside]
  have behind : (bytes.take written).drop (written + ((bytes.drop written).take n).length) = [] := by
    rw [List.drop_eq_nil_iff, length]
    omega
  have piece : (bytes.drop written).take ((bytes.drop written).take n).length =
      (bytes.drop written).take n := by
    rw [List.length_take]
    rcases Nat.le_total n (bytes.drop written).length with short | long
    · rw [Nat.min_eq_left short]
    · rw [Nat.min_eq_right long, List.take_length, List.take_of_length_le long]
  unfold overlay
  rw [length, Nat.sub_self, List.replicate_zero, List.append_nil, behind, List.append_nil,
    List.take_of_length_le (le_of_eq length), List.take_add, piece]

/-- A blob file, a temporary file or neither, each its own. -/
structure Sane (files : Files) : Prop where
  blob : ∀ node, files.blob = some node → node < files.nodes.length
  temp : ∀ node, files.temp = some node → node < files.nodes.length ∧ files.blob ≠ some node

/-- A write of the temporary file that has come as far as it says. -/
def Under (files : Files) (staged : Staged) : Prop :=
  files.temp = some staged.node ∧ files.contents staged.node = staged.bytes.take staged.written ∧
    staged.written ≤ staged.bytes.length

theorem create_truncates {files : Files} {node : Nat} (found : files.temp = some node) :
    files.create = ({ files with nodes := files.nodes.set node [] }, node) := by
  unfold create
  rw [found]

theorem create_grows {files : Files} (free : files.temp = none) :
    files.create =
      ({ files with nodes := files.nodes ++ [[]], temp := some files.nodes.length },
        files.nodes.length) := by
  unfold create
  rw [free]

theorem contents_grown {nodes : List Bytes} {other : Nat} (inside : other < nodes.length) :
    (nodes ++ [[]]).getD other [] = nodes.getD other [] := by
  simp only [List.getD_eq_getElem?_getD]
  rw [List.getElem?_append_left inside]

/-- `File::create` begins a write and leaves the blob. -/
theorem Sane.create {files : Files} (sane : Sane files) (bytes : Bytes) :
    Sane files.create.1 ∧ files.create.1.blob = files.blob ∧
      files.create.1.blobBytes = files.blobBytes ∧ Under files.create.1 ⟨bytes, files.create.2, 0⟩ := by
  rcases Option.eq_none_or_eq_some files.temp with free | ⟨node, found⟩
  · rw [create_grows free]
    refine ⟨⟨?_, ?_⟩, rfl, ?_, rfl, ?_, Nat.zero_le _⟩
    · intro other named
      have inside := sane.blob other named
      show other < (files.nodes ++ [[]]).length
      rw [List.length_append]
      exact Nat.lt_add_right 1 inside
    · intro other named
      cases named
      refine ⟨by simp, ?_⟩
      intro same
      exact absurd (sane.blob _ same) (lt_irrefl _)
    · show files.blob.map _ = files.blob.map _
      cases named : files.blob with
      | none => rfl
      | some other => exact congrArg some (contents_grown (sane.blob other named))
    · show (files.nodes ++ [[]]).getD files.nodes.length [] = bytes.take 0
      simp
  · rw [create_truncates found]
    obtain ⟨inside, apart⟩ := sane.temp node found
    refine ⟨⟨?_, ?_⟩, rfl, ?_, found, ?_, Nat.zero_le _⟩
    · intro other named
      show other < (files.nodes.set _ _).length
      rw [List.length_set]
      exact sane.blob other named
    · intro other named
      show other < (files.nodes.set _ _).length ∧ _
      rw [List.length_set]
      exact sane.temp other named
    · show files.blob.map _ = files.blob.map _
      cases named : files.blob with
      | none => rfl
      | some other =>
        show some (({ files with nodes := files.nodes.set node _ } : Files).contents other) = _
        rw [contents_set inside, if_neg]
        · rfl
        · intro same
          exact apart (by rw [named, same])
    · show ({ files with nodes := files.nodes.set node _ } : Files).contents node = _
      rw [contents_set inside, if_pos rfl, List.take_zero]

/-- A write of the temporary file comes further and leaves the blob. -/
theorem Sane.advance {files : Files} (sane : Sane files) {staged : Staged} (under : Under files staged)
    (n : Nat) :
    Sane (Session.advance files staged n).1 ∧ (Session.advance files staged n).1.blob = files.blob ∧
      (Session.advance files staged n).1.blobBytes = files.blobBytes ∧
      Under (Session.advance files staged n).1 (Session.advance files staged n).2 := by
  obtain ⟨temp, written, inside⟩ := under
  obtain ⟨located, apart⟩ := sane.temp _ temp
  refine ⟨⟨?_, ?_⟩, rfl, ?_, temp, ?_, ?_⟩
  · intro other named
    show other < (files.nodes.set _ _).length
    rw [List.length_set]
    exact sane.blob other named
  · intro other named
    show other < (files.nodes.set _ _).length ∧ _
    rw [List.length_set]
    exact sane.temp other named
  · unfold blobBytes
    show files.blob.map _ = files.blob.map _
    cases named : files.blob with
    | none => rfl
    | some other =>
      show some (({ files with nodes := files.nodes.set staged.node _ } : Files).contents other) = _
      rw [contents_set located, if_neg]
      · rfl
      · intro same
        exact apart (by rw [named, same])
  · show ({ files with nodes := files.nodes.set staged.node _ } : Files).contents staged.node = _
    rw [contents_set located, if_pos rfl, written]
    exact overlay_take inside
  · show staged.written + ((staged.bytes.drop staged.written).take n).length ≤ staged.bytes.length
    rw [List.length_take, List.length_drop]
    omega

/-- The rename of a whole write makes its bytes the blob. -/
theorem Sane.rename {files : Files} (sane : Sane files) {staged : Staged} (under : Under files staged)
    (whole : staged.written = staged.bytes.length) :
    ∃ after, files.rename = some after ∧ Sane after ∧ after.blobBytes = some staged.bytes := by
  obtain ⟨temp, written, _⟩ := under
  refine ⟨{ files with blob := some staged.node, temp := none }, ?_, ⟨?_, ?_⟩, ?_⟩
  · unfold Files.rename
    rw [temp]
    rfl
  · intro node named
    cases named
    exact (sane.temp _ temp).1
  · intro node named
    cases named
  · show some (files.contents staged.node) = some staged.bytes
    rw [written, whole, List.take_length]

end Files

end Files

section Sealed

variable {core : Core}

/-- The bytes open to the seed. -/
def Seals (core : Core) (bytes secret : Bytes) (pepper : Option Bytes) (seed : Seed) : Prop :=
  unsealSeed core.prims bytes secret pepper = .ok seed

instance (core : Core) (bytes secret : Bytes) (pepper : Option Bytes) (seed : Seed) :
    Decidable (Seals core bytes secret pepper seed) :=
  inferInstanceAs (Decidable (unsealSeed core.prims bytes secret pepper = .ok seed))

def Owned (owner : Option Owner) (seed : Seed) : Prop := ∃ o, owner = some o ∧ o.seed = seed

/-- The blob is its owner's, and where nobody owns one no secret opens it. -/
def BlobOf (core : Core) (files : Files) : Option Owner → Prop
  | some o => files.blobBytes = some o.blob ∧ Seals core o.blob o.secret o.pepper o.seed
  | none => ∀ bytes secret pepper seed, files.blobBytes = some bytes → ¬ Seals core bytes secret pepper seed

/-- What the call that holds the gate knows of the blob, and of the one it writes. -/
def HolderOf (core : Core) (files : Files) (owner : Option Owner) : Holder → Prop
  | .proving _ _ blob => files.blobBytes = some blob
  | .migrating attempt _ seed fresh =>
    Seals core fresh attempt.secret attempt.pepper seed ∧ Owned owner seed
  | .migrateStaged attempt _ seed staged =>
    Seals core staged.bytes attempt.secret attempt.pepper seed ∧ Owned owner seed ∧
      Files.Under files staged
  | .rekeying attempt seed fresh =>
    (∀ next params kind, attempt.lane = .reseal next params kind →
      Seals core fresh next attempt.pepper seed) ∧ Owned owner seed
  | .rekeyStaged attempt seed staged =>
    (∀ next params kind, attempt.lane = .reseal next params kind →
      Seals core staged.bytes next attempt.pepper seed) ∧ Owned owner seed ∧ Files.Under files staged
  | _ => True

/-- What a create or a restore knows of the blob it writes or has written. -/
def CreationOf (core : Core) (files : Files) (owner : Option Owner) : Creation → Prop
  | .ready job => Seals core job.blob job.secret job.pepper job.seed
  | .staged job staged =>
    Seals core job.blob job.secret job.pepper job.seed ∧ staged.bytes = job.blob ∧
      files.blob = none ∧ Files.Under files staged
  | .landed job => Owned owner job.seed
  | _ => True

/-- Every write of the blob in progress is of the wallet on disk, or of the first. -/
structure Intact (core : Core) (s : Session) : Prop where
  sane : Files.Sane s.files
  blob : BlobOf core s.files s.owner
  holder : ∀ holder, s.gate = some holder → HolderOf core s.files s.owner holder
  creation : ∀ id creation, s.creations.lookup id = some creation →
    CreationOf core s.files s.owner creation
  alone : ∀ id other job staged job' staged', s.creations.lookup id = some (.staged job staged) →
    s.creations.lookup other = some (.staged job' staged') → id = other
  reported : ∀ seed ∈ s.reported, Owned s.owner seed

/-- A ciphertext opens to one message, whatever key opens it. -/
def Authentic (prims : Primitives) : Prop :=
  ∀ key key' nonce aad ciphertext message message',
    prims.decrypt key nonce aad ciphertext = some message →
      prims.decrypt key' nonce aad ciphertext = some message' → message = message'

theorem unsealSeed_ok {prims : Primitives} {blob secret : Bytes} {pepper : Option Bytes} {seed : Seed}
    (opened : unsealSeed prims blob secret pepper = .ok seed) :
    ∃ headerLen params facts key, parseHeader blob = .ok (headerLen, params, facts) ∧
      prims.decrypt key ((blob.drop 34).take NONCE_LEN) (blob.take headerLen) (blob.drop headerLen) =
        some seed.val := by
  unfold unsealSeed at opened
  split at opened
  · cases opened
  · cases parsed : parseHeader blob with
    | error e =>
      rw [parsed] at opened
      cases opened
    | ok shape =>
      obtain ⟨headerLen, params, facts⟩ := shape
      simp only [parsed, Except.bind] at opened
      split at opened
      · cases opened
      · split at opened
        · cases opened
        · split at opened
          · cases opened
          case h_2 key _ =>
            split at opened
            · cases opened
            case h_2 plaintext decrypted =>
              split at opened
              · cases opened
                exact ⟨headerLen, params, facts, key, rfl, decrypted⟩
              · cases opened

theorem Seals.unique (authentic : Authentic core.prims) {bytes secret other : Bytes}
    {pepper pepper' : Option Bytes} {seed seed' : Seed} (one : Seals core bytes secret pepper seed)
    (another : Seals core bytes other pepper' seed') : seed = seed' := by
  obtain ⟨headerLen, params, facts, key, parsed, opened⟩ := unsealSeed_ok one
  obtain ⟨headerLen', params', facts', key', parsed', opened'⟩ := unsealSeed_ok another
  rw [parsed] at parsed'
  cases parsed'
  exact Subtype.ext (authentic _ _ _ _ _ _ _ opened opened')

theorem BlobOf.opened (authentic : Authentic core.prims) {files : Files} {owner : Option Owner}
    (blob : BlobOf core files owner) {bytes secret : Bytes} {pepper : Option Bytes} {seed : Seed}
    (found : files.blobBytes = some bytes) (opens : Seals core bytes secret pepper seed) :
    Owned owner seed := by
  cases owner with
  | none => exact absurd opens (blob bytes secret pepper seed found)
  | some o =>
    obtain ⟨named, sealed⟩ := blob
    rw [named] at found
    cases found
    exact ⟨o, rfl, sealed.unique authentic opens⟩

theorem Owned.blob {files : Files} {owner : Option Owner} {seed : Seed} (owned : Owned owner seed)
    (blob : BlobOf core files owner) : files.blob ≠ none := by
  obtain ⟨o, rfl, _⟩ := owned
  intro gone
  have bytes := blob.1
  unfold Files.blobBytes at bytes
  rw [gone] at bytes
  cases bytes

theorem Owned.unique {owner : Option Owner} {seed seed' : Seed} (one : Owned owner seed)
    (another : Owned owner seed') : seed = seed' := by
  obtain ⟨o, rfl, rfl⟩ := one
  obtain ⟨o', same, rfl⟩ := another
  cases same
  rfl

theorem BlobOf.frame {files other : Files} {owner : Option Owner} (bytes : other.blobBytes = files.blobBytes)
    (blob : BlobOf core files owner) : BlobOf core other owner := by
  cases owner with
  | none =>
    show ∀ _, _
    rw [bytes]
    exact blob
  | some o => exact ⟨bytes.trans blob.1, blob.2⟩

theorem HolderOf.frame {files other : Files} {owner : Option Owner} {holder : Holder}
    (bytes : other.blobBytes = files.blobBytes)
    (under : ∀ seed staged, Owned owner seed → Files.Under files staged → Files.Under other staged)
    (known : HolderOf core files owner holder) : HolderOf core other owner holder := by
  cases holder with
  | entered | sampled | proven | settling => exact True.intro
  | proving attempt epoch blob => exact bytes.trans known
  | migrating | rekeying => exact known
  | migrateStaged attempt epoch seed staged =>
    exact ⟨known.1, known.2.1, under _ _ known.2.1 known.2.2⟩
  | rekeyStaged attempt seed staged => exact ⟨known.1, known.2.1, under _ _ known.2.1 known.2.2⟩

theorem CreationOf.frame {files other : Files} {owner : Option Owner} {creation : Creation}
    (unstaged : ∀ job staged, creation = .staged job staged → files.blob ≠ none)
    (known : CreationOf core files owner creation) : CreationOf core other owner creation := by
  cases creation with
  | asked | seen | bound | sampled | restoring | restoreSampled => exact True.intro
  | ready job => exact known
  | landed job => exact known
  | staged job staged => exact absurd known.2.2.1 (unstaged job staged rfl)

theorem Intact.unowned {s : Session} (intact : Intact core s) (free : s.files.blob = none) : s.owner = none := by
  cases named : s.owner with
  | none => rfl
  | some o =>
    have owned : Owned s.owner o.seed := ⟨o, named, rfl⟩
    exact absurd free (owned.blob intact.blob)

end Sealed

namespace Session

variable {core : Core} {s after : Session}

section Quiet

/-- A step leaves the invariant, and the wallet to its owner. -/
structure Keeps (core : Core) (s after : Session) : Prop where
  intact : Intact core after
  owned : ∀ seed, Owned s.owner seed → Owned after.owner seed

/-- A step that writes nothing of the blob. -/
theorem Keeps.quiet (intact : Intact core s)
    (files : ∃ lockout, after.files = { s.files with lockout := lockout })
    (owner : after.owner = s.owner)
    (holder : ∀ holder, after.gate = some holder → HolderOf core s.files s.owner holder)
    (creation : ∀ id creation, after.creations.lookup id = some creation →
      CreationOf core s.files s.owner creation)
    (staged : ∀ id job staged, after.creations.lookup id = some (.staged job staged) →
      s.creations.lookup id = some (.staged job staged))
    (reported : ∀ seed ∈ after.reported, Owned s.owner seed) : Keeps core s after := by
  obtain ⟨lockout, files⟩ := files
  refine ⟨⟨?_, ?_, ?_, ?_, ?_, ?_⟩, ?_⟩
  · rw [files]
    exact ⟨intact.sane.blob, intact.sane.temp⟩
  · rw [files, owner]
    have blob := intact.blob
    cases named : s.owner with
    | none =>
      rw [named] at blob
      exact blob
    | some o =>
      rw [named] at blob
      exact blob
  · intro held found
    have known := holder held found
    rw [files, owner]
    cases held <;> exact known
  · intro id made found
    have known := creation id made found
    rw [files, owner]
    cases made <;> exact known
  · intro id other job one job' two found found'
    exact intact.alone id other job one job' two (staged _ _ _ found) (staged _ _ _ found')
  · rw [owner]
    exact reported
  · rw [owner]
    exact fun _ owned => owned

theorem Keeps.hold (intact : Intact core s) {held : Option Holder}
    (holder : ∀ holder, held = some holder → HolderOf core s.files s.owner holder) :
    Keeps core s { s with gate := held } :=
  Keeps.quiet intact ⟨_, rfl⟩ rfl holder intact.creation (fun _ _ _ found => found) intact.reported

theorem Keeps.drop (intact : Intact core s) (files : after.files = s.files)
    (owner : after.owner = s.owner) (gate : after.gate = s.gate) (id : Nat)
    (creations : after.creations = s.creations.erase id)
    (reported : ∀ seed ∈ after.reported, Owned s.owner seed) : Keeps core s after := by
  apply Keeps.quiet intact ⟨_, files⟩ owner
  · rw [gate]
    exact intact.holder
  · rw [creations]
    intro other made found
    exact intact.creation other made (KeyMap.lookup_erase_some.mp found).2
  · rw [creations]
    intro other job staged found
    exact (KeyMap.lookup_erase_some.mp found).2
  · exact reported

theorem Keeps.set (intact : Intact core s) (files : after.files = s.files)
    (owner : after.owner = s.owner) (gate : after.gate = s.gate) (reported : after.reported = s.reported)
    {id : Nat} {creation : Creation} (creations : after.creations = s.creations.insert id creation)
    (known : CreationOf core s.files s.owner creation)
    (unstaged : ∀ job staged, creation ≠ .staged job staged) : Keeps core s after := by
  apply Keeps.quiet intact ⟨_, files⟩ owner
  · rw [gate]
    exact intact.holder
  · rw [creations]
    intro other made found
    rcases KeyMap.lookup_insert_some.mp found with ⟨_, rfl⟩ | ⟨_, before⟩
    · exact known
    · exact intact.creation other made before
  · rw [creations]
    intro other job staged found
    rcases KeyMap.lookup_insert_some.mp found with ⟨_, same⟩ | ⟨_, before⟩
    · exact absurd same (unstaged job staged)
    · exact before
  · rw [reported]
    exact intact.reported

theorem Keeps.sealJob (intact : Intact core s) (taken : Session) (files : taken.files = s.files)
    (owner : taken.owner = s.owner) (gate : taken.gate = s.gate)
    (creations : taken.creations = s.creations) (reported : taken.reported = s.reported) (id : Nat)
    (entropy : Entropy) (ask : Ask) (pepper : Option Bytes) (epoch : Nat)
    (seed : Except CoreError Seed) :
    Keeps core s (sealJob core taken id entropy ask pepper epoch seed) := by
  have dropped : Keeps core s (taken.dropCreation id) := by
    apply @Keeps.drop core s (taken.dropCreation id) intact files owner gate id
    · show taken.creations.erase id = _
      rw [creations]
    · show ∀ seed ∈ taken.reported, _
      rw [reported]
      exact intact.reported
  unfold Session.sealJob
  cases seed with
  | error e => exact dropped
  | ok seed =>
    simp only
    split
    · exact dropped
    case h_2 blob sealed =>
      apply @Keeps.set core s (taken.setCreation id (.ready ⟨seed, ask.passphrase, pepper, blob, epoch⟩))
        intact files owner gate reported id
      · show taken.creations.insert id _ = _
        rw [creations]
      · exact unsealSeed_sealSeed sealed
      · exact fun _ _ same => nomatch same

theorem progress_keeps (intact : Intact core s) {id : Nat} {entropy : Entropy} {creation : Creation}
    (happens : s.progress core id entropy creation = some after) : Keeps core s after := by
  unfold progress at happens
  split at happens
  · cases happens
    split
    · exact Keeps.drop intact rfl rfl rfl id rfl intact.reported
    · exact Keeps.set intact rfl rfl rfl rfl rfl True.intro (fun _ _ same => nomatch same)
  · cases happens
    split
    · exact Keeps.drop intact rfl rfl rfl id rfl intact.reported
    · exact Keeps.set intact rfl rfl rfl rfl rfl True.intro (fun _ _ same => nomatch same)
  · cases happens
    exact Keeps.set intact rfl rfl rfl rfl rfl True.intro (fun _ _ same => nomatch same)
  · split at happens
    · cases happens
      exact Keeps.drop intact rfl rfl rfl id rfl intact.reported
    · cases happens
      exact Keeps.sealJob intact { s with ceremony := none } rfl rfl rfl rfl rfl id entropy _ _ _ _
  · cases happens
    exact Keeps.set intact rfl rfl rfl rfl rfl True.intro (fun _ _ same => nomatch same)
  · split at happens
    · cases happens
      exact Keeps.drop intact rfl rfl rfl id rfl intact.reported
    · cases happens
      split
      · exact Keeps.drop intact rfl rfl rfl id rfl intact.reported
      · exact Keeps.sealJob intact { s with pepper := none } rfl rfl rfl rfl rfl id entropy _ _ _ _
  · cases happens

theorem resealSeed_ok {prims : Primitives} {entropy : Entropy} {blob current next fresh : Bytes}
    {params : SealParams} {kind : InputKind} {pepper : Option Bytes}
    (resealed : resealSeed prims entropy blob current next params kind pepper = .ok fresh) :
    ∃ seed, unsealSeed prims blob current pepper = .ok seed ∧
      sealSeed prims entropy seed next params kind pepper = .ok fresh := by
  unfold resealSeed at resealed
  cases checked : checkSealInputs next params kind pepper with
  | error e =>
    rw [checked] at resealed
    cases resealed
  | ok taken =>
    cases opened : unsealSeed prims blob current pepper with
    | error e =>
      rw [checked, opened] at resealed
      cases resealed
    | ok seed =>
      rw [checked, opened] at resealed
      exact ⟨seed, rfl, resealed⟩

theorem settle_files (s : Session) (attempt : Attempt) (judged truth : Verdict) (gate : Option Holder) :
    ∃ lockout, (s.settle attempt judged truth gate).files = { s.files with lockout := lockout } := by
  cases judged <;> exact ⟨_, rfl⟩

theorem Keeps.settle (intact : Intact core s) {attempt : Attempt} {judged truth : Verdict}
    {gate : Option Holder}
    (holder : ∀ holder, gate = some holder → HolderOf core s.files s.owner holder) :
    Keeps core s (s.settle attempt judged truth gate) :=
  Keeps.quiet intact (settle_files s attempt judged truth gate) rfl holder intact.creation
    (fun _ _ _ found => found) intact.reported

/-- A proof opens the wallet on disk or none, and seals no other. -/
theorem prove_keeps (authentic : Authentic core.prims) (intact : Intact core s) (entropy : Entropy)
    {attempt : Attempt} {epoch : Nat} {blob : Bytes}
    (proving : s.gate = some (.proving attempt epoch blob)) :
    Keeps core s (s.prove core entropy attempt epoch blob) := by
  have onDisk : s.files.blobBytes = some blob := intact.holder _ proving
  have owned : ∀ seed, unsealSeed core.prims blob attempt.secret attempt.pepper = .ok seed →
      Owned s.owner seed := fun _ opened => intact.blob.opened authentic onDisk opened
  have idle : ∀ holder, (none : Option Holder) = some holder → HolderOf core s.files s.owner holder :=
    fun _ found => nomatch found
  have proven : ∀ seed, Keeps core s { s with gate := some (.proven attempt epoch seed) } := by
    intro seed
    apply Keeps.hold intact
    rintro holder ⟨⟩
    exact True.intro
  unfold Session.prove
  cases lane : attempt.lane with
  | unlock =>
    cases opened : unsealSeed core.prims blob attempt.secret attempt.pepper with
    | error e =>
      simp only
      exact Keeps.settle intact idle
    | ok seed =>
      simp only
      split
      · split
        · exact proven seed
        case h_2 fresh sealed =>
          apply Keeps.hold intact
          rintro holder ⟨⟩
          exact ⟨unsealSeed_sealSeed sealed, owned seed opened⟩
      · exact proven seed
  | confirm =>
    simp only
    exact Keeps.settle intact idle
  | reseal next params kind =>
    simp only
    split
    · exact Keeps.settle intact idle
    case h_2 fresh resealed =>
      obtain ⟨seed, opened, sealed⟩ := resealSeed_ok resealed
      rw [opened]
      apply Keeps.settle intact
      rintro holder ⟨⟩
      refine ⟨?_, owned seed opened⟩
      intro named _ _ same
      rw [lane] at same
      cases same
      exact unsealSeed_sealSeed sealed

theorem setVaultIfCurrent_alike (s : Session) (seed : Seed) (epoch : Nat) :
    ∃ vault, s.setVaultIfCurrent seed epoch = { s with vault := vault } := by
  unfold setVaultIfCurrent
  split <;> exact ⟨_, rfl⟩

end Quiet

section Writes

/-- A create's or a restore's write goes on while no blob is on disk and no other is writing. -/
theorem Keeps.writeCreation (intact : Intact core s) {files : Files} (sane : Files.Sane files)
    (blob : files.blob = s.files.blob) (bytes : files.blobBytes = s.files.blobBytes)
    (free : s.files.blob = none) {id : Nat} {job : Job} {staged : Staged}
    (known : Seals core job.blob job.secret job.pepper job.seed) (writes : staged.bytes = job.blob)
    (under : Files.Under files staged)
    (only : ∀ other job staged, other ≠ id → s.creations.lookup other ≠ some (.staged job staged)) :
    Keeps core s ({ s with files := files }.setCreation id (.staged job staged)) := by
  have unowned := intact.unowned free
  refine ⟨⟨sane, intact.blob.frame bytes, ?_, ?_, ?_, intact.reported⟩, fun _ owned => owned⟩
  · intro held found
    apply (intact.holder held found).frame bytes
    rintro seed _ ⟨o, named, _⟩
    rw [unowned] at named
    cases named
  · intro other made found
    rcases KeyMap.lookup_insert_some.mp found with ⟨_, rfl⟩ | ⟨apart, before⟩
    · exact ⟨known, writes, blob.trans free, under⟩
    · apply (intact.creation other made before).frame
      rintro job' staged' rfl
      exact absurd before (only other job' staged' apart)
  · intro one two job₁ staged₁ job₂ staged₂ found₁ found₂
    have named : ∀ other job' staged', (s.creations.insert id (.staged job staged)).lookup other =
        some (.staged job' staged') → other = id := by
      intro other job' staged' found
      rcases KeyMap.lookup_insert_some.mp found with ⟨same, _⟩ | ⟨apart, before⟩
      · exact same
      · exact absurd before (only other job' staged' apart)
    rw [named one job₁ staged₁ found₁, named two job₂ staged₂ found₂]

theorem Keeps.writeHeld (intact : Intact core s) {files : Files} (sane : Files.Sane files)
    (bytes : files.blobBytes = s.files.blobBytes) {seed : Seed} (owned : Owned s.owner seed)
    {held : Holder} (known : HolderOf core files s.owner held) :
    Keeps core s { s with files := files, gate := some held } := by
  refine ⟨⟨sane, intact.blob.frame bytes, ?_, ?_, intact.alone, intact.reported⟩, fun _ h => h⟩
  · rintro _ ⟨⟩
    exact known
  · intro other made found
    apply (intact.creation other made found).frame
    intro _ _ _
    exact owned.blob intact.blob

/-- The first wallet lands. -/
theorem Keeps.land (intact : Intact core s) {files : Files} (sane : Files.Sane files) {id : Nat}
    {job : Job} {staged : Staged} (writing : s.creations.lookup id = some (.staged job staged))
    (bytes : files.blobBytes = some staged.bytes) :
    Keeps core s ({ s with
      files := files, owner := some ⟨job.seed, job.secret, job.pepper, job.blob⟩ }.setCreation id
        (.landed job)) := by
  obtain ⟨known, writes, free, _⟩ := intact.creation id _ writing
  have unowned := intact.unowned free
  have nobody : ∀ seed, ¬ Owned s.owner seed := by
    rintro seed ⟨o, named, _⟩
    rw [unowned] at named
    cases named
  have empty : s.files.blobBytes = none := by
    unfold Files.blobBytes
    rw [free]
    rfl
  refine ⟨⟨sane, ⟨bytes.trans (congrArg some writes), known⟩, ?_, ?_, ?_, ?_⟩, ?_⟩
  · intro held found
    have before := intact.holder held found
    cases held with
    | entered | sampled | proven | settling => exact True.intro
    | proving attempt epoch blob =>
      have read : s.files.blobBytes = some blob := before
      rw [empty] at read
      cases read
    | migrating | rekeying => exact absurd before.2 (nobody _)
    | migrateStaged | rekeyStaged => exact absurd before.2.1 (nobody _)
  · intro other made found
    rcases KeyMap.lookup_insert_some.mp found with ⟨_, rfl⟩ | ⟨apart, before⟩
    · exact ⟨_, rfl, rfl⟩
    · have known' := intact.creation other made before
      cases made with
      | asked | seen | bound | sampled | restoring | restoreSampled => exact True.intro
      | ready job' => exact known'
      | landed job' => exact absurd known' (nobody _)
      | staged job' staged' =>
        exact absurd (intact.alone other id job' staged' job staged before writing) apart
  · intro one two job₁ staged₁ job₂ staged₂ found₁ found₂
    rcases KeyMap.lookup_insert_some.mp found₁ with ⟨_, same⟩ | ⟨apart, before⟩
    · cases same
    · exact absurd (intact.alone one id job₁ staged₁ job staged before writing) apart
  · intro seed told
    exact absurd (intact.reported seed told) (nobody seed)
  · intro seed owned
    exact absurd owned (nobody seed)

/-- The gate holder puts the same wallet in place of its blob. -/
theorem Keeps.replace (intact : Intact core s) {files : Files} (sane : Files.Sane files) {o : Owner}
    (owned : Owned s.owner o.seed) (bytes : files.blobBytes = some o.blob)
    (opens : Seals core o.blob o.secret o.pepper o.seed) {held : Option Holder}
    (known : ∀ holder, held = some holder → HolderOf core files (some o) holder) :
    Keeps core s { s with files := files, owner := some o, gate := held } := by
  have passes : ∀ seed, Owned s.owner seed → Owned (some o) seed := by
    intro seed other
    rw [other.unique owned]
    exact ⟨o, rfl, rfl⟩
  refine ⟨⟨sane, ⟨bytes, opens⟩, known, ?_, intact.alone, ?_⟩, passes⟩
  · intro other made found
    have before := intact.creation other made found
    cases made with
    | asked | seen | bound | sampled | restoring | restoreSampled => exact True.intro
    | ready job => exact before
    | landed job => exact passes _ before
    | staged job staged => exact absurd before.2.2.1 (owned.blob intact.blob)
  · intro seed told
    exact passes seed (intact.reported seed told)

end Writes

section Steps

/-- A create or a restore begins its write of the blob with none on disk and no other writing one. -/
def WritesAlone (s : Session) (event : Event) : Prop :=
  ∀ id, event = .stageCreation id → s.files.blob = none ∧
    ∀ other job staged, s.creations.lookup other ≠ some (.staged job staged)

theorem creationStep_keeps (intact : Intact core s) {event : Event} (alone : WritesAlone s event)
    (happens : s.creationStep core event = some after) : Keeps core s after := by
  unfold creationStep at happens
  split at happens
  case h_1 id =>
    split at happens
    case h_1 job ready =>
      cases happens
      obtain ⟨free, only⟩ := alone id rfl
      obtain ⟨sane, blob, bytes, under⟩ := intact.sane.create job.blob
      exact Keeps.writeCreation intact sane blob bytes free (intact.creation id _ ready) rfl under
        (fun other job staged _ => only other job staged)
    · cases happens
  case h_2 id n =>
    split at happens
    case h_1 job staged writing =>
      cases happens
      obtain ⟨known, writes, free, under⟩ := intact.creation id _ writing
      obtain ⟨sane, blob, bytes, under⟩ := intact.sane.advance under n
      refine Keeps.writeCreation intact sane blob bytes free known writes under ?_
      intro other job' staged' apart before
      exact apart (intact.alone other id job' staged' job staged before writing)
    · cases happens
  case h_3 id =>
    split at happens
    case h_1 job staged writing =>
      split at happens
      case isTrue whole =>
        cases happens
        obtain ⟨files, renamed, sane, bytes⟩ :=
          intact.sane.rename (intact.creation id _ writing).2.2.2 whole
        rw [renamed]
        exact Keeps.land intact sane writing bytes
      · cases happens
    · cases happens
  case h_4 id =>
    split at happens
    case h_3 => cases happens
    all_goals
      cases happens
      exact Keeps.drop intact rfl rfl rfl id rfl intact.reported
  case h_5 id =>
    split at happens
    case h_1 job landed =>
      cases happens
      have owned : Owned s.owner job.seed := intact.creation id _ landed
      split
      · exact Keeps.drop intact rfl rfl rfl id rfl intact.reported
      · obtain ⟨vault, same⟩ := setVaultIfCurrent_alike { s with reported := job.seed :: s.reported }
          job.seed job.epoch
        rw [same]
        refine Keeps.drop intact rfl rfl rfl id rfl ?_
        intro seed told
        rcases List.mem_cons.mp told with rfl | before
        · exact owned
        · exact intact.reported seed before
    · cases happens
  case h_6 => cases happens

theorem holderStep_keeps (authentic : Authentic core.prims) (intact : Intact core s) {event : Event}
    (happens : s.holderStep core event = some after) : Keeps core s after := by
  have idle : ∀ holder, (none : Option Holder) = some holder → HolderOf core s.files s.owner holder :=
    fun _ found => by cases found
  unfold holderStep at happens
  split at happens
  case h_1 =>
    split at happens
    · split at happens
      · cases happens
        apply Keeps.hold intact
        rintro holder ⟨⟩
        exact True.intro
      · cases happens
    · cases happens
  case h_2 =>
    have reads : ∀ attempt epoch blob, s.files.blobBytes = some blob →
        Keeps core s { s with gate := some (.proving attempt epoch blob) } := by
      intro attempt epoch blob found
      apply Keeps.hold intact
      rintro holder ⟨⟩
      exact found
    simp only at happens
    split at happens
    · split at happens
      · cases happens
      · cases happens
        split
        · exact Keeps.hold intact idle
        case h_2 found => exact reads _ _ _ found
    · cases happens
      split
      · exact Keeps.hold intact idle
      case h_2 found => exact reads _ _ _ found
    · cases happens
  case h_3 entropy =>
    split at happens
    case h_1 attempt epoch blob proving =>
      cases happens
      exact prove_keeps authentic intact entropy proving
    · cases happens
  case h_4 =>
    simp only at happens
    split at happens
    case h_1 attempt epoch seed fresh migrating =>
      cases happens
      obtain ⟨opens, owned⟩ := intact.holder _ migrating
      obtain ⟨sane, _, bytes, under⟩ := intact.sane.create fresh
      exact Keeps.writeHeld intact sane bytes owned ⟨opens, owned, under⟩
    case h_2 attempt seed fresh rekeying =>
      cases happens
      obtain ⟨opens, owned⟩ := intact.holder _ rekeying
      obtain ⟨sane, _, bytes, under⟩ := intact.sane.create fresh
      exact Keeps.writeHeld intact sane bytes owned ⟨opens, owned, under⟩
    · cases happens
  case h_5 n =>
    split at happens
    case h_1 attempt epoch seed staged writing =>
      cases happens
      obtain ⟨opens, owned, under⟩ := intact.holder _ writing
      obtain ⟨sane, _, bytes, under⟩ := intact.sane.advance under n
      exact Keeps.writeHeld intact sane bytes owned ⟨opens, owned, under⟩
    case h_2 attempt seed staged writing =>
      cases happens
      obtain ⟨opens, owned, under⟩ := intact.holder _ writing
      obtain ⟨sane, _, bytes, under⟩ := intact.sane.advance under n
      exact Keeps.writeHeld intact sane bytes owned ⟨opens, owned, under⟩
    · cases happens
  case h_6 =>
    split at happens
    case h_1 attempt epoch seed staged writing =>
      split at happens
      case isTrue whole =>
        cases happens
        obtain ⟨opens, owned, under⟩ := intact.holder _ writing
        obtain ⟨files, renamed, sane, bytes⟩ := intact.sane.rename under whole
        rw [renamed]
        apply @Keeps.replace core s intact files sane ⟨seed, attempt.secret, attempt.pepper, staged.bytes⟩
          owned bytes opens
        rintro holder ⟨⟩
        exact True.intro
      · cases happens
    case h_2 attempt seed staged writing =>
      split at happens
      case h_1 next params kind lane =>
        split at happens
        case isTrue whole =>
          cases happens
          obtain ⟨opens, owned, under⟩ := intact.holder _ writing
          obtain ⟨files, renamed, sane, bytes⟩ := intact.sane.rename under whole
          rw [renamed]
          exact @Keeps.replace core s intact files sane ⟨seed, next, attempt.pepper, staged.bytes⟩
            owned bytes (opens next params kind lane) none (fun _ found => by cases found)
        · cases happens
      · cases happens
    · cases happens
  case h_7 =>
    have proven : ∀ attempt epoch seed,
        Keeps core s { s with gate := some (.proven attempt epoch seed) } := by
      intro attempt epoch seed
      apply Keeps.hold intact
      rintro holder ⟨⟩
      exact True.intro
    split at happens
    case h_5 => cases happens
    case h_1 | h_2 =>
      cases happens
      exact proven _ _ _
    case h_3 | h_4 =>
      cases happens
      exact Keeps.hold intact idle
  case h_8 =>
    split at happens
    case h_1 attempt epoch seed _ =>
      cases happens
      split
      · exact Keeps.quiet intact ⟨_, rfl⟩ rfl idle intact.creation (fun _ _ _ found => found)
          intact.reported
      · obtain ⟨vault, same⟩ := setVaultIfCurrent_alike s seed epoch
        rw [same]
        refine Keeps.quiet intact ⟨_, rfl⟩ rfl ?_ intact.creation (fun _ _ _ found => found)
          intact.reported
        rintro holder ⟨⟩
        exact True.intro
    · cases happens
  case h_9 =>
    split at happens
    · cases happens
      exact Keeps.settle intact idle
    · cases happens
  case h_10 => cases happens

theorem step_keeps (authentic : Authentic core.prims) (intact : Intact core s) {event : Event}
    (alone : WritesAlone s event) (happens : s.step core event = some after) : Keeps core s after := by
  have still : ∀ vault epoch pepper ceremony loads now, Keeps core s { s with
      vault := vault, epoch := epoch, pepper := pepper, ceremony := ceremony, loads := loads, now := now } :=
    fun _ _ _ _ _ _ => Keeps.quiet intact ⟨_, rfl⟩ rfl intact.holder intact.creation
      (fun _ _ _ found => found) intact.reported
  unfold step at happens
  split at happens
  case h_1 =>
    split at happens
    · cases happens
      exact still _ _ _ _ _ _
    · cases happens
  case h_2 | h_7 | h_8 =>
    cases happens
    split <;> exact still _ _ _ _ _ _
  case h_3 | h_4 | h_5 | h_9 =>
    cases happens
    exact still _ _ _ _ _ _
  case h_6 =>
    cases happens
    exact Keeps.quiet intact ⟨_, rfl⟩ rfl (fun _ found => nomatch found) (fun _ _ found => nomatch found)
      (fun _ _ _ found => nomatch found) intact.reported
  case h_10 | h_11 =>
    split at happens
    · cases happens
    · split at happens
      · cases happens
        exact still _ _ _ _ _ _
      · cases happens
        exact Keeps.set intact rfl rfl rfl rfl rfl True.intro (fun _ _ same => nomatch same)
  case h_12 id entropy =>
    obtain ⟨creation, _, progressed⟩ := Option.bind_eq_some_iff.mp happens
    exact progress_keeps intact progressed
  case h_13 lane secret =>
    split at happens
    · cases happens
    · cases happens
      unfold Session.enter
      split
      · exact still _ _ _ _ _ _
      · refine Keeps.quiet intact ⟨_, rfl⟩ rfl ?_ intact.creation (fun _ _ _ found => found)
          intact.reported
        rintro holder ⟨⟩
        exact True.intro
  case h_14 =>
    split at happens
    · cases happens
    · cases happens
      exact still _ _ _ _ _ _
  case h_15 id =>
    split at happens
    · cases happens
    case h_2 seed epoch _ =>
      cases happens
      split
      · exact still _ _ _ _ _ _
      · obtain ⟨vault, same⟩ := setVaultIfCurrent_alike { s with loads := s.loads.erase id } seed epoch
        rw [same]
        exact Keeps.quiet intact ⟨_, rfl⟩ rfl intact.holder intact.creation
          (fun _ _ _ found => found) intact.reported
  case h_16 | h_17 | h_18 | h_19 | h_20 => exact creationStep_keeps intact alone happens
  case h_21 => exact holderStep_keeps authentic intact happens

end Steps

section Runs

/-- No call is under way. What the disk holds is somebody's wallet or nobody's. -/
structure Begun (core : Core) (s : Session) : Prop where
  idle : s.gate = none
  unmade : s.creations = ∅
  untold : s.reported = []
  sane : Files.Sane s.files
  blob : BlobOf core s.files s.owner

theorem Begun.intact (begun : Begun core s) : Intact core s where
  sane := begun.sane
  blob := begun.blob
  holder := by
    rw [begun.idle]
    exact fun _ found => nomatch found
  creation := by
    rw [begun.unmade]
    exact fun _ _ found => nomatch found
  alone := by
    rw [begun.unmade]
    exact fun _ _ _ _ _ _ found => nomatch found
  reported := by
    rw [begun.untold]
    exact fun _ found => nomatch found

theorem run_keeps (authentic : Authentic core.prims) {final : Session} {events : List Event}
    (intact : Intact core s) (alone : Machine.Meets (step core) WritesAlone s events)
    (happens : Machine.run (step core) s events = some final) : Keeps core s final := by
  have keeps : ∀ before event after, Keeps core s before → WritesAlone before event →
      before.step core event = some after → Keeps core s after := by
    intro before event after kept writes stepped
    have next := step_keeps authentic kept.intact writes stepped
    exact ⟨next.intact, fun seed owned => next.owned seed (kept.owned seed owned)⟩
  exact Machine.run_invariant_meeting keeps ⟨intact, fun _ owned => owned⟩ alone happens

/-- The blob on disk is the last seal of the seed, under that seal's secret. -/
def SealedOnDisk (core : Core) (s : Session) (seed : Seed) : Prop :=
  ∃ o, s.owner = some o ∧ o.seed = seed ∧ s.files.blobBytes = some o.blob ∧
    Seals core o.blob o.secret o.pepper seed ∧
    ∀ secret pepper other, Seals core o.blob secret pepper other → other = seed

theorem sealedOnDisk (authentic : Authentic core.prims) (intact : Intact core s) {seed : Seed}
    (owned : Owned s.owner seed) : SealedOnDisk core s seed := by
  obtain ⟨o, named, rfl⟩ := owned
  have blob := intact.blob
  rw [named] at blob
  obtain ⟨bytes, opens⟩ := blob
  exact ⟨o, named, rfl, bytes, opens, fun _ _ _ another => another.unique authentic opens⟩

section Sample

theorem samplePrimitives_authentic : Authentic samplePrimitives := by
  intro key key' nonce aad ciphertext message message' opened opened'
  change (if _ then _ else _) = _ at opened opened'
  split at opened
  · split at opened'
    · cases opened
      cases opened'
      rfl
    · cases opened'
  · cases opened

def emptySession : Session := sampleSession ⟨[], none, none, none⟩

theorem emptySession_begun : Begun sampleCore emptySession :=
  ⟨rfl, rfl, rfl, ⟨fun _ found => (nomatch found), fun _ found => (nomatch found)⟩,
    fun _ _ _ _ found => (nomatch found)⟩

def sampleAsk : Ask := ⟨[112], [], tuned, .passphrase⟩

def prepareRestore (id : Nat) (phrase : Phrase) : List Event :=
  [.askRestore id sampleAsk phrase, .progress id sampleEntropy, .progress id sampleEntropy]

def writeRestore (id : Nat) : List Event :=
  [.stageCreation id, .writeCreation id BLOB_LEN, .renameCreation id, .finishCreation id]

def changeSecret (next : Bytes) : List Event :=
  [.enter (.reseal next tuned .passphrase) [112], .readBlob, .prove sampleEntropy, .stage, .write BLOB_LEN,
    .rename]

def Creation.isStaged : Creation → Bool
  | .staged _ _ => true
  | _ => false

/-- No blob is on disk, and nobody writes one. -/
def unwritten (s : Session) : Bool :=
  s.files.blob.isNone && s.creations.entries.all fun entry => !Creation.isStaged entry.2

theorem unwritten_alone (h : unwritten s = true) (event : Event) : WritesAlone s event := by
  obtain ⟨free, unstaged⟩ := (Bool.and_eq_true _ _).mp h
  intro id _
  refine ⟨Option.isNone_iff_eq_none.mp free, ?_⟩
  intro other job staged found
  have plain := List.all_eq_true.mp unstaged _ (KeyMap.mem_entries_iff.mpr found)
  cases plain

def secondRestore : List Event :=
  prepareRestore 1 [1] ++ prepareRestore 2 [2] ++ writeRestore 1

end Sample

end Runs

end Session

end Kaspaverse.Vault
