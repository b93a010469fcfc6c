import Kaspaverse.Library.Bytes

namespace Kaspaverse.Vault

def MAGIC : Bytes := [75, 86, 83, 66]
def VERSION_V1 : UInt8 := 1
def VERSION_V2 : UInt8 := 2
def SCHEME_PATH_B : UInt8 := 2
def HEADER_LEN_V1 : Nat := 58
def HEADER_LEN_V2 : Nat := 60
def SALT_LEN : Nat := 16
def NONCE_LEN : Nat := 24
def SEED_LEN : Nat := 64
def TAG_LEN : Nat := 16
def BLOB_LEN_V1 : Nat := HEADER_LEN_V1 + SEED_LEN + TAG_LEN
def BLOB_LEN : Nat := HEADER_LEN_V2 + SEED_LEN + TAG_LEN
def PEPPER_LEN : Nat := 32
def PIN_LEN : Nat := 6
def KIND_PASSPHRASE : UInt8 := 1
def KIND_DIGITS : UInt8 := 2
def BINDING_NONE : UInt8 := 0
def BINDING_DEVICE : UInt8 := 1
def MIN_M_COST_KIB : Nat := 8 * 1024
def MAX_M_COST_KIB : Nat := 256 * 1024
def MIN_T_COST : Nat := 1
def MAX_T_COST : Nat := 64
def MIN_P_COST : Nat := 1
def MAX_P_COST : Nat := 8

/-- The errors of the custody layer that a vault operation meets. -/
inductive CoreError
  | bip32 (reason : String)
  | wordCount (n : Nat)
  | phraseEncoding
  | extraWordEncoding
  | emptyPassphrase
  | kdf (reason : String)
  | malformedBlob (what : String)
  | blobParamBounds
  | wrongPassphraseOrCorrupt
  | deviceBinding (what : String)
  | sealing
deriving DecidableEq

inductive InputKind
  | passphrase
  | digits
deriving DecidableEq

def InputKind.toByte : InputKind → UInt8
  | passphrase => KIND_PASSPHRASE
  | digits => KIND_DIGITS

def InputKind.fromByte (b : UInt8) : Except CoreError InputKind :=
  if b = KIND_PASSPHRASE then .ok passphrase
  else if b = KIND_DIGITS then .ok digits
  else .error (.malformedBlob "input kind")

structure BlobFacts where
  version : UInt8
  inputKind : InputKind
  deviceBound : Bool
deriving DecidableEq

structure SealParams where
  mCostKib : Nat
  tCost : Nat
  pCost : Nat
deriving DecidableEq

def SealParams.inBounds (params : SealParams) : Bool :=
  decide (MIN_M_COST_KIB ≤ params.mCostKib ∧ params.mCostKib ≤ MAX_M_COST_KIB) &&
    decide (MIN_T_COST ≤ params.tCost ∧ params.tCost ≤ MAX_T_COST) &&
    decide (MIN_P_COST ≤ params.pCost ∧ params.pCost ≤ MAX_P_COST)

def SealParams.checkBounds (params : SealParams) : Except CoreError Unit :=
  if params.inBounds then .ok () else .error .blobParamBounds

abbrev Seed := { bytes : Bytes // bytes.length = SEED_LEN }

/-- One seal's fresh salt and nonce. -/
structure Entropy where
  salt : Bytes
  nonce : Bytes
  salted : salt.length = SALT_LEN
  nonced : nonce.length = NONCE_LEN

/-- Argon2id and XChaCha20-Poly1305: within its bounds the first always answers, and the second
    opens what it encrypted, one tag longer than the message. -/
structure Primitives where
  argon2 : (password salt : Bytes) → SealParams → Except CoreError Bytes
  encrypt : (key nonce aad message : Bytes) → Option Bytes
  decrypt : (key nonce aad ciphertext : Bytes) → Option Bytes
  derives : ∀ password salt params, params.inBounds = true →
    ∃ key, argon2 password salt params = .ok key
  encrypts : ∀ key nonce aad message, ∃ ciphertext, encrypt key nonce aad message = some ciphertext
  tagged : ∀ key nonce aad message ciphertext, encrypt key nonce aad message = some ciphertext →
    ciphertext.length = message.length + TAG_LEN
  opens : ∀ key nonce aad message ciphertext, encrypt key nonce aad message = some ciphertext →
    decrypt key nonce aad ciphertext = some message

variable (prims : Primitives)

/-- The pepper is appended to the password. -/
def deriveKey (passphrase : Bytes) (pepper : Option Bytes) (salt : Bytes) (params : SealParams) :
    Except CoreError Bytes :=
  match pepper with
  | none => prims.argon2 passphrase salt params
  | some pepper => prims.argon2 (passphrase ++ pepper) salt params

def checkPepper : Option Bytes → Except CoreError (Option Bytes)
  | none => .ok none
  | some pepper =>
    if pepper.length = PEPPER_LEN then .ok (some pepper) else .error (.deviceBinding "pepper length")

def buildHeader (params : SealParams) (entropy : Entropy) (kind : InputKind) (deviceBound : Bool) :
    Bytes :=
  MAGIC ++ [VERSION_V2, SCHEME_PATH_B] ++ leBytes 4 params.mCostKib ++ leBytes 4 params.tCost ++
    leBytes 4 params.pCost ++ entropy.salt ++ entropy.nonce ++
    [kind.toByte, if deviceBound then BINDING_DEVICE else BINDING_NONE]

def leU32 (blob : Bytes) (at_ : Nat) : Nat := leValue ((blob.drop at_).take 4)

def parseFacts (headerLen : Nat) (blob : Bytes) : Except CoreError BlobFacts :=
  if headerLen = HEADER_LEN_V1 then .ok ⟨VERSION_V1, .passphrase, false⟩
  else
    (InputKind.fromByte (blob.getD 58 0)).bind fun kind =>
      if blob.getD 59 0 = BINDING_NONE then .ok ⟨VERSION_V2, kind, false⟩
      else if blob.getD 59 0 = BINDING_DEVICE then .ok ⟨VERSION_V2, kind, true⟩
      else .error (.malformedBlob "binding")

/-- A blob's header, for either version: its length, its cost parameters and its plaintext facts. -/
def parseHeader (blob : Bytes) : Except CoreError (Nat × SealParams × BlobFacts) :=
  if blob.length < HEADER_LEN_V1 then .error (.malformedBlob "too short")
  else if blob.take 4 ≠ MAGIC then .error (.malformedBlob "magic")
  else
    let lengths : Except CoreError (Nat × Nat) :=
      if blob.getD 4 0 = VERSION_V1 then .ok (HEADER_LEN_V1, BLOB_LEN_V1)
      else if blob.getD 4 0 = VERSION_V2 then .ok (HEADER_LEN_V2, BLOB_LEN)
      else .error (.malformedBlob "unknown version")
    lengths.bind fun (headerLen, blobLen) =>
      if blob.getD 5 0 ≠ SCHEME_PATH_B then .error (.malformedBlob "unknown scheme")
      else if blob.length ≠ blobLen then .error (.malformedBlob "length")
      else
        let params : SealParams := ⟨leU32 blob 6, leU32 blob 10, leU32 blob 14⟩
        params.checkBounds.bind fun _ =>
          (parseFacts headerLen blob).bind fun facts => .ok (headerLen, params, facts)

def readFacts (blob : Bytes) : Except CoreError BlobFacts :=
  (parseHeader blob).map fun (_, _, facts) => facts

/-- Every refusal a seal can make without a KDF. -/
def checkSealInputs (passphrase : Bytes) (params : SealParams) (kind : InputKind)
    (pepper : Option Bytes) : Except CoreError (Option Bytes) :=
  if passphrase.isEmpty then .error .emptyPassphrase
  else
    params.checkBounds.bind fun _ =>
      (checkPepper pepper).bind fun pepper =>
        if kind = .digits then
          if pepper.isNone then .error (.deviceBinding "a PIN vault needs a device binding")
          else if passphrase.length ≠ PIN_LEN ∨
              ¬ passphrase.all (fun b => decide (48 ≤ b ∧ b ≤ 57)) then
            .error (.malformedBlob "pin shape")
          else .ok pepper
        else .ok pepper

/-- Seal the seed at v2, and open the blob once with the key it was sealed with. -/
def sealSeed (entropy : Entropy) (seed : Seed) (passphrase : Bytes) (params : SealParams)
    (kind : InputKind) (pepper : Option Bytes) : Except CoreError Bytes :=
  (checkSealInputs passphrase params kind pepper).bind fun pepper =>
    let header := buildHeader params entropy kind pepper.isSome
    (deriveKey prims passphrase pepper entropy.salt params).bind fun key =>
      match prims.encrypt key entropy.nonce header seed.val with
      | none => .error .sealing
      | some ciphertext =>
        match prims.decrypt key entropy.nonce header ciphertext with
        | none => .error .sealing
        | some reopened => if reopened ≠ seed.val then .error .sealing else .ok (header ++ ciphertext)

/-- The pepper a blob is opened with: none unless it is device-bound, and then the one offered. -/
def usedPepper (facts : BlobFacts) (offered : Option Bytes) : Except CoreError (Option Bytes) :=
  if facts.deviceBound then
    match offered with
    | none => .error (.deviceBinding "this vault is bound to its phone")
    | some pepper => .ok (some pepper)
  else .ok none

def unsealSeed (blob passphrase : Bytes) (pepper : Option Bytes) : Except CoreError Seed :=
  if passphrase.isEmpty then .error .emptyPassphrase
  else
    (parseHeader blob).bind fun (headerLen, params, facts) =>
      (checkPepper pepper).bind fun offered =>
        (usedPepper facts offered).bind fun pepper =>
          let salt := (blob.drop 18).take SALT_LEN
          let nonce := (blob.drop 34).take NONCE_LEN
          (deriveKey prims passphrase pepper salt params).bind fun key =>
            match prims.decrypt key nonce (blob.take headerLen) (blob.drop headerLen) with
            | none => .error .wrongPassphraseOrCorrupt
            | some plaintext =>
              if sized : plaintext.length = SEED_LEN then .ok ⟨plaintext, sized⟩
              else .error (.malformedBlob "payload length")

/-- Seal under `next` the seed that `current` opens. -/
def resealSeed (entropy : Entropy) (blob current next : Bytes) (params : SealParams)
    (kind : InputKind) (pepper : Option Bytes) : Except CoreError Bytes :=
  (checkSealInputs next params kind pepper).bind fun _ =>
    (unsealSeed prims blob current pepper).bind fun seed =>
      sealSeed prims entropy seed next params kind pepper

section RoundTrip

theorem getD_of_drop {bytes rest : Bytes} {n : Nat} {byte : UInt8} (h : bytes.drop n = byte :: rest) :
    bytes.getD n 0 = byte := by
  have head : bytes[n]? = some byte := by
    have first : (bytes.drop n)[0]? = bytes[n + 0]? := List.getElem?_drop
    rw [h] at first
    exact first.symm
  rw [List.getD_eq_getElem?_getD, head]
  rfl

variable (entropy : Entropy) (params : SealParams) (kind : InputKind) (bound : Bool)
  (ciphertext : Bytes)

theorem length_buildHeader : (buildHeader params entropy kind bound).length = HEADER_LEN_V2 := by
  simp only [buildHeader, List.length_append, length_leBytes, entropy.salted, entropy.nonced]
  rfl

theorem header_drop_salt : (buildHeader params entropy kind bound ++ ciphertext).drop 18 =
    entropy.salt ++ (entropy.nonce ++
      (kind.toByte :: (if bound then BINDING_DEVICE else BINDING_NONE) :: ciphertext)) := by
  have whole : buildHeader params entropy kind bound ++ ciphertext =
      (MAGIC ++ [VERSION_V2, SCHEME_PATH_B] ++ leBytes 4 params.mCostKib ++ leBytes 4 params.tCost ++
        leBytes 4 params.pCost) ++ (entropy.salt ++ (entropy.nonce ++
          (kind.toByte :: (if bound then BINDING_DEVICE else BINDING_NONE) :: ciphertext))) := by
    simp only [buildHeader, List.append_assoc, List.cons_append, List.nil_append]
  rw [whole]
  apply List.drop_left'
  simp only [List.length_append, length_leBytes]
  rfl

theorem header_drop_nonce : (buildHeader params entropy kind bound ++ ciphertext).drop 34 =
    entropy.nonce ++ (kind.toByte :: (if bound then BINDING_DEVICE else BINDING_NONE) :: ciphertext) := by
  have behind := congrArg (List.drop 16)
    (header_drop_salt entropy params kind bound ciphertext)
  rw [List.drop_drop] at behind
  rw [behind]
  exact List.drop_left' entropy.salted

theorem header_drop_kind : (buildHeader params entropy kind bound ++ ciphertext).drop 58 =
    kind.toByte :: (if bound then BINDING_DEVICE else BINDING_NONE) :: ciphertext := by
  have behind := congrArg (List.drop 24)
    (header_drop_nonce entropy params kind bound ciphertext)
  rw [List.drop_drop] at behind
  rw [behind]
  exact List.drop_left' entropy.nonced

theorem fromByte_toByte (kind : InputKind) : InputKind.fromByte kind.toByte = .ok kind := by
  cases kind <;> rfl

theorem parseFacts_built : parseFacts HEADER_LEN_V2 (buildHeader params entropy kind bound ++ ciphertext) =
    .ok ⟨VERSION_V2, kind, bound⟩ := by
  have kinded := getD_of_drop (header_drop_kind entropy params kind bound ciphertext)
  have binding : (buildHeader params entropy kind bound ++ ciphertext).getD 59 0 =
      if bound then BINDING_DEVICE else BINDING_NONE := by
    have behind := congrArg (List.drop 1) (header_drop_kind entropy params kind bound ciphertext)
    rw [List.drop_drop] at behind
    exact getD_of_drop behind
  unfold parseFacts
  rw [if_neg (by decide), kinded, fromByte_toByte, binding]
  cases bound <;> rfl

variable {params ciphertext}

/-- The header a seal writes is the header a parse reads. -/
theorem parseHeader_built (inBounds : params.inBounds = true)
    (sized : ciphertext.length = SEED_LEN + TAG_LEN) :
    parseHeader (buildHeader params entropy kind bound ++ ciphertext) =
      .ok (HEADER_LEN_V2, params, ⟨VERSION_V2, kind, bound⟩) := by
  have length : (buildHeader params entropy kind bound ++ ciphertext).length = BLOB_LEN := by
    rw [List.length_append, length_buildHeader, sized]
    rfl
  have magic : (buildHeader params entropy kind bound ++ ciphertext).take 4 = MAGIC := rfl
  have version : (buildHeader params entropy kind bound ++ ciphertext).getD 4 0 = VERSION_V2 := rfl
  have scheme : (buildHeader params entropy kind bound ++ ciphertext).getD 5 0 = SCHEME_PATH_B := rfl
  have checked : params.checkBounds = .ok () := if_pos inBounds
  simp only [SealParams.inBounds, Bool.and_eq_true, decide_eq_true_eq] at inBounds
  obtain ⟨⟨⟨_, mBound⟩, _, tBound⟩, _, pBound⟩ := inBounds
  simp only [MAX_M_COST_KIB, MAX_T_COST, MAX_P_COST] at mBound tBound pBound
  have mCost : leU32 (buildHeader params entropy kind bound ++ ciphertext) 6 = params.mCostKib :=
    leValue_leBytes (show params.mCostKib < 256 ^ 4 by omega)
  have tCost : leU32 (buildHeader params entropy kind bound ++ ciphertext) 10 = params.tCost :=
    leValue_leBytes (show params.tCost < 256 ^ 4 by omega)
  have pCost : leU32 (buildHeader params entropy kind bound ++ ciphertext) 14 = params.pCost :=
    leValue_leBytes (show params.pCost < 256 ^ 4 by omega)
  unfold parseHeader
  simp only [length, magic, version, scheme, mCost, tCost, pCost]
  rw [if_neg (by decide), if_neg (by simp), if_neg (by decide)]
  simp only [if_true, Except.bind]
  rw [if_neg (by simp), if_neg (by simp), checked, parseFacts_built]

variable {prims} {entropy kind}

theorem checkPepper_ok {pepper checked : Option Bytes} (h : checkPepper pepper = .ok checked) :
    checked = pepper := by
  cases pepper with
  | none =>
    cases h
    rfl
  | some bytes =>
    unfold checkPepper at h
    simp only at h
    split at h
    · cases h
      rfl
    · cases h

/-- What a seal accepted: a secret, bounds, and the pepper it was offered. -/
theorem checkSealInputs_ok {passphrase : Bytes} {pepper checked : Option Bytes}
    (h : checkSealInputs passphrase params kind pepper = .ok checked) :
    passphrase.isEmpty = false ∧ params.inBounds = true ∧ checkPepper pepper = .ok pepper ∧
      checked = pepper := by
  unfold checkSealInputs at h
  split at h
  · cases h
  case isFalse filled =>
    cases bounds : params.checkBounds with
    | error e =>
      rw [bounds] at h
      cases h
    | ok _ =>
      have inBounds : params.inBounds = true := by
        unfold SealParams.checkBounds at bounds
        split at bounds
        · assumption
        · cases bounds
      cases offered : checkPepper pepper with
      | error e =>
        rw [bounds, offered] at h
        cases h
      | ok taken =>
        have same := checkPepper_ok offered
        subst same
        rw [bounds, offered] at h
        simp only [Except.bind] at h
        refine ⟨by simpa using filled, inBounds, rfl, ?_⟩
        split at h
        · split at h
          · cases h
          · split at h
            · cases h
            · cases h
              rfl
        · cases h
          rfl

/-- A seal that returns has sealed one ciphertext under the header it writes. -/
theorem sealSeed_ok {seed : Seed} {passphrase blob : Bytes} {pepper : Option Bytes}
    (h : sealSeed prims entropy seed passphrase params kind pepper = .ok blob) :
    checkSealInputs passphrase params kind pepper = .ok pepper ∧
      ∃ key ciphertext, deriveKey prims passphrase pepper entropy.salt params = .ok key ∧
        prims.encrypt key entropy.nonce (buildHeader params entropy kind pepper.isSome) seed.val =
          some ciphertext ∧
        blob = buildHeader params entropy kind pepper.isSome ++ ciphertext := by
  unfold sealSeed at h
  cases checked : checkSealInputs passphrase params kind pepper with
  | error e =>
    rw [checked] at h
    cases h
  | ok taken =>
    have same := (checkSealInputs_ok checked).2.2.2
    subst same
    rw [checked] at h
    simp only [Except.bind] at h
    split at h
    · cases h
    case h_2 key derived =>
      split at h
      · cases h
      case h_2 ciphertext encrypted =>
        split at h
        · cases h
        · split at h
          · cases h
          · cases h
            exact ⟨rfl, key, ciphertext, derived, encrypted, rfl⟩

/-- A sealed blob opens with the secret and the pepper that sealed it. -/
theorem unsealSeed_sealSeed {seed : Seed} {passphrase blob : Bytes} {pepper : Option Bytes}
    (h : sealSeed prims entropy seed passphrase params kind pepper = .ok blob) :
    unsealSeed prims blob passphrase pepper = .ok seed := by
  obtain ⟨checked, key, ciphertext, derived, encrypted, rfl⟩ := sealSeed_ok h
  obtain ⟨filled, inBounds, offered, _⟩ := checkSealInputs_ok checked
  have sized : ciphertext.length = SEED_LEN + TAG_LEN := by
    rw [prims.tagged _ _ _ _ _ encrypted, seed.property]
  have salt : ((buildHeader params entropy kind pepper.isSome ++ ciphertext).drop 18).take SALT_LEN =
      entropy.salt := by
    rw [header_drop_salt]
    exact List.take_left' entropy.salted
  have nonce : ((buildHeader params entropy kind pepper.isSome ++ ciphertext).drop 34).take NONCE_LEN =
      entropy.nonce := by
    rw [header_drop_nonce]
    exact List.take_left' entropy.nonced
  have header : (buildHeader params entropy kind pepper.isSome ++ ciphertext).take HEADER_LEN_V2 =
      buildHeader params entropy kind pepper.isSome := List.take_left' (length_buildHeader _ _ _ _)
  have behind : (buildHeader params entropy kind pepper.isSome ++ ciphertext).drop HEADER_LEN_V2 =
      ciphertext := List.drop_left' (length_buildHeader _ _ _ _)
  have used : usedPepper ⟨VERSION_V2, kind, pepper.isSome⟩ pepper = .ok pepper := by
    cases pepper <;> rfl
  unfold unsealSeed
  rw [if_neg (by rw [filled]; simp), parseHeader_built _ _ _ inBounds sized]
  simp only [Except.bind, offered, used, salt, nonce, header, behind, derived, prims.opens _ _ _ _ _ encrypted]
  rw [dif_pos seed.property]

/-- Nothing but the inputs a seal checks first can refuse it. -/
theorem sealSeed_checked (prims : Primitives) (entropy : Entropy) (seed : Seed) {passphrase : Bytes}
    {pepper checked : Option Bytes}
    (h : checkSealInputs passphrase params kind pepper = .ok checked) :
    ∃ blob, sealSeed prims entropy seed passphrase params kind pepper = .ok blob := by
  obtain ⟨_, inBounds, _, rfl⟩ := checkSealInputs_ok h
  have derives : ∃ key, deriveKey prims passphrase checked entropy.salt params = .ok key := by
    cases checked with
    | none => exact prims.derives _ _ _ inBounds
    | some pepper => exact prims.derives _ _ _ inBounds
  obtain ⟨key, derived⟩ := derives
  obtain ⟨ciphertext, encrypted⟩ := prims.encrypts key entropy.nonce
    (buildHeader params entropy kind checked.isSome) seed.val
  unfold sealSeed
  rw [h]
  simp only [Except.bind, derived, encrypted, prims.opens _ _ _ _ _ encrypted, ne_eq,
    not_true_eq_false, if_false]
  exact ⟨_, rfl⟩

/-- A re-seal whose next secret is sealable answers as the current one opens. -/
theorem resealSeed_checked (prims : Primitives) (entropy : Entropy) (blob current : Bytes)
    {next : Bytes} {pepper checked : Option Bytes} (h : checkSealInputs next params kind pepper = .ok checked) :
    (∀ e, unsealSeed prims blob current pepper = .error e →
        resealSeed prims entropy blob current next params kind pepper = .error e) ∧
      ∀ seed, unsealSeed prims blob current pepper = .ok seed →
        ∃ fresh, sealSeed prims entropy seed next params kind pepper = .ok fresh ∧
          resealSeed prims entropy blob current next params kind pepper = .ok fresh := by
  unfold resealSeed
  rw [h]
  constructor
  · intro e refused
    simp only [Except.bind, refused]
  · intro seed opened
    obtain ⟨fresh, sealed⟩ := sealSeed_checked prims entropy seed h
    simp only [Except.bind, opened, sealed]
    exact ⟨fresh, rfl, rfl⟩

end RoundTrip

section Binding

variable {prims}

theorem parseHeader_inBounds {blob : Bytes} {headerLen : Nat} {params : SealParams}
    {facts : BlobFacts} (h : parseHeader blob = .ok (headerLen, params, facts)) :
    params.inBounds = true := by
  unfold parseHeader at h
  simp only at h
  split at h
  · cases h
  · split at h
    · cases h
    · simp only [Except.bind] at h
      split at h
      · cases h
      · split at h
        · cases h
        · split at h
          · cases h
          · split at h
            · cases h
            case h_2 checked =>
              split at h
              · cases h
              · cases h
                unfold SealParams.checkBounds at checked
                split at checked
                · assumption
                · cases checked

/-- A missing device binding is a fact of the file and the phone: every secret meets it alike. -/
theorem unsealSeed_binding {blob secret other : Bytes} {pepper : Option Bytes} {what : String}
    (h : unsealSeed prims blob secret pepper = .error (.deviceBinding what))
    (filled : other.isEmpty = false) :
    unsealSeed prims blob other pepper = .error (.deviceBinding what) := by
  unfold unsealSeed at h ⊢
  rw [if_neg (by rw [filled]; simp)]
  split at h
  · cases h
  · cases parsed : parseHeader blob with
    | error e =>
      rw [parsed] at h
      exact h
    | ok shape =>
      obtain ⟨headerLen, params, facts⟩ := shape
      have inBounds := parseHeader_inBounds parsed
      simp only [parsed, Except.bind] at h ⊢
      cases offered : checkPepper pepper with
      | error e =>
        rw [offered] at h
        exact h
      | ok taken =>
        simp only [offered] at h ⊢
        cases used : usedPepper facts taken with
        | error e =>
          rw [used] at h
          exact h
        | ok given =>
          -- past the binding only the key and the tag are left to fail
          exfalso
          simp only [used] at h
          have derives : ∃ key, deriveKey prims secret given ((blob.drop 18).take SALT_LEN) params =
              .ok key := by
            cases given with
            | none => exact prims.derives _ _ _ inBounds
            | some bytes => exact prims.derives _ _ _ inBounds
          obtain ⟨key, derived⟩ := derives
          simp only [derived] at h
          split at h
          · cases h
          · split at h <;> cases h

end Binding

end Kaspaverse.Vault
