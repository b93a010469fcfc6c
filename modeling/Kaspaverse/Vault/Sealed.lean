import Mathlib.Logic.Encodable.Pi
import Kaspaverse.Vault.Blob

namespace Kaspaverse.Vault

/-- One encryption: the three inputs it is bound to and its message. -/
structure Encryption where
  key : Bytes
  nonce : Bytes
  aad : Bytes
  message : Bytes

def Encryption.run (prims : Primitives) (made : Encryption) : Option Bytes :=
  prims.encrypt made.key made.nonce made.aad made.message

/-- The key derivation is injective, and what was encrypted opens with its own three inputs only and to
    its own message. -/
structure Ideal (prims : Primitives) (made : Encryption → Prop) : Prop where
  injective : ∀ password salt params password' salt' params' key,
    prims.argon2 password salt params = .ok key → prims.argon2 password' salt' params' = .ok key →
      password = password' ∧ salt = salt' ∧ params = params'
  opensOnly : ∀ encryption, made encryption → ∀ ciphertext, encryption.run prims = some ciphertext →
    ∀ key nonce aad message, prims.decrypt key nonce aad ciphertext = some message →
      encryption = ⟨key, nonce, aad, message⟩
  trims : ∀ key nonce aad ciphertext message, prims.decrypt key nonce aad ciphertext = some message →
    ciphertext.length = message.length + TAG_LEN

section Parsing

/-- The bytes of a slice, or a panic. -/
def slice (blob : Bytes) (start stop : Nat) : Option Bytes :=
  if stop ≤ blob.length then some ((blob.drop start).take (stop - start)) else none

def indexedLeU32 (blob : Bytes) (at_ : Nat) : Option Nat :=
  (blob[at_]?).bind fun a => (blob[at_ + 1]?).bind fun b => (blob[at_ + 2]?).bind fun c =>
    (blob[at_ + 3]?).map fun d => leValue [a, b, c, d]

def indexedFacts (headerLen : Nat) (blob : Bytes) : Option (Except CoreError BlobFacts) :=
  if headerLen = HEADER_LEN_V1 then some (.ok ⟨VERSION_V1, .passphrase, false⟩)
  else
    (blob[58]?).bind fun kindByte =>
      match InputKind.fromByte kindByte with
      | .error refused => some (.error refused)
      | .ok kind => (blob[59]?).map fun binding =>
        if binding = BINDING_NONE then .ok ⟨VERSION_V2, kind, false⟩
        else if binding = BINDING_DEVICE then .ok ⟨VERSION_V2, kind, true⟩
        else .error (.malformedBlob "binding")

/-- The rest of the parser, once the version gave the two lengths. -/
def indexedRest (blob : Bytes) (headerLen blobLen : Nat) :
    Option (Except CoreError (Nat × SealParams × BlobFacts)) :=
  (blob[5]?).bind fun scheme =>
    if scheme ≠ SCHEME_PATH_B then some (.error (.malformedBlob "unknown scheme"))
    else if blob.length ≠ blobLen then some (.error (.malformedBlob "length"))
    else
      (indexedLeU32 blob 6).bind fun mCost => (indexedLeU32 blob 10).bind fun tCost =>
        (indexedLeU32 blob 14).bind fun pCost =>
          match SealParams.checkBounds ⟨mCost, tCost, pCost⟩ with
          | .error refused => some (.error refused)
          | .ok _ => (indexedFacts headerLen blob).map fun facts =>
            facts.map fun facts => (headerLen, ⟨mCost, tCost, pCost⟩, facts)

/-- The parser with its reads checked: nothing is a read past the end. -/
def indexedHeader (blob : Bytes) : Option (Except CoreError (Nat × SealParams × BlobFacts)) :=
  if blob.length < HEADER_LEN_V1 then some (.error (.malformedBlob "too short"))
  else
    (slice blob 0 4).bind fun magic =>
      if magic ≠ MAGIC then some (.error (.malformedBlob "magic"))
      else
        (blob[4]?).bind fun version =>
          if version = VERSION_V1 then indexedRest blob HEADER_LEN_V1 BLOB_LEN_V1
          else if version = VERSION_V2 then indexedRest blob HEADER_LEN_V2 BLOB_LEN
          else some (.error (.malformedBlob "unknown version"))

theorem read_inside {blob : Bytes} {i : Nat} (inside : i < blob.length) : blob[i]? = some (blob.getD i 0) := by
  rw [List.getElem?_eq_getElem inside, List.getD_eq_getElem?_getD, List.getElem?_eq_getElem inside]
  rfl

theorem indexedLeU32_inside {blob : Bytes} {at_ : Nat} (inside : at_ + 3 < blob.length) :
    indexedLeU32 blob at_ = some (leU32 blob at_) := by
  have reads : (blob.drop at_).take 4 =
      [blob.getD at_ 0, blob.getD (at_ + 1) 0, blob.getD (at_ + 2) 0, blob.getD (at_ + 3) 0] := by
    apply List.ext_getElem?
    intro i
    have cases : i = 0 ∨ i = 1 ∨ i = 2 ∨ i = 3 ∨ 4 ≤ i := by omega
    rcases cases with rfl | rfl | rfl | rfl | behind
    · simpa using read_inside (show at_ < blob.length by omega)
    · simpa using read_inside (show at_ + 1 < blob.length by omega)
    · simpa using read_inside (show at_ + 2 < blob.length by omega)
    · simpa using read_inside inside
    · rw [List.getElem?_eq_none (by simp; omega), List.getElem?_eq_none (by simpa using behind)]
  unfold indexedLeU32 leU32
  rw [read_inside (show at_ < blob.length by omega), read_inside (show at_ + 1 < blob.length by omega),
    read_inside (show at_ + 2 < blob.length by omega), read_inside inside, reads]
  rfl

theorem indexedFacts_inside {headerLen : Nat} {blob : Bytes}
    (inside : headerLen = HEADER_LEN_V1 ∨ blob.length = BLOB_LEN) :
    indexedFacts headerLen blob = some (parseFacts headerLen blob) := by
  unfold indexedFacts parseFacts
  split
  · rfl
  · rename_i second
    have length : blob.length = 140 := inside.resolve_left second
    rw [read_inside (show 58 < blob.length by omega), read_inside (show 59 < blob.length by omega)]
    simp only [Option.bind_some, Option.map_some]
    cases InputKind.fromByte (blob.getD 58 0) <;> rfl

theorem indexedRest_inside {blob : Bytes} {headerLen blobLen : Nat} (long : 58 ≤ blob.length)
    (known : headerLen = HEADER_LEN_V1 ∨ blobLen = BLOB_LEN) :
    indexedRest blob headerLen blobLen =
      some (if blob.getD 5 0 ≠ SCHEME_PATH_B then .error (.malformedBlob "unknown scheme")
        else if blob.length ≠ blobLen then .error (.malformedBlob "length")
        else
          (SealParams.checkBounds ⟨leU32 blob 6, leU32 blob 10, leU32 blob 14⟩).bind fun _ =>
            (parseFacts headerLen blob).bind fun facts =>
              .ok (headerLen, ⟨leU32 blob 6, leU32 blob 10, leU32 blob 14⟩, facts)) := by
  unfold indexedRest
  rw [read_inside (show 5 < blob.length by omega), indexedLeU32_inside (show 6 + 3 < blob.length by omega),
    indexedLeU32_inside (show 10 + 3 < blob.length by omega),
    indexedLeU32_inside (show 14 + 3 < blob.length by omega)]
  simp only [Option.bind_some]
  split
  · rfl
  · split
    · rfl
    · rename_i sized
      have inside : headerLen = HEADER_LEN_V1 ∨ blob.length = BLOB_LEN := by
        rcases known with first | rfl
        · exact .inl first
        · exact .inr (not_not.1 sized)
      rw [indexedFacts_inside inside]
      cases SealParams.checkBounds ⟨leU32 blob 6, leU32 blob 10, leU32 blob 14⟩ with
      | error refused => rfl
      | ok _ => cases parseFacts headerLen blob <;> rfl

/-- No byte string makes the parser read past its end. -/
theorem indexedHeader_eq (blob : Bytes) : indexedHeader blob = some (parseHeader blob) := by
  unfold indexedHeader parseHeader
  split
  · rfl
  · rename_i long
    have long : 58 ≤ blob.length := Nat.not_lt.1 long
    have magic : slice blob 0 4 = some (blob.take 4) := by
      simp only [slice, List.drop_zero]
      exact if_pos (by omega)
    rw [magic, read_inside (show 4 < blob.length by omega), indexedRest_inside long (.inl rfl),
      indexedRest_inside long (.inr rfl)]
    simp only [Option.bind_some]
    split
    · rfl
    · by_cases first : blob.getD 4 0 = VERSION_V1
      · simp only [first, if_true, Except.bind]
      · by_cases second : blob.getD 4 0 = VERSION_V2
        · have other : ¬ VERSION_V2 = VERSION_V1 := by decide
          simp only [second, other, if_true, if_false, Except.bind]
        · simp only [first, second, if_false, Except.bind]

/-- A structural refusal. -/
def Structural (refused : CoreError) : Prop :=
  (∃ what, refused = .malformedBlob what) ∨ refused = .blobParamBounds

theorem parseFacts_refuses {headerLen : Nat} {blob : Bytes} {refused : CoreError}
    (failed : parseFacts headerLen blob = .error refused) : Structural refused := by
  unfold parseFacts at failed
  split at failed
  · cases failed
  · cases kinded : InputKind.fromByte (blob.getD 58 0) with
    | error other =>
      rw [kinded] at failed
      cases failed
      unfold InputKind.fromByte at kinded
      split at kinded
      · cases kinded
      · split at kinded <;> cases kinded
        exact .inl ⟨_, rfl⟩
    | ok kind =>
      simp only [kinded, Except.bind] at failed
      split at failed
      · cases failed
      · split at failed <;> cases failed
        exact .inl ⟨_, rfl⟩

theorem parseHeader_refuses {blob : Bytes} {refused : CoreError} (failed : parseHeader blob = .error refused) :
    Structural refused := by
  have rest (lengths : Nat × Nat)
      (failed : (if blob.getD 5 0 ≠ SCHEME_PATH_B then .error (.malformedBlob "unknown scheme")
        else if blob.length ≠ lengths.2 then .error (.malformedBlob "length")
        else
          (SealParams.checkBounds ⟨leU32 blob 6, leU32 blob 10, leU32 blob 14⟩).bind fun _ =>
            (parseFacts lengths.1 blob).bind fun facts =>
              (.ok (lengths.1, ⟨leU32 blob 6, leU32 blob 10, leU32 blob 14⟩, facts) :
                Except CoreError (Nat × SealParams × BlobFacts))) = .error refused) : Structural refused := by
    split at failed
    · cases failed
      exact .inl ⟨_, rfl⟩
    · split at failed
      · cases failed
        exact .inl ⟨_, rfl⟩
      · cases bounds : SealParams.checkBounds ⟨leU32 blob 6, leU32 blob 10, leU32 blob 14⟩ with
        | error other =>
          rw [bounds] at failed
          cases failed
          unfold SealParams.checkBounds at bounds
          split at bounds <;> cases bounds
          exact .inr rfl
        | ok _ =>
          cases facts : parseFacts lengths.1 blob with
          | error other =>
            rw [bounds, facts] at failed
            cases failed
            exact parseFacts_refuses facts
          | ok facts' =>
            rw [bounds, facts] at failed
            cases failed
  unfold parseHeader at failed
  simp only at failed
  split at failed
  · cases failed
    exact .inl ⟨_, rfl⟩
  · split at failed
    · cases failed
      exact .inl ⟨_, rfl⟩
    · by_cases first : blob.getD 4 0 = VERSION_V1
      · rw [if_pos first] at failed
        exact rest _ failed
      · rw [if_neg first] at failed
        by_cases second : blob.getD 4 0 = VERSION_V2
        · rw [if_pos second] at failed
          exact rest _ failed
        · rw [if_neg second] at failed
          cases failed
          exact .inl ⟨_, rfl⟩

/-- What the parser accepted. -/
structure Parsed (blob : Bytes) (headerLen : Nat) (params : SealParams) (facts : BlobFacts) : Prop where
  version : (headerLen = HEADER_LEN_V1 ∧ blob.getD 4 0 = VERSION_V1) ∨
    (headerLen = HEADER_LEN_V2 ∧ blob.getD 4 0 = VERSION_V2)
  length : blob.length = headerLen + SEED_LEN + TAG_LEN
  inBounds : params.inBounds = true

theorem parseHeader_parsed {blob : Bytes} {headerLen : Nat} {params : SealParams} {facts : BlobFacts}
    (parsed : parseHeader blob = .ok (headerLen, params, facts)) : Parsed blob headerLen params facts := by
  have inBounds := parseHeader_inBounds parsed
  unfold parseHeader at parsed
  simp only at parsed
  split at parsed
  · cases parsed
  · split at parsed
    · cases parsed
    · by_cases first : blob.getD 4 0 = VERSION_V1
      · simp only [first, if_true, Except.bind] at parsed
        split at parsed
        · cases parsed
        · split at parsed
          · cases parsed
          · rename_i sized
            split at parsed
            · cases parsed
            · split at parsed
              · cases parsed
              · cases parsed
                exact ⟨.inl ⟨rfl, first⟩, not_not.1 sized, inBounds⟩
      · by_cases second : blob.getD 4 0 = VERSION_V2
        · have other : ¬ VERSION_V2 = VERSION_V1 := by decide
          simp only [second, other, if_true, if_false, Except.bind] at parsed
          split at parsed
          · cases parsed
          · split at parsed
            · cases parsed
            · rename_i sized
              split at parsed
              · cases parsed
              · split at parsed
                · cases parsed
                · cases parsed
                  exact ⟨.inr ⟨rfl, second⟩, not_not.1 sized, inBounds⟩
        · simp only [first, second, if_false, Except.bind] at parsed
          cases parsed

end Parsing

section Opening

variable {prims : Primitives}

/-- All that an unseal settles before the key is derived. -/
def unsealChecks (blob secret : Bytes) (pepper : Option Bytes) :
    Except CoreError (Nat × SealParams × Option Bytes) :=
  if secret.isEmpty then .error .emptyPassphrase
  else
    (parseHeader blob).bind fun (headerLen, params, facts) =>
      (checkPepper pepper).bind fun offered =>
        (usedPepper facts offered).map fun given => (headerLen, params, given)

/-- The key and the decryption. -/
def openBlob (prims : Primitives) (blob secret : Bytes) : Nat × SealParams × Option Bytes → Except CoreError Seed
  | (headerLen, params, given) =>
    (deriveKey prims secret given ((blob.drop 18).take SALT_LEN) params).bind fun key =>
      match prims.decrypt key ((blob.drop 34).take NONCE_LEN) (blob.take headerLen) (blob.drop headerLen) with
      | none => .error .wrongPassphraseOrCorrupt
      | some plaintext =>
        if sized : plaintext.length = SEED_LEN then .ok ⟨plaintext, sized⟩
        else .error (.malformedBlob "payload length")

/-- The checks run first, and know nothing of the primitives. -/
theorem unsealSeed_eq (prims : Primitives) (blob secret : Bytes) (pepper : Option Bytes) :
    unsealSeed prims blob secret pepper = (unsealChecks blob secret pepper).bind (openBlob prims blob secret) := by
  unfold unsealSeed unsealChecks
  split
  · rfl
  · cases parseHeader blob with
    | error refused => rfl
    | ok shape =>
      cases checkPepper pepper with
      | error refused => rfl
      | ok offered =>
        obtain ⟨headerLen, params, facts⟩ := shape
        simp only [Except.bind]
        cases usedPepper facts offered <;> rfl

theorem unsealChecks_ok {blob secret : Bytes} {pepper given : Option Bytes} {headerLen : Nat}
    {params : SealParams} (checked : unsealChecks blob secret pepper = .ok (headerLen, params, given)) :
    ∃ facts, parseHeader blob = .ok (headerLen, params, facts) ∧ checkPepper pepper = .ok pepper ∧
      usedPepper facts pepper = .ok given := by
  unfold unsealChecks at checked
  split at checked
  · cases checked
  · cases parsed : parseHeader blob with
    | error refused =>
      rw [parsed] at checked
      cases checked
    | ok shape =>
      obtain ⟨headerLen, params, facts⟩ := shape
      cases offered : checkPepper pepper with
      | error refused =>
        rw [parsed, offered] at checked
        cases checked
      | ok taken =>
        have same := checkPepper_ok offered
        subst same
        simp only [parsed, offered, Except.bind] at checked
        cases used : usedPepper facts taken with
        | error refused =>
          rw [used] at checked
          cases checked
        | ok given =>
          rw [used] at checked
          cases checked
          exact ⟨facts, rfl, rfl, used⟩

theorem openBlob_ok {blob secret : Bytes} {headerLen : Nat} {params : SealParams} {given : Option Bytes}
    {seed : Seed} (opened : openBlob prims blob secret (headerLen, params, given) = .ok seed) :
    ∃ key, deriveKey prims secret given ((blob.drop 18).take SALT_LEN) params = .ok key ∧
      prims.decrypt key ((blob.drop 34).take NONCE_LEN) (blob.take headerLen) (blob.drop headerLen) =
        some seed.val := by
  unfold openBlob at opened
  simp only at opened
  cases derived : deriveKey prims secret given ((blob.drop 18).take SALT_LEN) params with
  | error refused =>
    rw [derived] at opened
    cases opened
  | ok key =>
    simp only [derived, Except.bind] at opened
    split at opened
    · cases opened
    · rename_i plaintext decrypted
      split at opened
      · cases opened
        exact ⟨key, rfl, decrypted⟩
      · cases opened

/-- What an unseal that answered did. -/
theorem unsealSeed_opened {blob secret : Bytes} {pepper : Option Bytes} {seed : Seed}
    (opened : unsealSeed prims blob secret pepper = .ok seed) :
    ∃ headerLen params facts given key, parseHeader blob = .ok (headerLen, params, facts) ∧
      checkPepper pepper = .ok pepper ∧ usedPepper facts pepper = .ok given ∧
      deriveKey prims secret given ((blob.drop 18).take SALT_LEN) params = .ok key ∧
      prims.decrypt key ((blob.drop 34).take NONCE_LEN) (blob.take headerLen) (blob.drop headerLen) =
        some seed.val := by
  rw [unsealSeed_eq] at opened
  cases checked : unsealChecks blob secret pepper with
  | error refused =>
    rw [checked] at opened
    cases opened
  | ok found =>
    obtain ⟨headerLen, params, given⟩ := found
    rw [checked] at opened
    obtain ⟨facts, parsed, offered, used⟩ := unsealChecks_ok checked
    obtain ⟨key, derived, decrypted⟩ := openBlob_ok opened
    exact ⟨headerLen, params, facts, given, key, parsed, offered, used, derived, decrypted⟩

variable {made : Encryption → Prop}

/-- Past the checks one refusal is left: the file is what its header says it is. -/
theorem openBlob_refuses (ideal : Ideal prims made) {blob secret : Bytes} {pepper given : Option Bytes}
    {headerLen : Nat} {params : SealParams}
    (checked : unsealChecks blob secret pepper = .ok (headerLen, params, given)) {refused : CoreError}
    (failed : openBlob prims blob secret (headerLen, params, given) = .error refused) :
    refused = .wrongPassphraseOrCorrupt := by
  obtain ⟨facts, parsed, _, _⟩ := unsealChecks_ok checked
  have shape := parseHeader_parsed parsed
  have derives : ∃ key, deriveKey prims secret given ((blob.drop 18).take SALT_LEN) params = .ok key := by
    cases given with
    | none => exact prims.derives _ _ _ shape.inBounds
    | some pepper => exact prims.derives _ _ _ shape.inBounds
  obtain ⟨key, derived⟩ := derives
  simp only [openBlob, derived, Except.bind] at failed
  split at failed
  · cases failed
    rfl
  · rename_i plaintext decrypted
    have trimmed := ideal.trims _ _ _ _ _ decrypted
    rw [List.length_drop, shape.length] at trimmed
    have sized : plaintext.length = SEED_LEN := by omega
    rw [dif_pos sized] at failed
    cases failed

theorem deriveKey_injective (ideal : Ideal prims made) {secret secret' salt salt' key : Bytes}
    {given given' : Option Bytes} {params params' : SealParams}
    (one : deriveKey prims secret given salt params = .ok key)
    (another : deriveKey prims secret' given' salt' params' = .ok key)
    (alike : given.map List.length = given'.map List.length) : secret = secret' ∧ given = given' := by
  cases given with
  | none =>
    cases given' with
    | none => exact ⟨(ideal.injective _ _ _ _ _ _ _ one another).1, rfl⟩
    | some pepper' => cases alike
  | some pepper =>
    cases given' with
    | none => cases alike
    | some pepper' =>
      -- the concatenation is unseparated, but both peppers have one length
      have input := (ideal.injective _ _ _ _ _ _ _ one another).1
      have lengths : pepper.length = pepper'.length := by simpa using alike
      obtain ⟨secrets, peppers⟩ := List.append_inj' input lengths
      exact ⟨secrets, congrArg some peppers⟩

theorem usedPepper_ok {facts : BlobFacts} {offered given : Option Bytes}
    (used : usedPepper facts offered = .ok given) :
    (facts.deviceBound = true ∧ given = offered ∧ offered.isSome = true) ∨
      (facts.deviceBound = false ∧ given = none) := by
  unfold usedPepper at used
  split at used
  · rename_i bound
    cases offered with
    | none => cases used
    | some pepper =>
      cases used
      exact .inl ⟨bound, rfl, rfl⟩
  · rename_i unbound
    cases used
    exact .inr ⟨by simpa using unbound, rfl⟩

theorem checkPepper_length {pepper : Bytes} (checked : checkPepper (some pepper) = .ok (some pepper)) :
    pepper.length = PEPPER_LEN := by
  simp only [checkPepper] at checked
  split at checked
  · assumption
  · cases checked

/-- The byte string carries the ciphertext of the blob. -/
def Carries (blob' blob : Bytes) : Prop :=
  ∃ headerLen params facts headerLen' params' facts', parseHeader blob = .ok (headerLen, params, facts) ∧
    parseHeader blob' = .ok (headerLen', params', facts') ∧ blob'.drop headerLen' = blob.drop headerLen

/-- A blob of either version that was sealed once: its header is bound to the ciphertext behind it. -/
def Genuine (prims : Primitives) (made : Encryption → Prop) (blob : Bytes) : Prop :=
  ∃ headerLen params facts encryption, parseHeader blob = .ok (headerLen, params, facts) ∧
    made encryption ∧ encryption.aad = blob.take headerLen ∧ encryption.run prims = some (blob.drop headerLen)

/-- A header other than the one sealed never opens, with any secret and any pepper. -/
theorem genuine_header (ideal : Ideal prims made) {blob blob' : Bytes} (genuine : Genuine prims made blob)
    (carries : Carries blob' blob) {secret : Bytes} {pepper : Option Bytes} {seed : Seed}
    (opened : unsealSeed prims blob' secret pepper = .ok seed) : blob' = blob := by
  obtain ⟨headerLen, params, facts, encryption, parsed, was, aad, ran⟩ := genuine
  obtain ⟨headerLen₁, params₁, facts₁, headerLen', params', facts', parsed₁, parsed', behind⟩ := carries
  rw [parsed] at parsed₁
  cases parsed₁
  obtain ⟨headerLen₂, params₂, facts₂, given, key, parsed₂, _, _, _, decrypted⟩ := unsealSeed_opened opened
  rw [parsed'] at parsed₂
  cases parsed₂
  rw [behind] at decrypted
  have same := ideal.opensOnly encryption was _ ran _ _ _ _ decrypted
  rw [same] at aad
  simp only at aad
  rw [← List.take_append_drop headerLen' blob', ← List.take_append_drop headerLen blob, behind, aad]

/-- Bytes changed in the header only. -/
theorem relabelled_carries {blob blob' : Bytes} {headerLen headerLen' : Nat} {params params' : SealParams}
    {facts facts' : BlobFacts} (parsed : parseHeader blob = .ok (headerLen, params, facts))
    (parsed' : parseHeader blob' = .ok (headerLen', params', facts')) (length : blob'.length = blob.length)
    (behind : blob'.drop headerLen = blob.drop headerLen) : Carries blob' blob := by
  have shape := (parseHeader_parsed parsed).length
  have shape' := (parseHeader_parsed parsed').length
  have same : headerLen' = headerLen := by omega
  subst same
  exact ⟨headerLen', params, facts, headerLen', params', facts', parsed, parsed', behind⟩

theorem unsealSeed_structural {blob : Bytes} {refused : CoreError} (failed : parseHeader blob = .error refused)
    {secret : Bytes} (filled : secret ≠ []) (prims : Primitives) (offered : Option Bytes) :
    unsealSeed prims blob secret offered = .error refused := by
  have nonempty : ¬ secret.isEmpty = true := by simpa using filled
  rw [unsealSeed_eq, unsealChecks, if_neg nonempty, failed]
  rfl

theorem genuine_never_relabelled (ideal : Ideal prims made) {blob blob' : Bytes}
    (genuine : Genuine prims made blob) {headerLen : Nat} {params : SealParams} {facts : BlobFacts}
    (parsed : parseHeader blob = .ok (headerLen, params, facts)) (length : blob'.length = blob.length)
    (behind : blob'.drop headerLen = blob.drop headerLen) (changed : blob' ≠ blob) (secret : Bytes)
    (offered : Option Bytes) (seed : Seed) : unsealSeed prims blob' secret offered ≠ .ok seed := by
  intro opened
  obtain ⟨headerLen', params', facts', _, _, parsed', _⟩ := unsealSeed_opened opened
  exact changed (genuine_header ideal genuine (relabelled_carries parsed parsed' length behind) opened)

/-- Another version byte is refused for the blob's length. -/
theorem relabelled_refused {blob : Bytes} {headerLen : Nat} {params : SealParams} {facts : BlobFacts}
    (parsed : parseHeader blob = .ok (headerLen, params, facts)) {version : UInt8}
    (other : version ≠ blob.getD 4 0) : ∃ refused, parseHeader (blob.set 4 version) = .error refused := by
  have shape := parseHeader_parsed parsed
  cases parsed' : parseHeader (blob.set 4 version) with
  | error refused => exact ⟨refused, rfl⟩
  | ok found =>
    obtain ⟨headerLen', params', facts'⟩ := found
    have shape' := parseHeader_parsed parsed'
    have long : 4 < blob.length := by
      have sized := shape.length
      unfold SEED_LEN at sized
      omega
    have written : (blob.set 4 version).getD 4 0 = version := by
      simp [List.getD_eq_getElem?_getD, long]
    have lengths := shape'.length
    rw [List.length_set, shape.length] at lengths
    have first := shape.version
    have second := shape'.version
    rw [written] at second
    unfold HEADER_LEN_V1 HEADER_LEN_V2 at first second
    rcases first with ⟨rfl, one⟩ | ⟨rfl, one⟩ <;> rcases second with ⟨rfl, two⟩ | ⟨rfl, two⟩
    · exact absurd (two.trans one.symm) other
    · omega
    · omega
    · exact absurd (two.trans one.symm) other

/-- What an unseal refuses before the key is derived it refuses whatever the primitives are; past that one
    refusal is left. -/
theorem refused_before_key (ideal : Ideal prims made) (blob secret : Bytes) (offered : Option Bytes) :
    (∃ refused, ∀ other : Primitives, unsealSeed other blob secret offered = .error refused) ∨
      ((∃ found, parseHeader blob = .ok found) ∧ ∀ refused,
        unsealSeed prims blob secret offered = .error refused → refused = .wrongPassphraseOrCorrupt) := by
  cases checked : unsealChecks blob secret offered with
  | error refused =>
    refine .inl ⟨refused, fun other => ?_⟩
    rw [unsealSeed_eq, checked]
    rfl
  | ok found =>
    obtain ⟨headerLen, params, given⟩ := found
    obtain ⟨facts, parsed, _, _⟩ := unsealChecks_ok checked
    refine .inr ⟨⟨_, parsed⟩, fun refused failed => ?_⟩
    rw [unsealSeed_eq, checked] at failed
    exact openBlob_refuses ideal checked failed

end Opening

section Sealing

variable {prims : Primitives} {made : Encryption → Prop} {entropy : Entropy} {seed : Seed}
  {passphrase blob : Bytes} {params : SealParams} {kind : InputKind} {pepper : Option Bytes}

/-- The encryption of one seal is among those made. -/
def SealMade (prims : Primitives) (made : Encryption → Prop) (entropy : Entropy) (seed : Seed)
    (passphrase : Bytes) (params : SealParams) (kind : InputKind) (pepper : Option Bytes) : Prop :=
  ∀ key, deriveKey prims passphrase pepper entropy.salt params = .ok key →
    made ⟨key, entropy.nonce, buildHeader params entropy kind pepper.isSome, seed.val⟩

theorem sealSeed_parsed (ran : sealSeed prims entropy seed passphrase params kind pepper = .ok blob) :
    parseHeader blob = .ok (HEADER_LEN_V2, params, ⟨VERSION_V2, kind, pepper.isSome⟩) := by
  obtain ⟨checked, key, ciphertext, _, encrypted, rfl⟩ := sealSeed_ok ran
  obtain ⟨_, inBounds, _, _⟩ := checkSealInputs_ok checked
  have sized : ciphertext.length = SEED_LEN + TAG_LEN := by
    rw [prims.tagged _ _ _ _ _ encrypted, seed.property]
  exact parseHeader_built entropy kind pepper.isSome inBounds sized

theorem sealSeed_genuine (ran : sealSeed prims entropy seed passphrase params kind pepper = .ok blob)
    (was : SealMade prims made entropy seed passphrase params kind pepper) : Genuine prims made blob := by
  have parsed := sealSeed_parsed ran
  obtain ⟨_, key, ciphertext, derived, encrypted, rfl⟩ := sealSeed_ok ran
  have header := length_buildHeader entropy params kind pepper.isSome
  refine ⟨_, _, _, _, parsed, was key derived, ?_, ?_⟩
  · exact (List.take_left' header).symm
  · rw [List.drop_left' header]
    exact encrypted

/-- What opens a sealed blob: its own secret, and its own pepper where it is bound to one. -/
theorem sealSeed_secret (ideal : Ideal prims made)
    (ran : sealSeed prims entropy seed passphrase params kind pepper = .ok blob)
    (was : SealMade prims made entropy seed passphrase params kind pepper) {secret : Bytes}
    {offered : Option Bytes} {found : Seed} (opened : unsealSeed prims blob secret offered = .ok found) :
    secret = passphrase ∧ (pepper.isSome = true → offered = pepper) ∧ checkPepper offered = .ok offered := by
  have parsed := sealSeed_parsed ran
  obtain ⟨checked, key, ciphertext, derived, encrypted, rfl⟩ := sealSeed_ok ran
  obtain ⟨_, _, peppered, _⟩ := checkSealInputs_ok checked
  obtain ⟨headerLen, params', facts, given, key', parsed', offering, used, derived', decrypted⟩ :=
    unsealSeed_opened opened
  rw [parsed] at parsed'
  cases parsed'
  rw [List.drop_left' (length_buildHeader entropy params kind pepper.isSome)] at decrypted
  have same := ideal.opensOnly _ (was key derived) _ encrypted _ _ _ _ decrypted
  have keys : key = key' := congrArg Encryption.key same
  subst keys
  have alike : given.map List.length = pepper.map List.length := by
    rcases usedPepper_ok used with ⟨bound, rfl, _⟩ | ⟨unbound, rfl⟩
    · cases pepper with
      | none => cases bound
      | some one =>
        cases given with
        | none => simp at *
        | some other =>
          simp only [Option.map_some, checkPepper_length peppered, checkPepper_length offering]
    · cases pepper with
      | none => rfl
      | some one => cases unbound
  obtain ⟨secrets, peppers⟩ := deriveKey_injective ideal derived' derived alike
  refine ⟨secrets, ?_, offering⟩
  intro bound
  rcases usedPepper_ok used with ⟨_, same, _⟩ | ⟨unbound, _⟩
  · exact same.symm.trans peppers
  · rw [bound] at unbound
    cases unbound

/-- A blob that is not bound opens alike with any pepper of the right length and with none. -/
theorem unsealSeed_ignores {secret : Bytes} {offered : Option Bytes} {headerLen : Nat} {facts : BlobFacts}
    (parsed : parseHeader blob = .ok (headerLen, params, facts)) (unbound : facts.deviceBound = false)
    (checked : checkPepper offered = .ok offered) :
    unsealSeed prims blob secret offered = unsealSeed prims blob secret none := by
  have none_ : checkPepper none = .ok none := rfl
  simp only [unsealSeed_eq, unsealChecks, parsed, checked, none_, Except.bind, usedPepper, unbound]
  rfl

theorem sealed_opens_iff (ideal : Ideal prims made)
    (ran : sealSeed prims entropy seed passphrase params kind pepper = .ok blob)
    (was : SealMade prims made entropy seed passphrase params kind pepper) (blob' secret : Bytes)
    (offered : Option Bytes) :
    (unsealSeed prims blob' secret offered = .ok seed ∧ Carries blob' blob) ↔
      blob' = blob ∧ secret = passphrase ∧ (pepper.isSome = true → offered = pepper) ∧
        ∀ bytes, offered = some bytes → bytes.length = PEPPER_LEN := by
  have parsed := sealSeed_parsed ran
  constructor
  · intro ⟨opened, carries⟩
    have same := genuine_header ideal (sealSeed_genuine ran was) carries opened
    subst same
    obtain ⟨secrets, peppers, offering⟩ := sealSeed_secret ideal ran was opened
    refine ⟨rfl, secrets, peppers, ?_⟩
    intro bytes is
    subst is
    exact checkPepper_length offering
  · rintro ⟨rfl, rfl, peppers, sized⟩
    have checked : checkPepper offered = .ok offered := by
      cases offered with
      | none => rfl
      | some bytes => exact if_pos (sized bytes rfl)
    refine ⟨?_, _, _, _, _, _, _, parsed, parsed, rfl⟩
    cases pepper with
    | some bytes =>
      rw [peppers rfl]
      exact unsealSeed_sealSeed ran
    | none =>
      rw [unsealSeed_ignores parsed rfl checked]
      exact unsealSeed_sealSeed ran

/-- Six ASCII digits. -/
def PinShaped (passphrase : Bytes) : Prop :=
  passphrase.length = PIN_LEN ∧ ∀ b ∈ passphrase, 48 ≤ b ∧ b ≤ 57

theorem checkSealInputs_digits {checked : Option Bytes}
    (accepted : checkSealInputs passphrase params .digits pepper = .ok checked) :
    pepper.isSome = true ∧ PinShaped passphrase := by
  obtain ⟨filled, inBounds, offered, _⟩ := checkSealInputs_ok accepted
  have bounds : params.checkBounds = .ok () := if_pos inBounds
  simp only [checkSealInputs, filled, bounds, offered, Except.bind] at accepted
  rw [if_neg (by simp), if_pos trivial] at accepted
  split at accepted
  · cases accepted
  · rename_i bound
    split at accepted
    · cases accepted
    · rename_i shaped
      rw [not_or, not_not, not_not] at shaped
      refine ⟨?_, shaped.1, ?_⟩
      · cases pepper with
        | none => exact absurd rfl bound
        | some bytes => rfl
      · simpa using shaped.2

/-- A re-seal answers exactly where its current secret opens the blob and its next one is sealable. -/
theorem resealSeed_iff (blob current next : Bytes) :
    (∃ fresh, resealSeed prims entropy blob current next params kind pepper = .ok fresh) ↔
      (∃ seed, unsealSeed prims blob current pepper = .ok seed) ∧
        ∃ checked, checkSealInputs next params kind pepper = .ok checked := by
  constructor
  · intro ⟨fresh, resealed⟩
    cases checked : checkSealInputs next params kind pepper with
    | error refused =>
      rw [resealSeed, checked] at resealed
      cases resealed
    | ok taken =>
      cases opened : unsealSeed prims blob current pepper with
      | error refused =>
        rw [(resealSeed_checked prims entropy blob current checked).1 refused opened] at resealed
        cases resealed
      | ok seed => exact ⟨⟨seed, rfl⟩, taken, rfl⟩
  · intro ⟨⟨seed, opened⟩, taken, checked⟩
    obtain ⟨fresh, _, resealed⟩ := (resealSeed_checked prims entropy blob current checked).2 seed opened
    exact ⟨fresh, resealed⟩

theorem resealSeed_keeps {current next fresh : Bytes}
    (resealed : resealSeed prims entropy blob current next params kind pepper = .ok fresh) :
    ∃ seed, unsealSeed prims blob current pepper = .ok seed ∧ unsealSeed prims fresh next pepper = .ok seed := by
  obtain ⟨⟨seed, opened⟩, taken, checked⟩ := (resealSeed_iff blob current next).1 ⟨fresh, resealed⟩
  obtain ⟨again, sealed, same⟩ := (resealSeed_checked prims entropy blob current checked).2 seed opened
  rw [resealed] at same
  cases same
  exact ⟨seed, opened, unsealSeed_sealSeed sealed⟩

end Sealing

section Custody

/-- A vault opens with exactly what sealed it. -/
theorem vault_opens_with_what_sealed_it {prims : Primitives} {made : Encryption → Prop}
    (ideal : Ideal prims made) :
    (∀ entropy seed passphrase params kind pepper blob,
      SealMade prims made entropy seed passphrase params kind pepper →
      sealSeed prims entropy seed passphrase params kind pepper = .ok blob →
      (∀ blob' secret offered,
        (unsealSeed prims blob' secret offered = .ok seed ∧ Carries blob' blob) ↔
          blob' = blob ∧ secret = passphrase ∧ (pepper.isSome = true → offered = pepper) ∧
            ∀ bytes, offered = some bytes → bytes.length = PEPPER_LEN) ∧
      Genuine prims made blob ∧ readFacts blob = .ok ⟨VERSION_V2, kind, pepper.isSome⟩ ∧
      (kind = .digits → pepper.isSome = true ∧ PinShaped passphrase)) ∧
    (∀ blob, Genuine prims made blob → ∀ headerLen params facts,
      parseHeader blob = .ok (headerLen, params, facts) →
      (∀ version, version ≠ blob.getD 4 0 → ∃ refused, parseHeader (blob.set 4 version) = .error refused) ∧
      ∀ blob', blob' ≠ blob →
        (blob'.length = blob.length ∧ blob'.drop headerLen = blob.drop headerLen) ∨ Carries blob' blob →
        ∀ secret offered seed, unsealSeed prims blob' secret offered ≠ .ok seed) ∧
    (∀ blob, indexedHeader blob = some (parseHeader blob) ∧
      (∀ refused, parseHeader blob = .error refused → Structural refused ∧
        ∀ secret, secret ≠ [] → ∀ (other : Primitives) offered,
          unsealSeed other blob secret offered = .error refused) ∧
      ∀ secret offered,
        (∃ refused, ∀ other : Primitives, unsealSeed other blob secret offered = .error refused) ∨
          ((∃ found, parseHeader blob = .ok found) ∧ ∀ refused,
            unsealSeed prims blob secret offered = .error refused → refused = .wrongPassphraseOrCorrupt)) ∧
    ∀ entropy blob current next params kind pepper,
      ((∃ fresh, resealSeed prims entropy blob current next params kind pepper = .ok fresh) ↔
        (∃ seed, unsealSeed prims blob current pepper = .ok seed) ∧
          ∃ checked, checkSealInputs next params kind pepper = .ok checked) ∧
      ∀ fresh, resealSeed prims entropy blob current next params kind pepper = .ok fresh →
        ∃ seed, unsealSeed prims blob current pepper = .ok seed ∧
          unsealSeed prims fresh next pepper = .ok seed := by
  refine ⟨?_, ?_, ?_, ?_⟩
  · intro entropy seed passphrase params kind pepper blob was ran
    refine ⟨fun blob' secret offered => sealed_opens_iff ideal ran was blob' secret offered,
      sealSeed_genuine ran was, ?_, ?_⟩
    · rw [readFacts, sealSeed_parsed ran]
      rfl
    · rintro rfl
      exact checkSealInputs_digits (sealSeed_ok ran).1
  · intro blob genuine headerLen params facts parsed
    refine ⟨fun version other => relabelled_refused parsed other, ?_⟩
    intro blob' changed alike secret offered seed
    rcases alike with ⟨length, behind⟩ | carries
    · exact genuine_never_relabelled ideal genuine parsed length behind changed secret offered seed
    · exact fun opened => changed (genuine_header ideal genuine carries opened)
  · intro blob
    refine ⟨indexedHeader_eq blob, ?_, refused_before_key ideal blob⟩
    intro refused failed
    exact ⟨parseHeader_refuses failed, fun secret filled other offered =>
      unsealSeed_structural failed filled other offered⟩
  · intro entropy blob current next params kind pepper
    exact ⟨resealSeed_iff blob current next, fun fresh resealed => resealSeed_keeps resealed⟩

/-- A key for each input. -/
def idealKey (password salt : Bytes) (params : SealParams) : Bytes :=
  List.replicate (Encodable.encode (password.map UInt8.toNat, salt.map UInt8.toNat, params.mCostKib,
    params.tCost, params.pCost)) 0

theorem idealKey_injective {password salt password' salt' : Bytes} {params params' : SealParams}
    (same : idealKey password salt params = idealKey password' salt' params') :
    password = password' ∧ salt = salt' ∧ params = params' := by
  have lengths := congrArg List.length same
  simp only [idealKey, List.length_replicate] at lengths
  have inputs := Encodable.encode_injective lengths
  simp only [Prod.mk.injEq] at inputs
  obtain ⟨passwords, salts, m, t, p⟩ := inputs
  have injective : Function.Injective UInt8.toNat := fun a b => UInt8.toNat_inj.1
  cases params
  cases params'
  exact ⟨injective.list_map passwords, injective.list_map salts, by simp_all⟩

/-- Where one encryption was made, its three inputs have a tag of their own. -/
def idealTag (only : Encryption) (key nonce aad : Bytes) : Bytes :=
  List.replicate TAG_LEN (if key = only.key ∧ nonce = only.nonce ∧ aad = only.aad then 255 else 0)

def idealPrimitives (only : Encryption) : Primitives where
  argon2 password salt params := .ok (idealKey password salt params)
  encrypt key nonce aad message := some (message ++ idealTag only key nonce aad)
  decrypt key nonce aad ciphertext :=
    if ciphertext.drop (ciphertext.length - TAG_LEN) = idealTag only key nonce aad then
      some (ciphertext.take (ciphertext.length - TAG_LEN))
    else none
  derives _ _ _ _ := ⟨_, rfl⟩
  encrypts _ _ _ _ := ⟨_, rfl⟩
  tagged key nonce aad message ciphertext encrypted := by
    cases encrypted
    simp [idealTag]
  opens key nonce aad message ciphertext encrypted := by
    cases encrypted
    have size : (message ++ idealTag only key nonce aad).length - TAG_LEN = message.length := by
      simp [idealTag]
    rw [size, List.drop_left' rfl, if_pos rfl, List.take_left' rfl]

theorem idealPrimitives_ideal (only : Encryption) : Ideal (idealPrimitives only) (· = only) where
  injective password salt params password' salt' params' key one another := by
    exact idealKey_injective (Except.ok.inj (one.trans another.symm))
  opensOnly encryption was ciphertext encrypted key nonce aad message decrypted := by
    subst was
    have written : encryption.message ++ idealTag encryption encryption.key encryption.nonce encryption.aad =
        ciphertext := by
      cases encrypted
      rfl
    subst written
    have size : (encryption.message ++ idealTag encryption encryption.key encryption.nonce
        encryption.aad).length - TAG_LEN = encryption.message.length := by
      simp [idealTag]
    simp only [idealPrimitives] at decrypted
    rw [size, List.drop_left' rfl, List.take_left' rfl] at decrypted
    split at decrypted
    · rename_i tags
      cases decrypted
      simp only [idealTag] at tags
      have marks := List.eq_of_mem_replicate (tags ▸ List.mem_replicate.2 ⟨by decide, rfl⟩)
      by_cases inputs : key = encryption.key ∧ nonce = encryption.nonce ∧ aad = encryption.aad
      · obtain ⟨rfl, rfl, rfl⟩ := inputs
        rfl
      · simp [inputs] at marks
    · cases decrypted
  trims key nonce aad ciphertext message decrypted := by
    simp only [idealPrimitives] at decrypted
    split at decrypted
    · rename_i tags
      cases decrypted
      have lengths := congrArg List.length tags
      simp only [List.length_drop, idealTag, List.length_replicate] at lengths
      simp only [List.length_take]
      unfold TAG_LEN at *
      omega
    · cases decrypted

def onceEntropy : Entropy := ⟨List.replicate SALT_LEN 7, List.replicate NONCE_LEN 9, rfl, rfl⟩

def onceParams : SealParams := ⟨MIN_M_COST_KIB, MIN_T_COST, MIN_P_COST⟩

def onceSeed : Seed := ⟨List.replicate SEED_LEN 66, rfl⟩

/-- The one seal of a vault that is bound to no device. -/
def onceMade : Encryption :=
  ⟨idealKey [112, 119] onceEntropy.salt onceParams, onceEntropy.nonce,
    buildHeader onceParams onceEntropy .passphrase false, onceSeed.val⟩

theorem onceMade_seal :
    SealMade (idealPrimitives onceMade) (· = onceMade) onceEntropy onceSeed [112, 119] onceParams .passphrase none := by
  intro key derived
  cases derived
  rfl

theorem once_sealed : ∃ blob, sealSeed (idealPrimitives onceMade) onceEntropy onceSeed [112, 119] onceParams
    .passphrase none = .ok blob := by
  have checked : checkSealInputs [112, 119] onceParams .passphrase none = .ok none := by decide
  exact sealSeed_checked _ _ _ checked

theorem vault_opens_with_what_sealed_it_once :
    ∃ blob, sealSeed (idealPrimitives onceMade) onceEntropy onceSeed [112, 119] onceParams .passphrase none =
        .ok blob ∧
      unsealSeed (idealPrimitives onceMade) blob [112, 119] none = .ok onceSeed ∧
      unsealSeed (idealPrimitives onceMade) blob [112, 118] none ≠ .ok onceSeed := by
  obtain ⟨blob, ran⟩ := once_sealed
  obtain ⟨opens, _⟩ := (vault_opens_with_what_sealed_it (idealPrimitives_ideal onceMade)).1 onceEntropy onceSeed
    [112, 119] onceParams .passphrase none blob onceMade_seal ran
  have itself := (opens blob [112, 119] none).2 ⟨rfl, rfl, fun _ => rfl, by simp⟩
  refine ⟨blob, ran, itself.1, ?_⟩
  intro opened
  have secrets := ((opens blob [112, 118] none).1 ⟨opened, itself.2⟩).2.1
  exact absurd secrets (by decide)

/-- A pepper of the wrong length is refused whether or not the blob is bound, so even an unbound vault does
    not open beside one. -/
theorem short_pepper_refuses_unbound :
    ∃ (prims : Primitives) (made : Encryption → Prop) (entropy : Entropy) (seed : Seed) (passphrase : Bytes)
      (params : SealParams) (blob : Bytes),
      Ideal prims made ∧ SealMade prims made entropy seed passphrase params .passphrase none ∧
        sealSeed prims entropy seed passphrase params .passphrase none = .ok blob ∧
        unsealSeed prims blob passphrase none = .ok seed ∧
        unsealSeed prims blob passphrase (some [0]) = .error (.deviceBinding "pepper length") := by
  obtain ⟨blob, ran⟩ := once_sealed
  refine ⟨_, _, _, _, _, _, blob, idealPrimitives_ideal onceMade, onceMade_seal, ran, unsealSeed_sealSeed ran, ?_⟩
  simp only [unsealSeed, sealSeed_parsed ran, Except.bind]
  rfl

end Custody

end Kaspaverse.Vault
