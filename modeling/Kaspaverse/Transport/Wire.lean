import Kaspaverse.Library.Slices
import Kaspaverse.Library.Utf8
import Kaspaverse.Transport.Store

namespace Kaspaverse.Transport

open Kvlog (ChainError)

def COLON : UInt8 := 58

def CIPH_MSG_PREFIX : Bytes := utf8 "ciph_msg:"

def KCHAT_PREFIX : Bytes := utf8 "kchat:"

namespace WireNamespace

/-- In the order they are tried. -/
def ALL : List WireNamespace := [.ciphMsg, .kChat]

def wirePrefix : WireNamespace → Bytes
  | .ciphMsg => CIPH_MSG_PREFIX
  | .kChat => KCHAT_PREFIX

end WireNamespace

def WIRE_V1 : Bytes := utf8 "1:"

def KIND_TOKEN_CAP : Nat := 16

def KIND_LEGACY : String := "legacy"

def KIND_UNKNOWN : String := "unknown"

/-- A payload's namespace, kind token and body. -/
def parsePayloadIn (payload : Bytes) : Option (WireNamespace × String × Bytes) := do
  let (ns, rest) ← WireNamespace.ALL.findSome? fun ns => (stripPrefix ns.wirePrefix payload).map fun rest => (ns, rest)
  match stripPrefix WIRE_V1 rest with
  | none =>
    match ns with
    | .ciphMsg => return (ns, KIND_LEGACY, rest)
    | .kChat => return (ns, KIND_UNKNOWN, rest)
  | some v1 =>
    match (v1.take (min v1.length KIND_TOKEN_CAP)).findIdx? (· == COLON) with
    | some pos => return (ns, fromUtf8Lossy (v1.take pos), v1.drop (pos + 1))
    | none => return (ns, KIND_UNKNOWN, v1)

def MIN_SEALED_LEN : Nat := 61

/-- Long enough, with a compressed point's tag behind the nonce. -/
def isSealedEnvelope (bytes : Bytes) : Bool :=
  decide (MIN_SEALED_LEN ≤ bytes.length) && (bytes.getD 12 0 == 0x02 || bytes.getD 12 0 == 0x03)

def composeHandshakeWire (sealedEnvelope : Bytes) : Except ChainError Bytes :=
  if isSealedEnvelope sealedEnvelope then
    .ok (CIPH_MSG_PREFIX ++ (WIRE_V1 ++ (utf8 "handshake:" ++ sealedEnvelope)))
  else .error (.message "handshake body must be a sealed envelope")

def STASH_SCOPE_SAVED_HANDSHAKE : String := "saved_handshake"

def composeSelfStashWire (sealedEnvelope : Bytes) : Except ChainError Bytes :=
  if isSealedEnvelope sealedEnvelope then
    .ok (CIPH_MSG_PREFIX ++ (WIRE_V1 ++ (utf8 "self_stash:" ++
      (utf8 STASH_SCOPE_SAVED_HANDSHAKE ++ COLON :: sealedEnvelope))))
  else .error (.message "self-stash body must be a sealed envelope")

def stripStashScope (body : Bytes) : Option Bytes :=
  stripPrefix (utf8 STASH_SCOPE_SAVED_HANDSHAKE ++ [COLON]) body

section Base64

def ALPHABET : Bytes := utf8 "ABCDEFGHIJKLMNOPQRSTUVWXYZabcdefghijklmnopqrstuvwxyz0123456789+/"

def PAD : UInt8 := 61

/-- Up to three bytes as one number, the missing ones zero. -/
def packChunk (chunk : Bytes) : Nat :=
  (chunk.getD 0 0).toNat * 2 ^ 16 + (chunk.getD 1 0).toNat * 2 ^ 8 + (chunk.getD 2 0).toNat

def encodeChunk (chunk : Bytes) : Bytes :=
  (List.range 4).map fun i =>
    if i ≤ chunk.length then ALPHABET.getD (packChunk chunk / 2 ^ (18 - 6 * i) % 64) 0 else PAD

/-- The text's bytes. -/
def encodeBase64 (bytes : Bytes) : Bytes := (chunks 3 bytes).flatMap encodeChunk

def isBase64Char (b : UInt8) : Bool :=
  (decide (65 ≤ b) && decide (b ≤ 90)) || (decide (97 ≤ b) && decide (b ≤ 122)) ||
    (decide (48 ≤ b) && decide (b ≤ 57)) || b == 43 || b == 47 || b == PAD

def base64Value (b : UInt8) : Option Nat :=
  if 65 ≤ b ∧ b ≤ 90 then some (b.toNat - 65)
  else if 97 ≤ b ∧ b ≤ 122 then some (b.toNat - 97 + 26)
  else if 48 ≤ b ∧ b ≤ 57 then some (b.toNat - 48 + 52)
  else if b = 43 then some 62
  else if b = 47 then some 63
  else none

/-- One chunk of four. Padding is only legal as the last one or two bytes of the final chunk. -/
def decodeChunk (final : Bool) (chunk : Bytes) : Option Bytes :=
  if chunk.length ≠ 4 then none
  else
    let pad := chunk.count PAD
    if 2 < pad ∨ (0 < pad ∧ final = false) ∨ PAD ∈ chunk.take (4 - pad) then none
    else
      ((chunk.take (4 - pad)).foldlM (fun acc b => (base64Value b).map (acc * 64 + ·)) 0).map fun acc =>
        let acc := acc * 64 ^ pad
        [UInt8.ofNat (acc / 2 ^ 16), UInt8.ofNat (acc / 2 ^ 8), UInt8.ofNat acc].take (3 - pad)

def decodeChunks : List Bytes → Option Bytes
  | [] => some []
  | chunk :: rest => do
    let bytes ← decodeChunk rest.isEmpty chunk
    return bytes ++ (← decodeChunks rest)

def decodeBase64 (text : Bytes) : Option Bytes := decodeChunks (chunks 4 text)

end Base64

/-- `compose_comm_wire_in`: the envelope rides as base64 text, behind the alias. -/
def composeCommWireIn (ns : WireNamespace) (alias_ : String) (sealedEnvelope : Bytes) : Except ChainError Bytes :=
  if alias_ = "" ∨ COLON ∈ utf8 alias_ then
    .error (.message "conversation alias must be non-empty without ':'")
  else if isSealedEnvelope sealedEnvelope = false then
    .error (.message "comm body must be a sealed envelope")
  else .ok (ns.wirePrefix ++ (WIRE_V1 ++ (utf8 "comm:" ++ (utf8 alias_ ++ COLON :: encodeBase64 sealedEnvelope))))

/-- A comm body's alias, and what stands behind it. -/
def splitCommBody (body : Bytes) : Option (String × Bytes) := do
  let delimiter ← body.findIdx? (· == COLON)
  let alias_ ← ofUtf8 (body.take delimiter)
  if alias_ = "" then none else return (alias_, body.drop (delimiter + 1))

/-- A body whose every byte is base64 text decodes; anything else passes through. -/
def decodeEnvelopeBody (body : Bytes) : Bytes :=
  if body ≠ [] ∧ body.length % 4 = 0 ∧ body.all isBase64Char then (decodeBase64 body).getD body
  else body

section Parse

theorem findIdx?_colon {token : Bytes} (plain : COLON ∉ token) (rest : Bytes) :
    (token ++ COLON :: rest).findIdx? (· == COLON) = some token.length := by
  have none_ : token.findIdx? (· == COLON) = none := by
    rw [List.findIdx?_eq_none_iff]
    intro byte member
    rw [beq_eq_false_iff_ne]
    rintro rfl
    exact plain member
  rw [List.findIdx?_append, none_, List.findIdx?_cons]
  simp

theorem namespace_found (ns : WireNamespace) (rest : Bytes) :
    (WireNamespace.ALL.findSome? fun other =>
      (stripPrefix other.wirePrefix (ns.wirePrefix ++ rest)).map fun rest => (other, rest)) = some (ns, rest) := by
  cases ns with
  | ciphMsg =>
    unfold WireNamespace.ALL
    rw [List.findSome?_cons, stripPrefix_append]
    rfl
  | kChat =>
    have other : stripPrefix WireNamespace.ciphMsg.wirePrefix (WireNamespace.kChat.wirePrefix ++ rest) = none := by
      unfold stripPrefix
      rw [if_neg]
      intro starts
      have heads : (99 : UInt8) = 107 := (List.cons_prefix_cons.mp starts).1
      cases heads
    unfold WireNamespace.ALL
    rw [List.findSome?_cons, other]
    show (WireNamespace.kChat :: []).findSome? _ = _
    rw [List.findSome?_cons, stripPrefix_append]
    rfl

/-- A version-1 payload parses to its namespace, its kind and its body, whatever the body is. -/
theorem parsePayloadIn_composed (ns : WireNamespace) (kind : Bytes) (plain : COLON ∉ kind)
    (capped : kind.length < KIND_TOKEN_CAP) (body : Bytes) :
    parsePayloadIn (ns.wirePrefix ++ (WIRE_V1 ++ (kind ++ COLON :: body))) =
      some (ns, fromUtf8Lossy kind, body) := by
  have cut : (kind ++ COLON :: body).take (min (kind ++ COLON :: body).length KIND_TOKEN_CAP) =
      kind ++ COLON :: body.take (min (kind ++ COLON :: body).length KIND_TOKEN_CAP - kind.length - 1) := by
    have longer : kind.length < min (kind ++ COLON :: body).length KIND_TOKEN_CAP := by
      rw [List.length_append, List.length_cons]
      omega
    rw [List.take_append, List.take_of_length_le longer.le]
    congr 1
    obtain ⟨more, same⟩ := Nat.exists_eq_add_of_lt (Nat.sub_pos_of_lt longer)
    rw [same]
    simp
  unfold parsePayloadIn
  rw [namespace_found]
  simp only [Option.bind_eq_bind, Option.bind_some, stripPrefix_append, cut, findIdx?_colon plain]
  show some (ns, fromUtf8Lossy ((kind ++ COLON :: body).take kind.length),
    (kind ++ COLON :: body).drop (kind.length + 1)) = _
  rw [List.take_left, ← List.drop_drop, List.drop_left]
  rfl

theorem splitCommBody_composed {alias_ : String} (named : alias_ ≠ "") (plain : COLON ∉ utf8 alias_) (text : Bytes) :
    splitCommBody (utf8 alias_ ++ COLON :: text) = some (alias_, text) := by
  unfold splitCommBody
  rw [findIdx?_colon plain]
  simp only [Option.bind_eq_bind, Option.bind_some, List.take_left, ofUtf8_utf8, if_neg named]
  rw [← List.drop_drop, List.drop_left]
  rfl

end Parse

section Base64

/-- The letter that stands for six bits. -/
def letter (n : Nat) : UInt8 := ALPHABET.getD n 0

theorem letter_reads : ∀ n : Fin 64, base64Value (letter n) = some n.val ∧ letter n ≠ PAD ∧
    isBase64Char (letter n) = true := by
  decide +kernel

variable {sextets : List Nat} {pad : Nat}

theorem letters_fold (small : ∀ n ∈ sextets, n < 64) (start : Nat) :
    (sextets.map letter).foldlM (fun acc b => (base64Value b).map (acc * 64 + ·)) start =
      some (sextets.foldl (fun acc n => acc * 64 + n) start) := by
  induction sextets generalizing start with
  | nil => rfl
  | cons n rest ih =>
    have reads := (letter_reads ⟨n, small n List.mem_cons_self⟩).1
    rw [List.map_cons, List.foldlM_cons, reads, List.foldl_cons]
    exact ih (fun m member => small m (List.mem_cons_of_mem n member)) _

theorem pad_notMem_letters (small : ∀ n ∈ sextets, n < 64) : PAD ∉ sextets.map letter := by
  intro member
  obtain ⟨n, among, same⟩ := List.mem_map.mp member
  exact (letter_reads ⟨n, small n among⟩).2.1 same

/-- What a chunk of letters and padding decodes to. -/
theorem decodeChunk_letters {final : Bool} (small : ∀ n ∈ sextets, n < 64) (fills : sextets.length + pad = 4)
    (few : pad ≤ 2) (last : 0 < pad → final = true) :
    let acc := sextets.foldl (fun acc n => acc * 64 + n) 0 * 64 ^ pad
    decodeChunk final (sextets.map letter ++ List.replicate pad PAD) =
      some ([UInt8.ofNat (acc / 2 ^ 16), UInt8.ofNat (acc / 2 ^ 8), UInt8.ofNat acc].take (3 - pad)) := by
  intro acc
  have unpadded := pad_notMem_letters small
  have four : (sextets.map letter ++ List.replicate pad PAD).length = 4 := by
    rw [List.length_append, List.length_map, List.length_replicate, fills]
  have padding : (sextets.map letter ++ List.replicate pad PAD).count PAD = pad := by
    rw [List.count_append, List.count_eq_zero.mpr unpadded, List.count_replicate_self, Nat.zero_add]
  have body : (sextets.map letter ++ List.replicate pad PAD).take (4 - pad) = sextets.map letter := by
    apply List.take_left'
    rw [List.length_map]
    omega
  have legal : ¬(2 < pad ∨ (0 < pad ∧ final = false) ∨ PAD ∈ sextets.map letter) := by
    rintro (many | ⟨some_, early⟩ | inside)
    · omega
    · rw [last some_] at early
      cases early
    · exact unpadded inside
  unfold decodeChunk
  rw [if_neg (not_not.mpr four)]
  simp only [padding, body]
  rw [if_neg legal, letters_fold small]
  rfl

theorem packChunk_lt (chunk : Bytes) : packChunk chunk < 2 ^ 24 := by
  have first := (chunk.getD 0 0).toNat_lt
  have second := (chunk.getD 1 0).toNat_lt
  have third := (chunk.getD 2 0).toNat_lt
  unfold packChunk
  omega

/-- The letters of a number whose low bits are padding spell the number. -/
theorem decodeChunk_number (final : Bool) {n : Nat} (pad : Nat) (small : n < 2 ^ 24) (few : pad ≤ 2) (low : n % 64 ^ pad = 0)
    (last : 0 < pad → final = true) :
    decodeChunk final ((([18, 12, 6, 0].take (4 - pad)).map fun i => n / 2 ^ i % 64).map letter ++
        List.replicate pad PAD) =
      some ([UInt8.ofNat (n / 2 ^ 16), UInt8.ofNat (n / 2 ^ 8), UInt8.ofNat n].take (3 - pad)) := by
  have sextets : ∀ m ∈ ([18, 12, 6, 0].take (4 - pad)).map fun i => n / 2 ^ i % 64, m < 64 := by
    intro m member
    obtain ⟨i, _, rfl⟩ := List.mem_map.mp member
    exact Nat.mod_lt _ (by decide)
  have fills : (([18, 12, 6, 0].take (4 - pad)).map fun i => n / 2 ^ i % 64).length + pad = 4 := by
    simp only [List.length_map, List.length_take, List.length_cons, List.length_nil]
    omega
  have spells : (([18, 12, 6, 0].take (4 - pad)).map fun i => n / 2 ^ i % 64).foldl
      (fun acc n => acc * 64 + n) 0 * 64 ^ pad = n := by
    match pad, few with
    | 0, _ =>
      show ((((0 * 64 + n / 2 ^ 18 % 64) * 64 + n / 2 ^ 12 % 64) * 64 + n / 2 ^ 6 % 64) * 64 + n / 2 ^ 0 % 64) *
        64 ^ 0 = n
      omega
    | 1, _ =>
      show (((0 * 64 + n / 2 ^ 18 % 64) * 64 + n / 2 ^ 12 % 64) * 64 + n / 2 ^ 6 % 64) * 64 ^ 1 = n
      omega
    | 2, _ =>
      show ((0 * 64 + n / 2 ^ 18 % 64) * 64 + n / 2 ^ 12 % 64) * 64 ^ 2 = n
      omega
  have read := decodeChunk_letters sextets fills few last
  rwa [spells] at read

theorem ofNat_eq {n : Nat} {byte : UInt8} (same : n % 256 = byte.toNat) : UInt8.ofNat n = byte := by
  rw [← UInt8.toNat_inj, UInt8.toNat_ofNat']
  exact same

/-- One chunk of up to three bytes reads back as itself. -/
theorem decodeChunk_encodeChunk {final : Bool} {chunk : Bytes} (some_ : chunk ≠ []) (three : chunk.length ≤ 3)
    (last : chunk.length < 3 → final = true) : decodeChunk final (encodeChunk chunk) = some chunk := by
  match chunk with
  | [] => exact absurd rfl some_
  | [a] =>
    have packed : packChunk [a] = a.toNat * 2 ^ 16 := by
      show a.toNat * 2 ^ 16 + 0 * 2 ^ 8 + 0 = _
      omega
    have reads := decodeChunk_number final 2 (packChunk_lt [a]) le_rfl (by omega) fun _ => last (by simp)
    have one : UInt8.ofNat (packChunk [a] / 2 ^ 16) = a := ofNat_eq (by have := a.toNat_lt; omega)
    rw [one] at reads
    exact reads
  | [a, b] =>
    have packed : packChunk [a, b] = a.toNat * 2 ^ 16 + b.toNat * 2 ^ 8 := by
      show a.toNat * 2 ^ 16 + b.toNat * 2 ^ 8 + 0 = _
      omega
    have reads := decodeChunk_number final 1 (packChunk_lt [a, b]) (by decide) (by omega) fun _ => last (by simp)
    have bounds := And.intro a.toNat_lt b.toNat_lt
    have one : UInt8.ofNat (packChunk [a, b] / 2 ^ 16) = a := ofNat_eq (by omega)
    have two : UInt8.ofNat (packChunk [a, b] / 2 ^ 8) = b := ofNat_eq (by omega)
    rw [one, two] at reads
    exact reads
  | [a, b, c] =>
    have packed : packChunk [a, b, c] = a.toNat * 2 ^ 16 + b.toNat * 2 ^ 8 + c.toNat := rfl
    have reads := decodeChunk_number final 0 (packChunk_lt [a, b, c]) (by decide) (Nat.mod_one _)
      fun none_ => absurd none_ (by decide)
    have bounds := And.intro a.toNat_lt (And.intro b.toNat_lt c.toNat_lt)
    have one : UInt8.ofNat (packChunk [a, b, c] / 2 ^ 16) = a := ofNat_eq (by omega)
    have two : UInt8.ofNat (packChunk [a, b, c] / 2 ^ 8) = b := ofNat_eq (by omega)
    have three : UInt8.ofNat (packChunk [a, b, c]) = c := ofNat_eq (by omega)
    rw [one, two, three] at reads
    exact reads
  | _ :: _ :: _ :: _ :: _ =>
    simp only [List.length_cons] at three
    omega

theorem encodeChunk_text (chunk : Bytes) : (encodeChunk chunk).length = 4 ∧
    (encodeChunk chunk).all isBase64Char = true := by
  refine ⟨rfl, ?_⟩
  rw [List.all_eq_true]
  intro byte member
  obtain ⟨i, _, rfl⟩ := List.mem_map.mp member
  split
  · exact (letter_reads ⟨_, Nat.mod_lt _ (by decide)⟩).2.2
  · rfl

/-- Base64 text is made of whole chunks of its alphabet, and reads back as the bytes. -/
structure Text (bytes text : Bytes) : Prop where
  whole : text.length % 4 = 0
  letters : text.all isBase64Char = true
  reads : decodeBase64 text = some bytes

theorem encodeBase64_append {piece : Bytes} (full : piece.length = 3) (rest : Bytes) :
    encodeBase64 (piece ++ rest) = encodeChunk piece ++ encodeBase64 rest := by
  unfold encodeBase64
  rw [chunks_append full (by decide), List.flatMap_cons]

theorem decodeBase64_append (piece rest : Bytes) :
    decodeBase64 (encodeChunk piece ++ rest) = (do
      let bytes ← decodeChunk (chunks 4 rest).isEmpty (encodeChunk piece)
      return bytes ++ (← decodeBase64 rest)) := by
  unfold decodeBase64
  rw [chunks_append (encodeChunk_text piece).1 (by decide)]
  rfl

theorem encodeBase64_text (bytes : Bytes) : Text bytes (encodeBase64 bytes) := by
  induction bytes using chunks_induction 3 (by decide) with
  | nil => exact ⟨rfl, rfl, rfl⟩
  | short xs some_ less =>
    have one : encodeBase64 xs = encodeChunk xs := by
      unfold encodeBase64
      rw [chunks_short some_ (by omega)]
      exact List.append_nil _
    have text := encodeChunk_text xs
    rw [one]
    refine ⟨by rw [text.1], text.2, ?_⟩
    have read := decodeBase64_append xs []
    have chunk : decodeChunk (chunks 4 ([] : Bytes)).isEmpty (encodeChunk xs) = some xs :=
      decodeChunk_encodeChunk some_ (by omega) fun _ => rfl
    rw [List.append_nil] at read
    rw [read, chunk]
    show some (xs ++ []) = some xs
    rw [List.append_nil]
  | full piece rest full ih =>
    have text := encodeChunk_text piece
    rw [encodeBase64_append full]
    refine ⟨?_, ?_, ?_⟩
    · have whole := ih.whole
      rw [List.length_append, text.1]
      omega
    · rw [List.all_append, text.2, ih.letters]
      rfl
    · have some_ : piece ≠ [] := fun empty => by simp [empty] at full
      rw [decodeBase64_append, ih.reads,
        decodeChunk_encodeChunk some_ (by omega) fun short => absurd full (by omega)]
      rfl

end Base64

/-- Base64 text is always decoded. -/
theorem decodeEnvelopeBody_text (bytes : Bytes) : decodeEnvelopeBody (encodeBase64 bytes) = bytes := by
  have text := encodeBase64_text bytes
  unfold decodeEnvelopeBody
  rw [text.reads]
  split
  · rfl
  next raw =>
    have empty : encodeBase64 bytes = [] := by
      by_contra some_
      exact raw ⟨some_, text.whole, text.letters⟩
    have read := text.reads
    rw [empty] at read ⊢
    exact Option.some.inj read

/-- A sealed envelope is never mistaken for base64 text: the tag at byte 12 is no letter. -/
theorem decodeEnvelopeBody_sealed {envelope : Bytes} (isSealed : isSealedEnvelope envelope = true) :
    decodeEnvelopeBody envelope = envelope := by
  have shape := Bool.and_eq_true_iff.mp isSealed
  have long : 12 < envelope.length := by
    have least : MIN_SEALED_LEN ≤ envelope.length := of_decide_eq_true shape.1
    unfold MIN_SEALED_LEN at least
    omega
  have tag : isBase64Char (envelope.getD 12 0) = false := by
    rcases Bool.or_eq_true_iff.mp shape.2 with two | three
    · rw [eq_of_beq two]
      rfl
    · rw [eq_of_beq three]
      rfl
  unfold decodeEnvelopeBody
  rw [if_neg]
  rintro ⟨_, _, letters⟩
  have letter_ := List.all_eq_true.mp letters _ (List.getElem_mem long)
  rw [List.getD_eq_getElem _ _ long] at tag
  rw [tag] at letter_
  cases letter_

theorem comm_parses {ns : WireNamespace} {alias_ : String} {envelope wire : Bytes}
    (composed : composeCommWireIn ns alias_ envelope = .ok wire) :
    ∃ body text, parsePayloadIn wire = some (ns, "comm", body) ∧ splitCommBody body = some (alias_, text) ∧
      decodeEnvelopeBody text = envelope := by
  unfold composeCommWireIn at composed
  split at composed
  · cases composed
  next accepted =>
    obtain ⟨named, plain⟩ := not_or.mp accepted
    split at composed
    · cases composed
    · cases composed
      have parsed := parsePayloadIn_composed ns (utf8 "comm") (by decide) (by decide)
        (utf8 alias_ ++ COLON :: encodeBase64 envelope)
      have kind : fromUtf8Lossy (utf8 "comm") = "comm" := by decide +kernel
      rw [kind] at parsed
      exact ⟨_, _, parsed, splitCommBody_composed named plain _, decodeEnvelopeBody_text envelope⟩

theorem handshake_parses {envelope : Bytes} (isSealed : isSealedEnvelope envelope = true) :
    ∃ wire body, composeHandshakeWire envelope = .ok wire ∧
      parsePayloadIn wire = some (.ciphMsg, "handshake", body) ∧ decodeEnvelopeBody body = envelope := by
  have parsed := parsePayloadIn_composed .ciphMsg (utf8 "handshake") (by decide) (by decide) envelope
  have kind : fromUtf8Lossy (utf8 "handshake") = "handshake" := by decide +kernel
  rw [kind] at parsed
  exact ⟨_, envelope, if_pos isSealed, parsed, decodeEnvelopeBody_sealed isSealed⟩

theorem self_stash_parses {envelope : Bytes} (isSealed : isSealedEnvelope envelope = true) :
    ∃ wire body, composeSelfStashWire envelope = .ok wire ∧
      parsePayloadIn wire = some (.ciphMsg, "self_stash", body) ∧ stripStashScope body = some envelope := by
  have parsed := parsePayloadIn_composed .ciphMsg (utf8 "self_stash") (by decide) (by decide)
    (utf8 STASH_SCOPE_SAVED_HANDSHAKE ++ COLON :: envelope)
  have kind : fromUtf8Lossy (utf8 "self_stash") = "self_stash" := by decide +kernel
  have stripped := stripPrefix_append (utf8 STASH_SCOPE_SAVED_HANDSHAKE ++ [COLON]) envelope
  rw [kind] at parsed
  rw [List.append_assoc] at stripped
  exact ⟨_, _, if_pos isSealed, parsed, stripped⟩

/-- An encrypted kind's payload gives back what was composed: its namespace, its kind, and the
    envelope, behind the alias where it has one. -/
theorem encrypted_kinds_round_trip (envelope : Bytes) (isSealed : isSealedEnvelope envelope = true) :
    (∀ ns alias_, alias_ ≠ "" → COLON ∉ utf8 alias_ → ∃ wire, composeCommWireIn ns alias_ envelope = .ok wire) ∧
      (∀ ns alias_ wire, composeCommWireIn ns alias_ envelope = .ok wire →
        ∃ body text, parsePayloadIn wire = some (ns, "comm", body) ∧ splitCommBody body = some (alias_, text) ∧
          decodeEnvelopeBody text = envelope) ∧
      (∃ wire body, composeHandshakeWire envelope = .ok wire ∧
        parsePayloadIn wire = some (.ciphMsg, "handshake", body) ∧ decodeEnvelopeBody body = envelope) ∧
      (∃ wire body, composeSelfStashWire envelope = .ok wire ∧
        parsePayloadIn wire = some (.ciphMsg, "self_stash", body) ∧ stripStashScope body = some envelope) ∧
      decodeEnvelopeBody envelope = envelope ∧
      ∀ bytes, decodeEnvelopeBody (encodeBase64 bytes) = bytes := by
  refine ⟨?_, fun _ _ _ => comm_parses, handshake_parses isSealed, self_stash_parses isSealed,
    decodeEnvelopeBody_sealed isSealed, decodeEnvelopeBody_text⟩
  intro ns alias_ named plain
  have accepted : ¬(alias_ = "" ∨ COLON ∈ utf8 alias_) := not_or.mpr ⟨named, plain⟩
  unfold composeCommWireIn
  rw [if_neg accepted, isSealed, if_neg (by decide)]
  exact ⟨_, rfl⟩

/-- A sealed envelope that is base64 text but for its tag. -/
def tagged : Bytes := List.replicate 12 65 ++ 0x02 :: List.replicate 51 65

theorem encrypted_kinds_round_trip_tagged :
    decodeEnvelopeBody tagged = tagged ∧
      ∃ wire body text, composeCommWireIn .kChat "0a1b2c3d4e5f" tagged = .ok wire ∧
        parsePayloadIn wire = some (.kChat, "comm", body) ∧ splitCommBody body = some ("0a1b2c3d4e5f", text) ∧
        decodeEnvelopeBody text = tagged := by
  obtain ⟨composes, parses, _, _, raw, _⟩ := encrypted_kinds_round_trip tagged (by decide +kernel)
  obtain ⟨wire, composed⟩ := composes .kChat "0a1b2c3d4e5f" (by decide) (by decide +kernel)
  obtain ⟨body, text, parsed, split, opened⟩ := parses _ _ wire composed
  exact ⟨raw, wire, body, text, composed, parsed, split, opened⟩

end Kaspaverse.Transport
