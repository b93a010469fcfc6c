import Kaspaverse.Library.Json

namespace Kaspaverse.Core

inductive StashError
  | handshakeShape (what : String)
deriving DecidableEq

def PROTOCOL_VERSION : Nat := 1
def ALIAS_LEN : Nat := 6
def MAX_SNAPSHOT_ROWS : Nat := 128
def BOUND_BRANCH_RECEIVE : String := "receive"
def BOUND_BRANCH_CHANGE : String := "change"
def STASH_TAG_FIELD : String := "kvTag"
def TAG_BYTES : Nat := 32

structure SavedHandshakePayload where
  kind : Option String
  alias_ : String
  timestamp : Nat
  version : Option Nat
  theirAlias : Option String
  isResponse : Option Bool
  partnerAddress : String
  recipientAddress : String
  conversationId : Option String
  boundBranch : Option String
  boundIndex : Option Nat

/-- `u8::is_ascii_hexdigit`. -/
def isAsciiHexdigit (byte : UInt8) : Bool :=
  (decide (48 ≤ byte) && decide (byte ≤ 57)) || (decide (97 ≤ byte) && decide (byte ≤ 102)) ||
    (decide (65 ≤ byte) && decide (byte ≤ 70))

def validateAlias (text : String) : Except StashError Unit :=
  if (utf8 text).length ≠ ALIAS_LEN * 2 ∨ (utf8 text).all isAsciiHexdigit = false then
    .error (.handshakeShape "alias")
  else .ok ()

/-- `str::parse::<u64>`: an optional plus sign, then digits. -/
def parseU64 (text : String) : Option Nat :=
  let digits := if text.toList.head? = some '+' then text.toList.tail else text.toList
  if digits = [] ∨ digits.all (fun c => decide ('0' ≤ c) && decide (c ≤ '9')) = false then none
  else
    let n := digits.foldl (fun acc c => acc * 10 + (c.toNat - 48)) 0
    if n < 2 ^ 64 then some n else none

namespace SavedHandshakePayload

/-- The stash of one conversation. -/
def new (myAlias : String) (theirAlias : Option String) (partnerAddress conversationId boundBranch : String)
    (boundIndex : Nat) (isResponse : Bool) (timestampMs : Nat) : Except StashError SavedHandshakePayload :=
  (validateAlias myAlias).bind fun _ =>
    (theirAlias.elim (.ok ()) validateAlias).bind fun _ =>
      if utf8 partnerAddress = [] then .error (.handshakeShape "partner address")
      else if boundBranch ≠ BOUND_BRANCH_RECEIVE ∧ boundBranch ≠ BOUND_BRANCH_CHANGE then
        .error (.handshakeShape "bound branch")
      else
        .ok {
          kind := some "handshake"
          alias_ := myAlias
          timestamp := timestampMs
          version := some PROTOCOL_VERSION
          theirAlias := theirAlias
          isResponse := if isResponse then some true else none
          partnerAddress := partnerAddress
          recipientAddress := partnerAddress
          conversationId := some conversationId
          boundBranch := some boundBranch
          boundIndex := some boundIndex }

/-- A field that is left out where there is nothing to write. -/
def written (key : String) (value : Option JsonValue) : List (String × JsonValue) :=
  value.elim [] fun value => [(key, value)]

/-- The fields `serde_json` writes, in the order the struct declares them. -/
def fields (payload : SavedHandshakePayload) : List (String × JsonValue) :=
  written "type" (payload.kind.map .string) ++ [("alias", .string payload.alias_)] ++
    [("timestamp", .number payload.timestamp)] ++ written "version" (payload.version.map .number) ++
    written "theirAlias" (payload.theirAlias.map .string) ++
    written "isResponse" (payload.isResponse.map .bool) ++
    [("partnerAddress", .string payload.partnerAddress)] ++
    [("recipientAddress", .string payload.recipientAddress)] ++
    written "conversationId" (payload.conversationId.map .string) ++
    written "boundBranch" (payload.boundBranch.map .string) ++
    written "boundIndex" (payload.boundIndex.map .number)

def toPlaintext (payload : SavedHandshakePayload) : Bytes := JsonValue.emit (.object payload.fields)

/-- Either spelling of a key, the camel-case one first. -/
def pick (map : JsonValue) (camel snake : String) : Option JsonValue := (map.get camel).or (map.get snake)

def text (value : Option JsonValue) : Option String := value.bind JsonValue.asStr

def asU32 (value : JsonValue) : Option Nat := value.asU64.filter fun n => decide (n < 2 ^ 32)

def versionOf (map : JsonValue) : Except StashError (Option Nat) :=
  match map.get "version" with
  | none => .ok none
  | some .null => .ok none
  | some value => (asU32 value).elim (.error (.handshakeShape "version")) fun n => .ok (some n)

def knownBranch (branch : String) : Bool := decide (branch = BOUND_BRANCH_RECEIVE ∨ branch = BOUND_BRANCH_CHANGE)

def orRefuse {α : Type} (found : Option α) (what : String) : Except StashError α :=
  found.elim (.error (.handshakeShape what)) .ok

/-- What is read off a parsed value. -/
def fromValue (map : JsonValue) : Except StashError SavedHandshakePayload :=
  if map.isObject = false then .error (.handshakeShape "not an object")
  else
    (orRefuse (text (map.get "alias")) "alias missing").bind fun ours =>
    (orRefuse ((map.get "timestamp").bind fun v => v.asU64.or (v.asStr.bind parseU64)) "timestamp").bind
      fun timestamp =>
    (orRefuse (((text (pick map "partnerAddress" "partner_address")).or
        (text (pick map "recipientAddress" "recipient_address"))).filter fun address => utf8 address ≠ [])
        "partner address").bind fun partner =>
    (versionOf map).bind fun version =>
      let payload : SavedHandshakePayload := {
        kind := text (map.get "type")
        alias_ := ours
        timestamp := timestamp
        version := version
        theirAlias := text (pick map "theirAlias" "their_alias")
        isResponse := (pick map "isResponse" "is_response").bind JsonValue.asBool
        partnerAddress := partner
        recipientAddress := partner
        conversationId := text (pick map "conversationId" "conversation_id")
        boundBranch := (text (pick map "boundBranch" "bound_branch")).filter knownBranch
        boundIndex := (pick map "boundIndex" "bound_index").bind asU32 }
      (validateAlias payload.alias_).bind fun _ =>
        (payload.theirAlias.elim (.ok ()) validateAlias).bind fun _ =>
          if payload.version.any fun version => decide (PROTOCOL_VERSION < version) then
            .error (.handshakeShape "unsupported version")
          else .ok payload

/-- The bound slot, where both of its halves are there. -/
def boundSlot (payload : SavedHandshakePayload) : Option (String × Nat) :=
  match payload.boundBranch, payload.boundIndex with
  | some branch, some index => some (branch, index)
  | _, _ => none

end SavedHandshakePayload

structure SavedHandshakeSnapshot where
  head : SavedHandshakePayload
  conversations : List SavedHandshakePayload
  stashedAt : Option Nat

section Reading

-- `serde_json::from_slice`
variable (fromSlice : Bytes → Option JsonValue)

def SavedHandshakePayload.fromPlaintext (plaintext : Bytes) : Except StashError SavedHandshakePayload :=
  (SavedHandshakePayload.orRefuse (fromSlice plaintext) "json").bind SavedHandshakePayload.fromValue

namespace SavedHandshakeSnapshot

def new (rows : List SavedHandshakePayload) (stashedAtMs : Nat) : Except StashError SavedHandshakeSnapshot :=
  match rows with
  | [] => .error (.handshakeShape "empty snapshot")
  | head :: _ => .ok ⟨head, rows, some stashedAtMs⟩

/-- The array spliced into the head's own bytes. -/
def toPlaintext (snapshot : SavedHandshakeSnapshot) : Except StashError Bytes :=
  if snapshot.head.toPlaintext.getLast? ≠ some 125 then .error (.handshakeShape "serialize")
  else
    .ok (snapshot.head.toPlaintext.dropLast ++
      snapshot.stashedAt.elim [] (fun stashedAt => utf8 ",\"stashedAt\":" ++ utf8 (toString stashedAt)) ++
      utf8 ",\"conversations\":" ++ JsonValue.emit (.array (snapshot.conversations.map fun row => .object row.fields)) ++
      [125])

/-- A row that does not parse costs no other. -/
def fromPlaintext (plaintext : Bytes) : Except StashError SavedHandshakeSnapshot :=
  (SavedHandshakePayload.fromPlaintext fromSlice plaintext).bind fun head =>
    (SavedHandshakePayload.orRefuse (fromSlice plaintext) "json").bind fun value =>
      .ok {
        head := head
        conversations := (((value.get "conversations").bind JsonValue.asArray).getD []).take MAX_SNAPSHOT_ROWS
          |>.filterMap fun row => (SavedHandshakePayload.fromPlaintext fromSlice row.emit).toOption
        stashedAt := (value.get "stashedAt").bind JsonValue.asU64 }

def rows (snapshot : SavedHandshakeSnapshot) : List SavedHandshakePayload :=
  if snapshot.conversations = [] then [snapshot.head] else snapshot.conversations

end SavedHandshakeSnapshot

end Reading

section Tag

def hexDigit (n : Nat) : UInt8 := if n < 10 then UInt8.ofNat (48 + n) else UInt8.ofNat (87 + n)

def hexLower (bytes : Bytes) : Bytes :=
  bytes.flatMap fun byte => [hexDigit (byte.toNat / 16), hexDigit (byte.toNat % 16)]

/-- `,"kvTag":"`. -/
def tagHead : Bytes := utf8 (",\"" ++ STASH_TAG_FIELD ++ "\":\"")

/-- The tag in place of the closing brace, as the last key. -/
def attachStashTag (untagged tag : Bytes) : Except StashError Bytes :=
  if untagged.getLast? ≠ some 125 then .error (.handshakeShape "serialize")
  else .ok (untagged.dropLast ++ tagHead ++ hexLower tag ++ [34, 125])

/-- `char::to_digit(16)`. -/
def digitValue (byte : UInt8) : Option Nat :=
  if 48 ≤ byte ∧ byte ≤ 57 then some (byte.toNat - 48)
  else if 97 ≤ byte ∧ byte ≤ 102 then some (byte.toNat - 87)
  else if 65 ≤ byte ∧ byte ≤ 70 then some (byte.toNat - 55)
  else none

/-- `u8::from_str_radix` of two bytes at radix 16, which takes a leading plus sign. Bytes that are not
    UTF-8 hold no digit. -/
def fromStrRadix (first second : UInt8) : Option UInt8 :=
  if first = 43 then (digitValue second).map UInt8.ofNat
  else (digitValue first).bind fun high => (digitValue second).map fun low => UInt8.ofNat (16 * high + low)

/-- So many bytes, two digits each. -/
def readTag : Nat → Bytes → Option Bytes
  | 0, _ => some []
  | left + 1, first :: second :: rest =>
    (fromStrRadix first second).bind fun byte => (readTag left rest).map (byte :: ·)
  | _ + 1, _ => none

def stripPrefix (head text : Bytes) : Option Bytes :=
  if text.take head.length = head then some (text.drop head.length) else none

def stripSuffix (tail text : Bytes) : Option Bytes :=
  if tail.length ≤ text.length ∧ text.drop (text.length - tail.length) = tail then
    some (text.take (text.length - tail.length))
  else none

def suffixLen : Nat := tagHead.length + 64 + 2

/-- A tagged stash back into the bytes the tag was computed over and the tag. -/
def splitStashTag (plaintext : Bytes) : Option (Bytes × Bytes) :=
  if plaintext.length ≤ suffixLen then none
  else
    (stripPrefix tagHead (plaintext.drop (plaintext.length - suffixLen))).bind fun behind =>
      (stripSuffix [34, 125] behind).bind fun hex =>
        (readTag TAG_BYTES hex).bind fun tag =>
          if (plaintext.take (plaintext.length - suffixLen) ++ [125]).head? = some 123 then
            some (plaintext.take (plaintext.length - suffixLen) ++ [125], tag)
          else none

theorem stripPrefix_some {head text behind : Bytes} :
    stripPrefix head text = some behind ↔ text = head ++ behind := by
  unfold stripPrefix
  constructor
  · intro found
    split at found
    · rename_i starts
      cases found
      calc text = text.take head.length ++ text.drop head.length := (List.take_append_drop _ _).symm
        _ = head ++ text.drop head.length := by rw [starts]
    · cases found
  · rintro rfl
    simp

theorem stripSuffix_some {tail text before : Bytes} :
    stripSuffix tail text = some before ↔ text = before ++ tail := by
  unfold stripSuffix
  constructor
  · intro found
    split at found
    · rename_i ends
      cases found
      calc text = text.take (text.length - tail.length) ++ text.drop (text.length - tail.length) :=
            (List.take_append_drop _ _).symm
        _ = text.take (text.length - tail.length) ++ tail := by rw [ends.2]
    · cases found
  · rintro rfl
    simp

/-- What a split accepted. -/
theorem splitStashTag_some {plaintext untagged tag : Bytes} :
    splitStashTag plaintext = some (untagged, tag) ↔
      ∃ body hex, plaintext = body ++ tagHead ++ hex ++ [34, 125] ∧ hex.length = 64 ∧
        readTag TAG_BYTES hex = some tag ∧ body.head? = some 123 ∧ untagged = body ++ [125] := by
  constructor
  · intro found
    unfold splitStashTag at found
    split at found
    · cases found
    · rename_i long
      simp only [Option.bind_eq_some_iff] at found
      obtain ⟨behind, headed, hex, ended, tag', read, found⟩ := found
      rw [stripPrefix_some] at headed
      rw [stripSuffix_some] at ended
      split at found
      · rename_i opened
        cases found
        have lengths := congrArg List.length headed
        rw [ended] at lengths
        simp only [List.length_drop, List.length_append, List.length_cons, List.length_nil, suffixLen] at lengths long
        have filled : plaintext.take (plaintext.length - suffixLen) ≠ [] := by
          intro empty
          have size := congrArg List.length empty
          simp only [List.length_take, List.length_nil, suffixLen] at size
          omega
        refine ⟨plaintext.take (plaintext.length - suffixLen), hex, ?_, by omega, read, ?_, rfl⟩
        · rw [List.append_assoc, List.append_assoc, ← ended, ← headed, List.take_append_drop]
        · rwa [List.head?_append_of_ne_nil _ filled] at opened
      · cases found
  · rintro ⟨body, hex, rfl, sized, read, opened, rfl⟩
    have filled : body ≠ [] := by
      rintro rfl
      cases opened
    have some_ := List.length_pos_of_ne_nil filled
    have length : (body ++ tagHead ++ hex ++ [34, 125]).length = body.length + suffixLen := by
      simp only [List.length_append, List.length_cons, List.length_nil, suffixLen, sized]
      omega
    have cut : (body ++ tagHead ++ hex ++ [34, 125]).length - suffixLen = body.length := by omega
    have before : (body ++ tagHead ++ hex ++ [34, 125]).take body.length = body := by
      rw [List.append_assoc, List.append_assoc]
      exact List.take_left' rfl
    have behind : (body ++ tagHead ++ hex ++ [34, 125]).drop body.length = tagHead ++ (hex ++ [34, 125]) := by
      rw [List.append_assoc, List.append_assoc]
      exact List.drop_left' rfl
    unfold splitStashTag
    rw [if_neg (by omega), cut, before, behind, stripPrefix_some.2 rfl]
    simp only [Option.bind_some]
    rw [stripSuffix_some.2 rfl]
    simp only [Option.bind_some, read]
    rw [if_pos (by rw [List.head?_append_of_ne_nil _ filled]; exact opened)]

def isLowerHex (byte : UInt8) : Bool :=
  (decide (48 ≤ byte) && decide (byte ≤ 57)) || (decide (97 ≤ byte) && decide (byte ≤ 102))

theorem isLowerHex_hexDigit {n : Nat} (small : n < 16) : isLowerHex (hexDigit n) = true := by
  have all : ∀ n : Fin 16, isLowerHex (hexDigit n.val) = true := by decide
  exact all ⟨n, small⟩

theorem digitValue_hexDigit {n : Nat} (small : n < 16) : digitValue (hexDigit n) = some n := by
  have all : ∀ n : Fin 16, digitValue (hexDigit n.val) = some n.val := by decide
  exact all ⟨n, small⟩

theorem hexDigit_ne_plus {n : Nat} (small : n < 16) : hexDigit n ≠ 43 := by
  have all : ∀ n : Fin 16, hexDigit n.val ≠ 43 := by decide
  exact all ⟨n, small⟩

/-- A lower-case digit is the one its value is written with. -/
theorem lower_digit {byte : UInt8} (lower : isLowerHex byte = true) :
    ∃ n < 16, digitValue byte = some n ∧ hexDigit n = byte := by
  have all : ∀ n : Fin 256, isLowerHex (UInt8.ofNat n.val) = true →
      ∃ m : Fin 16, digitValue (UInt8.ofNat n.val) = some m.val ∧ hexDigit m.val = UInt8.ofNat n.val := by
    decide +kernel
  obtain ⟨m, value, digit⟩ := all ⟨byte.toNat, byte.toNat_lt⟩ (by simpa using lower)
  exact ⟨m.val, m.isLt, by simpa using value, by simpa using digit⟩

theorem fromStrRadix_hexDigit {high low : Nat} (high₁ : high < 16) (low₁ : low < 16) :
    fromStrRadix (hexDigit high) (hexDigit low) = some (UInt8.ofNat (16 * high + low)) := by
  rw [fromStrRadix, if_neg (hexDigit_ne_plus high₁), digitValue_hexDigit high₁, digitValue_hexDigit low₁]
  rfl

theorem length_hexLower (bytes : Bytes) : (hexLower bytes).length = 2 * bytes.length := by
  unfold hexLower
  induction bytes with
  | nil => rfl
  | cons byte rest ih =>
    simp only [List.flatMap_cons, List.length_append, List.length_cons, List.length_nil, ih]
    omega

theorem lower_hexLower (bytes : Bytes) : ∀ byte ∈ hexLower bytes, isLowerHex byte = true := by
  intro byte there
  obtain ⟨source, _, digit⟩ := List.mem_flatMap.1 there
  have bound := source.toNat_lt
  simp only [List.mem_cons, List.not_mem_nil, or_false] at digit
  rcases digit with rfl | rfl
  · exact isLowerHex_hexDigit (by omega)
  · exact isLowerHex_hexDigit (by omega)

theorem readTag_hexLower (bytes : Bytes) : readTag bytes.length (hexLower bytes) = some bytes := by
  induction bytes with
  | nil => rfl
  | cons byte rest ih =>
    have bound := byte.toNat_lt
    have pair : fromStrRadix (hexDigit (byte.toNat / 16)) (hexDigit (byte.toNat % 16)) = some byte := by
      rw [fromStrRadix_hexDigit (by omega) (by omega), Nat.div_add_mod]
      simp
    have shape : hexLower (byte :: rest) =
        hexDigit (byte.toNat / 16) :: hexDigit (byte.toNat % 16) :: hexLower rest := rfl
    rw [shape, List.length_cons, readTag, pair, Option.bind_some, ih]
    rfl

/-- Lower-case digits are the ones the tag is written with. -/
theorem hexLower_readTag {left : Nat} {hex tag : Bytes} (sized : hex.length = 2 * left)
    (read : readTag left hex = some tag) (lower : ∀ byte ∈ hex, isLowerHex byte = true) : hexLower tag = hex := by
  induction left generalizing hex tag with
  | zero =>
    cases read
    exact (List.eq_nil_of_length_eq_zero sized).symm
  | succ left ih =>
    match hex with
    | [] => simp at sized
    | [_] => simp at sized; omega
    | first :: second :: rest =>
      obtain ⟨high, high₁, highValue, rfl⟩ := lower_digit (lower first (by simp))
      obtain ⟨low, low₁, lowValue, rfl⟩ := lower_digit (lower second (by simp))
      rw [readTag, fromStrRadix_hexDigit high₁ low₁, Option.bind_some] at read
      obtain ⟨tail, behind, rfl⟩ := Option.map_eq_some_iff.1 read
      have rest := ih (by simp only [List.length_cons] at sized; omega) behind fun byte there => lower byte (by simp [there])
      have value : (UInt8.ofNat (16 * high + low)).toNat = 16 * high + low := by
        rw [UInt8.toNat_ofNat']
        omega
      have upper : (16 * high + low) / 16 = high := by omega
      have under : (16 * high + low) % 16 = low := by omega
      simp only [hexLower, List.flatMap_cons, value, upper, under, List.cons_append, List.nil_append,
        List.cons.injEq, true_and]
      exact rest

/-- The digits of the tag a tagged stash ends with. -/
def tagDigits (plaintext : Bytes) : Bytes := (plaintext.drop (plaintext.length - 66)).take 64

theorem tagDigits_tagged {body hex : Bytes} (sized : hex.length = 64) :
    tagDigits (body ++ tagHead ++ hex ++ [34, 125]) = hex := by
  have cut : (body ++ tagHead ++ hex ++ [34, 125]).length - 66 = (body ++ tagHead).length := by
    simp only [List.length_append, List.length_cons, List.length_nil, sized]
    omega
  unfold tagDigits
  rw [cut, List.append_assoc (body ++ tagHead), List.drop_left' rfl]
  exact List.take_left' sized

/-- A split byte string is the one its parts attach to exactly where its digits are lower-case. -/
theorem attach_split_iff {plaintext untagged tag : Bytes} (split : splitStashTag plaintext = some (untagged, tag)) :
    attachStashTag untagged tag = .ok plaintext ↔ ∀ byte ∈ tagDigits plaintext, isLowerHex byte = true := by
  obtain ⟨body, hex, rfl, sized, read, _, rfl⟩ := splitStashTag_some.1 split
  rw [tagDigits_tagged sized]
  have attached : attachStashTag (body ++ [125]) tag = .ok (body ++ tagHead ++ hexLower tag ++ [34, 125]) := by
    simp [attachStashTag]
  rw [attached]
  constructor
  · intro same
    have digits : hexLower tag = hex := by simpa using same
    rw [← digits]
    exact lower_hexLower tag
  · intro lower
    rw [@hexLower_readTag TAG_BYTES _ _ sized read lower]

theorem split_attach {body tag : Bytes} (opened : body.head? = some 123) (sized : tag.length = TAG_BYTES) :
    ∃ tagged, attachStashTag (body ++ [125]) tag = .ok tagged ∧
      splitStashTag tagged = some (body ++ [125], tag) := by
  refine ⟨body ++ tagHead ++ hexLower tag ++ [34, 125], by simp [attachStashTag], ?_⟩
  refine splitStashTag_some.2 ⟨body, hexLower tag, rfl, ?_, ?_, opened, rfl⟩
  · rw [length_hexLower, sized]
    rfl
  · rw [← sized]
    exact readTag_hexLower tag

end Tag

section Restoring

open SavedHandshakePayload

/-- A row as its constructor leaves it, its numbers within the widths the code gives them. -/
structure Built (payload : SavedHandshakePayload) : Prop where
  kind : payload.kind = some "handshake"
  aliased : validateAlias payload.alias_ = .ok ()
  timestamp : payload.timestamp < 2 ^ 64
  version : payload.version = some PROTOCOL_VERSION
  theirs : payload.theirAlias.elim (.ok ()) validateAlias = .ok ()
  response : payload.isResponse = some true ∨ payload.isResponse = none
  partner : utf8 payload.partnerAddress ≠ []
  recipient : payload.recipientAddress = payload.partnerAddress
  conversation : ∃ id, payload.conversationId = some id
  branch : ∃ branch, payload.boundBranch = some branch ∧ knownBranch branch = true
  index : ∃ index, payload.boundIndex = some index ∧ index < 2 ^ 32

theorem new_built {myAlias : String} {theirAlias : Option String}
    {partnerAddress conversationId boundBranch : String} {boundIndex : Nat} {isResponse : Bool} {timestampMs : Nat}
    {payload : SavedHandshakePayload} (narrow : boundIndex < 2 ^ 32) (timed : timestampMs < 2 ^ 64)
    (made : SavedHandshakePayload.new myAlias theirAlias partnerAddress conversationId boundBranch boundIndex
      isResponse timestampMs = .ok payload) : Built payload := by
  unfold SavedHandshakePayload.new at made
  cases ours : validateAlias myAlias with
  | error refused =>
    rw [ours] at made
    cases made
  | ok _ =>
    cases theirs : theirAlias.elim (.ok ()) validateAlias with
    | error refused =>
      rw [ours, theirs] at made
      cases made
    | ok _ =>
      simp only [ours, theirs, Except.bind] at made
      split at made
      · cases made
      · rename_i addressed
        split at made
        · cases made
        · rename_i branched
          cases made
          refine ⟨rfl, ours, timed, rfl, theirs, ?_, addressed, rfl, ⟨_, rfl⟩, ⟨_, rfl, ?_⟩, ⟨_, rfl, narrow⟩⟩
          · cases isResponse
            · exact .inr rfl
            · exact .inl rfl
          · unfold knownBranch
            rw [decide_eq_true_eq]
            tauto

/-- The keys the parser reads. -/
def spellings : List String :=
  ["type", "alias", "timestamp", "version", "theirAlias", "their_alias", "isResponse", "is_response",
    "partnerAddress", "partner_address", "recipientAddress", "recipient_address", "conversationId",
    "conversation_id", "boundBranch", "bound_branch", "boundIndex", "bound_index"]

/-- What the parser reads of a value is what the row wrote. -/
structure Shows (map : JsonValue) (payload : SavedHandshakePayload) : Prop where
  object : map.isObject = true
  reads : ∀ key ∈ spellings, map.get key = payload.fields.lookup key

theorem lookup_written (key : String) (value : Option JsonValue) : (SavedHandshakePayload.written key value).lookup key = value := by
  cases value with
  | none => rfl
  | some value => exact JsonValue.lookup_here key value []

theorem lookup_unwritten {key name : String} (apart : key ≠ name) (value : Option JsonValue) :
    (SavedHandshakePayload.written name value).lookup key = none := by
  cases value with
  | none => rfl
  | some value => exact JsonValue.lookup_there apart value []

/-- A row's own fields, each under the one spelling it writes. -/
def wrote (payload : SavedHandshakePayload) : String → Option JsonValue
  | "type" => payload.kind.map .string
  | "alias" => some (.string payload.alias_)
  | "timestamp" => some (.number payload.timestamp)
  | "version" => payload.version.map .number
  | "theirAlias" => payload.theirAlias.map .string
  | "isResponse" => payload.isResponse.map .bool
  | "partnerAddress" => some (.string payload.partnerAddress)
  | "recipientAddress" => some (.string payload.recipientAddress)
  | "conversationId" => payload.conversationId.map .string
  | "boundBranch" => payload.boundBranch.map .string
  | "boundIndex" => payload.boundIndex.map .number
  | _ => none

theorem fields_lookup (payload : SavedHandshakePayload) :
    ∀ key ∈ spellings, payload.fields.lookup key = wrote payload key := by
  intro key there
  simp only [spellings, List.mem_cons, List.not_mem_nil, or_false] at there
  rcases there with rfl | rfl | rfl | rfl | rfl | rfl | rfl | rfl | rfl | rfl | rfl | rfl | rfl | rfl | rfl | rfl |
    rfl | rfl <;>
    simp [fields, wrote, List.lookup_append, lookup_written, lookup_unwritten, JsonValue.lookup_there]

theorem fromValue_shown {map : JsonValue} {payload : SavedHandshakePayload} (shows : Shows map payload)
    (built : Built payload) : fromValue map = .ok payload := by
  have read (key : String) (there : key ∈ spellings) : map.get key = wrote payload key :=
    (shows.reads key there).trans (fields_lookup payload key there)
  obtain ⟨id, conversed⟩ := built.conversation
  obtain ⟨branch, branched, known⟩ := built.branch
  obtain ⟨index, indexed, narrow⟩ := built.index
  have ours : text (map.get "alias") = some payload.alias_ := by
    rw [read "alias" (by decide)]
    rfl
  have timed : ((map.get "timestamp").bind fun v => v.asU64.or (v.asStr.bind parseU64)) = some payload.timestamp := by
    rw [read "timestamp" (by decide)]
    simp only [wrote, Option.bind_some, JsonValue.asU64, if_pos built.timestamp, Option.some_or]
  have partner : ((text (pick map "partnerAddress" "partner_address")).or
      (text (pick map "recipientAddress" "recipient_address"))).filter (fun address => utf8 address ≠ []) =
      some payload.partnerAddress := by
    have first : text (pick map "partnerAddress" "partner_address") = some payload.partnerAddress := by
      rw [pick, read "partnerAddress" (by decide)]
      rfl
    rw [first, Option.some_or, Option.filter_some, if_pos (by simpa using built.partner)]
  have version : versionOf map = .ok payload.version := by
    rw [versionOf, read "version" (by decide), wrote, built.version]
    rfl
  have theirs : text (pick map "theirAlias" "their_alias") = payload.theirAlias := by
    rw [pick, read "theirAlias" (by decide), read "their_alias" (by decide)]
    cases named : payload.theirAlias <;> simp [wrote, named, text, JsonValue.asStr]
  have response : (pick map "isResponse" "is_response").bind JsonValue.asBool = payload.isResponse := by
    rw [pick, read "isResponse" (by decide), read "is_response" (by decide)]
    cases answered : payload.isResponse <;> simp [wrote, answered, JsonValue.asBool]
  have conversation : text (pick map "conversationId" "conversation_id") = payload.conversationId := by
    rw [pick, read "conversationId" (by decide), conversed]
    simp [wrote, conversed, text, JsonValue.asStr]
  have bound : (text (pick map "boundBranch" "bound_branch")).filter knownBranch = payload.boundBranch := by
    rw [pick, read "boundBranch" (by decide), branched]
    simp [wrote, branched, text, JsonValue.asStr, Option.filter_some, known]
  have slot : (pick map "boundIndex" "bound_index").bind asU32 = payload.boundIndex := by
    have wide : index < 2 ^ 64 := by omega
    rw [pick, read "boundIndex" (by decide), indexed]
    simp only [wrote, indexed, Option.map_some, Option.some_or, Option.bind_some, asU32, JsonValue.asU64, if_pos wide,
      Option.filter_some]
    rw [if_pos (by simpa using narrow)]
  have kind : text (map.get "type") = payload.kind := by
    rw [read "type" (by decide), wrote, built.kind]
    rfl
  unfold fromValue
  rw [if_neg (by rw [shows.object]; simp)]
  simp only [ours, timed, partner, version, theirs, response, conversation, bound, slot, kind, orRefuse,
    Option.elim_some, Except.bind, built.aliased, built.theirs]
  rw [if_neg (by rw [built.version]; decide)]
  have recipient := built.recipient
  obtain ⟨kind, ours, timestamp, version, theirAlias, isResponse, partner, recipient', rest⟩ := payload
  simp only at recipient
  rw [recipient]

/-- Every key a row may write, in order. -/
def rowKeys : List String :=
  ["type", "alias", "timestamp", "version", "theirAlias", "isResponse", "partnerAddress", "recipientAddress",
    "conversationId", "boundBranch", "boundIndex"]

theorem written_keys (key : String) (value : Option JsonValue) : ((SavedHandshakePayload.written key value).map Prod.fst).Sublist [key] := by
  cases value with
  | none => exact List.nil_sublist _
  | some value => exact List.Sublist.refl _

theorem fields_keys (payload : SavedHandshakePayload) : (payload.fields.map Prod.fst).Sublist rowKeys := by
  simp only [fields, List.map_append]
  exact ((((((((((written_keys _ _).append (.refl _)).append (.refl _)).append (written_keys _ _)).append
    (written_keys _ _)).append (written_keys _ _)).append (.refl _)).append (.refl _)).append
    (written_keys _ _)).append (written_keys _ _)).append (written_keys _ _)

theorem fields_ne_nil (payload : SavedHandshakePayload) : payload.fields ≠ [] := by
  simp [fields]

theorem wrote_sorted (payload : SavedHandshakePayload) {key : String} (there : key ∈ spellings) :
    (wrote payload key).map JsonValue.sorted = wrote payload key := by
  simp only [spellings, List.mem_cons, List.not_mem_nil, or_false] at there
  rcases there with rfl | rfl | rfl | rfl | rfl | rfl | rfl | rfl | rfl | rfl | rfl | rfl | rfl | rfl | rfl | rfl |
    rfl | rfl <;>
    simp [wrote, JsonValue.sorted, Function.comp_def]

/-- The tag's digits as a text. -/
def tagText (tag : Bytes) : String := String.ofList ((hexLower tag).map fun byte => Char.ofNat byte.toNat)

theorem utf8_lowerText {digits : Bytes} (lower : ∀ byte ∈ digits, isLowerHex byte = true) :
    utf8 (String.ofList (digits.map fun byte => Char.ofNat byte.toNat)) = digits := by
  have single : ∀ n : Fin 256, isLowerHex (UInt8.ofNat n.val) = true →
      String.utf8EncodeChar (Char.ofNat n.val) = [UInt8.ofNat n.val] := by
    decide +kernel
  rw [utf8_eq, String.toList_ofList]
  induction digits with
  | nil => rfl
  | cons byte rest ih =>
    have first := single ⟨byte.toNat, byte.toNat_lt⟩ (by simpa using lower byte (by simp))
    have behind := ih fun other there => lower other (by simp [there])
    simp only [List.map_cons, List.flatMap_cons, behind]
    simp only [UInt8.ofNat_toNat] at first
    rw [first]
    rfl

theorem quote_tagText (tag : Bytes) : JsonValue.quote (tagText tag) = 34 :: hexLower tag ++ [34] := by
  have lower := lower_hexLower tag
  have plain : ∀ n : Fin 256, isLowerHex (UInt8.ofNat n.val) = true →
      JsonValue.escapeByte (UInt8.ofNat n.val) = [UInt8.ofNat n.val] := by
    decide +kernel
  have escaped : ∀ digits : Bytes, (∀ byte ∈ digits, isLowerHex byte = true) →
      digits.flatMap JsonValue.escapeByte = digits := by
    intro digits lower
    induction digits with
    | nil => rfl
    | cons byte rest ih =>
      have first := plain ⟨byte.toNat, byte.toNat_lt⟩ (by simpa using lower byte (by simp))
      have behind := ih fun other there => lower other (by simp [there])
      simp only [UInt8.ofNat_toNat] at first
      rw [List.flatMap_cons, first, behind]
      rfl
  rw [JsonValue.quote, tagText, utf8_lowerText lower, escaped _ lower]

def rowsJson (rows : List SavedHandshakePayload) : JsonValue := .array (rows.map fun row => .object row.fields)

/-- What a snapshot writes behind its head. -/
def snapshotFields (rows : List SavedHandshakePayload) (stashedAt : Nat) : List (String × JsonValue) :=
  [("stashedAt", .number stashedAt), ("conversations", rowsJson rows)]

/-- A tagged stash as one value. -/
def taggedJson (head : SavedHandshakePayload) (rows : List SavedHandshakePayload) (stashedAt : Nat) (tag : Bytes) :
    JsonValue :=
  .object (head.fields ++ snapshotFields rows stashedAt ++ [("kvTag", .string (tagText tag))])

theorem toPlaintext_spliced (head : SavedHandshakePayload) (rows : List SavedHandshakePayload) (stashedAt : Nat) :
    SavedHandshakeSnapshot.toPlaintext ⟨head, rows, some stashedAt⟩ =
      .ok (JsonValue.emit (.object (head.fields ++ snapshotFields rows stashedAt))) := by
  have closed : head.toPlaintext.getLast? = some 125 := JsonValue.getLast?_emit_object _
  have keyed : JsonValue.quote "stashedAt" = utf8 "\"stashedAt\"" := by decide +kernel
  have keyed' : JsonValue.quote "conversations" = utf8 "\"conversations\"" := by decide +kernel
  have first : utf8 ",\"stashedAt\":" = 44 :: utf8 "\"stashedAt\"" ++ [58] := by decide +kernel
  have second : utf8 ",\"conversations\":" = 44 :: utf8 "\"conversations\"" ++ [58] := by decide +kernel
  rw [SavedHandshakeSnapshot.toPlaintext, if_neg (by rw [closed]; simp),
    JsonValue.emit_object_append (fields_ne_nil head) (by simp [snapshotFields])]
  simp only [snapshotFields, JsonValue.emitFields, JsonValue.joined, keyed, keyed', first, second, Option.elim_some,
    JsonValue.emit, rowsJson, SavedHandshakePayload.toPlaintext]
  simp

theorem attach_tagged (head : SavedHandshakePayload) (rows : List SavedHandshakePayload) (stashedAt : Nat)
    (tag : Bytes) :
    attachStashTag (JsonValue.emit (.object (head.fields ++ snapshotFields rows stashedAt))) tag =
      .ok (taggedJson head rows stashedAt tag).emit := by
  have closed := JsonValue.getLast?_emit_object (head.fields ++ snapshotFields rows stashedAt)
  have keyed : JsonValue.quote "kvTag" = utf8 "\"kvTag\"" := by decide +kernel
  have headed : tagHead = 44 :: utf8 "\"kvTag\"" ++ [58, 34] := by decide +kernel
  have filled : head.fields ++ snapshotFields rows stashedAt ≠ [] := by simp [fields_ne_nil]
  have last : [("kvTag", JsonValue.string (tagText tag))] ≠ [] := by simp
  have spliced := JsonValue.emit_object_append filled last
  rw [attachStashTag, if_neg (by rw [closed]; simp), taggedJson, spliced]
  simp only [JsonValue.emitFields, JsonValue.joined, keyed, headed, JsonValue.emit, quote_tagText]
  simp

theorem lookup_extra {payload : SavedHandshakePayload} {extra : List (String × JsonValue)}
    (apart : ∀ key ∈ spellings, extra.lookup key = none) {key : String} (there : key ∈ spellings) :
    (payload.fields ++ extra).lookup key = payload.fields.lookup key := by
  rw [List.lookup_append, apart key there, Option.or_none]

/-- A row's own object shows the row, with more keys behind it and however its keys are ordered. -/
theorem shows_sorted (payload : SavedHandshakePayload) {extra : List (String × JsonValue)}
    (apart : ∀ key ∈ spellings, extra.lookup key = none)
    (distinct : ((payload.fields ++ extra).map Prod.fst).Nodup) :
    Shows (JsonValue.sorted (.object (payload.fields ++ extra))) payload where
  object := by
    rw [JsonValue.sorted]
    rfl
  reads key there := by
    rw [JsonValue.get_sorted distinct, lookup_extra apart there, fields_lookup payload key there,
      wrote_sorted payload there]

theorem distinct_fields (payload : SavedHandshakePayload) : (payload.fields.map Prod.fst).Nodup :=
  (fields_keys payload).nodup (by decide)

/-- Sorting twice is sorting once, as far as the parser can tell. -/
theorem shows_resorted (payload : SavedHandshakePayload) : Shows (JsonValue.sorted (.object payload.fields)).sorted payload := by
  have arranged := JsonValue.byKey_perm (JsonValue.sortedFields payload.fields)
  have keys : ((JsonValue.sortedFields payload.fields).map Prod.fst).Nodup := by
    simpa [JsonValue.sortedFields_eq, Function.comp_def] using distinct_fields payload
  have keys' := (arranged.map Prod.fst).nodup_iff.2 keys
  constructor
  · simp only [JsonValue.sorted]
    rfl
  · intro key there
    have once : (JsonValue.byKey (JsonValue.sortedFields payload.fields)).lookup key =
        (payload.fields.lookup key).map JsonValue.sorted := by
      have found := JsonValue.get_sorted (distinct_fields payload) key
      rwa [JsonValue.sorted, JsonValue.get] at found
    rw [show JsonValue.sorted (.object payload.fields) =
      .object (JsonValue.byKey (JsonValue.sortedFields payload.fields)) from by rw [JsonValue.sorted],
      JsonValue.get_sorted keys', once, fields_lookup payload key there, wrote_sorted payload there,
      wrote_sorted payload there]

/-- `serde_json` reads a compact text back as the value it was written from, its keys in order. -/
def ReadsBack (fromSlice : Bytes → Option JsonValue) (written : JsonValue) : Prop :=
  fromSlice written.emit = some written.sorted

/-- What a restore of a tagged stash has `serde_json` read: the stash, and each row out of it. -/
def stashReads (head : SavedHandshakePayload) (rows : List SavedHandshakePayload) (stashedAt : Nat) (tag : Bytes) :
    List JsonValue :=
  taggedJson head rows stashedAt tag :: rows.map fun row => JsonValue.sorted (.object row.fields)

theorem fromPlaintext_row {fromSlice : Bytes → Option JsonValue} {row : SavedHandshakePayload} (built : Built row)
    (reads : ReadsBack fromSlice (JsonValue.sorted (.object row.fields))) :
    SavedHandshakePayload.fromPlaintext fromSlice (JsonValue.sorted (.object row.fields)).emit = .ok row := by
  rw [SavedHandshakePayload.fromPlaintext, reads]
  exact fromValue_shown (shows_resorted row) built

theorem distinct_tagged (head : SavedHandshakePayload) (rows : List SavedHandshakePayload) (stashedAt : Nat)
    (tag : Bytes) :
    ((head.fields ++ (snapshotFields rows stashedAt ++ [("kvTag", JsonValue.string (tagText tag))])).map
      Prod.fst).Nodup := by
  have keys := fields_keys head
  rw [List.map_append]
  have all : (head.fields.map Prod.fst ++ ["stashedAt", "conversations", "kvTag"]).Sublist
      (rowKeys ++ ["stashedAt", "conversations", "kvTag"]) := keys.append (.refl _)
  exact all.nodup (by decide)

/-- The tagged bytes read back as the snapshot. -/
theorem fromPlaintext_tagged {fromSlice : Bytes → Option JsonValue} {head : SavedHandshakePayload}
    {rows : List SavedHandshakePayload} {stashedAt : Nat} {tag : Bytes} (headed : Built head)
    (built : ∀ row ∈ rows, Built row) (few : rows.length ≤ MAX_SNAPSHOT_ROWS) (timed : stashedAt < 2 ^ 64)
    (reads : ∀ doc ∈ stashReads head rows stashedAt tag, ReadsBack fromSlice doc) :
    SavedHandshakeSnapshot.fromPlaintext fromSlice (taggedJson head rows stashedAt tag).emit =
      .ok ⟨head, rows, some stashedAt⟩ := by
  have whole := reads _ (List.mem_cons_self ..)
  have distinct := distinct_tagged head rows stashedAt tag
  have extra : ∀ key ∈ spellings,
      (snapshotFields rows stashedAt ++ [("kvTag", JsonValue.string (tagText tag))]).lookup key = none := by
    intro key there
    simp only [spellings, List.mem_cons, List.not_mem_nil, or_false] at there
    rcases there with rfl | rfl | rfl | rfl | rfl | rfl | rfl | rfl | rfl | rfl | rfl | rfl | rfl | rfl | rfl | rfl |
      rfl | rfl <;>
      simp [snapshotFields, JsonValue.lookup_there]
  have parsed : SavedHandshakePayload.fromPlaintext fromSlice (taggedJson head rows stashedAt tag).emit = .ok head := by
    rw [SavedHandshakePayload.fromPlaintext, whole, taggedJson, List.append_assoc]
    exact fromValue_shown (shows_sorted head extra distinct) headed
  have found (key : String) (apart : key ∉ rowKeys) : (taggedJson head rows stashedAt tag).sorted.get key =
      ((snapshotFields rows stashedAt ++ [("kvTag", JsonValue.string (tagText tag))]).lookup key).map JsonValue.sorted := by
    have own : head.fields.lookup key = none := by
      cases there : head.fields.lookup key with
      | none => rfl
      | some value =>
        have named : key ∈ head.fields.map Prod.fst := List.mem_map.2 ⟨_, JsonValue.mem_of_lookup there, rfl⟩
        exact absurd ((fields_keys head).subset named) apart
    rw [taggedJson, List.append_assoc, JsonValue.get_sorted distinct, List.lookup_append, own, Option.none_or]
  have listed : ((taggedJson head rows stashedAt tag).sorted.get "conversations").bind JsonValue.asArray =
      some (rows.map fun row => JsonValue.sorted (.object row.fields)) := by
    rw [found "conversations" (by decide)]
    simp [snapshotFields, JsonValue.lookup_there, rowsJson, JsonValue.sorted, JsonValue.asArray]
  have dated : ((taggedJson head rows stashedAt tag).sorted.get "stashedAt").bind JsonValue.asU64 = some stashedAt := by
    rw [found "stashedAt" (by decide)]
    simp only [snapshotFields, List.cons_append, JsonValue.lookup_here, Option.map_some, JsonValue.sorted, Option.bind_some,
      JsonValue.asU64, if_pos timed]
  have each : (rows.map fun row => JsonValue.sorted (.object row.fields)).filterMap
      (fun row => (SavedHandshakePayload.fromPlaintext fromSlice row.emit).toOption) = rows := by
    have restored : ∀ row ∈ rows,
        (SavedHandshakePayload.fromPlaintext fromSlice (JsonValue.sorted (.object row.fields)).emit).toOption =
          some row := by
      intro row there
      have read := reads _ (List.mem_cons_of_mem _ (List.mem_map.2 ⟨row, there, rfl⟩))
      rw [fromPlaintext_row (built row there) read]
      rfl
    rw [List.filterMap_map]
    exact (List.filterMap_congr restored).trans List.filterMap_some
  rw [SavedHandshakeSnapshot.fromPlaintext, parsed, whole]
  simp only [Except.bind, orRefuse, Option.elim_some, listed, dated, Option.getD_some]
  rw [List.take_of_length_le (by simpa using few), each]

end Restoring

section Backup

/-- A row its constructor made. -/
def Constructed (row : SavedHandshakePayload) : Prop :=
  ∃ myAlias theirAlias partnerAddress conversationId boundBranch boundIndex isResponse timestampMs,
    boundIndex < 2 ^ 32 ∧ timestampMs < 2 ^ 64 ∧
      SavedHandshakePayload.new myAlias theirAlias partnerAddress conversationId boundBranch boundIndex isResponse
        timestampMs = .ok row

def LowerTag (plaintext : Bytes) : Prop := ∀ byte ∈ tagDigits plaintext, isLowerHex byte = true

/-- A stash restores what was backed up. A split byte string is the one its parts attach to exactly where
    the digits of its tag are lower-case. -/
theorem stash_restores_and_tag_is_exact (fromSlice : Bytes → Option JsonValue) :
    (∀ rows stashedAt tag, rows ≠ [] → rows.length ≤ MAX_SNAPSHOT_ROWS → (∀ row ∈ rows, Constructed row) →
      stashedAt < 2 ^ 64 → tag.length = TAG_BYTES →
      ∃ snapshot untagged tagged, SavedHandshakeSnapshot.new rows stashedAt = .ok snapshot ∧
        snapshot.toPlaintext = .ok untagged ∧ attachStashTag untagged tag = .ok tagged ∧
        splitStashTag tagged = some (untagged, tag) ∧
        ((∀ doc ∈ stashReads snapshot.head rows stashedAt tag, ReadsBack fromSlice doc) →
          ∃ restored, SavedHandshakeSnapshot.fromPlaintext fromSlice tagged = .ok restored ∧
            restored.rows = rows ∧ restored.head = snapshot.head ∧ restored.stashedAt = snapshot.stashedAt)) ∧
    (∀ plaintext untagged tag, splitStashTag plaintext = some (untagged, tag) →
      (attachStashTag untagged tag = .ok plaintext ↔ LowerTag plaintext)) ∧
    ∀ plaintext other content, splitStashTag plaintext = some content → splitStashTag other = some content →
      LowerTag plaintext → LowerTag other → plaintext = other := by
  refine ⟨?_, fun plaintext untagged tag split => attach_split_iff split, ?_⟩
  · intro rows stashedAt tag filled few constructed timed sized
    have built : ∀ row ∈ rows, Built row := by
      intro row there
      obtain ⟨_, _, _, _, _, _, _, _, narrow, early, made⟩ := constructed row there
      exact new_built narrow early made
    obtain ⟨head, rest, rfl⟩ := List.exists_cons_of_ne_nil filled
    have headed := built head (by simp)
    have shape : JsonValue.emit (.object (head.fields ++ snapshotFields (head :: rest) stashedAt)) =
        (123 :: JsonValue.joined (JsonValue.emitFields (head.fields ++ snapshotFields (head :: rest) stashedAt))) ++ [125] := by
      simp only [JsonValue.emit]
    have attached := attach_tagged head (head :: rest) stashedAt tag
    refine ⟨⟨head, head :: rest, some stashedAt⟩, _, _, rfl, toPlaintext_spliced _ _ _, attached, ?_, ?_⟩
    · rw [shape] at attached ⊢
      obtain ⟨tagged, same, split⟩ := @split_attach
        (123 :: JsonValue.joined (JsonValue.emitFields (head.fields ++ snapshotFields (head :: rest) stashedAt))) tag rfl sized
      rw [attached] at same
      cases same
      exact split
    · intro reads
      refine ⟨⟨head, head :: rest, some stashedAt⟩, fromPlaintext_tagged headed built few timed reads, ?_, rfl, rfl⟩
      rw [SavedHandshakeSnapshot.rows, if_neg (by simp)]
  · intro plaintext other content split split' lower lower'
    obtain ⟨untagged, tag⟩ := content
    have one := (attach_split_iff split).2 lower
    have another := (attach_split_iff split').2 lower'
    rw [one] at another
    exact Except.ok.inj another

/-- One conversation's row. -/
def oneRow : SavedHandshakePayload :=
  ⟨some "handshake", "aaaaaaaaaaaa", 5000, some 1, none, none, "kaspa:one", "kaspa:one", some "id1", some "receive",
    some 0⟩

def oneTag : Bytes := List.replicate TAG_BYTES 171

/-- What `serde_json` reads of one stash: the stash itself, and its row. -/
def oneFromSlice (text : Bytes) : Option JsonValue :=
  if text = (taggedJson oneRow [oneRow] 5000 oneTag).emit then some (taggedJson oneRow [oneRow] 5000 oneTag).sorted
  else if text = (JsonValue.sorted (.object oneRow.fields)).emit then some (JsonValue.sorted (.object oneRow.fields)).sorted
  else none

theorem stash_restores_and_tag_is_exact_oneRow :
    ∃ snapshot untagged tagged, SavedHandshakeSnapshot.new [oneRow] 5000 = .ok snapshot ∧
      snapshot.toPlaintext = .ok untagged ∧ attachStashTag untagged oneTag = .ok tagged ∧
      splitStashTag tagged = some (untagged, oneTag) ∧
      ∃ restored, SavedHandshakeSnapshot.fromPlaintext oneFromSlice tagged = .ok restored ∧
        restored.rows = [oneRow] := by
  obtain ⟨snapshot, untagged, tagged, made, written, attached, split, restores⟩ :=
    (stash_restores_and_tag_is_exact oneFromSlice).1 [oneRow] 5000 oneTag (by simp) (by decide)
      (by
        intro row there
        obtain rfl := List.mem_singleton.1 there
        exact ⟨"aaaaaaaaaaaa", none, "kaspa:one", "id1", "receive", 0, false, 5000, by decide, by decide, rfl⟩)
      (by decide) (by decide)
  refine ⟨snapshot, untagged, tagged, made, written, attached, split, ?_⟩
  cases made
  obtain ⟨restored, parsed, same, _⟩ := restores (by
    intro doc there
    simp only [stashReads, List.map_cons, List.map_nil, List.mem_cons, List.not_mem_nil, or_false] at there
    rcases there with rfl | rfl
    · rw [ReadsBack, oneFromSlice, if_pos rfl]
    · have apart : (JsonValue.sorted (.object oneRow.fields)).emit ≠ (taggedJson oneRow [oneRow] 5000 oneTag).emit := by
        decide +kernel
      rw [ReadsBack, oneFromSlice, if_neg apart, if_pos rfl])
  exact ⟨restored, parsed, same⟩

/-- The same tag in upper-case digits. -/
def upperTagged : Bytes := utf8 "\x7b\"a\":1" ++ tagHead ++ (List.replicate TAG_BYTES [65, 66]).flatten ++ [34, 125]

/-- Upper-case digits read as a tag, and are not what the tag attaches as: two byte strings carry it. -/
theorem upper_tag_reads :
    ∃ untagged tagged, splitStashTag upperTagged = some (untagged, oneTag) ∧
      attachStashTag untagged oneTag = .ok tagged ∧ tagged ≠ upperTagged ∧
      splitStashTag tagged = some (untagged, oneTag) := by
  refine ⟨utf8 "\x7b\"a\":1\x7d", utf8 "\x7b\"a\":1" ++ tagHead ++ hexLower oneTag ++ [34, 125], ?_, ?_, ?_, ?_⟩ <;>
    decide +kernel

end Backup

end Kaspaverse.Core
