import Mathlib.Data.List.Sort
import Kaspaverse.Chain.Coins

namespace Kaspaverse.Chain

/-- The text forms of hashes and addresses, which the node's own crates print and parse. -/
structure TextForms where
  hash : TransactionId → String
  parseHash : String → Option TransactionId
  address : Address → String
  parseAddress : String → Option Address
  parse_hash : ∀ id, parseHash (hash id) = some id
  parse_address : ∀ a, parseAddress (address a) = some a

namespace SendsStore

def hexDigits : List Char := "0123456789abcdef".toList

def hexPair (byte : UInt8) : List Char :=
  [hexDigits.getD (byte.toNat / 16) '0', hexDigits.getD (byte.toNat % 16) '0']

def toHex (bytes : List UInt8) : String := String.ofList (bytes.flatMap hexPair)

def digitValue (c : Char) : Option Nat :=
  if '0' ≤ c ∧ c ≤ '9' then some (c.toNat - 48)
  else if 'a' ≤ c ∧ c ≤ 'f' then some (c.toNat - 87)
  else if 'A' ≤ c ∧ c ≤ 'F' then some (c.toNat - 55)
  else none

/-- `u8::from_str_radix` of two characters at radix 16, which takes a leading plus sign. -/
def fromStrRadix (first second : Char) : Option UInt8 :=
  if first = '+' then (digitValue second).map UInt8.ofNat
  else (digitValue first).bind fun high => (digitValue second).map fun low =>
    UInt8.ofNat (16 * high + low)

def fromHexPairs : List Char → Option (List UInt8)
  | [] => some []
  | [_] => none
  | first :: second :: rest => (fromStrRadix first second).bind fun byte =>
      (fromHexPairs rest).map (byte :: ·)

def fromHex (text : String) : Option (List UInt8) := fromHexPairs text.toList

theorem fromStrRadix_hexPair (byte : UInt8) :
    fromStrRadix (hexDigits.getD (byte.toNat / 16) '0') (hexDigits.getD (byte.toNat % 16) '0') =
      some byte := by
  have all : ∀ n : Fin 256, fromStrRadix (hexDigits.getD (n.val / 16) '0')
      (hexDigits.getD (n.val % 16) '0') = some (UInt8.ofNat n.val) := by
    decide +kernel
  have this := all ⟨byte.toNat, byte.toNat_lt⟩
  simpa using this

theorem fromHex_toHex (bytes : List UInt8) : fromHex (toHex bytes) = some bytes := by
  unfold fromHex toHex
  rw [String.toList_ofList]
  induction bytes with
  | nil => rfl
  | cons byte bytes ih =>
    have pair := fromStrRadix_hexPair byte
    simp only [List.flatMap_cons, hexPair, List.cons_append, List.nil_append, fromHexPairs]
    rw [pair, Option.bind_some, ih]
    rfl

/-- The `width` low bytes of `n`, the highest first. -/
def bytesOf (n : Nat) : Nat → List UInt8
  | 0 => []
  | width + 1 => bytesOf (n / 256) width ++ [UInt8.ofNat (n % 256)]

def valueOf (bytes : List UInt8) : Nat := bytes.foldl (fun value byte => 256 * value + byte.toNat) 0

theorem valueOf_bytesOf {width n : Nat} (fits : n < 256 ^ width) : valueOf (bytesOf n width) = n := by
  induction width generalizing n with
  | zero =>
    rw [Nat.pow_zero] at fits
    have zero : n = 0 := by omega
    rw [zero]
    rfl
  | succ width ih =>
    have high : n / 256 < 256 ^ width := by
      rw [Nat.pow_succ] at fits
      exact Nat.div_lt_of_lt_mul (by omega)
    have low : (UInt8.ofNat (n % 256)).toNat = n % 256 := by
      have small := Nat.mod_lt n (show 0 < 256 by omega)
      exact UInt8.toNat_ofNat_of_lt' small
    have value := ih high
    unfold valueOf at value ⊢
    rw [bytesOf, List.foldl_append, value, List.foldl_cons, List.foldl_nil, low]
    omega

/-- Hashes as 64 hex digits; addresses, whose own form has a checksum, as the hex of their bytes. -/
def hexForms : TextForms where
  hash := fun id => toHex (bytesOf id.toNat 32)
  parseHash := fun text => (fromHex text).bind fun bytes =>
    if bytes.length = 32 then some (BitVec.ofNat 256 (valueOf bytes)) else none
  address := fun a => toHex (a.version :: a.payload)
  parseAddress := fun text => (fromHex text).bind fun bytes =>
    bytes.head?.map fun version => ⟨version, bytes.tail⟩
  parse_hash := by
    intro id
    have length : ∀ n width, (bytesOf n width).length = width := by
      intro n width
      induction width generalizing n with
      | zero => rfl
      | succ width ih => simp [bytesOf, ih]
    have fits : id.toNat < 256 ^ 32 := lt_of_lt_of_le id.isLt (by decide)
    rw [fromHex_toHex, Option.bind_some, if_pos (length _ _), valueOf_bytesOf fits,
      BitVec.ofNat_toNat, BitVec.setWidth_eq]
  parse_address := by
    intro a
    rw [fromHex_toHex, Option.bind_some]
    rfl

structure CoinRecord where
  txid : String
  index : Nat
  amount : Nat
  address : Option String
  scriptVersion : Nat
  script : String
  blockDaaScore : Nat
  isCoinbase : Bool
  covenantId : Option String
  deriving DecidableEq

/-- A text that is there must parse; one that is not is no error. -/
def parseOptional {α : Type} (parse : String → Option α) : Option String → Option (Option α)
  | none => some none
  | some text => (parse text).map some

theorem parseOptional_map {α : Type} {parse : String → Option α} {print : α → String}
    (round : ∀ a, parse (print a) = some a) (value : Option α) :
    parseOptional parse (value.map print) = some value := by
  cases value with
  | none => rfl
  | some a => simp only [Option.map_some, parseOptional, round]

def CoinRecord.of (forms : TextForms) (coin : UtxoEntryReference) : CoinRecord where
  txid := forms.hash coin.id.transactionId
  index := coin.id.index
  amount := coin.amount
  address := coin.address.map forms.address
  scriptVersion := coin.scriptVersion
  script := toHex coin.script
  blockDaaScore := coin.blockDaaScore
  isCoinbase := coin.isCoinbase
  covenantId := coin.covenantId.map forms.hash

def CoinRecord.coin (forms : TextForms) (record : CoinRecord) : Option UtxoEntryReference := do
  let address ← parseOptional forms.parseAddress record.address
  let covenantId ← parseOptional forms.parseHash record.covenantId
  let script ← fromHex record.script
  let transactionId ← forms.parseHash record.txid
  return {
    id := ⟨transactionId, record.index⟩
    amount := record.amount
    address := address
    scriptVersion := record.scriptVersion
    script := script
    blockDaaScore := record.blockDaaScore
    isCoinbase := record.isCoinbase
    covenantId := covenantId }

theorem coin_of (forms : TextForms) (coin : UtxoEntryReference) :
    (CoinRecord.of forms coin).coin forms = some coin := by
  have address := parseOptional_map forms.parse_address coin.address
  have covenant := parseOptional_map forms.parse_hash coin.covenantId
  simp only [CoinRecord.coin, CoinRecord.of, address, covenant, fromHex_toHex, forms.parse_hash,
    bind, pure, Option.bind_some]

inductive LegState
  | submitting
  | sent
  | unknown
  deriving DecidableEq

structure OutputRecord where
  index : Nat
  value : Nat
  address : Option String
  deriving DecidableEq

structure LegRecord where
  txid : String
  state : LegState
  paidTo : String
  direct : List CoinRecord
  earlier : List CoinRecord
  outputs : List OutputRecord
  sinceUnixMs : Nat
  sinceDaa : Nat
  deriving DecidableEq

structure LandedRecord where
  paidTo : String
  atUnixMs : Nat
  deriving DecidableEq

structure RetiredRecord where
  txid : String
  paidTo : String
  atUnixMs : Nat
  deriving DecidableEq

structure SpentRecord where
  txid : String
  index : Nat
  seenAtDaa : Nat
  seenAtMs : Nat
  deriving DecidableEq

structure Sends where
  legs : List LegRecord
  landed : List LandedRecord
  retired : List RetiredRecord
  deriving DecidableEq

def Sends.default : Sends := ⟨[], [], []⟩

def FORMAT : Nat := 1

/-- Either file as read back, its records still raw. -/
structure Envelope (Value : Type) where
  format : Nat
  network : String
  legs : List Value
  landed : List Value
  retired : List Value
  coins : List Value

structure SendsOut where
  format : Nat
  network : String
  sends : Sends
  deriving DecidableEq

/-- What the two files are written and read with: an object's records read back as they were
    written, and no object is empty. -/
structure Json where
  Value : Type
  fromSlice : List UInt8 → Option (Envelope Value)
  legRecord : Value → Option LegRecord
  landedRecord : Value → Option LandedRecord
  retiredRecord : Value → Option RetiredRecord
  toVec : SendsOut → Option (List UInt8)
  fromSlice_nil : fromSlice [] = none
  fromSlice_toVec : ∀ out bytes, toVec out = some bytes → ∃ envelope,
    fromSlice bytes = some envelope ∧ envelope.format = out.format ∧
      envelope.network = out.network ∧
      envelope.legs.map legRecord = out.sends.legs.map some ∧
      envelope.landed.map landedRecord = out.sends.landed.map some ∧
      envelope.retired.map retiredRecord = out.sends.retired.map some

def encodeSends (json : Json) (network : String) (sends : Sends) : Option (List UInt8) :=
  json.toVec ⟨FORMAT, network, sends⟩

/-- What stands at a path. -/
inductive Contents
  | absent
  | directory
  | file (bytes : List UInt8)
  deriving DecidableEq

/-- What reading one file found. -/
inductive Read (Value : Type)
  | absent
  | found (envelope : Envelope Value) (bytes : List UInt8)
  | kept

/-- What the file system refuses a load: the read, and the rename that sets a file aside. -/
structure Refusals where
  read : Bool
  aside : Bool

variable (json : Json)

def setAside (refusals : Refusals) (contents : Contents) : Read json.Value × Contents :=
  if refusals.aside then (.kept, contents) else (.absent, .absent)

/-- The object these bytes hold, if it is of this format and of `network`. -/
def legible (network : String) (bytes : List UInt8) : Option (Envelope json.Value) :=
  (json.fromSlice bytes).filter fun envelope =>
    envelope.format == FORMAT && envelope.network == network

/-- Read one file, and what that leaves at the path. -/
def readEnvelope (network : String) (refusals : Refusals) :
    Contents → Read json.Value × Contents
  | .absent => if refusals.read then (.kept, .absent) else (.absent, .absent)
  | .directory => setAside json refusals .directory
  | .file bytes =>
    if refusals.read then (.kept, .file bytes)
    else match legible json network bytes with
      | some envelope => (.found envelope bytes, .file bytes)
      | none => setAside json refusals (.file bytes)

structure Loaded (α : Type) where
  records : α
  bytes : List UInt8
  kept : Bool

/-- The records of `values` that decode. -/
def decode {α : Type} (record : json.Value → Option α) (values : List json.Value) : List α :=
  values.filterMap record

def loadSends (network : String) (refusals : Refusals) (contents : Contents) :
    Loaded Sends × Contents :=
  match readEnvelope json network refusals contents with
  | (.absent, after) => (⟨.default, [], false⟩, after)
  | (.kept, after) => (⟨.default, [], true⟩, after)
  | (.found envelope bytes, after) =>
    (⟨⟨decode json json.legRecord envelope.legs, decode json json.landedRecord envelope.landed,
      decode json json.retiredRecord envelope.retired⟩, bytes, false⟩, after)

theorem legible_nil (network : String) : legible json network [] = none := by
  rw [legible, json.fromSlice_nil]
  rfl

theorem decode_map {α : Type} {record : json.Value → Option α} {values : List json.Value}
    {records : List α} (h : values.map record = records.map some) :
    decode json record values = records := by
  have joined : (values.map record).filterMap id = (records.map some).filterMap id :=
    congrArg (List.filterMap id) h
  rw [List.filterMap_map, List.filterMap_map] at joined
  calc values.filterMap record = values.filterMap (id ∘ record) := rfl
    _ = records.filterMap (id ∘ some) := joined
    _ = records := List.filterMap_some

theorem legible_encodeSends {network : String} {sends : Sends} {bytes : List UInt8}
    (encoded : encodeSends json network sends = some bytes) :
    ∃ envelope, legible json network bytes = some envelope ∧
      decode json json.legRecord envelope.legs = sends.legs ∧
      decode json json.landedRecord envelope.landed = sends.landed ∧
      decode json json.retiredRecord envelope.retired = sends.retired := by
  obtain ⟨envelope, read, format, ofNetwork, legs, landed, retired⟩ :=
    json.fromSlice_toVec _ _ encoded
  refine ⟨envelope, ?_, decode_map json legs, decode_map json landed, decode_map json retired⟩
  rw [legible, read]
  simp [format, ofNetwork]

theorem loadSends_encodeSends {network : String} {sends : Sends} {bytes : List UInt8}
    {refusals : Refusals} (encoded : encodeSends json network sends = some bytes)
    (reads : refusals.read = false) :
    loadSends json network refusals (.file bytes) = (⟨sends, bytes, false⟩, .file bytes) := by
  obtain ⟨envelope, read, legs, landed, retired⟩ := legible_encodeSends json encoded
  simp only [loadSends, readEnvelope, reads, read, legs, landed, retired, Bool.false_eq_true,
    if_false]

inductive TableValue
  | leg (record : LegRecord)
  | landed (record : LandedRecord)
  | retired (record : RetiredRecord)

def TableValue.leg? : TableValue → Option LegRecord
  | .leg record => some record
  | _ => none

def TableValue.landed? : TableValue → Option LandedRecord
  | .landed record => some record
  | _ => none

def TableValue.retired? : TableValue → Option RetiredRecord
  | .retired record => some record
  | _ => none

/-- The reader and writer that know the objects of `table` and no other. -/
def Json.ofTable (table : List (SendsOut × List UInt8)) : Json where
  Value := TableValue
  fromSlice := fun bytes =>
    if bytes = [] then none
    else (table.find? (·.2 == bytes)).map fun entry =>
      ⟨entry.1.format, entry.1.network, entry.1.sends.legs.map .leg,
        entry.1.sends.landed.map .landed, entry.1.sends.retired.map .retired, []⟩
  legRecord := TableValue.leg?
  landedRecord := TableValue.landed?
  retiredRecord := TableValue.retired?
  toVec := fun out => (table.find? fun entry =>
    entry.1 == out && entry.2 != [] && (table.find? (·.2 == entry.2)).map Prod.fst == some out).map
      Prod.snd
  fromSlice_nil := by simp
  fromSlice_toVec := by
    intro out bytes written
    obtain ⟨entry, found, rfl⟩ := Option.map_eq_some_iff.mp written
    have accepted := List.find?_some found
    simp only [Bool.and_eq_true, beq_iff_eq, bne_iff_ne, ne_eq] at accepted
    obtain ⟨⟨_, nonempty⟩, readBack⟩ := accepted
    obtain ⟨first, firstFound, rfl⟩ := Option.map_eq_some_iff.mp readBack
    refine ⟨_, by rw [if_neg nonempty, firstFound]; rfl, rfl, rfl, ?_, ?_, ?_⟩ <;>
      rw [List.map_map] <;> rfl

/-- The bytes of a text of one-byte characters. -/
def asciiBytes (text : String) : List UInt8 := text.toList.map fun c => UInt8.ofNat c.toNat

def jsonText (text : String) : String := "\"" ++ text ++ "\""

def jsonOptional (text : Option String) : String := (text.map jsonText).getD "null"

def jsonList {α : Type} (print : α → String) (values : List α) : String :=
  "[" ++ ",".intercalate (values.map print) ++ "]"

def jsonObject (fields : List (String × String)) : String :=
  "\x7b" ++ ",".intercalate (fields.map fun field => jsonText field.1 ++ ":" ++ field.2) ++ "\x7d"

def CoinRecord.text (coin : CoinRecord) : String := jsonObject
  [("txid", jsonText coin.txid), ("index", toString coin.index), ("amount", toString coin.amount),
    ("address", jsonOptional coin.address), ("script_version", toString coin.scriptVersion),
    ("script", jsonText coin.script), ("block_daa_score", toString coin.blockDaaScore),
    ("is_coinbase", toString coin.isCoinbase), ("covenant_id", jsonOptional coin.covenantId)]

def LegState.text : LegState → String
  | .submitting => jsonText "submitting"
  | .sent => jsonText "sent"
  | .unknown => jsonText "unknown"

def OutputRecord.text (output : OutputRecord) : String := jsonObject
  [("index", toString output.index), ("value", toString output.value),
    ("address", jsonOptional output.address)]

def LegRecord.text (leg : LegRecord) : String := jsonObject
  [("txid", jsonText leg.txid), ("state", leg.state.text), ("paid_to", jsonText leg.paidTo),
    ("direct", jsonList CoinRecord.text leg.direct), ("earlier", jsonList CoinRecord.text leg.earlier),
    ("outputs", jsonList OutputRecord.text leg.outputs), ("since_unix_ms", toString leg.sinceUnixMs),
    ("since_daa", toString leg.sinceDaa)]

def LandedRecord.text (notice : LandedRecord) : String := jsonObject
  [("paid_to", jsonText notice.paidTo), ("at_unix_ms", toString notice.atUnixMs)]

def RetiredRecord.text (entry : RetiredRecord) : String := jsonObject
  [("txid", jsonText entry.txid), ("paid_to", jsonText entry.paidTo),
    ("at_unix_ms", toString entry.atUnixMs)]

/-- The object as it is written, where no text of it needs an escape. -/
def SendsOut.text (out : SendsOut) : String := jsonObject
  [("format", toString out.format), ("network", jsonText out.network),
    ("legs", jsonList LegRecord.text out.sends.legs),
    ("landed", jsonList LandedRecord.text out.sends.landed),
    ("retired", jsonList RetiredRecord.text out.sends.retired)]

theorem asciiBytes_text (out : SendsOut) : asciiBytes out.text ≠ [] := by
  simp [asciiBytes, SendsOut.text, jsonObject]

/-- The reader and writer that know one object. -/
def Json.of (out : SendsOut) : Json := Json.ofTable [(out, asciiBytes out.text)]

theorem encodeSends_of (network : String) (sends : Sends) :
    encodeSends (Json.of ⟨FORMAT, network, sends⟩) network sends =
      some (asciiBytes (SendsOut.text ⟨FORMAT, network, sends⟩)) := by
  have some_ := asciiBytes_text ⟨FORMAT, network, sends⟩
  simp [encodeSends, Json.of, Json.ofTable, some_]

end SendsStore

end Kaspaverse.Chain
