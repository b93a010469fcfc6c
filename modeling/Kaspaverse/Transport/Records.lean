import Kaspaverse.Library.Coded
import Kaspaverse.Transport.Store

namespace Kaspaverse.Transport

open Kvlog (Codec Frame)

section Variants

def KeyBranch.tag : KeyBranch → UInt8
  | .receive => 0
  | .change => 1

def KeyBranch.ofTag (tag : UInt8) : Option KeyBranch :=
  if tag = 0 then some .receive else if tag = 1 then some .change else none

def MessageDirection.tag : MessageDirection → UInt8
  | .inbound => 0
  | .outbound => 1

def MessageDirection.ofTag (tag : UInt8) : Option MessageDirection :=
  if tag = 0 then some .inbound else if tag = 1 then some .outbound else none

def StoredKind.tag : StoredKind → UInt8
  | .handshake => 0
  | .comm => 1
  | .legacy => 2

def StoredKind.ofTag (tag : UInt8) : Option StoredKind :=
  if tag = 0 then some .handshake else if tag = 1 then some .comm else if tag = 2 then some .legacy else none

def RowSource.tag : RowSource → UInt8
  | .unknown => 0
  | .own => 1
  | .nodeScanned => 2
  | .fillSourced => 3

def RowSource.ofTag (tag : UInt8) : Option RowSource :=
  if tag = 0 then some .unknown else if tag = 1 then some .own
  else if tag = 2 then some .nodeScanned else if tag = 3 then some .fillSourced else none

def WireNamespace.tag : WireNamespace → UInt8
  | .ciphMsg => 0
  | .kChat => 1

def WireNamespace.ofTag (tag : UInt8) : Option WireNamespace :=
  if tag = 0 then some .ciphMsg else if tag = 1 then some .kChat else none

@[simp] theorem KeyBranch.ofTag_tag (branch : KeyBranch) : ofTag branch.tag = some branch := by
  cases branch <;> decide

@[simp] theorem MessageDirection.ofTag_tag (direction : MessageDirection) :
    ofTag direction.tag = some direction := by
  cases direction <;> decide

@[simp] theorem StoredKind.ofTag_tag (kind : StoredKind) : ofTag kind.tag = some kind := by
  cases kind <;> decide

@[simp] theorem RowSource.ofTag_tag (source : RowSource) : ofTag source.tag = some source := by
  cases source <;> decide

@[simp] theorem WireNamespace.ofTag_tag (wire : WireNamespace) : ofTag wire.tag = some wire := by
  cases wire <;> decide

theorem RowSource.ofTag_some {tag : UInt8} {source : RowSource} (known : ofTag tag = some source) :
    tag = source.tag := by
  unfold ofTag at known
  split at known
  · cases known; assumption
  · split at known
    · cases known; assumption
    · split at known
      · cases known; assumption
      · split at known
        · cases known; assumption
        · cases known

theorem WireNamespace.ofTag_some {tag : UInt8} {wire : WireNamespace} (known : ofTag tag = some wire) :
    tag = wire.tag := by
  unfold ofTag at known
  split at known
  · cases known; assumption
  · split at known
    · cases known; assumption
    · cases known

theorem RowSource.ofTag_none {tag : UInt8} (outside : 4 ≤ tag) : ofTag tag = none := by
  cases known : ofTag tag with
  | none => rfl
  | some source =>
    rw [ofTag_some known] at outside
    cases source <;> exact absurd outside (by decide)

theorem WireNamespace.ofTag_none {tag : UInt8} (outside : 2 ≤ tag) : ofTag tag = none := by
  cases known : ofTag tag with
  | none => rfl
  | some wire =>
    rw [ofTag_some known] at outside
    cases wire <;> exact absurd outside (by decide)

end Variants

/-- The eight fields that every version of a record has. -/
abbrev EightFields :=
  String × String × MessageDirection × StoredKind × Bytes × Nat × Option String × Option (KeyBranch × Nat)

def direction : Field MessageDirection := .tagged MessageDirection.tag MessageDirection.ofTag MessageDirection.ofTag_tag

def storedKind : Field StoredKind := .tagged StoredKind.tag StoredKind.ofTag StoredKind.ofTag_tag

def keyBranch : Field KeyBranch := .tagged KeyBranch.tag KeyBranch.ofTag KeyBranch.ofTag_tag

/-- The eight, in the order they are declared. -/
def eightFields : Field EightFields :=
  .pair .string <| .pair .string <| .pair direction <| .pair storedKind <| .pair .counted <| .pair (.le 8) <|
    .pair (.optional .string) (.optional (.pair keyBranch (.le 4)))

namespace MessageRecord

def eight (record : MessageRecord) : EightFields :=
  (record.txid, record.conversationId, record.direction, record.kind, record.envelope, record.unixMs,
    record.aliasOnWire, record.sealedTo)

def ofEight : EightFields → RowSource → WireNamespace → MessageRecord
  | (txid, conversationId, direction, kind, envelope, unixMs, aliasOnWire, sealedTo), provenance, wire =>
    ⟨txid, conversationId, direction, kind, envelope, unixMs, aliasOnWire, sealedTo, provenance, wire⟩

/-- One tag at the end of the input, or its absence. -/
def trailing {α : Type} (ofTag : UInt8 → Option α) (absent : α) : Bytes → Option (α × Bytes)
  | [] => some (absent, [])
  | tag :: rest => (ofTag tag).map fun value => (value, rest)

def serialize (record : MessageRecord) : Except String Bytes := do
  let fields ← eightFields.write record.eight
  return fields ++ [record.provenance.tag, record.wire.tag]

def deserializeReader (input : Bytes) : Option (MessageRecord × Bytes) := do
  let (fields, input) ← eightFields.read input
  -- a record written before this field was there ends here
  let (provenance, input) ← trailing RowSource.ofTag .unknown input
  let (wire, input) ← trailing WireNamespace.ofTag .ciphMsg input
  return (ofEight fields provenance wire, input)

/-- `try_from_slice`: a record, and nothing behind it. -/
def tryFromSlice (input : Bytes) : Option MessageRecord := do
  let (record, rest) ← deserializeReader input
  if rest = [] then some record else none

theorem serialize_ok {record : MessageRecord} {bytes : Bytes} (encoded : record.serialize = .ok bytes) :
    ∃ fields, eightFields.write record.eight = .ok fields ∧
      bytes = fields ++ [record.provenance.tag, record.wire.tag] := by
  unfold serialize at encoded
  cases written : eightFields.write record.eight with
  | error reason =>
    rw [written] at encoded
    cases encoded
  | ok fields =>
    rw [written] at encoded
    cases encoded
    exact ⟨fields, rfl, rfl⟩

/-- What may stand behind the eight fields, and the record it makes. -/
def completed (fields : EightFields) : Bytes → Option MessageRecord
  | [] => some (ofEight fields .unknown .ciphMsg)
  | [source] => (RowSource.ofTag source).map fun provenance => ofEight fields provenance .ciphMsg
  | [source, namespace_] => (RowSource.ofTag source).bind fun provenance =>
    (WireNamespace.ofTag namespace_).map fun wire => ofEight fields provenance wire
  | _ => none

theorem tryFromSlice_eight {record : MessageRecord} {fields : Bytes}
    (written : eightFields.write record.eight = .ok fields) (behind : Bytes) :
    tryFromSlice (fields ++ behind) = completed record.eight behind := by
  unfold tryFromSlice deserializeReader
  rw [eightFields.reads written]
  rcases behind with _ | ⟨source, _ | ⟨namespace_, _ | ⟨more, rest⟩⟩⟩
  · rfl
  · show (((RowSource.ofTag source).map _).bind _).bind _ = (RowSource.ofTag source).map _
    cases RowSource.ofTag source <;> rfl
  · show (((RowSource.ofTag source).map _).bind _).bind _ = (RowSource.ofTag source).bind _
    cases RowSource.ofTag source with
    | none => rfl
    | some provenance =>
      show (((WireNamespace.ofTag namespace_).map _).bind _).bind _ = (WireNamespace.ofTag namespace_).map _
      cases WireNamespace.ofTag namespace_ <;> rfl
  · show (((RowSource.ofTag source).map _).bind _).bind _ = none
    cases RowSource.ofTag source with
    | none => rfl
    | some provenance =>
      show (((WireNamespace.ofTag namespace_).map _).bind _).bind _ = none
      cases WireNamespace.ofTag namespace_ <;> rfl

theorem tryFromSlice_torn {record : MessageRecord} {fields : Bytes}
    (written : eightFields.write record.eight = .ok fields) {n : Nat} (short : n < fields.length) :
    tryFromSlice (fields.take n) = none := by
  unfold tryFromSlice deserializeReader
  rw [eightFields.read_torn written short]
  rfl

theorem tryFromSlice_serialize {record : MessageRecord} {bytes : Bytes}
    (encoded : record.serialize = .ok bytes) : tryFromSlice bytes = some record := by
  obtain ⟨fields, written, rfl⟩ := serialize_ok encoded
  rw [tryFromSlice_eight written]
  show (RowSource.ofTag record.provenance.tag).bind _ = _
  rw [RowSource.ofTag_tag, Option.bind_some, WireNamespace.ofTag_tag]
  rfl

/-- The code a log of messages is written in. -/
def codec : Codec MessageRecord where
  encode := serialize
  decode := tryFromSlice
  inverts _ _ := tryFromSlice_serialize

/-- What a frame of the message log decodes to. -/
def decodeFrame (body : Bytes) : Option (Frame MessageRecord) := Frame.tryFromSlice codec body

theorem decodeFrame_eight {record : MessageRecord} {fields : Bytes}
    (written : eightFields.write record.eight = .ok fields) (behind : Bytes) :
    decodeFrame (0 :: (fields ++ behind)) = (completed record.eight behind).map .upsert :=
  congrArg (Option.map Frame.upsert) (tryFromSlice_eight written behind)

theorem decodeFrame_torn {record : MessageRecord} {fields : Bytes}
    (written : eightFields.write record.eight = .ok fields) {n : Nat} (short : n < fields.length + 1)
    (behind : Bytes) : decodeFrame ((0 :: (fields ++ behind)).take n) = none := by
  cases n with
  | zero => rfl
  | succ n =>
    have inside : n < fields.length := Nat.lt_of_succ_lt_succ short
    rw [List.take_succ_cons, List.take_append_of_le_length (by omega)]
    exact congrArg (Option.map Frame.upsert) (tryFromSlice_torn written inside)

theorem completed_length {fields : EightFields} {behind : Bytes} {record : MessageRecord}
    (done : completed fields behind = some record) : behind.length ≤ 2 := by
  rcases behind with _ | ⟨source, _ | ⟨namespace_, _ | ⟨more, rest⟩⟩⟩
  · exact Nat.zero_le 2
  · exact Nat.le_succ 1
  · exact Nat.le_refl 2
  · cases done

theorem completed_source {fields : EightFields} {source : UInt8} {behind : Bytes} {record : MessageRecord}
    (done : completed fields (source :: behind) = some record) :
    ∃ provenance : RowSource, source = provenance.tag := by
  rcases behind with _ | ⟨namespace_, _ | ⟨more, rest⟩⟩
  · obtain ⟨provenance, known, _⟩ := Option.map_eq_some_iff.mp done
    exact ⟨provenance, RowSource.ofTag_some known⟩
  · obtain ⟨provenance, known, _⟩ := Option.bind_eq_some_iff.mp done
    exact ⟨provenance, RowSource.ofTag_some known⟩
  · cases done

theorem completed_wire {fields : EightFields} {source namespace_ : UInt8} {behind : Bytes}
    {record : MessageRecord} (done : completed fields (source :: namespace_ :: behind) = some record) :
    ∃ wire : WireNamespace, namespace_ = wire.tag := by
  cases behind with
  | nil =>
    obtain ⟨provenance, _, done⟩ := Option.bind_eq_some_iff.mp done
    obtain ⟨wire, known, _⟩ := Option.map_eq_some_iff.mp done
    exact ⟨wire, WireNamespace.ofTag_some known⟩
  | cons more rest => cases done

/-- Each version decodes to the record with what it lacks at its default. Nothing shorter decodes, and
    nothing longer but a later version. -/
theorem record_versions_decode (record : MessageRecord) (bytes : Bytes) (encoded : record.serialize = .ok bytes) :
    ∃ fields, bytes = fields ++ [record.provenance.tag, record.wire.tag] ∧
      decodeFrame (0 :: bytes) = some (.upsert record) ∧
      decodeFrame (0 :: (fields ++ [record.provenance.tag])) = some (.upsert { record with wire := .ciphMsg }) ∧
      decodeFrame (0 :: fields) = some (.upsert { record with provenance := .unknown, wire := .ciphMsg }) ∧
      (∀ n, n < (0 :: fields).length → decodeFrame ((0 :: bytes).take n) = none) ∧
      (∀ extra, extra ≠ [] → decodeFrame (0 :: (bytes ++ extra)) = none) ∧
      (∀ extra frame, decodeFrame (0 :: (fields ++ record.provenance.tag :: extra)) = some frame →
        extra = [] ∨ ∃ wire : WireNamespace, extra = [wire.tag]) ∧
      (∀ extra frame, decodeFrame (0 :: (fields ++ extra)) = some frame →
        extra = [] ∨ (∃ provenance : RowSource, extra = [provenance.tag]) ∨
          ∃ (provenance : RowSource) (wire : WireNamespace), extra = [provenance.tag, wire.tag]) ∧
      (∀ tag extra, 4 ≤ tag → decodeFrame (0 :: (fields ++ tag :: extra)) = none) ∧
      ∀ source tag extra, 2 ≤ tag → decodeFrame (0 :: (fields ++ source :: tag :: extra)) = none := by
  obtain ⟨fields, written, rfl⟩ := serialize_ok encoded
  have behind := decodeFrame_eight written
  have source : ∀ tag extra, 4 ≤ tag → decodeFrame (0 :: (fields ++ tag :: extra)) = none := by
    intro tag extra outside
    rw [behind]
    cases done : completed record.eight (tag :: extra) with
    | none => rfl
    | some held =>
      obtain ⟨provenance, rfl⟩ := completed_source done
      cases provenance <;> exact absurd outside (by decide)
  have namespaced : ∀ source tag extra, 2 ≤ tag →
      decodeFrame (0 :: (fields ++ source :: tag :: extra)) = none := by
    intro source tag extra outside
    rw [behind]
    cases done : completed record.eight (source :: tag :: extra) with
    | none => rfl
    | some held =>
      obtain ⟨wire, rfl⟩ := completed_wire done
      cases wire <;> exact absurd outside (by decide)
  have every : ∀ extra frame, decodeFrame (0 :: (fields ++ extra)) = some frame →
      extra = [] ∨ (∃ provenance : RowSource, extra = [provenance.tag]) ∨
        ∃ (provenance : RowSource) (wire : WireNamespace), extra = [provenance.tag, wire.tag] := by
    intro extra frame decoded
    rw [behind] at decoded
    obtain ⟨held, done, _⟩ := Option.map_eq_some_iff.mp decoded
    have short := completed_length done
    rcases extra with _ | ⟨source, _ | ⟨namespace_, _ | ⟨more, rest⟩⟩⟩
    · exact Or.inl rfl
    · obtain ⟨provenance, rfl⟩ := completed_source done
      exact Or.inr (Or.inl ⟨provenance, rfl⟩)
    · obtain ⟨provenance, rfl⟩ := completed_source done
      obtain ⟨wire, rfl⟩ := completed_wire done
      exact Or.inr (Or.inr ⟨provenance, wire, rfl⟩)
    · simp only [List.length_cons] at short
      omega
  refine ⟨fields, rfl, ?_, ?_, ?_, ?_, ?_, ?_, every, source, namespaced⟩
  · exact congrArg (Option.map Frame.upsert) (tryFromSlice_serialize encoded)
  · rw [behind]
    show ((RowSource.ofTag record.provenance.tag).map _).map _ = _
    rw [RowSource.ofTag_tag]
    rfl
  · have none_ := behind []
    rw [List.append_nil] at none_
    exact none_
  · intro n short
    exact decodeFrame_torn written short _
  · intro extra some_
    cases decoded : decodeFrame (0 :: (fields ++ [record.provenance.tag, record.wire.tag] ++ extra)) with
    | none => rfl
    | some frame =>
      rw [List.append_assoc] at decoded
      rcases every _ frame decoded with none_ | ⟨provenance, one⟩ | ⟨provenance, wire, two⟩
      · cases none_
      · exact absurd (List.cons.inj one).2 (List.cons_ne_nil _ _)
      · exact absurd (List.cons.inj (List.cons.inj two).2).2 some_
  · intro extra frame decoded
    rcases every _ frame decoded with none_ | ⟨provenance, one⟩ | ⟨provenance, wire, two⟩
    · cases none_
    · exact Or.inl (List.cons.inj one).2
    · exact Or.inr ⟨wire, (List.cons.inj two).2⟩

/-- A message of two letters, sent by us. -/
def short : MessageRecord := ⟨"t", "c", .outbound, .comm, [104, 105], 7, some "a", some (.change, 2), .own, .kChat⟩

def shortBytes : Bytes :=
  [1, 0, 0, 0, 116, 1, 0, 0, 0, 99, 1, 1, 2, 0, 0, 0, 104, 105, 7, 0, 0, 0, 0, 0, 0, 0, 1, 1, 0, 0, 0, 97,
    1, 1, 2, 0, 0, 0]

theorem record_versions_decode_short :
    decodeFrame (0 :: (shortBytes ++ [1, 1])) = some (.upsert short) ∧
      decodeFrame (0 :: (shortBytes ++ [1, 1] ++ [0])) = none := by
  obtain ⟨_, _, whole, _, _, _, longer, _⟩ :=
    record_versions_decode short (shortBytes ++ [1, 1]) (by decide +kernel)
  exact ⟨whole, longer [0] (by decide)⟩

/-- The oldest version with a byte more is the next one, and decodes. -/
theorem longer_version_decodes :
    short.serialize = .ok (shortBytes ++ [1, 1]) ∧
      decodeFrame (0 :: (shortBytes ++ [3])) =
        some (.upsert { short with provenance := .fillSourced, wire := .ciphMsg }) := by
  decide +kernel

end MessageRecord

end Kaspaverse.Transport
