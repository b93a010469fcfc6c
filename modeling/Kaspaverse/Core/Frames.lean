import Mathlib
import Kaspaverse.Library.Slices

namespace Kaspaverse.Core

/-- A text, by its characters. -/
abbrev Text := List Char

def KV_VERSION : Nat := 1

def GAME_ATTACK_DEFEND : Text := "attack_defend".toList

def MARKER_PREFIX : Text := "kv:".toList

def MAX_FIELD_LEN : Nat := 64

inductive CoreError
  | frameShape (what : String)
deriving DecidableEq

inductive FrameKind
  | challenge
  | accept
  | result
  | taunt
deriving DecidableEq

namespace FrameKind

def asToken : FrameKind → Text
  | challenge => "challenge".toList
  | accept => "accept".toList
  | result => "result".toList
  | taunt => "taunt".toList

def fromToken (token : Text) : Option FrameKind :=
  [challenge, accept, result, taunt].find? fun kind => decide (token = kind.asToken)

end FrameKind

structure KvFrame where
  kind : FrameKind
  line : Text
  game : Option Text
  stake : Option Text
  id : Option Text
  refId : Option Text
  detail : Option Text
deriving DecidableEq

inductive Parsed
  | plain (text : Text)
  | frame (frame : KvFrame)
  | unknown (line : Text)
deriving DecidableEq

structure ChallengeBody where
  game : Text
  stake : Option Text
  id : Option Text
deriving DecidableEq

structure AcceptBody where
  refId : Text
deriving DecidableEq

structure ResultBody where
  refId : Option Text
  outcome : Text
deriving DecidableEq

structure TauntBody where
  text : Text
deriving DecidableEq

/-- One struct's `serde_json` code. -/
structure Json (B : Type) where
  toString : B → Option Text
  fromStr : Text → Option B

/-- What `serde_json` says of itself: a struct reads back, and a raw line feed is white space between
    tokens, none of which starts with this letter. -/
structure Json.Lawful {B : Type} (json : Json B) : Prop where
  roundTrip : ∀ body text, json.toString body = some text → json.fromStr text = some body
  rejects : ∀ before behind, json.fromStr (before ++ '\n' :: 'k' :: behind) = none

structure Serde where
  challenge : Json ChallengeBody
  accept : Json AcceptBody
  result : Json ResultBody
  taunt : Json TauntBody

structure Serde.Lawful (serde : Serde) : Prop where
  challenge : serde.challenge.Lawful
  accept : serde.accept.Lawful
  result : serde.result.Lawful
  taunt : serde.taunt.Lawful

section Text

/-- Unicode's `White_Space`. -/
def isWhitespace (c : Char) : Bool :=
  (decide (0x09 ≤ c.toNat) && decide (c.toNat ≤ 0x0D)) || c.toNat == 0x20 || c.toNat == 0x85 || c.toNat == 0xA0 ||
    c.toNat == 0x1680 || (decide (0x2000 ≤ c.toNat) && decide (c.toNat ≤ 0x200A)) || c.toNat == 0x2028 ||
    c.toNat == 0x2029 || c.toNat == 0x202F || c.toNat == 0x205F || c.toNat == 0x3000

def trimEnd (text : Text) : Text := text.rdropWhile isWhitespace

def trim (text : Text) : Text := trimEnd (text.dropWhile isWhitespace)

/-- `str::len`, in bytes. -/
def byteLen (text : Text) : Nat := (text.map Char.utf8Size).sum

def isDigit (c : Char) : Bool := decide ('0' ≤ c) && decide (c ≤ '9')

def splitOnce (text : Text) : Option (Text × Text) :=
  if ':' ∈ text then
    some (text.takeWhile (· != ':'), text.drop ((text.takeWhile (· != ':')).length + 1))
  else none

/-- `str::parse::<u32>`: an optional sign, then digits. -/
def parseU32 (text : Text) : Option Nat :=
  let digits := if text.head? = some '+' then text.tail else text
  if digits = [] ∨ digits.all isDigit = false then none
  else
    let n := digits.foldl (fun acc c => acc * 10 + (c.toNat - '0'.toNat)) 0
    if n < 2 ^ 32 then some n else none

end Text

section Build

def isSlugChar (c : Char) : Bool := (decide ('a' ≤ c) && decide (c ≤ 'z')) || isDigit c || c == '_'

def validateSlug (slug : Text) : Except CoreError Unit :=
  if slug = [] ∨ MAX_FIELD_LEN < byteLen slug ∨ slug.all isSlugChar = false then
    .error (.frameShape "game slug")
  else .ok ()

def isStakeChar (c : Char) : Bool := isDigit c || c == '.'

def validateStake (stake : Text) : Except CoreError Unit :=
  if stake ≠ [] ∧ byteLen stake ≤ MAX_FIELD_LEN ∧ stake.all isStakeChar ∧ stake.count '.' ≤ 1 ∧ stake ≠ ['.'] then
    .ok ()
  else .error (.frameShape "stake")

def validateId (id : Text) : Except CoreError Unit :=
  if id = [] ∨ MAX_FIELD_LEN < byteLen id ∨
      id.all (fun c => isDigit c || (decide ('a' ≤ c) && decide (c ≤ 'f'))) = false then
    .error (.frameShape "id")
  else .ok ()

def gameLabel (game : Text) : Text × Text :=
  ("⚔️".toList, if game = GAME_ATTACK_DEFEND then "Attack & Defend".toList else game)

/-- What follows the readable line. -/
def marker (kind : FrameKind) (json : Text) : Text :=
  MARKER_PREFIX ++ ((toString KV_VERSION).toList ++ ':' :: (kind.asToken ++ ':' :: json))

def assemble (line : Text) (kind : FrameKind) (json : Option Text) : Except CoreError Text :=
  match json with
  | none => .error (.frameShape "serialize")
  | some json => .ok (line ++ '\n' :: marker kind json)

variable (serde : Serde)

def challengeLine (game : Text) (stake : Option Text) : Text :=
  let (emoji, name) := gameLabel game
  let stakePart := match stake with
    | some stake => stake ++ " KAS".toList
    | none => "friendly".toList
  emoji ++ (' ' :: (name ++ (" challenge — ".toList ++ (stakePart ++ ". Open in KaspaVerse to play.".toList))))

def buildChallenge (game : Text) (stake : Option Text) (id : Text) : Except CoreError Text := do
  validateSlug game
  stake.forM validateStake
  validateId id
  assemble (challengeLine game stake) .challenge (serde.challenge.toString ⟨game, stake, some id⟩)

def acceptLine (game : Text) : Text :=
  let (emoji, name) := gameLabel game
  "✓ Accepted the ".toList ++ (emoji ++ (' ' :: (name ++ " challenge.".toList)))

def buildAccept (game refId : Text) : Except CoreError Text := do
  validateSlug game
  validateId refId
  assemble (acceptLine game) .accept (serde.accept.toString ⟨refId⟩)

def buildTaunt (text : Text) : Except CoreError Text :=
  let trimmed := trim text
  if trimmed = [] then .error (.frameShape "empty taunt")
  else assemble trimmed .taunt (serde.taunt.toString ⟨trimmed⟩)

end Build

section Parse

/-- Zero, and each offset just behind a line feed. -/
def lineStarts (text : Text) : List Nat := 0 :: (text.findIdxs (· == '\n')).map (· + 1)

/-- `kv:`, digits, a colon, a token of at least one character, and a colon. -/
def isMarkerShaped (seg : Text) : Bool :=
  match stripPrefix MARKER_PREFIX seg with
  | none => false
  | some rest =>
    let digits := rest.takeWhile isDigit
    let after := rest.drop digits.length
    if digits = [] ∨ after.head? ≠ some ':' then false
    else
      let token := after.tail.takeWhile (· != ':')
      decide (token ≠ []) && decide ((after.tail.drop token.length).head? = some ':')

def blank (kind : FrameKind) : KvFrame := ⟨kind, [], none, none, none, none, none⟩

variable (serde : Serde)

/-- The fields of a frame's body. -/
def readBody (kind : FrameKind) (json : Text) : Option KvFrame :=
  match kind with
  | .challenge => (serde.challenge.fromStr json).map fun b =>
      { blank kind with game := some b.game, stake := b.stake, id := b.id }
  | .accept => (serde.accept.fromStr json).map fun b => { blank kind with refId := some b.refId }
  | .result => (serde.result.fromStr json).map fun b =>
      { blank kind with refId := b.refId, detail := some b.outcome }
  | .taunt => (serde.taunt.fromStr json).map fun b => { blank kind with detail := some b.text }

def classify (seg : Text) : Option (FrameKind × KvFrame) := do
  let rest ← stripPrefix MARKER_PREFIX seg
  let (ver, rest) ← splitOnce rest
  if (← parseU32 ver) ≠ KV_VERSION then none
  let (token, json) ← splitOnce rest
  let kind ← FrameKind.fromToken token
  return (kind, ← readBody serde kind json)

def parse (plaintext : Text) : Parsed :=
  match (lineStarts plaintext).find? fun start => isMarkerShaped (plaintext.drop start) with
  | none => .plain plaintext
  | some start =>
    let line := trimEnd (plaintext.take start)
    match classify serde (plaintext.drop start) with
    | some (kind, frame) => .frame { frame with kind := kind, line := line }
    | none => .unknown (if line = [] then plaintext else line)

end Parse

section Scan

/-- A line that a marker's scan stops at, whatever follows it: `kv:`, digits, a colon, and then no
    second colon. -/
def opensMarker (seg : Text) : Bool :=
  match stripPrefix MARKER_PREFIX seg with
  | none => false
  | some rest =>
    let digits := rest.takeWhile isDigit
    let after := rest.drop digits.length
    decide (digits ≠ []) && decide (after.head? = some ':') && decide (after.tail.head? ≠ some ':')

theorem length_takeWhile_le (p : Char → Bool) (text : Text) : (text.takeWhile p).length ≤ text.length :=
  (List.takeWhile_prefix p).length_le

theorem splitOnce_append {head : Text} (plain : ':' ∉ head) (rest : Text) :
    splitOnce (head ++ ':' :: rest) = some (head, rest) := by
  have run : (head ++ ':' :: rest).takeWhile (· != ':') = head := by
    rw [takeWhile_behind (by decide), List.takeWhile_eq_self_iff.mpr]
    intro c member
    rw [bne_iff_ne]
    rintro rfl
    exact plain member
  unfold splitOnce
  rw [if_pos (by simp), run, ← List.drop_drop, List.drop_left]
  rfl

theorem marker_eq (kind : FrameKind) (json : Text) :
    marker kind json = MARKER_PREFIX ++ '1' :: ':' :: (kind.asToken ++ ':' :: json) := rfl

theorem asToken_plain (kind : FrameKind) : ':' ∉ kind.asToken ∧ kind.asToken ≠ [] ∧ '\n' ∉ kind.asToken := by
  cases kind <;> decide

theorem fromToken_asToken (kind : FrameKind) : FrameKind.fromToken kind.asToken = some kind := by
  cases kind <;> decide

theorem fromToken_some {token : Text} {kind : FrameKind} (found : FrameKind.fromToken token = some kind) :
    token = kind.asToken := by
  have same := List.find?_some found
  exact of_decide_eq_true same

/-- Where a colon follows, a token ends at it, and there is one unless it comes first. -/
theorem token_of_colon {tail : Text} (colon : ':' ∈ tail) :
    (tail.drop (tail.takeWhile (· != ':')).length).head? = some ':' ∧
      (tail.takeWhile (· != ':') ≠ [] ↔ tail.head? ≠ some ':') := by
  obtain ⟨token, rest, rfl, plain⟩ := List.eq_append_cons_of_mem colon
  have run : (token ++ ':' :: rest).takeWhile (· != ':') = token := by
    rw [takeWhile_behind (by decide), List.takeWhile_eq_self_iff.mpr]
    intro c member
    rw [bne_iff_ne]
    rintro rfl
    exact plain member
  rw [run, List.drop_left]
  refine ⟨rfl, ?_⟩
  cases token with
  | nil => simp
  | cons c token =>
    have apart : c ≠ ':' := fun same => plain (same ▸ List.mem_cons_self)
    simp [apart]

theorem marker_shaped (kind : FrameKind) (json : Text) : isMarkerShaped (marker kind json) = true := by
  have colon : ':' ∈ kind.asToken ++ ':' :: json := by simp
  have token := token_of_colon colon
  have first : (kind.asToken ++ ':' :: json).head? ≠ some ':' := by
    obtain ⟨plain, some_, _⟩ := asToken_plain kind
    obtain ⟨c, token, same⟩ := List.exists_cons_of_ne_nil some_
    rw [same, List.cons_append, List.head?_cons]
    rintro ⟨⟩
    exact plain (same ▸ List.mem_cons_self)
  have digits : ('1' :: ':' :: (kind.asToken ++ ':' :: json)).takeWhile isDigit = ['1'] := by
    rw [List.takeWhile_cons_of_pos (by decide), List.takeWhile_cons_of_neg (by decide)]
  unfold isMarkerShaped
  rw [marker_eq, stripPrefix_append]
  simp only [digits, List.length_singleton, List.drop_succ_cons, List.drop_zero, List.head?_cons, List.tail_cons,
    token.1, token.2]
  rw [if_neg (by simp), decide_eq_true first]
  rfl

/-- In front of a marker, a line is marker-shaped exactly where it opens one. -/
theorem isMarkerShaped_before (seg : Text) (kind : FrameKind) (json : Text) :
    isMarkerShaped (seg ++ '\n' :: marker kind json) = opensMarker seg := by
  unfold isMarkerShaped opensMarker
  rw [stripPrefix_behind (by decide)]
  cases stripPrefix MARKER_PREFIX seg with
  | none => rfl
  | some rest =>
    simp only [Option.map_some]
    rw [takeWhile_behind (by decide), List.drop_append_of_le_length (length_takeWhile_le _ _)]
    generalize rest.takeWhile isDigit = digits
    generalize rest.drop digits.length = after
    cases after with
    | nil => simp
    | cons c tail =>
      have colon : ':' ∈ tail ++ '\n' :: marker kind json := by
        rw [marker_eq]
        simp
      have token := token_of_colon colon
      have first : (tail ++ '\n' :: marker kind json).head? ≠ some ':' ↔ tail.head? ≠ some ':' := by
        cases tail <;> simp
      simp only [List.cons_append, List.head?_cons, List.tail_cons, token.1, token.2, first]
      by_cases none_ : digits = [] <;> by_cases same : c = ':' <;> by_cases headed : tail.head? = some ':' <;>
        simp [none_, same, headed]

end Scan

section ReadBack

variable {serde : Serde}

theorem classify_marker (serde : Serde) (kind : FrameKind) (json : Text) :
    classify serde (marker kind json) = (readBody serde kind json).map fun frame => (kind, frame) := by
  have version : splitOnce ('1' :: ':' :: (kind.asToken ++ ':' :: json)) = some (['1'], kind.asToken ++ ':' :: json) :=
    splitOnce_append (show ':' ∉ ['1'] by decide) _
  have number : parseU32 ['1'] = some KV_VERSION := by decide
  unfold classify
  rw [marker_eq, stripPrefix_append]
  simp only [Option.bind_eq_bind, Option.bind_some, version, number, splitOnce_append (asToken_plain kind).1,
    fromToken_asToken]
  cases readBody serde kind json <;> rfl

theorem readBody_broken (lawful : serde.Lawful) (kind : FrameKind) (before behind : Text) :
    readBody serde kind (before ++ '\n' :: 'k' :: behind) = none := by
  cases kind with
  | challenge => exact Option.map_eq_none_iff.mpr (lawful.challenge.rejects before behind)
  | accept => exact Option.map_eq_none_iff.mpr (lawful.accept.rejects before behind)
  | result => exact Option.map_eq_none_iff.mpr (lawful.result.rejects before behind)
  | taunt => exact Option.map_eq_none_iff.mpr (lawful.taunt.rejects before behind)

theorem opensMarker_split {seg : Text} (opens : opensMarker seg = true) :
    ∃ digits tail, seg = MARKER_PREFIX ++ (digits ++ ':' :: tail) ∧ ':' ∉ digits := by
  unfold opensMarker at opens
  cases stripped : stripPrefix MARKER_PREFIX seg with
  | none =>
    rw [stripped] at opens
    cases opens
  | some rest =>
    simp only [stripped, Bool.and_eq_true, decide_eq_true_eq] at opens
    obtain ⟨⟨_, colon⟩, _⟩ := opens
    have split := List.takeWhile_append_dropWhile (p := isDigit) (l := rest)
    cases after : rest.drop (rest.takeWhile isDigit).length with
    | nil =>
      rw [after] at colon
      cases colon
    | cons c tail =>
      rw [after, List.head?_cons] at colon
      cases colon
      refine ⟨rest.takeWhile isDigit, tail, ?_, ?_⟩
      · rw [stripPrefix_some stripped, ← after]
        congr 1
        exact (List.prefix_iff_eq_append.mp (List.takeWhile_prefix isDigit)).symm
      · intro member
        have digit := List.mem_takeWhile_imp member
        cases digit

/-- A line that opens a marker is none that is recognized: what it takes for a body runs into the
    real marker. -/
theorem classify_opened (lawful : serde.Lawful) {seg : Text} (opens : opensMarker seg = true) (kind : FrameKind)
    (json : Text) : classify serde (seg ++ '\n' :: marker kind json) = none := by
  obtain ⟨digits, tail, rfl, plain⟩ := opensMarker_split opens
  unfold classify
  rw [List.append_assoc, List.append_assoc, stripPrefix_append, List.cons_append]
  simp only [Option.bind_eq_bind, Option.bind_some, splitOnce_append plain]
  cases parseU32 digits with
  | none => rfl
  | some version =>
    simp only [Option.bind_some]
    split
    · rfl
    · by_cases colon : ':' ∈ tail
      · obtain ⟨token, more, rfl, bare⟩ := List.eq_append_cons_of_mem colon
        rw [List.append_assoc, List.cons_append, splitOnce_append bare, Option.bind_some]
        cases FrameKind.fromToken token with
        | none => rfl
        | some named =>
          show (readBody serde named (more ++ '\n' :: 'k' :: _)).bind _ = none
          rw [readBody_broken lawful]
          rfl
      · have token : tail ++ '\n' :: marker kind json =
            (tail ++ ['\n', 'k', 'v']) ++ ':' :: '1' :: ':' :: (kind.asToken ++ ':' :: json) := by
          rw [List.append_assoc, marker_eq]
          rfl
        have bare : ':' ∉ tail ++ ['\n', 'k', 'v'] := by simp [colon]
        rw [token, splitOnce_append bare, Option.bind_some]
        cases found : FrameKind.fromToken (tail ++ ['\n', 'k', 'v']) with
        | none => rfl
        | some named =>
          have lineFeed : '\n' ∈ named.asToken := by
            rw [← fromToken_some found]
            simp
          exact absurd lineFeed (asToken_plain named).2.2

/-- No line of the text opens a marker. -/
def Unmarked (text : Text) : Prop := ∀ start ∈ lineStarts text, opensMarker (text.drop start) = false

instance (text : Text) : Decidable (Unmarked text) := by
  unfold Unmarked
  infer_instance

section Assembled

variable (line : Text) (kind : FrameKind) (json : Text)

theorem shaped_before : ∀ start ∈ lineStarts line,
    isMarkerShaped ((line ++ '\n' :: marker kind json).drop start) = opensMarker (line.drop start) ∧
      (line ++ '\n' :: marker kind json).drop start = line.drop start ++ '\n' :: marker kind json := by
  intro start member
  have within : start ≤ line.length := by
    rcases List.mem_cons.mp member with rfl | behind
    · exact Nat.zero_le _
    · obtain ⟨i, found, rfl⟩ := List.mem_map.mp behind
      exact (List.mem_findIdxs_iff_exists_getElem_pos.mp found).1
  rw [List.drop_append_of_le_length within]
  exact ⟨isMarkerShaped_before _ kind json, rfl⟩

theorem lineStarts_assembled :
    ∃ later, lineStarts (line ++ '\n' :: marker kind json) = lineStarts line ++ (line.length + 1) :: later := by
  refine ⟨((marker kind json).findIdxs (· == '\n') (line.length + 1)).map (· + 1), ?_⟩
  unfold lineStarts
  rw [List.findIdxs_append, List.findIdxs_cons, if_pos (by decide), List.map_append, List.map_cons,
    Nat.zero_add, List.cons_append]

/-- Behind a line that opens no marker, the real one is read. -/
theorem parse_unmarked {frame : KvFrame} (unmarked : Unmarked line)
    (reads : readBody serde kind json = some frame) :
    parse serde (line ++ '\n' :: marker kind json) =
      .frame { frame with kind := kind, line := trimEnd (line ++ ['\n']) } := by
  obtain ⟨later, starts⟩ := lineStarts_assembled line kind json
  have none_ : (lineStarts line).find? (fun start =>
      isMarkerShaped ((line ++ '\n' :: marker kind json).drop start)) = none := by
    rw [List.find?_eq_none]
    intro start member
    rw [(shaped_before line kind json start member).1, unmarked start member]
    decide
  have behind : (line ++ '\n' :: marker kind json).drop (line.length + 1) = marker kind json := by
    rw [← List.drop_drop, List.drop_left]
    rfl
  have before : (line ++ '\n' :: marker kind json).take (line.length + 1) = line ++ ['\n'] := by
    rw [List.take_length_add_append]
    rfl
  have found : (lineStarts (line ++ '\n' :: marker kind json)).find? (fun start =>
      isMarkerShaped ((line ++ '\n' :: marker kind json).drop start)) = some (line.length + 1) := by
    rw [starts, List.find?_append, none_, Option.none_or]
    exact List.find?_cons_of_pos (by rw [behind, marker_shaped])
  unfold parse
  simp only [found, behind, before, classify_marker, reads, Option.map_some]

/-- A line that opens a marker is where the parse stops, and it is none that is recognized. -/
theorem parse_marked (lawful : serde.Lawful) (marked : ¬ Unmarked line) :
    ∃ shown, parse serde (line ++ '\n' :: marker kind json) = .unknown shown := by
  obtain ⟨later, starts⟩ := lineStarts_assembled line kind json
  unfold Unmarked at marked
  push Not at marked
  obtain ⟨first, member, opens⟩ := marked
  have shaped : isMarkerShaped ((line ++ '\n' :: marker kind json).drop first) = true := by
    rw [(shaped_before line kind json first member).1]
    simpa using opens
  cases early : (lineStarts line).find? fun start =>
      isMarkerShaped ((line ++ '\n' :: marker kind json).drop start) with
  | none => exact absurd shaped (List.find?_eq_none.mp early first member)
  | some start =>
    have among := List.mem_of_find?_eq_some early
    have here := shaped_before line kind json start among
    have opens := List.find?_some early
    rw [here.1] at opens
    have found : (lineStarts (line ++ '\n' :: marker kind json)).find? (fun start =>
        isMarkerShaped ((line ++ '\n' :: marker kind json).drop start)) = some start := by
      rw [starts, List.find?_append, early, Option.some_or]
    unfold parse
    simp only [found, here.2, classify_opened lawful opens]
    exact ⟨_, rfl⟩

end Assembled

section Drafts

theorem unmarked_plain {text : Text} (oneLine : '\n' ∉ text) (apart : text.head? ≠ some 'k') : Unmarked text := by
  have none_ : text.findIdxs (· == '\n') = [] := by
    rw [List.findIdxs_eq_nil_iff]
    intro c member
    rw [beq_eq_false_iff_ne]
    rintro rfl
    exact oneLine member
  intro start member
  unfold lineStarts at member
  rw [none_] at member
  rw [List.mem_singleton.mp member, List.drop_zero]
  unfold opensMarker
  have other : stripPrefix MARKER_PREFIX text = none := by
    cases found : stripPrefix MARKER_PREFIX text with
    | none => rfl
    | some rest =>
      rw [stripPrefix_some found] at apart
      exact absurd rfl apart
  rw [other]

theorem slug_oneLine {slug : Text} (valid : validateSlug slug = .ok ()) : '\n' ∉ slug := by
  unfold validateSlug at valid
  split at valid
  · cases valid
  next fits =>
    intro member
    push Not at fits
    have char := List.all_eq_true.mp (eq_true_of_ne_false fits.2.2) _ member
    cases char

theorem stake_oneLine {stake : Text} (valid : validateStake stake = .ok ()) : '\n' ∉ stake := by
  unfold validateStake at valid
  split at valid
  next fits =>
    intro member
    have char := List.all_eq_true.mp fits.2.2.1 _ member
    cases char
  · cases valid

theorem assemble_ok {line wire : Text} {kind : FrameKind} {json : Option Text}
    (assembled : assemble line kind json = .ok wire) :
    ∃ text, json = some text ∧ wire = line ++ '\n' :: marker kind text := by
  cases json with
  | none => cases assembled
  | some text =>
    cases assembled
    exact ⟨text, rfl, rfl⟩

theorem label_oneLine {game : Text} (oneLine : '\n' ∉ game) : '\n' ∉ (gameLabel game).2 := by
  unfold gameLabel
  split
  · decide
  · exact oneLine

theorem challengeLine_unmarked {game : Text} {stake : Option Text} (slug : '\n' ∉ game)
    (staked : ∀ text ∈ stake, '\n' ∉ text) : Unmarked (challengeLine game stake) := by
  have part : '\n' ∉ (match stake with
      | some stake => stake ++ " KAS".toList
      | none => "friendly".toList) := by
    cases stake with
    | none => decide
    | some text => exact fun member => (List.mem_append.mp member).elim (staked text rfl) (by decide)
  apply unmarked_plain
  · intro member
    rcases List.mem_append.mp member with emoji | behind
    · exact absurd emoji (by decide)
    · rcases List.mem_cons.mp behind with space | behind
      · cases space
      · rcases List.mem_append.mp behind with name | behind
        · exact label_oneLine slug name
        · rcases List.mem_append.mp behind with word | behind
          · exact absurd word (by decide)
          · exact (List.mem_append.mp behind).elim part (by decide)
  · show some '⚔' ≠ some 'k'
    decide

theorem acceptLine_unmarked {game : Text} (slug : '\n' ∉ game) : Unmarked (acceptLine game) := by
  apply unmarked_plain
  · intro member
    rcases List.mem_append.mp member with word | behind
    · exact absurd word (by decide)
    · rcases List.mem_append.mp behind with emoji | behind
      · exact absurd emoji (by decide)
      · rcases List.mem_cons.mp behind with space | behind
        · cases space
        · exact (List.mem_append.mp behind).elim (label_oneLine slug) (by decide)
  · show some '✓' ≠ some 'k'
    decide

/-- What is asked of a builder. -/
inductive Draft
  | challenge (game : Text) (stake : Option Text) (id : Text)
  | accept (game refId : Text)
  | taunt (text : Text)

namespace Draft

def build (serde : Serde) : Draft → Except CoreError Text
  | challenge game stake id => buildChallenge serde game stake id
  | accept game refId => buildAccept serde game refId
  | taunt text => buildTaunt serde text

/-- The frame that says what was asked. -/
def frame (line : Text) : Draft → KvFrame
  | challenge game stake id => ⟨.challenge, line, some game, stake, some id, none, none⟩
  | accept _ refId => ⟨.accept, line, none, none, none, some refId, none⟩
  | taunt text => ⟨.taunt, line, none, none, none, none, some (trim text)⟩

def ReadsBack (draft : Draft) (parsed : Parsed) : Prop := ∃ line, parsed = .frame (draft.frame line)

/-- A taunt's own lines open no marker. The other kinds' lines are generated, and open none. -/
def Unmarked : Draft → Prop
  | taunt text => Core.Unmarked (trim text)
  | _ => True

theorem frame_line (draft : Draft) (line shown : Text) :
    { draft.frame line with kind := (draft.frame line).kind, line := shown } = draft.frame shown := by
  cases draft <;> rfl

/-- What a builder assembles: a line that opens a marker only where a taunt's text does, and a body
    that reads back as the fields it was built from. -/
theorem build_ok (lawful : serde.Lawful) {draft : Draft} {wire : Text} (built : draft.build serde = .ok wire) :
    ∃ line json, wire = line ++ '\n' :: marker (draft.frame []).kind json ∧
      readBody serde (draft.frame []).kind json = some (draft.frame []) ∧ (draft.Unmarked ↔ Core.Unmarked line) := by
  cases draft with
  | challenge game stake id =>
    simp only [build, buildChallenge, bind, Except.bind] at built
    split at built
    · cases built
    next slug =>
      split at built
      · cases built
      next staked =>
        split at built
        · cases built
        · obtain ⟨json, written, rfl⟩ := assemble_ok built
          have stakeLine : ∀ text ∈ stake, '\n' ∉ text := by
            rintro text ⟨⟩
            exact stake_oneLine staked
          refine ⟨_, json, rfl, ?_, iff_of_true True.intro (challengeLine_unmarked (slug_oneLine slug) stakeLine)⟩
          show (serde.challenge.fromStr json).map _ = _
          rw [lawful.challenge.roundTrip _ _ written]
          rfl
  | accept game refId =>
    simp only [build, buildAccept, bind, Except.bind] at built
    split at built
    · cases built
    next slug =>
      split at built
      · cases built
      · obtain ⟨json, written, rfl⟩ := assemble_ok built
        refine ⟨_, json, rfl, ?_, iff_of_true True.intro (acceptLine_unmarked (slug_oneLine slug))⟩
        show (serde.accept.fromStr json).map _ = _
        rw [lawful.accept.roundTrip _ _ written]
        rfl
  | taunt text =>
    simp only [build, buildTaunt] at built
    split at built
    · cases built
    · obtain ⟨json, written, rfl⟩ := assemble_ok built
      refine ⟨_, json, rfl, ?_, Iff.rfl⟩
      show (serde.taunt.fromStr json).map _ = _
      rw [lawful.taunt.roundTrip _ _ written]
      rfl

/-- A built frame parses back as itself exactly where no line of a taunt's text opens a marker, and
    degrades to a line of text elsewhere. -/
theorem built_frame_reads_back (serde : Serde) (lawful : serde.Lawful) (draft : Draft) (wire : Text)
    (built : draft.build serde = .ok wire) :
    (draft.ReadsBack (parse serde wire) ↔ draft.Unmarked) ∧
      (¬ draft.Unmarked → ∃ shown, parse serde wire = .unknown shown) := by
  obtain ⟨line, json, rfl, reads, same⟩ := build_ok lawful built
  rw [same]
  refine ⟨⟨?_, ?_⟩, parse_marked line _ json lawful⟩
  · rintro ⟨_, back⟩
    by_contra marked
    obtain ⟨_, unknown⟩ := parse_marked line (draft.frame []).kind json lawful marked
    rw [unknown] at back
    cases back
  · intro unmarked
    rw [parse_unmarked line _ json unmarked reads, frame_line]
    exact ⟨_, rfl⟩

end Draft

end Drafts

end ReadBack

section Sample

def escape (c : Char) : Text :=
  if c = '"' then ['\\', '"'] else if c = '\\' then ['\\', '\\'] else if c = '\n' then ['\\', 'n'] else [c]

def unescape (c : Char) : Option Char :=
  if c = '"' then some '"' else if c = '\\' then some '\\' else if c = 'n' then some '\n' else none

/-- A JSON string behind its opening quote, and what follows it. -/
def unquote : Text → Option (Text × Text)
  | [] => none
  | ['\\'] => none
  | '"' :: rest => some ([], rest)
  | '\\' :: e :: rest => (unescape e).bind fun c => (unquote rest).map fun read => (c :: read.1, read.2)
  | c :: rest => if c < ' ' then none else (unquote rest).map fun read => (c :: read.1, read.2)

/-- The characters this sample writes. The other control characters would take an escape of their
    own. -/
def written (c : Char) : Bool := decide (' ' ≤ c) || c == '\n'

theorem unquote_escaped {text : Text} (plain : text.all written = true) (rest : Text) :
    unquote (text.flatMap escape ++ '"' :: rest) = some (text, rest) := by
  induction text with
  | nil => rfl
  | cons c text ih =>
    rw [List.all_cons, Bool.and_eq_true] at plain
    have read := ih plain.2
    rw [List.flatMap_cons, List.append_assoc]
    by_cases quote : c = '"'
    · subst quote
      show (unquote (text.flatMap escape ++ '"' :: rest)).map _ = _
      rw [read]
      rfl
    · by_cases slash : c = '\\'
      · subst slash
        show (unquote (text.flatMap escape ++ '"' :: rest)).map _ = _
        rw [read]
        rfl
      · by_cases feed : c = '\n'
        · subst feed
          show (unquote (text.flatMap escape ++ '"' :: rest)).map _ = _
          rw [read]
          rfl
        · have shown : ¬ c < ' ' := by
            have printed := plain.1
            unfold written at printed
            rw [beq_eq_false_iff_ne.mpr feed, Bool.or_false] at printed
            exact Char.not_lt.mpr (of_decide_eq_true printed)
          have same : escape c = [c] := by
            unfold escape
            rw [if_neg quote, if_neg slash, if_neg feed]
          rw [same, List.singleton_append, unquote.eq_5 c _ (fun back => absurd back slash) quote
            (fun _ _ back => absurd back slash), if_neg shown, read]
          rfl

theorem unescape_some {e c : Char} (found : unescape e = some c) : e ≠ '\n' := by
  rintro rfl
  cases found

/-- A raw line feed is never inside a string. -/
theorem unquote_lineFeed {text t r : Text} (read : unquote text = some (t, r)) (feed : '\n' ∈ text) : '\n' ∈ r := by
  induction text using unquote.induct generalizing t with
  | case1 => cases read
  | case2 => cases read
  | case3 rest =>
    cases read
    exact (List.mem_cons.mp feed).resolve_left (by decide)
  | case4 e rest ih =>
    obtain ⟨c, unescaped, read⟩ := Option.bind_eq_some_iff.mp read
    obtain ⟨⟨t', r'⟩, later, same⟩ := Option.map_eq_some_iff.mp read
    cases same
    have behind := (List.mem_cons.mp feed).resolve_left (by decide)
    exact ih later ((List.mem_cons.mp behind).resolve_left fun same => unescape_some unescaped same.symm)
  | case5 c rest lone quote slash control =>
    rw [unquote.eq_5 c rest lone quote slash, if_pos control] at read
    cases read
  | case6 c rest lone quote slash shown ih =>
    rw [unquote.eq_5 c rest lone quote slash, if_neg shown] at read
    obtain ⟨⟨t', r'⟩, later, same⟩ := Option.map_eq_some_iff.mp read
    cases same
    have apart : '\n' ≠ c := by
      rintro rfl
      exact shown (by decide)
    exact ih later ((List.mem_cons.mp feed).resolve_left apart)

def tauntHead : Text := "\x7b\"text\":\"".toList

/-- A taunt's body as `serde_json` writes it. -/
def tauntJson : Json TauntBody where
  toString body :=
    if body.text.all written then some (tauntHead ++ (body.text.flatMap escape ++ ['"', '}'])) else none
  fromStr json :=
    match (stripPrefix tauntHead json).bind unquote with
    | some (text, ['}']) => some ⟨text⟩
    | _ => none

theorem tauntJson_lawful : tauntJson.Lawful where
  roundTrip := by
    intro body json wrote
    change (if body.text.all written then some _ else none) = some json at wrote
    split at wrote
    next plain =>
      cases wrote
      show (match (stripPrefix tauntHead _).bind unquote with
        | some (text, ['}']) => some (TauntBody.mk text)
        | _ => none) = some body
      rw [stripPrefix_append, Option.bind_some, unquote_escaped plain]
      rfl
    · cases wrote
  rejects := by
    intro before behind
    show (match (stripPrefix tauntHead _).bind unquote with
      | some (text, ['}']) => some (TauntBody.mk text)
      | _ => none) = none
    rw [stripPrefix_behind (by decide)]
    cases stripPrefix tauntHead before with
    | none => rfl
    | some rest =>
      rw [Option.map_some, Option.bind_some]
      cases read : unquote (rest ++ '\n' :: 'k' :: behind) with
      | none => rfl
      | some found =>
        have feed := unquote_lineFeed read (by simp)
        split
        next same =>
          cases same
          have outside : '\n' ∉ ['}'] := by decide
          exact absurd feed outside
        · rfl

/-- A struct that the sample never writes. -/
def silent (B : Type) : Json B := ⟨fun _ => none, fun _ => none⟩

theorem silent_lawful (B : Type) : (silent B).Lawful := ⟨fun _ _ wrote => (nomatch wrote), fun _ _ => rfl⟩

def sample : Serde := ⟨silent _, silent _, silent _, tauntJson⟩

theorem sample_lawful : sample.Lawful := ⟨silent_lawful _, silent_lawful _, silent_lawful _, tauntJson_lawful⟩

/-- A taunt that quotes a card on a line of its own. -/
def quoting : Draft := .taunt "gg\nkv:1:challenge:{}".toList

/-- The same card in the middle of a line, and a second line. -/
def mentioning : Draft := .taunt "try \"kv:1:challenge:{}\"\nlol".toList

def wireOf (draft : Draft) : Text := ((draft.build sample).toOption).getD []

theorem built_frame_reads_back_sample :
    (mentioning.ReadsBack (parse sample (wireOf mentioning)) ∧ mentioning.Unmarked) ∧
      ∃ shown, parse sample (wireOf quoting) = .unknown shown := by
  have clean : mentioning.Unmarked := by
    show Unmarked _
    decide +kernel
  have marked : ¬ quoting.Unmarked := by
    show ¬ Unmarked _
    decide +kernel
  exact ⟨⟨(Draft.built_frame_reads_back sample sample_lawful mentioning _ (by decide +kernel)).1.mpr clean, clean⟩,
    (Draft.built_frame_reads_back sample sample_lawful quoting _ (by decide +kernel)).2 marked⟩

/-- The quoted card stands in for the taunt, which degrades to the words before it. -/
theorem quoted_card_hijacks_taunt :
    sample.Lawful ∧ quoting.build sample = .ok (wireOf quoting) ∧
      parse sample (wireOf quoting) = .unknown "gg".toList ∧
      ¬ quoting.ReadsBack (parse sample (wireOf quoting)) := by
  have read : parse sample (wireOf quoting) = .unknown "gg".toList := by decide +kernel
  refine ⟨sample_lawful, by decide +kernel, read, ?_⟩
  rintro ⟨_, back⟩
  rw [read] at back
  cases back

end Sample

end Kaspaverse.Core
