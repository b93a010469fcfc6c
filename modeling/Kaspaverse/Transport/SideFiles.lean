import Mathlib
import Kaspaverse.Library.Rewrite

open Kaspaverse.Rewrite

namespace Kaspaverse.Transport.SideFiles

/-- The newest inbound row a thread has shown. -/
structure ReadMark where
  unixMs : ℕ
  txid : String
deriving DecidableEq

def ReadMark.order (mark : ReadMark) : ℕ ×ₗ String := toLex (mark.unixMs, mark.txid)

/-- The row `row` stands for is strictly past the mark. -/
def ReadMark.precedes (mark row : ReadMark) : Bool := mark.order < row.order

abbrev ReadMarks := KeyMap String ReadMark

/-- Moves a conversation's mark forward, and whether it moved. -/
def advance (marks : ReadMarks) (conversationId : String) (row : ReadMark) : Bool × ReadMarks :=
  match marks.lookup conversationId with
  | some mark => if mark.precedes row then (true, marks.insert conversationId row) else (false, marks)
  | none => (true, marks.insert conversationId row)

/-- The marks with every row's conversation moved to the row. -/
def seeded (marks : ReadMarks) (rows : List (String × ReadMark)) : ReadMarks :=
  rows.foldl (fun marks row => (advance marks row.1 row.2).2) marks

/-- A `transport_mark_read` that found its conversation's newest inbound row, and a list pull with the
    newest inbound row of every conversation of the store. -/
inductive MarkCall
  | markRead (conversationId : String) (newest : ReadMark)
  | readMarks (newest : List (String × ReadMark))
deriving DecidableEq

/-- What the call saves for what it read: a mark that does not move is not saved, and a pull seeds the
    marks only where it could not read any. -/
def MarkCall.update : MarkCall → Option ReadMarks → Option ReadMarks
  | .markRead conversationId newest, seen =>
    let moved := advance (seen.getD ∅) conversationId newest
    if moved.1 then some moved.2 else none
  | .readMarks _, some _ => none
  | .readMarks newest, none => some (seeded ∅ newest)

def MAX_CONTACT_NAME : ℕ := 40

/-- Unicode's `White_Space`. -/
def isWhitespace (ch : Char) : Bool :=
  let code := ch.toNat
  (0x9 ≤ code && code ≤ 0xD) || code == 0x20 || code == 0x85 || code == 0xA0 || code == 0x1680 ||
    (0x2000 ≤ code && code ≤ 0x200A) || code == 0x2028 || code == 0x2029 || code == 0x202F ||
    code == 0x205F || code == 0x3000

/-- Unicode's `Cc`. -/
def isControl (ch : Char) : Bool := ch.toNat < 0x20 || (0x7F ≤ ch.toNat && ch.toNat < 0xA0)

def isDeceptiveFormat (ch : Char) : Bool :=
  let code := ch.toNat
  code == 0xAD || (0x200B ≤ code && code ≤ 0x200F) || (0x202A ≤ code && code ≤ 0x202E) ||
    (0x2060 ≤ code && code ≤ 0x2064) || (0x2066 ≤ code && code ≤ 0x2069) || code == 0xFEFF

/-- The loop over the characters, from what is kept so far. -/
def sanitizeFrom : List Char → List Char → Bool → List Char
  | [], out, _ => out
  | ch :: rest, out, lastWasSpace =>
    if isWhitespace ch then
      if lastWasSpace then sanitizeFrom rest out true else sanitizeFrom rest (out ++ [' ']) true
    else if isControl ch || isDeceptiveFormat ch then sanitizeFrom rest out lastWasSpace
    else if MAX_CONTACT_NAME ≤ out.length then out
    else sanitizeFrom rest (out ++ [ch]) false

def sanitizeName (name : String) : String :=
  String.ofList ((sanitizeFrom name.toList [] true).rdropWhile isWhitespace)

abbrev ContactNames := KeyMap String String

/-- The name a contact gets; none where nothing is left of what was typed. -/
def named (name : String) : Option String :=
  let cleaned := sanitizeName name
  if cleaned.isEmpty then none else some cleaned

def setName (names : ContactNames) (address name : String) : ContactNames :=
  match named name with
  | none => names.erase address
  | some cleaned => names.insert address cleaned

/-- A `transport_set_contact_name` whose address was a valid one. -/
structure NameCall where
  address : String
  name : String
deriving DecidableEq

/-- A name is saved even where it is the one that was there. -/
def NameCall.update (call : NameCall) (seen : Option ContactNames) : Option ContactNames :=
  some (setName (seen.getD ∅) call.address call.name)

/-- The two files of the store's directory, with the calls on them. -/
structure Files where
  marks : File String ReadMark MarkCall
  names : File String String NameCall

inductive Event
  | marks (step : Step MarkCall)
  | names (step : Step NameCall)
deriving DecidableEq

structure Formats where
  marks : Format String ReadMark
  names : Format String String

def Files.step (formats : Formats) (files : Files) : Event → Option Files
  | .marks event =>
    (files.marks.step formats.marks MarkCall.update event).map fun next => { files with marks := next }
  | .names event =>
    (files.names.step formats.names NameCall.update event).map fun next => { files with names := next }

/-- The two maps differ at `key` at most. -/
def agreesOff {υ : Type} [DecidableEq υ] (key : String) (one other : KeyMap String υ) : Bool :=
  ((one.erase key).entries.all fun entry => other.lookup entry.1 == some entry.2) &&
    (other.erase key).entries.all fun entry => one.lookup entry.1 == some entry.2

/-- What a call on the marks read still holds off its conversation, and there the file has no later
    mark by now. A pull that seeds has a row as late for every mark of the file. -/
def MarkCall.clear : MarkCall → Option ReadMarks → ReadMarks → Bool
  | .markRead conversationId newest, seen, now =>
    agreesOff conversationId (seen.getD ∅) now &&
      (now.lookup conversationId).all fun held => held.order ≤ newest.order
  | .readMarks newest, _, now =>
    now.entries.all fun entry => newest.any fun row => row.1 == entry.1 && decide (entry.2.order ≤ row.2.order)

/-- What a call on the names read still holds off its contact. -/
def NameCall.clear (call : NameCall) (seen : Option ContactNames) (now : ContactNames) : Bool :=
  agreesOff call.address (seen.getD ∅) now

def Files.orderly (formats : Formats) (files : Files) : Event → Bool
  | .marks event => files.marks.orderly formats.marks MarkCall.clear event
  | .names event => files.names.orderly formats.names NameCall.clear event

/-- The conversation's mark is at `mark` or later. -/
def Covers (marks : ReadMarks) (key : String) (mark : ReadMark) : Prop :=
  ∃ held, marks.lookup key = some held ∧ mark.order ≤ held.order

section Advance

variable {marks : ReadMarks} {key other : String} {row mark : ReadMark}

theorem advance_other (elsewhere : other ≠ key) :
    (advance marks key row).2.lookup other = marks.lookup other := by
  unfold advance
  split
  · split
    · exact AList.lookup_insert_ne elsewhere
    · rfl
  · exact AList.lookup_insert_ne elsewhere

theorem advance_own (marks : ReadMarks) (key : String) (row : ReadMark) :
    Covers (advance marks key row).2 key row := by
  unfold advance
  split
  case h_1 held found =>
    split
    case isTrue => exact ⟨row, AList.lookup_insert marks, le_refl _⟩
    case isFalse stays =>
      have reached : row.order ≤ held.order := by
        simpa only [ReadMark.precedes, decide_eq_true_eq, not_lt] using stays
      exact ⟨held, found, reached⟩
  case h_2 => exact ⟨row, AList.lookup_insert marks, le_refl _⟩

theorem advance_stays (stays : (advance marks key row).1 = false) : Covers marks key row := by
  have own := advance_own marks key row
  unfold advance at stays own
  split at stays
  case h_1 held found =>
    split at stays
    case isTrue => cases stays
    case isFalse still =>
      rw [found] at own
      simpa only [still, Bool.false_eq_true, if_false] using own
  case h_2 => cases stays

theorem advance_keeps (covered : Covers marks other mark) : Covers (advance marks key row).2 other mark := by
  by_cases same : other = key
  · subst same
    obtain ⟨held, found, reached⟩ := covered
    unfold advance
    rw [found]
    by_cases past : held.precedes row = true
    · have later : held.order < row.order := of_decide_eq_true past
      simp only [past, if_true]
      exact ⟨row, AList.lookup_insert marks, reached.trans later.le⟩
    · simp only [past, Bool.false_eq_true, if_false]
      exact ⟨held, found, reached⟩
  · obtain ⟨held, found, reached⟩ := covered
    exact ⟨held, by rw [advance_other same, found], reached⟩

theorem seeded_covers {rows : List (String × ReadMark)} (marks : ReadMarks) :
    (∀ key mark, Covers marks key mark → Covers (seeded marks rows) key mark) ∧
      ∀ row ∈ rows, Covers (seeded marks rows) row.1 row.2 := by
  induction rows generalizing marks with
  | nil => exact ⟨fun _ _ covered => covered, fun _ none => nomatch none⟩
  | cons first rest ih =>
    obtain ⟨keeps, all⟩ := ih (advance marks first.1 first.2).2
    refine ⟨fun key mark covered => keeps key mark (advance_keeps covered), ?_⟩
    intro row member
    rcases List.mem_cons.mp member with rfl | later
    · exact keeps _ _ (advance_own marks row.1 row.2)
    · exact all row later

theorem seeded_other {rows : List (String × ReadMark)} (absent : ∀ row ∈ rows, row.1 ≠ key)
    (marks : ReadMarks) : (seeded marks rows).lookup key = marks.lookup key := by
  induction rows generalizing marks with
  | nil => rfl
  | cons first rest ih =>
    have later := ih (fun row member => absent row (List.mem_cons_of_mem _ member))
      (advance marks first.1 first.2).2
    exact later.trans (advance_other (absent first List.mem_cons_self).symm)

end Advance

theorem agreesOff_lookup {υ : Type} [DecidableEq υ] {key : String} {one other : KeyMap String υ}
    (agrees : agreesOff key one other = true) {k : String} (elsewhere : k ≠ key) :
    one.lookup k = other.lookup k := by
  simp only [agreesOff, Bool.and_eq_true, List.all_eq_true, beq_iff_eq] at agrees
  apply KeyMap.lookup_ext
  intro v
  constructor
  · intro found
    exact agrees.1 ⟨k, v⟩ (KeyMap.mem_entries_iff.mpr (KeyMap.lookup_erase_some.mpr ⟨elsewhere, found⟩))
  · intro found
    exact agrees.2 ⟨k, v⟩ (KeyMap.mem_entries_iff.mpr (KeyMap.lookup_erase_some.mpr ⟨elsewhere, found⟩))

/-- The calls whose marks the entry is of. -/
def MarkCall.about : MarkCall → String → Prop
  | .markRead conversationId _, key => key = conversationId
  | .readMarks newest, key => ∃ row ∈ newest, row.1 = key

/-- The marks a call answers for: the row it was for, or the marks of the list it pulled. -/
def MarkCall.reports : MarkCall → Option ReadMarks → String → ReadMark → Prop
  | .markRead conversationId newest, _, key, mark => key = conversationId ∧ mark = newest
  | .readMarks newest, none, key, mark => (key, mark) ∈ newest
  | .readMarks _, some seen, key, mark => seen.lookup key = some mark

section Marks

variable {format : Format String ReadMark} {file next : File String ReadMark MarkCall} {call : MarkCall}

/-- The marks that must be in the file by now: what was read, then what was saved. -/
def owes (call : MarkCall) (key : String) (mark : ReadMark) : Stage String ReadMark → Prop
  | .loaded (some seen) => seen.lookup key = some mark
  | .emptied seen _ _ | .returned seen _ => call.reports seen key mark
  | _ => False

structure MarksHold (format : Format String ReadMark) (file : File String ReadMark MarkCall) : Prop where
  sound : file.Sound format MarkCall.update
  owed : ∀ call stage, (call, stage) ∈ file.calls → ∀ key mark, owes call key mark stage →
    Covers (file.settled format) key mark

/-- What a call saves has what it reports, and takes back nothing of a file it is clear to replace. -/
theorem saved_covers {seen : Option ReadMarks} {new now : ReadMarks} (changes : call.update seen = some new)
    (clear : call.clear seen now = true) :
    (∀ key mark, Covers now key mark → Covers new key mark) ∧
      (∀ key mark, call.reports seen key mark → Covers new key mark) ∧
      ∀ key, ¬ call.about key → new.lookup key = now.lookup key := by
  cases call with
  | markRead conversationId newest =>
    simp only [MarkCall.update] at changes
    split at changes
    case isFalse => cases changes
    case isTrue =>
      cases changes
      simp only [MarkCall.clear, Bool.and_eq_true, Option.all_eq_true, decide_eq_true_eq] at clear
      have others : ∀ key, key ≠ conversationId →
          (advance (seen.getD ∅) conversationId newest).2.lookup key = now.lookup key := by
        intro key elsewhere
        rw [advance_other elsewhere]
        exact agreesOff_lookup clear.1 elsewhere
      refine ⟨?_, ?_, others⟩
      · intro key mark ⟨held, found, reached⟩
        by_cases same : key = conversationId
        · subst same
          obtain ⟨moved, own, past⟩ := advance_own (seen.getD ∅) key newest
          exact ⟨moved, own, reached.trans ((clear.2 held found).trans past)⟩
        · exact ⟨held, by rw [others key same, found], reached⟩
      · intro key mark ⟨sameKey, sameMark⟩
        subst sameKey sameMark
        exact advance_own _ _ _
  | readMarks newest =>
    cases seen with
    | some seen => cases changes
    | none =>
      cases changes
      have all : ∀ row ∈ newest, Covers (seeded ∅ newest) row.1 row.2 := (seeded_covers ∅).2
      simp only [MarkCall.clear, List.all_eq_true, List.any_eq_true, Bool.and_eq_true, beq_iff_eq,
        decide_eq_true_eq] at clear
      refine ⟨?_, fun key mark member => all (key, mark) member, ?_⟩
      · intro key mark ⟨held, found, reached⟩
        obtain ⟨row, member, sameKey, past⟩ := clear ⟨key, held⟩ (KeyMap.mem_entries_iff.mpr found)
        obtain ⟨moved, own, further⟩ := all row member
        subst sameKey
        exact ⟨moved, own, reached.trans (past.trans further)⟩
      · intro key absent
        have none : ∀ row ∈ newest, row.1 ≠ key := fun row member same => absent ⟨row, member, same⟩
        rw [seeded_other none, AList.lookup_empty]
        cases found : now.lookup key with
        | none => rfl
        | some held =>
          obtain ⟨row, member, sameKey, _⟩ := clear ⟨key, held⟩ (KeyMap.mem_entries_iff.mpr found)
          exact absurd sameKey (none row member)

/-- A call that saves nothing read what it reports. -/
theorem unsaved_reports {seen : Option ReadMarks} (same : call.update seen = none)
    {key : String} {mark : ReadMark} (reports : call.reports seen key mark) :
    ∃ read, seen = some read ∧ Covers read key mark := by
  cases call with
  | markRead conversationId newest =>
    simp only [MarkCall.update] at same
    split at same
    case isTrue => cases same
    case isFalse stays =>
      obtain ⟨rfl, rfl⟩ := reports
      obtain ⟨held, found, reached⟩ := advance_stays (Bool.eq_false_iff.mpr stays)
      cases seen with
      | none => cases found
      | some read => exact ⟨read, rfl, held, found, reached⟩
  | readMarks newest =>
    cases seen with
    | none => cases same
    | some read => exact ⟨read, rfl, mark, reports, le_refl _⟩

theorem Covers.kept {now later : ReadMarks} {key : String} {mark : ReadMark}
    (same : later.lookup key = now.lookup key) (covered : Covers now key mark) : Covers later key mark := by
  obtain ⟨held, found, reached⟩ := covered
  exact ⟨held, by rw [same, found], reached⟩

/-- A step takes back no mark, and touches only those its call is about. -/
theorem MarksHold.grows (hold : MarksHold format file) {event : Step MarkCall}
    (orderly : file.orderly format MarkCall.clear event = true)
    (happens : file.step format MarkCall.update event = some next) :
    (∀ key mark, Covers (file.settled format) key mark → Covers (next.settled format) key mark) ∧
      ∀ call, file.caller event = some call → ∀ key, ¬ call.about key →
        (next.settled format).lookup key = (file.settled format).lookup key := by
  obtain ⟨_, ⟨_, same⟩ | ⟨i, call, seen, new, rfl, at_, clear, settled⟩⟩ := hold.sound.step orderly happens
  · exact ⟨fun key mark covered => covered.kept (same key), fun _ _ key _ => same key⟩
  · have changes := hold.sound.changed call seen new (List.mem_of_getElem? at_)
    obtain ⟨keeps, _, others⟩ := saved_covers changes clear
    rw [settled]
    refine ⟨keeps, ?_⟩
    intro acting isActing key elsewhere
    rw [File.caller, at_] at isActing
    cases isActing
    exact others key elsewhere

theorem MarksHold.step (hold : MarksHold format file) {event : Step MarkCall}
    (orderly : file.orderly format MarkCall.clear event = true)
    (happens : file.step format MarkCall.update event = some next) : MarksHold format next := by
  have grows := (hold.grows orderly happens).1
  obtain ⟨sound, saves⟩ := hold.sound.step orderly happens
  refine ⟨sound, ?_⟩
  rcases File.step_cases happens with ⟨started, rfl, rfl⟩ | ⟨i, moved, stage, after, bytes, moves, at_, rfl⟩
  · intro call stage member key mark owed
    rcases List.mem_append.mp member with old | added
    · exact grows key mark (hold.owed call stage old key mark owed)
    · cases List.mem_singleton.mp added
      cases owed
  · have before := hold.owed moved stage (List.mem_of_getElem? at_)
    -- the other calls are owed what they were owed; only the one that moved is looked at
    suffices now : ∀ key mark, owes moved key mark after →
        Covers (File.settled format ⟨bytes, file.calls.set i (moved, after)⟩) key mark by
      intro call other member key mark owed
      rcases List.mem_or_eq_of_mem_set member with old | same
      · exact grows key mark (hold.owed call other old key mark owed)
      · cases same
        exact now key mark owed
    intro key mark owed
    cases moves with
    | load =>
      apply grows
      cases read : file.read format with
      | none =>
        rw [read] at owed
        cases owed
      | some seen =>
        rw [read] at owed
        rw [hold.sound.settled_read read]
        exact ⟨mark, owed, le_refl _⟩
    | keep same =>
      obtain ⟨read, rfl, held, found, reached⟩ := unsaved_reports same owed
      obtain ⟨later, isLater, past⟩ := grows key held (before key held found)
      exact ⟨later, isLater, reached.trans past⟩
    | change => cases owed
    | @empty seen new bytes encoded =>
      rcases saves with ⟨elsewhere, _⟩ | ⟨j, call, seen', new', isEvent, at_j, clear, settled⟩
      · exact absurd rfl (elsewhere i)
      · cases isEvent
        rw [at_] at at_j
        cases at_j
        have changes := hold.sound.changed moved seen new (List.mem_of_getElem? at_)
        obtain ⟨_, reported, _⟩ := saved_covers changes clear
        rw [settled]
        exact reported key mark owed
    | write => exact grows key mark (before key mark owed)

end Marks

theorem setName_own (names : ContactNames) (address name : String) :
    (setName names address name).lookup address = named name := by
  unfold setName
  cases named name with
  | none => exact AList.lookup_erase address names
  | some cleaned => exact AList.lookup_insert names

theorem setName_other {names : ContactNames} {address name other : String} (elsewhere : other ≠ address) :
    (setName names address name).lookup other = names.lookup other := by
  unfold setName
  cases named name with
  | none => exact AList.lookup_erase_ne elsewhere
  | some cleaned => exact AList.lookup_insert_ne elsewhere

section Names

variable {format : Format String String} {first : ContactNames} {file next : File String String NameCall}
  {address : String}

/-- The call has its change in the file, or is the one about to write it. -/
def hasSaved : Stage String String → Bool
  | .emptied _ _ _ | .returned _ _ => true
  | _ => false

/-- No call of the contact has saved and it is named as at first, or it has the name of one that saved
    while every other that did had started before that one returned. -/
def Named (format : Format String String) (first : ContactNames) (file : File String String NameCall)
    (address : String) : Prop :=
  ((∀ (i : ℕ) call stage, file.calls[i]? = some (call, stage) → call.address = address →
      hasSaved stage = false) ∧
    (file.settled format).lookup address = first.lookup address) ∨
  ∃ (i : ℕ) (call : NameCall) (stage : Stage String String), file.calls[i]? = some (call, stage) ∧
    call.address = address ∧ hasSaved stage = true ∧ (file.settled format).lookup address = named call.name ∧
    ∀ (j : ℕ) other late, file.calls[j]? = some (other, late) → other.address = address →
      hasSaved late = true → ∀ seen callers, stage = .returned seen callers → j < callers

structure NamesHold (format : Format String String) (first : ContactNames)
    (file : File String String NameCall) : Prop where
  sound : file.Sound format NameCall.update
  named : ∀ address, Named format first file address

theorem NamesHold.grows (hold : NamesHold format first file) {event : Step NameCall}
    (orderly : file.orderly format NameCall.clear event = true)
    (happens : file.step format NameCall.update event = some next) :
    ∀ call, file.caller event = some call → ∀ address, address ≠ call.address →
      (next.settled format).lookup address = (file.settled format).lookup address := by
  obtain ⟨_, ⟨_, same⟩ | ⟨i, call, seen, new, rfl, at_, clear, settled⟩⟩ := hold.sound.step orderly happens
  · exact fun _ _ address _ => same address
  · intro acting isActing address elsewhere
    rw [File.caller, at_] at isActing
    cases isActing
    cases hold.sound.changed call seen new (List.mem_of_getElem? at_)
    rw [settled, setName_other elsewhere]
    exact agreesOff_lookup clear elsewhere

/-- A call that goes from one stage to another, neither of which is about saving, changes no name. -/
theorem Named.unsaved {after : Stage String String} {i : ℕ} {call : NameCall} {stage : Stage String String}
    {bytes : Option (List UInt8)} (isNamed : Named format first file address)
    (at_ : file.calls[i]? = some (call, stage))
    (before : hasSaved stage = false) (later : hasSaved after = false)
    (same : (File.settled format ⟨bytes, file.calls.set i (call, after)⟩).lookup address =
      (file.settled format).lookup address) :
    Named format first ⟨bytes, file.calls.set i (call, after)⟩ address := by
  rcases isNamed with ⟨none, kept⟩ | ⟨k, last, at_last, found_k, about, saved, kept, ahead⟩
  · left
    refine ⟨?_, same.trans kept⟩
    intro j other late found isAbout
    rcases File.getElem?_goto found with ⟨_, _, rfl⟩ | ⟨_, found⟩
    · exact later
    · exact none j other late found isAbout
  · right
    have away : i ≠ k := by
      rintro rfl
      rw [at_] at found_k
      cases found_k
      rw [before] at saved
      cases saved
    refine ⟨k, last, at_last, ?_, about, saved, same.trans kept, ?_⟩
    · exact (List.getElem?_set_ne away).trans found_k
    · intro j other late found isAbout isSaved
      rcases File.getElem?_goto found with ⟨_, _, rfl⟩ | ⟨_, found⟩
      · rw [later] at isSaved
        cases isSaved
      · exact ahead j other late found isAbout isSaved

/-- A contact is named as it was when a call about another one empties the file. -/
theorem Named.elsewhere {i : ℕ} {call : NameCall} {stage after : Stage String String}
    {bytes : Option (List UInt8)} (isNamed : Named format first file address)
    (at_ : file.calls[i]? = some (call, stage)) (away : call.address ≠ address)
    (same : (File.settled format ⟨bytes, file.calls.set i (call, after)⟩).lookup address =
      (file.settled format).lookup address) :
    Named format first ⟨bytes, file.calls.set i (call, after)⟩ address := by
  rcases isNamed with ⟨none, kept⟩ | ⟨k, last, at_last, found_k, about, saved, kept, ahead⟩
  · left
    refine ⟨?_, same.trans kept⟩
    intro j other late found isAbout
    rcases File.getElem?_goto found with ⟨_, rfl, _⟩ | ⟨_, found⟩
    · exact absurd isAbout away
    · exact none j other late found isAbout
  · right
    have others : i ≠ k := by
      rintro rfl
      rw [at_] at found_k
      cases found_k
      exact away about
    refine ⟨k, last, at_last, (List.getElem?_set_ne others).trans found_k, about, saved,
      same.trans kept, ?_⟩
    intro j other late found isAbout isSaved
    rcases File.getElem?_goto found with ⟨_, rfl, _⟩ | ⟨_, found⟩
    · exact absurd isAbout away
    · exact ahead j other late found isAbout isSaved

/-- A call returns after every call that has saved was started. -/
theorem Named.written {i : ℕ} {call : NameCall} {seen : Option ContactNames} {new : ContactNames}
    {out : List UInt8} {bytes : Option (List UInt8)} (isNamed : Named format first file address)
    (at_ : file.calls[i]? = some (call, .emptied seen new out))
    (same : (File.settled format
      ⟨bytes, file.calls.set i (call, .returned seen file.calls.length)⟩).lookup address =
        (file.settled format).lookup address) :
    Named format first ⟨bytes, file.calls.set i (call, .returned seen file.calls.length)⟩ address := by
  have old : ∀ {j : ℕ} {other : NameCall} {late : Stage String String},
      (file.calls.set i (call, .returned seen file.calls.length))[j]? = some (other, late) →
        hasSaved late = true → ∃ early, file.calls[j]? = some (other, early) ∧ hasSaved early = true := by
    intro j other late found isSaved
    rcases File.getElem?_goto found with ⟨rfl, rfl, _⟩ | ⟨_, found⟩
    · exact ⟨_, at_, rfl⟩
    · exact ⟨late, found, isSaved⟩
  rcases isNamed with ⟨none, kept⟩ | ⟨k, last, at_last, found_k, about, saved, kept, ahead⟩
  · left
    refine ⟨?_, same.trans kept⟩
    intro j other late found isAbout
    rcases File.getElem?_goto found with ⟨rfl, rfl, _⟩ | ⟨_, found⟩
    · have unsaved := none j other _ at_ isAbout
      cases unsaved
    · exact none j other late found isAbout
  · right
    obtain ⟨bound, _⟩ := List.getElem?_eq_some_iff.mp at_
    by_cases here : i = k
    · subst here
      rw [at_] at found_k
      cases found_k
      refine ⟨i, call, _, List.getElem?_set_self bound, about, rfl, same.trans kept, ?_⟩
      intro j other late found _ isSaved seen' callers returned
      cases returned
      obtain ⟨early, found, _⟩ := old found isSaved
      obtain ⟨inside, _⟩ := List.getElem?_eq_some_iff.mp found
      exact inside
    · refine ⟨k, last, at_last, (List.getElem?_set_ne here).trans found_k, about, saved,
        same.trans kept, ?_⟩
      intro j other late found isAbout isSaved
      obtain ⟨early, found, earlySaved⟩ := old found isSaved
      exact ahead j other early found isAbout earlySaved

/-- A call that starts has not saved. -/
theorem Named.started {call : NameCall} (isNamed : Named format first file address)
    (same : (File.settled format { file with calls := file.calls ++ [(call, .started)] }).lookup address =
      (file.settled format).lookup address) :
    Named format first { file with calls := file.calls ++ [(call, .started)] } address := by
  have old : ∀ {j : ℕ} {entry : NameCall × Stage String String},
      (file.calls ++ [(call, .started)])[j]? = some entry → hasSaved entry.2 = true →
        file.calls[j]? = some entry := by
    intro j entry found isSaved
    rw [List.getElem?_append] at found
    split at found
    · exact found
    · rw [List.mem_singleton.mp (List.mem_of_getElem? found)] at isSaved
      cases isSaved
  rcases isNamed with ⟨none, kept⟩ | ⟨k, last, at_last, found_k, about, saved, kept, ahead⟩
  · left
    refine ⟨?_, same.trans kept⟩
    intro j other late found isAbout
    by_contra isSaved
    have early := old found (Bool.eq_true_of_not_eq_false isSaved)
    exact isSaved (none j other late early isAbout)
  · right
    obtain ⟨bound, _⟩ := List.getElem?_eq_some_iff.mp found_k
    refine ⟨k, last, at_last, (List.getElem?_append_left bound).trans found_k, about, saved,
      same.trans kept, ?_⟩
    intro j other late found isAbout isSaved
    exact ahead j other late (old found isSaved) isAbout isSaved

theorem NamesHold.step (hold : NamesHold format first file) {event : Step NameCall}
    (orderly : file.orderly format NameCall.clear event = true)
    (happens : file.step format NameCall.update event = some next) : NamesHold format first next := by
  obtain ⟨sound, saves⟩ := hold.sound.step orderly happens
  refine ⟨sound, ?_⟩
  intro address
  have before := hold.named address
  have kept : (∀ i, event ≠ .empty i) →
      (next.settled format).lookup address = (file.settled format).lookup address := by
    intro elsewhere
    rcases saves with ⟨_, same⟩ | ⟨j, _, _, _, isEvent, _⟩
    · exact same address
    · exact absurd isEvent (elsewhere j)
  rcases File.step_cases happens with ⟨started, rfl, rfl⟩ | ⟨i, moved, stage, after, bytes, moves, at_, rfl⟩
  · exact before.started (kept fun _ same => nomatch same)
  · cases moves with
    | load => exact before.unsaved at_ rfl rfl (kept fun _ same => nomatch same)
    | keep same => cases same
    | change => exact before.unsaved at_ rfl rfl (kept fun _ same => nomatch same)
    | @empty seen new bytes encoded =>
      by_cases own : moved.address = address
      · rcases saves with ⟨elsewhere, _⟩ | ⟨j, call, seen', new', isEvent, at_j, _, settled⟩
        · exact absurd rfl (elsewhere i)
        · cases isEvent
          rw [at_] at at_j
          cases at_j
          cases hold.sound.changed moved seen new (List.mem_of_getElem? at_)
          obtain ⟨bound, _⟩ := List.getElem?_eq_some_iff.mp at_
          right
          refine ⟨i, moved, _, List.getElem?_set_self bound, own, rfl, ?_, ?_⟩
          · rw [settled, ← own]
            exact setName_own _ _ _
          · intro _ _ _ _ _ _ _ _ returned
            cases returned
      · have acting : file.caller (.empty i) = some moved := by
          rw [File.caller, at_]
          rfl
        exact before.elsewhere at_ own (hold.grows orderly happens moved acting address (Ne.symm own))
    | write => exact before.written at_ (kept fun _ same => nomatch same)

end Names

/-- The two files as they are found, before the first call. -/
def Files.begin (marks names : Option (List UInt8)) : Files := ⟨⟨marks, []⟩, ⟨names, []⟩⟩

def Files.allReturned (files : Files) : Bool :=
  files.marks.calls.all (·.2.isReturned) && files.names.calls.all (·.2.isReturned)

structure Files.Hold (formats : Formats) (first : ContactNames) (files : Files) : Prop where
  marks : MarksHold formats.marks files.marks
  names : NamesHold formats.names first files.names

section Runs

variable {formats : Formats} {marks names : Option (List UInt8)} {files next : Files} {first : ContactNames}

theorem Files.Hold.begin (formats : Formats) (marks names : Option (List UInt8)) :
    Files.Hold formats ((Files.begin marks names).names.load formats.names) (Files.begin marks names) := by
  refine ⟨⟨.opened _ _ _, fun _ _ none => nomatch none⟩, ⟨.opened _ _ _, ?_⟩⟩
  intro address
  left
  exact ⟨fun _ _ _ found => (nomatch found), rfl⟩

theorem Files.Hold.step (hold : files.Hold formats first) {event : Event}
    (orderly : files.orderly formats event = true) (happens : files.step formats event = some next) :
    next.Hold formats first := by
  cases event with
  | marks event =>
    obtain ⟨after, did, rfl⟩ := Option.map_eq_some_iff.mp happens
    exact ⟨hold.marks.step orderly did, hold.names⟩
  | names event =>
    obtain ⟨after, did, rfl⟩ := Option.map_eq_some_iff.mp happens
    exact ⟨hold.marks, hold.names.step orderly did⟩

/-- While no call empties a file that another has emptied, or that holds by now what the call did not
    read of entries it is not about, no update is lost. -/
theorem no_update_lost {events : List Event} {final : Files}
    (meets : Machine.Meets (Files.step formats) (fun files event => files.orderly formats event = true)
      (Files.begin marks names) events)
    (ran : Machine.run (Files.step formats) (Files.begin marks names) events = some final) :
    (final.allReturned = true →
      (∀ call seen callers, (call, .returned seen callers) ∈ final.marks.calls →
        ∀ key mark, call.reports seen key mark → Covers (final.marks.load formats.marks) key mark) ∧
      ∀ address,
        ((∀ call ∈ final.names.calls, call.1.address ≠ address) ∧
          (final.names.load formats.names).lookup address =
            ((Files.begin marks names).names.load formats.names).lookup address) ∨
        ∃ (i : ℕ) (call : NameCall) (seen : Option ContactNames) (callers : ℕ),
          final.names.calls[i]? = some (call, .returned seen callers) ∧ call.address = address ∧
          (final.names.load formats.names).lookup address = named call.name ∧
          ∀ (j : ℕ) other, final.names.calls[j]? = some other → other.1.address = address → j < callers) ∧
    (∀ event call next, final.marks.caller event = some call →
      final.orderly formats (.marks event) = true → final.step formats (.marks event) = some next →
      next.names = final.names ∧ ∀ key, ¬ call.about key →
        (next.marks.settled formats.marks).lookup key = (final.marks.settled formats.marks).lookup key) ∧
    ∀ event call next, final.names.caller event = some call →
      final.orderly formats (.names event) = true → final.step formats (.names event) = some next →
      next.marks = final.marks ∧ ∀ address, address ≠ call.address →
        (next.names.settled formats.names).lookup address =
          (final.names.settled formats.names).lookup address := by
  have hold : final.Hold formats ((Files.begin marks names).names.load formats.names) :=
    Machine.run_invariant_meeting (fun _ _ _ hold orderly happens => hold.step orderly happens)
      (Files.Hold.begin formats marks names) meets ran
  refine ⟨?_, ?_, ?_⟩
  · intro returned
    simp only [Files.allReturned, Bool.and_eq_true] at returned
    have marksQuiet := File.quiet_returned returned.1
    have namesQuiet := File.quiet_returned returned.2
    refine ⟨?_, ?_⟩
    · intro call seen callers member key mark reports
      rw [← File.settled_quiet marksQuiet]
      exact hold.marks.owed call _ member key mark reports
    · intro address
      rw [← File.settled_quiet namesQuiet]
      have saved : ∀ {j : ℕ} {other : NameCall × Stage String String}, final.names.calls[j]? = some other →
          hasSaved other.2 = true := by
        intro j ⟨other, stage⟩ found
        have done := List.all_eq_true.mp returned.2 _ (List.mem_of_getElem? found)
        cases stage with
        | returned => rfl
        | started | loaded | changed | emptied => cases done
      rcases hold.names.named address with ⟨none, kept⟩ | ⟨i, call, stage, at_, about, _, kept, ahead⟩
      · left
        refine ⟨?_, kept⟩
        intro call member isAbout
        obtain ⟨j, found⟩ := List.mem_iff_getElem?.mp member
        have unsaved := none j call.1 call.2 found isAbout
        rw [saved found] at unsaved
        cases unsaved
      · right
        have done := List.all_eq_true.mp returned.2 _ (List.mem_of_getElem? at_)
        cases stage with
        | returned seen callers =>
          refine ⟨i, call, seen, callers, at_, about, kept, ?_⟩
          intro j other found isAbout
          exact ahead j other.1 other.2 found isAbout (saved found) seen callers rfl
        | started | loaded | changed | emptied => cases done
  · intro event call next acting orderly happens
    obtain ⟨after, did, rfl⟩ := Option.map_eq_some_iff.mp happens
    exact ⟨rfl, (hold.marks.grows orderly did).2 call acting⟩
  · intro event call next acting orderly happens
    obtain ⟨after, did, rfl⟩ := Option.map_eq_some_iff.mp happens
    exact ⟨rfl, hold.names.grows orderly did call acting⟩

end Runs

section Places

variable {υ : Type} (maps : List (KeyMap String υ))

def mapAt : List UInt8 → Option (KeyMap String υ)
  | [place] => maps[place.toNat]?
  | _ => none

theorem mapAt_nil : mapAt maps [] = none := rfl

variable [DecidableEq υ]

def placeOf (m : KeyMap String υ) : Except String (List UInt8) :=
  let places := maps.map (·.entries)
  if m.entries ∈ places then .ok [UInt8.ofNat (places.idxOf m.entries)] else .error "no map"

theorem placeOf_inverts (short : maps.length ≤ 256) (m : KeyMap String υ) (bytes : List UInt8)
    (encoded : placeOf maps m = .ok bytes) :
    ∃ again, mapAt maps bytes = some again ∧ ∀ k, again.lookup k = m.lookup k := by
  simp only [placeOf] at encoded
  split at encoded
  case isFalse => cases encoded
  case isTrue member =>
    cases encoded
    have inside := List.idxOf_lt_length_of_mem member
    have byte : (UInt8.ofNat ((maps.map (·.entries)).idxOf m.entries)).toNat =
        (maps.map (·.entries)).idxOf m.entries := by
      rw [UInt8.toNat_ofNat']
      rw [List.length_map] at inside
      exact Nat.mod_eq_of_lt (by omega)
    have placed := List.getElem_idxOf inside
    rw [List.getElem_map] at placed
    rw [List.length_map] at inside
    refine ⟨maps[(maps.map (·.entries)).idxOf m.entries], ?_, fun k => by rw [AList.ext placed]⟩
    simp only [mapAt]
    rw [byte, List.getElem?_eq_getElem inside]

/-- A format of the maps of a short list: a map's place in it. -/
def placeFormat (short : maps.length ≤ 256) : Format String υ where
  encode := placeOf maps
  decode := mapAt maps
  inverts := placeOf_inverts maps short
  empty := mapAt_nil maps

end Places

def early : ReadMark := ⟨1, "t1"⟩

def late : ReadMark := ⟨1, "t2"⟩

def sampleFormats : Formats where
  marks := placeFormat [(∅ : ReadMarks).insert "a" early, (∅ : ReadMarks).insert "a" late,
    (∅ : ReadMarks).insert "b" early, ((∅ : ReadMarks).insert "a" late).insert "b" early] (by decide)
  names := placeFormat [(∅ : ContactNames).insert "x" "Al", (∅ : ContactNames).insert "x" "Bob"] (by decide)

/-- A pull seeds the marks while two threads are opened, and two names of one contact overlap. -/
def overlapping : List Event :=
  [.marks (.start (.readMarks [("a", early)])), .marks (.load 0), .marks (.change 0), .marks (.empty 0),
    .marks (.start (.markRead "a" late)), .marks (.start (.markRead "b" early)), .marks (.write 0),
    .marks (.load 1), .marks (.change 1), .names (.start ⟨"x", "Al"⟩), .names (.start ⟨"x", " Bob\n"⟩),
    .names (.load 0), .names (.load 1), .marks (.empty 1), .names (.change 1), .names (.change 0),
    .marks (.write 1), .names (.empty 1), .names (.write 1), .marks (.load 2), .names (.empty 0),
    .marks (.change 2), .names (.write 0), .marks (.empty 2), .marks (.write 2)]

/-- The calls on the marks, and which of them have returned. -/
def markCalls (files : Files) : List (MarkCall × Bool) :=
  files.marks.calls.map fun call => (call.1, call.2.isReturned)

theorem mem_markCalls {files : Files} {call : MarkCall} (member : (call, true) ∈ markCalls files) :
    ∃ seen callers, (call, .returned seen callers) ∈ files.marks.calls := by
  obtain ⟨⟨other, stage⟩, inside, same⟩ := List.mem_map.mp member
  cases stage with
  | returned seen callers =>
    cases same
    exact ⟨seen, callers, inside⟩
  | started | loaded | changed | emptied => cases same

theorem no_update_lost_overlapping : ∃ final,
    Machine.run (Files.step sampleFormats) (Files.begin none none) overlapping = some final ∧
      Covers (final.marks.load sampleFormats.marks) "a" late ∧
      Covers (final.marks.load sampleFormats.marks) "b" early := by
  have runs : (Machine.run (Files.step sampleFormats) (Files.begin none none) overlapping).map
      (fun files => (files.allReturned, markCalls files)) = some (true, [(.readMarks [("a", early)], true),
        (.markRead "a" late, true), (.markRead "b" early, true)]) := by
    decide +kernel
  obtain ⟨final, ran, found⟩ := Option.map_eq_some_iff.mp runs
  have meets : Machine.Meets (Files.step sampleFormats)
      (fun files event => files.orderly sampleFormats event = true) (Files.begin none none) overlapping := by
    decide +kernel
  obtain ⟨marked, _⟩ := (no_update_lost meets ran).1 (congrArg Prod.fst found)
  have calls : markCalls final = _ := congrArg Prod.snd found
  have reported : ∀ key mark, (MarkCall.markRead key mark, true) ∈ markCalls final →
      Covers (final.marks.load sampleFormats.marks) key mark := by
    intro key mark member
    obtain ⟨seen, callers, inside⟩ := mem_markCalls member
    exact marked _ seen callers inside key mark ⟨rfl, rfl⟩
  rw [calls] at reported
  exact ⟨final, ran, reported _ _ (by decide), reported _ _ (by decide)⟩

/-- Two threads opened at once: each call reads the marks before the other saves. -/
def openedAtOnce : List Event :=
  [.marks (.start (.markRead "a" early)), .marks (.start (.markRead "b" early)), .marks (.load 0),
    .marks (.load 1), .marks (.change 0), .marks (.change 1), .marks (.empty 0), .marks (.write 0),
    .marks (.empty 1), .marks (.write 1)]

theorem mark_lost_at_once : ¬ ∀ (events : List Event) (final : Files),
    Machine.run (Files.step sampleFormats) (Files.begin none none) events = some final →
    final.allReturned = true → ∀ call seen callers, (call, .returned seen callers) ∈ final.marks.calls →
    ∀ key mark, call.reports seen key mark → Covers (final.marks.load sampleFormats.marks) key mark := by
  intro stated
  have runs : (Machine.run (Files.step sampleFormats) (Files.begin none none) openedAtOnce).map
      (fun files => (files.allReturned, markCalls files, (files.marks.load sampleFormats.marks).lookup "a")) =
      some (true, [(.markRead "a" early, true), (.markRead "b" early, true)], none) := by
    decide +kernel
  obtain ⟨final, ran, found⟩ := Option.map_eq_some_iff.mp runs
  have calls : markCalls final = _ := congrArg (fun probe => probe.2.1) found
  have lost : (final.marks.load sampleFormats.marks).lookup "a" = none :=
    congrArg (fun probe => probe.2.2) found
  have listed : (MarkCall.markRead "a" early, true) ∈ markCalls final := by
    rw [calls]
    exact List.mem_cons_self
  obtain ⟨seen, callers, inside⟩ := mem_markCalls listed
  obtain ⟨held, kept, _⟩ := stated _ _ ran (congrArg Prod.fst found) _ seen callers inside "a" early ⟨rfl, rfl⟩
  rw [lost] at kept
  cases kept

end Kaspaverse.Transport.SideFiles
