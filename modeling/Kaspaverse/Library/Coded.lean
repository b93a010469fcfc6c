import Kaspaverse.Library.Utf8

namespace Kaspaverse

/-- A value's code at the start of an input: how it is written, and how it is read and the rest of the
    input handed back. What stands behind a value never changes what is read. -/
structure Field (α : Type) where
  write : α → Except String Bytes
  read : Bytes → Option (α × Bytes)
  reads : ∀ {value bytes}, write value = .ok bytes → ∀ rest, read (bytes ++ rest) = some (value, rest)
  settled : ∀ {input value rest}, read input = some (value, rest) →
    ∃ piece, input = piece ++ rest ∧ ∀ other, read (piece ++ other) = some (value, other)

namespace Field

variable {α β : Type} (field : Field α)

theorem read_written {value : α} {bytes : Bytes} (written : field.write value = .ok bytes) :
    field.read bytes = some (value, []) := by
  have read := field.reads written []
  rwa [List.append_nil] at read

/-- A value whose code is cut short does not read. -/
theorem read_torn {value : α} {bytes : Bytes} (written : field.write value = .ok bytes) {n : Nat}
    (short : n < bytes.length) : field.read (bytes.take n) = none := by
  cases found : field.read (bytes.take n) with
  | none => rfl
  | some pair =>
    obtain ⟨other, rest⟩ := pair
    obtain ⟨piece, split, always⟩ := field.settled found
    have whole : bytes = piece ++ (rest ++ bytes.drop n) := by
      rw [← List.append_assoc, ← split, List.take_append_drop]
    have read := always (rest ++ bytes.drop n)
    rw [← whole, field.read_written written] at read
    have left : [] = rest ++ bytes.drop n := congrArg Prod.snd (Option.some.inj read)
    have cut : bytes.drop n = [] := (List.append_eq_nil_iff.mp left.symm).2
    have size := congrArg List.length cut
    rw [List.length_drop, List.length_nil] at size
    omega

/-- A number of so many bytes, least significant first. -/
def le (width : Nat) : Field Nat where
  write n := if n < 256 ^ width then .ok (leBytes width n) else .error "invalid input parameter"
  read input :=
    if input.length < width then none else some (leValue (input.take width), input.drop width)
  reads := by
    intro n bytes written rest
    split at written
    case isFalse => cases written
    case isTrue bound =>
      cases written
      have size := length_leBytes width n
      rw [if_neg (by rw [List.length_append]; omega), List.take_left' size, List.drop_left' size,
        leValue_leBytes bound]
  settled := by
    intro input n rest found
    split at found
    case isTrue => cases found
    case isFalse enough =>
      cases found
      have size : (input.take width).length = width := by
        rw [List.length_take]
        omega
      refine ⟨input.take width, (List.take_append_drop width input).symm, ?_⟩
      intro other
      rw [if_neg (by rw [List.length_append]; omega), List.take_left' size, List.drop_left' size]

section Tagged

variable (tag : α → UInt8) (ofTag : UInt8 → Option α) (inverts : ∀ value, ofTag (tag value) = some value)

/-- A value of an enumeration, by the number of its variant. -/
def tagged : Field α where
  write value := .ok [tag value]
  read
    | [] => none
    | byte :: rest => (ofTag byte).map fun value => (value, rest)
  reads := by
    intro value bytes written rest
    cases written
    show (ofTag (tag value)).map _ = _
    rw [inverts]
    rfl
  settled := by
    intro input value rest found
    cases input with
    | nil => cases found
    | cons byte behind =>
      obtain ⟨held, known, same⟩ := Option.map_eq_some_iff.mp found
      cases same
      refine ⟨[byte], rfl, ?_⟩
      intro other
      show (ofTag byte).map _ = _
      rw [known]
      rfl

end Tagged

variable {field}

/-- Two values, one behind the other. -/
def pair (first : Field α) (second : Field β) : Field (α × β) where
  write values := do
    let one ← first.write values.1
    let other ← second.write values.2
    return one ++ other
  read input := do
    let (one, rest) ← first.read input
    let (other, rest) ← second.read rest
    return ((one, other), rest)
  reads := by
    intro values bytes written rest
    cases one : first.write values.1 with
    | error reason =>
      rw [one] at written
      cases written
    | ok head =>
      cases other : second.write values.2 with
      | error reason =>
        rw [one, other] at written
        cases written
      | ok tail =>
        rw [one, other] at written
        cases written
        rw [List.append_assoc, first.reads one]
        show (second.read (tail ++ rest)).bind _ = _
        rw [second.reads other]
        rfl
  settled := by
    intro input values rest found
    obtain ⟨⟨one, behind⟩, readOne, found⟩ := Option.bind_eq_some_iff.mp found
    obtain ⟨⟨other, left⟩, readOther, same⟩ := Option.bind_eq_some_iff.mp found
    cases same
    obtain ⟨head, rfl, alwaysOne⟩ := first.settled readOne
    obtain ⟨tail, rfl, alwaysOther⟩ := second.settled readOther
    refine ⟨head ++ tail, (List.append_assoc head tail rest).symm, ?_⟩
    intro more
    rw [List.append_assoc, alwaysOne]
    show (second.read (tail ++ more)).bind _ = _
    rw [alwaysOther]
    rfl

/-- A value read as another's code, where it is one. -/
def mapped (field : Field α) (code : β → α) (of : α → Option β) (inverts : ∀ value, of (code value) = some value) :
    Field β where
  write value := field.write (code value)
  read input := do
    let (coded, rest) ← field.read input
    let value ← of coded
    return (value, rest)
  reads := by
    intro value bytes written rest
    rw [field.reads written]
    show (of (code value)).bind _ = _
    rw [inverts]
    rfl
  settled := by
    intro input value rest found
    obtain ⟨⟨coded, behind⟩, read, found⟩ := Option.bind_eq_some_iff.mp found
    obtain ⟨held, known, same⟩ := Option.bind_eq_some_iff.mp found
    cases same
    obtain ⟨piece, rfl, always⟩ := field.settled read
    refine ⟨piece, rfl, ?_⟩
    intro other
    rw [always]
    show (of coded).bind _ = _
    rw [known]
    rfl

/-- Bytes behind their count. -/
def counted : Field Bytes where
  write bytes := do
    let count ← (le 4).write bytes.length
    return count ++ bytes
  read input := do
    let (count, rest) ← (le 4).read input
    if rest.length < count then none else some (rest.take count, rest.drop count)
  reads := by
    intro value bytes written rest
    cases count : (le 4).write value.length with
    | error reason =>
      rw [count] at written
      cases written
    | ok head =>
      rw [count] at written
      cases written
      rw [List.append_assoc, (le 4).reads count]
      show (if (value ++ rest).length < value.length then none else
        some ((value ++ rest).take value.length, (value ++ rest).drop value.length)) = _
      rw [if_neg (by rw [List.length_append]; omega), List.take_left, List.drop_left]
  settled := by
    intro input value rest found
    obtain ⟨⟨count, behind⟩, readCount, found⟩ := Option.bind_eq_some_iff.mp found
    change (if behind.length < count then none else some (behind.take count, behind.drop count)) = _ at found
    split at found
    case isTrue => cases found
    case isFalse enough =>
      cases found
      obtain ⟨head, rfl, always⟩ := (le 4).settled readCount
      have size : (behind.take count).length = count := by
        rw [List.length_take]
        omega
      refine ⟨head ++ behind.take count, ?_, ?_⟩
      · rw [List.append_assoc, List.take_append_drop]
      · intro other
        rw [List.append_assoc, always]
        show (if (behind.take count ++ other).length < count then none else
          some ((behind.take count ++ other).take count, (behind.take count ++ other).drop count)) = _
        rw [if_neg (by rw [List.length_append]; omega), List.take_left' size, List.drop_left' size]

def string : Field String := counted.mapped utf8 ofUtf8 ofUtf8_utf8

/-- A flag byte, and the value where there is one. -/
def optional (field : Field α) : Field (Option α) where
  write
    | none => .ok [0]
    | some value => do
      let bytes ← field.write value
      return 1 :: bytes
  read
    | [] => none
    | flag :: rest =>
      if flag = 0 then some (none, rest)
      else if flag = 1 then do
        let (value, rest) ← field.read rest
        return (some value, rest)
      else none
  reads := by
    intro value bytes written rest
    cases value with
    | none =>
      cases written
      rfl
    | some held =>
      change (field.write held).bind (fun bytes => .ok (1 :: bytes)) = .ok bytes at written
      cases code : field.write held with
      | error reason =>
        rw [code] at written
        cases written
      | ok tail =>
        rw [code] at written
        cases written
        show (field.read (tail ++ rest)).bind _ = _
        rw [field.reads code]
        rfl
  settled := by
    intro input value rest found
    cases input with
    | nil => cases found
    | cons flag behind =>
      change (if flag = 0 then _ else _) = _ at found
      split at found
      next zero =>
        cases found
        subst zero
        exact ⟨[0], rfl, fun other => rfl⟩
      next =>
        split at found
        next one =>
          subst one
          obtain ⟨⟨held, left⟩, read, same⟩ := Option.bind_eq_some_iff.mp found
          cases same
          obtain ⟨piece, rfl, always⟩ := field.settled read
          refine ⟨1 :: piece, rfl, ?_⟩
          intro other
          show (field.read (piece ++ other)).bind _ = _
          rw [always]
          rfl
        next => cases found

end Field

end Kaspaverse
