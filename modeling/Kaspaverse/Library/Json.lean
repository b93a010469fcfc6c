import Mathlib.Data.List.Sort
import Kaspaverse.Library.Utf8

namespace Kaspaverse

/-- A JSON value whose numbers are unsigned. An object is its keys and values in order. -/
inductive JsonValue
  | null
  | bool (value : Bool)
  | number (value : Nat)
  | string (value : String)
  | array (items : List JsonValue)
  | object (fields : List (String × JsonValue))

namespace JsonValue

/-- A byte inside a string literal. -/
def escapeByte (byte : UInt8) : Bytes :=
  if byte = 34 then [92, 34]
  else if byte = 92 then [92, 92]
  else if byte = 8 then [92, 98]
  else if byte = 9 then [92, 116]
  else if byte = 10 then [92, 110]
  else if byte = 12 then [92, 102]
  else if byte = 13 then [92, 114]
  else if byte < 32 then
    utf8 "\\u00" ++ [if byte < 16 then 48 else 49, (utf8 "0123456789abcdef").getD (byte.toNat % 16) 48]
  else [byte]

def quote (text : String) : Bytes := 34 :: (utf8 text).flatMap escapeByte ++ [34]

/-- Pieces with a comma between each two. -/
def joined : List Bytes → Bytes
  | [] => []
  | [piece] => piece
  | piece :: next :: rest => piece ++ 44 :: joined (next :: rest)

theorem joined_append {first second : List Bytes} (some₁ : first ≠ []) (some₂ : second ≠ []) :
    joined (first ++ second) = joined first ++ 44 :: joined second := by
  induction first with
  | nil => exact absurd rfl some₁
  | cons piece rest ih =>
    cases rest with
    | nil =>
      obtain ⟨next, behind, rfl⟩ := List.exists_cons_of_ne_nil some₂
      rfl
    | cons next behind =>
      have rest := ih (by simp)
      simp only [List.cons_append] at rest ⊢
      simp only [joined, rest, List.append_assoc, List.cons_append]

mutual

/-- The compact text of a value, its object keys in the order they stand. -/
def emit : JsonValue → Bytes
  | .null => utf8 "null"
  | .bool true => utf8 "true"
  | .bool false => utf8 "false"
  | .number value => utf8 (toString value)
  | .string value => quote value
  | .array items => 91 :: joined (emitItems items) ++ [93]
  | .object fields => 123 :: joined (emitFields fields) ++ [125]

def emitItems : List JsonValue → List Bytes
  | [] => []
  | item :: rest => emit item :: emitItems rest

def emitFields : List (String × JsonValue) → List Bytes
  | [] => []
  | (key, value) :: rest => (quote key ++ 58 :: emit value) :: emitFields rest

end

theorem emitFields_append (first second : List (String × JsonValue)) :
    emitFields (first ++ second) = emitFields first ++ emitFields second := by
  induction first with
  | nil => rfl
  | cons field rest ih =>
    obtain ⟨key, value⟩ := field
    simp only [List.cons_append, emitFields, ih]

theorem emitFields_ne_nil {fields : List (String × JsonValue)} (some_ : fields ≠ []) : emitFields fields ≠ [] := by
  obtain ⟨⟨key, value⟩, rest, rfl⟩ := List.exists_cons_of_ne_nil some_
  simp [emitFields]

/-- More keys behind an object's own, written in place of its closing brace. -/
theorem emit_object_append {first second : List (String × JsonValue)} (some₁ : first ≠ []) (some₂ : second ≠ []) :
    emit (.object (first ++ second)) =
      (emit (.object first)).dropLast ++ 44 :: (joined (emitFields second) ++ [125]) := by
  have whole : emit (.object first) = (123 :: joined (emitFields first)) ++ [125] := by simp only [emit]
  rw [whole, List.dropLast_concat, emit, emitFields_append,
    joined_append (emitFields_ne_nil some₁) (emitFields_ne_nil some₂)]
  simp

theorem getLast?_emit_object (fields : List (String × JsonValue)) : (emit (.object fields)).getLast? = some 125 := by
  have whole : emit (.object fields) = (123 :: joined (emitFields fields)) ++ [125] := by simp only [emit]
  rw [whole, List.getLast?_concat]

@[irreducible] def byKey (fields : List (String × JsonValue)) : List (String × JsonValue) :=
  fields.insertionSort fun a b => a.1 ≤ b.1

theorem byKey_perm (fields : List (String × JsonValue)) : (byKey fields).Perm fields := by
  unfold byKey
  exact List.perm_insertionSort _ fields

mutual

/-- The value with the keys of every object in order, as a sorted map hands them out. -/
def sorted : JsonValue → JsonValue
  | .null => .null
  | .bool value => .bool value
  | .number value => .number value
  | .string value => .string value
  | .array items => .array (sortedItems items)
  | .object fields => .object (byKey (sortedFields fields))

def sortedItems : List JsonValue → List JsonValue
  | [] => []
  | item :: rest => sorted item :: sortedItems rest

def sortedFields : List (String × JsonValue) → List (String × JsonValue)
  | [] => []
  | (key, value) :: rest => (key, sorted value) :: sortedFields rest

end

def get (key : String) : JsonValue → Option JsonValue
  | .object fields => fields.lookup key
  | _ => none

def asStr : JsonValue → Option String
  | .string value => some value
  | _ => none

def asU64 : JsonValue → Option Nat
  | .number value => if value < 2 ^ 64 then some value else none
  | _ => none

def asBool : JsonValue → Option Bool
  | .bool value => some value
  | _ => none

def asArray : JsonValue → Option (List JsonValue)
  | .array items => some items
  | _ => none

def isObject : JsonValue → Bool
  | .object _ => true
  | _ => false

@[simp] theorem sortedItems_eq (items : List JsonValue) : sortedItems items = items.map sorted := by
  induction items with
  | nil => rfl
  | cons item rest ih => simp [sortedItems, ih]

theorem sortedFields_eq (fields : List (String × JsonValue)) :
    sortedFields fields = fields.map fun field => (field.1, sorted field.2) := by
  induction fields with
  | nil => rfl
  | cons field rest ih =>
    obtain ⟨key, value⟩ := field
    simp [sortedFields, ih]

theorem lookup_here (key : String) (value : JsonValue) (rest : List (String × JsonValue)) :
    ((key, value) :: rest).lookup key = some value := by
  simp

theorem lookup_there {key name : String} (apart : key ≠ name) (value : JsonValue) (rest : List (String × JsonValue)) :
    ((name, value) :: rest).lookup key = rest.lookup key := by
  rw [List.lookup_cons, beq_eq_false_iff_ne.2 apart]

theorem lookup_map (fields : List (String × JsonValue)) (key : String) (f : JsonValue → JsonValue) :
    (fields.map fun field => (field.1, f field.2)).lookup key = (fields.lookup key).map f := by
  induction fields with
  | nil => rfl
  | cons field rest ih =>
    obtain ⟨name, value⟩ := field
    simp only [List.map_cons, List.lookup_cons]
    split
    · rfl
    · exact ih

theorem mem_of_lookup {fields : List (String × JsonValue)} {key : String} {value : JsonValue}
    (found : fields.lookup key = some value) : (key, value) ∈ fields := by
  induction fields with
  | nil => cases found
  | cons field rest ih =>
    obtain ⟨name, other⟩ := field
    rw [List.lookup_cons] at found
    split at found
    · rename_i same
      cases found
      simp [eq_of_beq same]
    · exact List.mem_cons_of_mem _ (ih found)

theorem lookup_of_mem {fields : List (String × JsonValue)} {key : String} {value : JsonValue}
    (distinct : (fields.map Prod.fst).Nodup) (there : (key, value) ∈ fields) : fields.lookup key = some value := by
  induction fields with
  | nil => cases there
  | cons field rest ih =>
    obtain ⟨name, other⟩ := field
    simp only [List.map_cons, List.nodup_cons] at distinct
    rcases List.mem_cons.1 there with same | behind
    · cases same
      exact lookup_here key value rest
    · have apart : key ≠ name := by
        rintro rfl
        exact distinct.1 (List.mem_map.2 ⟨_, behind, rfl⟩)
      rw [lookup_there apart]
      exact ih distinct.2 behind

theorem lookup_perm {first second : List (String × JsonValue)} (same : first.Perm second)
    (distinct : (first.map Prod.fst).Nodup) (key : String) : first.lookup key = second.lookup key := by
  have distinct' : (second.map Prod.fst).Nodup := (same.map Prod.fst).nodup_iff.1 distinct
  cases found : first.lookup key with
  | some value => exact (lookup_of_mem distinct' (same.mem_iff.1 (mem_of_lookup found))).symm
  | none =>
    cases other : second.lookup key with
    | none => rfl
    | some value =>
      rw [lookup_of_mem distinct (same.mem_iff.2 (mem_of_lookup other))] at found
      cases found

/-- Where the keys are distinct, sorting moves no value to another key. -/
theorem get_sorted {fields : List (String × JsonValue)} (distinct : (fields.map Prod.fst).Nodup) (key : String) :
    (sorted (.object fields)).get key = (fields.lookup key).map sorted := by
  have arranged := byKey_perm (sortedFields fields)
  have keys : ((sortedFields fields).map Prod.fst).Nodup := by
    simpa [sortedFields_eq, Function.comp_def] using distinct
  have keys' := (arranged.map Prod.fst).nodup_iff.2 keys
  rw [sorted, get, lookup_perm arranged keys' key, sortedFields_eq, lookup_map]

end JsonValue

end Kaspaverse
