import Mathlib.Data.List.Nodup
import Mathlib.Data.List.Range
import Kaspaverse.Library.Greatest

namespace Kaspaverse.Chain

def PROBE_BATCH : Nat := 128

/-- An entry of the node's answer: an address and what it holds, if the node indexes anything there. -/
structure BalanceEntry (Address : Type) where
  address : Address
  balance : Option Nat
  deriving DecidableEq

variable {Address Failure : Type}

/-- `slice::chunks`. -/
def chunks (size : Nat) (addresses : List Address) : List (List Address) :=
  (List.range ((addresses.length + size - 1) / size)).map fun number => (addresses.drop (number * size)).take size

section Chunks

variable (addresses : List Address)

/-- The chunk of the list with this number. -/
def chunkAt (number : Nat) : List Address := (addresses.drop (number * PROBE_BATCH)).take PROBE_BATCH

theorem chunks_get {number : Nat} {chunk : List Address} (place : (chunks PROBE_BATCH addresses)[number]? = some chunk) :
    number * PROBE_BATCH < addresses.length ∧ chunk = chunkAt addresses number := by
  simp only [chunks, List.getElem?_map, Option.map_eq_some_iff] at place
  obtain ⟨n, inRange, rfl⟩ := place
  obtain ⟨bound, rfl⟩ := List.getElem?_eq_some_iff.1 inRange
  simp only [List.length_range, List.getElem_range, PROBE_BATCH] at bound ⊢
  exact ⟨by omega, rfl⟩

theorem chunks_of_lt {number : Nat} (inside : number * PROBE_BATCH < addresses.length) :
    (chunks PROBE_BATCH addresses)[number]? = some (chunkAt addresses number) := by
  have bound : number < (addresses.length + PROBE_BATCH - 1) / PROBE_BATCH := by
    simp only [PROBE_BATCH] at inside ⊢
    omega
  simp [chunks, List.getElem?_range bound, chunkAt]

theorem chunkAt_get (number offset : Nat) (small : offset < PROBE_BATCH) :
    (chunkAt addresses number)[offset]? = addresses[number * PROBE_BATCH + offset]? := by
  rw [chunkAt, List.getElem?_take_of_lt small, List.getElem?_drop]

theorem chunkAt_nodup (distinct : addresses.Nodup) (number : Nat) : (chunkAt addresses number).Nodup :=
  ((List.take_sublist _ _).trans (List.drop_sublist _ _)).nodup distinct

end Chunks

variable [DecidableEq Address]

/-- A chunk's position in the caller's list, as far as the entry names a funded address of the chunk. -/
def fundedOffset (chunk : List Address) (entry : BalanceEntry Address) : Option Nat :=
  if entry.balance.getD 0 = 0 then none else chunk.idxOf? entry.address

def highestFundedInChunk (base : Nat) (chunk : List Address) (entries : List (BalanceEntry Address)) : Option Nat :=
  entries.foldl (fun highest entry =>
    match fundedOffset chunk entry with
    | none => highest
    | some offset => raise highest (base + offset)) none

/-- The chunk walk: each chunk's question put to the node under the chunk's number. -/
def scanChunks (probe : Nat → List Address → Except Failure (List (BalanceEntry Address))) :
    Nat → List (List Address) → Option Nat → Except Failure (Option Nat)
  | _, [], highest => .ok highest
  | number, chunk :: rest, highest =>
    -- `(chunk_no * PROBE_BATCH) as u32`
    let base := number * PROBE_BATCH % 2 ^ 32
    match probe number chunk with
    | .error failure => .error failure
    | .ok entries =>
      scanChunks probe (number + 1) rest
        ((highestFundedInChunk base chunk entries).elim highest (raise highest))

def highestFundedIndex (probe : Nat → List Address → Except Failure (List (BalanceEntry Address)))
    (addresses : List Address) : Except Failure (Option Nat) :=
  scanChunks probe 0 (chunks PROBE_BATCH addresses) none

section Scan

/-- The answer reports a positive balance at the chunk's own address of this offset. -/
def FundedAt (answer : Except Failure (List (BalanceEntry Address))) (chunk : List Address) (offset : Nat) : Prop :=
  ∃ entries, answer = .ok entries ∧
    ∃ entry ∈ entries, fundedOffset chunk entry = some offset

theorem fundedOffset_lt {chunk : List Address} {entry : BalanceEntry Address} {offset : Nat}
    (funded : fundedOffset chunk entry = some offset) : offset < chunk.length := by
  unfold fundedOffset at funded
  split at funded
  · cases funded
  · rw [List.idxOf?, List.findIdx?_eq_some_iff_getElem] at funded
    exact funded.1

theorem fundedOffset_iff {chunk : List Address} (distinct : chunk.Nodup) (entry : BalanceEntry Address)
    (offset : Nat) :
    fundedOffset chunk entry = some offset ↔
      0 < entry.balance.getD 0 ∧ chunk[offset]? = some entry.address := by
  unfold fundedOffset
  split
  · rename_i empty
    simp [empty]
  · rename_i funded
    have positive : 0 < entry.balance.getD 0 := Nat.pos_of_ne_zero funded
    simp only [positive, true_and]
    rw [List.idxOf?, List.findIdx?_eq_some_iff_getElem]
    constructor
    · intro ⟨bound, same, _⟩
      rw [List.getElem?_eq_getElem bound]
      simpa using same
    · intro there
      obtain ⟨bound, same⟩ := List.getElem?_eq_some_iff.1 there
      refine ⟨bound, by simp [same], fun earlier before => ?_⟩
      have other : chunk[earlier] ≠ chunk[offset] := by
        intro equal
        exact absurd ((List.Nodup.getElem_inj_iff distinct).1 equal) (by omega)
      simpa [same] using other

theorem highestFundedInChunk_greatest (chunk : List Address) (base : Nat) (entries : List (BalanceEntry Address)) :
    GreatestOf {n | ∃ offset, n = base + offset ∧ FundedAt (.ok entries : Except Failure _) chunk offset}
      (highestFundedInChunk base chunk entries) := by
  have folded := greatest_foldl (fun entry => (fundedOffset chunk entry).map (base + ·)) entries ∅ none rfl
  have named : (∅ : Set Nat) ∪ {n | ∃ entry ∈ entries, (fundedOffset chunk entry).map (base + ·) = some n} =
      {n | ∃ offset, n = base + offset ∧ FundedAt (.ok entries : Except Failure _) chunk offset} := by
    ext n
    simp only [Set.empty_union, Set.mem_ofPred_eq, Option.map_eq_some_iff, FundedAt]
    constructor
    · rintro ⟨entry, listed, offset, funded, rfl⟩
      exact ⟨offset, rfl, entries, rfl, entry, listed, funded⟩
    · rintro ⟨offset, rfl, answered, same, entry, listed, funded⟩
      cases same
      exact ⟨entry, listed, offset, funded, rfl⟩
  have same : highestFundedInChunk base chunk entries =
      entries.foldl (fun highest entry =>
        ((fundedOffset chunk entry).map (base + ·)).elim highest (raise highest)) none := by
    unfold highestFundedInChunk
    congr 1
    funext highest entry
    cases fundedOffset chunk entry <;> rfl
  rw [same, ← named]
  exact folded

variable (probe : Nat → List Address → Except Failure (List (BalanceEntry Address)))

/-- What the answers to the chunks from one number on name, as indices. -/
def NamedFrom (number : Nat) (cs : List (List Address)) : Set Nat :=
  {n | ∃ k chunk offset, cs[k]? = some chunk ∧ n = (number + k) * PROBE_BATCH % 2 ^ 32 + offset ∧
    FundedAt (probe (number + k) chunk) chunk offset}

theorem named_cons (number : Nat) (chunk : List Address) (rest : List (List Address)) :
    NamedFrom probe number (chunk :: rest) =
      {n | ∃ offset, n = number * PROBE_BATCH % 2 ^ 32 + offset ∧ FundedAt (probe number chunk) chunk offset} ∪
        NamedFrom probe (number + 1) rest := by
  ext n
  simp only [NamedFrom, Set.mem_union, Set.mem_ofPred_eq]
  constructor
  · rintro ⟨k, asked, offset, place, rfl, funded⟩
    cases k with
    | zero =>
      cases place
      exact .inl ⟨offset, rfl, funded⟩
    | succ k =>
      have onward : number + 1 + k = number + (k + 1) := by omega
      exact .inr ⟨k, asked, offset, by simpa using place, by rw [onward], by rw [onward]; exact funded⟩
  · rintro (⟨offset, rfl, funded⟩ | ⟨k, asked, offset, place, rfl, funded⟩)
    · exact ⟨0, chunk, offset, rfl, rfl, funded⟩
    · have onward : number + 1 + k = number + (k + 1) := by omega
      exact ⟨k + 1, asked, offset, by simpa using place, by rw [onward], by rw [← onward]; exact funded⟩

/-- The walk from one chunk on: one failure fails it, else it holds the greatest index named. -/
theorem scanChunks_spec (number : Nat) (cs : List (List Address)) (highest : Option Nat) (s : Set Nat)
    (greatest : GreatestOf s highest) :
    ((∃ k chunk failure, cs[k]? = some chunk ∧ probe (number + k) chunk = .error failure) →
      ∃ failure, scanChunks probe number cs highest = .error failure) ∧
    ((∀ k chunk, cs[k]? = some chunk → ∃ entries, probe (number + k) chunk = .ok entries) →
      ∃ found, scanChunks probe number cs highest = .ok found ∧ GreatestOf (s ∪ NamedFrom probe number cs) found) := by
  induction cs generalizing number highest s with
  | nil =>
    refine ⟨fun ⟨k, chunk, _, place, _⟩ => by simp at place, fun _ => ⟨highest, rfl, ?_⟩⟩
    have empty : NamedFrom probe number [] = ∅ := by simp [NamedFrom]
    simpa [empty] using greatest
  | cons chunk rest ih =>
    cases answer : probe number chunk with
    | error failure =>
      have fails : scanChunks probe number (chunk :: rest) highest = .error failure := by
        simp only [scanChunks, answer]
      refine ⟨fun _ => ⟨failure, fails⟩, fun fine => ?_⟩
      obtain ⟨entries, good⟩ := fine 0 chunk rfl
      rw [Nat.add_zero, answer] at good
      cases good
    | ok entries =>
      have goes : scanChunks probe number (chunk :: rest) highest =
          scanChunks probe (number + 1) rest ((highestFundedInChunk (number * PROBE_BATCH % 2 ^ 32) chunk
            entries).elim highest (raise highest)) := by
        simp only [scanChunks, answer]
      have own := @highestFundedInChunk_greatest _ Failure _ chunk (number * PROBE_BATCH % 2 ^ 32) entries
      obtain ⟨fails, finds⟩ := ih (number + 1) _ _ (greatest.join own)
      rw [goes]
      constructor
      · rintro ⟨k, asked, failure, place, bad⟩
        cases k with
        | zero =>
          cases place
          rw [Nat.add_zero, answer] at bad
          cases bad
        | succ k =>
          refine fails ⟨k, asked, failure, by simpa using place, ?_⟩
          rw [← bad, Nat.add_assoc, Nat.add_comm 1 k]
      · intro fine
        obtain ⟨found, result, best⟩ := finds fun k asked place => by
          obtain ⟨answers, good⟩ := fine (k + 1) asked (by simpa using place)
          exact ⟨answers, by rw [← good, Nat.add_assoc, Nat.add_comm 1 k]⟩
        refine ⟨found, result, ?_⟩
        rw [named_cons, ← Set.union_assoc, answer]
        exact best

end Scan

section Whole

variable (probe : Nat → List Address → Except Failure (List (BalanceEntry Address))) (addresses : List Address)

/-- Some entry of the answer to the address's own chunk reports a positive balance at it. -/
def Reported (index : Nat) : Prop :=
  ∃ address entries, addresses[index]? = some address ∧
    probe (index / PROBE_BATCH) (chunkAt addresses (index / PROBE_BATCH)) = .ok entries ∧
    ∃ entry ∈ entries, entry.address = address ∧ 0 < entry.balance.getD 0

theorem mem_named {n : Nat} (named : n ∈ NamedFrom probe 0 (chunks PROBE_BATCH addresses)) :
    ∃ number offset, number * PROBE_BATCH + offset < addresses.length ∧ offset < PROBE_BATCH ∧
      n = number * PROBE_BATCH % 2 ^ 32 + offset ∧ FundedAt (probe number (chunkAt addresses number))
        (chunkAt addresses number) offset := by
  obtain ⟨number, chunk, offset, place, rfl, entries, good, entry, listed, funded⟩ := named
  obtain ⟨inside, rfl⟩ := chunks_get addresses place
  rw [Nat.zero_add] at good ⊢
  have bound := fundedOffset_lt funded
  simp only [chunkAt, List.length_take, List.length_drop] at bound
  exact ⟨number, offset, by omega, by omega, rfl, entries, good, entry, listed, funded⟩

theorem named_chunks (distinct : addresses.Nodup) (short : addresses.length ≤ 2 ^ 32) :
    NamedFrom probe 0 (chunks PROBE_BATCH addresses) = {index | Reported probe addresses index} := by
  ext index
  constructor
  · intro named
    obtain ⟨number, offset, inside, small, rfl, entries, good, entry, listed, funded⟩ := mem_named probe addresses named
    obtain ⟨positive, asked⟩ := (fundedOffset_iff (chunkAt_nodup addresses distinct number) entry offset).1 funded
    have whole : number * PROBE_BATCH % 2 ^ 32 = number * PROBE_BATCH := Nat.mod_eq_of_lt (by omega)
    have back : (number * PROBE_BATCH + offset) / PROBE_BATCH = number := by
      simp only [PROBE_BATCH] at small ⊢
      omega
    rw [chunkAt_get _ _ _ small] at asked
    rw [whole]
    exact ⟨entry.address, entries, asked, by rw [back]; exact good, entry, listed, rfl, positive⟩
  · rintro ⟨address, entries, asked, good, entry, listed, rfl, positive⟩
    have bound := (List.getElem?_eq_some_iff.1 asked).1
    have split : index / PROBE_BATCH * PROBE_BATCH + index % PROBE_BATCH = index := Nat.div_add_mod' index PROBE_BATCH
    have small : index % PROBE_BATCH < PROBE_BATCH := Nat.mod_lt _ (by decide)
    have whole : index / PROBE_BATCH * PROBE_BATCH % 2 ^ 32 = index / PROBE_BATCH * PROBE_BATCH :=
      Nat.mod_eq_of_lt (by omega)
    have funded : fundedOffset (chunkAt addresses (index / PROBE_BATCH)) entry = some (index % PROBE_BATCH) := by
      rw [fundedOffset_iff (chunkAt_nodup addresses distinct _), chunkAt_get _ _ _ small, split]
      exact ⟨positive, asked⟩
    refine ⟨index / PROBE_BATCH, _, index % PROBE_BATCH, chunks_of_lt addresses (by omega), ?_, entries, ?_, entry,
      listed, funded⟩
    · rw [Nat.zero_add, whole, split]
    · rw [Nat.zero_add]
      exact good

/-- Some chunk of the list was answered with a failure. -/
def SomeFailed : Prop :=
  ∃ number failure, number * PROBE_BATCH < addresses.length ∧ probe number (chunkAt addresses number) = .error failure

variable {addresses}

theorem highestFundedIndex_fails (failed : SomeFailed probe addresses) :
    ∃ failure, highestFundedIndex probe addresses = .error failure := by
  obtain ⟨number, failure, inside, bad⟩ := failed
  have place := chunks_of_lt addresses inside
  exact (scanChunks_spec probe 0 (chunks PROBE_BATCH addresses) none ∅ rfl).1
    ⟨number, _, failure, place, by rw [Nat.zero_add]; exact bad⟩

theorem highestFundedIndex_named (answered : ¬ SomeFailed probe addresses) :
    ∃ highest, highestFundedIndex probe addresses = .ok highest ∧
      GreatestOf (NamedFrom probe 0 (chunks PROBE_BATCH addresses)) highest := by
  have fine (number : Nat) (chunk : List Address) (place : (chunks PROBE_BATCH addresses)[number]? = some chunk) :
      ∃ entries, probe (0 + number) chunk = .ok entries := by
    obtain ⟨inside, rfl⟩ := chunks_get addresses place
    rw [Nat.zero_add]
    cases good : probe number (chunkAt addresses number) with
    | ok entries => exact ⟨entries, rfl⟩
    | error failure => exact absurd ⟨number, failure, inside, good⟩ answered
  obtain ⟨highest, found, greatest⟩ := (scanChunks_spec probe 0 (chunks PROBE_BATCH addresses) none ∅ rfl).2 fine
  rw [Set.empty_union] at greatest
  exact ⟨highest, found, greatest⟩

theorem highestFundedIndex_finds (distinct : addresses.Nodup) (short : addresses.length ≤ 2 ^ 32)
    (answered : ¬ SomeFailed probe addresses) :
    ∃ highest, highestFundedIndex probe addresses = .ok highest ∧
      GreatestOf {index | Reported probe addresses index} highest := by
  rw [← named_chunks probe addresses distinct short]
  exact highestFundedIndex_named probe answered

/-- What a scan finds is an index of the list, whatever the node answers. -/
theorem highestFundedIndex_lt {index : Nat} (found : highestFundedIndex probe addresses = .ok (some index)) :
    index < addresses.length := by
  by_cases failed : SomeFailed probe addresses
  · obtain ⟨failure, fails⟩ := highestFundedIndex_fails probe failed
    rw [found] at fails
    cases fails
  · obtain ⟨highest, same, greatest⟩ := highestFundedIndex_named probe failed
    rw [found] at same
    cases same
    obtain ⟨number, offset, inside, _, place, _⟩ := mem_named probe addresses greatest.1
    have wrapped := Nat.mod_le (number * PROBE_BATCH) (2 ^ 32)
    omega

end Whole

end Kaspaverse.Chain
