import Kaspaverse.Kvlog.Reload
import Kaspaverse.Chain.Coins

namespace Kaspaverse.Chain

open Kvlog

/-- What a spend's typed data says of the money, in the shapes that carry it. -/
structure SpendData where
  paymentValue : Option Nat
  aggregateInputValue : Nat
  changeValue : Nat
  acceptedDaaScore : Option Nat
  deriving DecidableEq

/-- The shapes a record takes; `ρ` is what else a shape or a record carries. -/
inductive TransactionData (ρ : Type)
  | reorg (rest : ρ)
  | stasis (rest : ρ)
  | incoming (rest : ρ)
  | external (rest : ρ)
  | outgoing (fees : Nat) (spend : SpendData) (rest : ρ)
  | batch (fees : Nat) (spend : SpendData) (rest : ρ)
  | transferIncoming (rest : ρ)
  | transferOutgoing (fees : Nat) (spend : SpendData) (rest : ρ)
  | change (spend : SpendData) (rest : ρ)
  deriving DecidableEq

structure TransactionRecord (ρ : Type) where
  id : TransactionId
  unixtimeMsec : Option Nat
  transactionData : TransactionData ρ
  rest : ρ
  deriving DecidableEq

inductive ActivityDirection
  | incoming
  | outgoing
  | change
  deriving DecidableEq

namespace TransactionRecord

variable {ρ : Type} (record : TransactionRecord ρ)

def isIncomingData : Bool :=
  match record.transactionData with
  | .incoming _ | .external _ => true
  | _ => false

def isOutgoingData : Bool :=
  match record.transactionData with
  | .outgoing .. | .change .. | .batch .. | .transferOutgoing .. => true
  | _ => false

def carriesFee : Bool :=
  match record.transactionData with
  | .outgoing .. | .batch .. | .transferOutgoing .. => true
  | _ => false

def isChange : Bool :=
  match record.transactionData with
  | .change .. => true
  | _ => false

/-- A row's direction, as `map_record` says it. -/
def direction : ActivityDirection :=
  match record.transactionData with
  | .outgoing .. | .change .. | .transferOutgoing .. => .outgoing
  | .batch .. => .change
  | _ => .incoming

/-- A row's fee, as `map_record` says it. -/
def feeSompi : Option Nat :=
  match record.transactionData with
  | .outgoing fees .. | .batch fees .. | .transferOutgoing fees .. => some fees
  | _ => none

end TransactionRecord

/-- What `upsert` did with a record. -/
inductive Upserted
  | recorded
  | unchanged
  | provenanceRefused
  | feeRefused
  deriving DecidableEq

section Store

variable {ρ : Type} (codec : Codec (TransactionRecord ρ)) (hash : Bytes → UInt32)
  -- how the pin prints a txid
  (display : TransactionId → String)

def activityKey (record : TransactionRecord ρ) : String := display record.id

/-- A hash as its 32 bytes stand in the file. -/
def hashOfBytes (bytes : Bytes) : TransactionId :=
  BitVec.ofNat 256 (bytes.foldl (fun value byte => value * 256 + byte.toNat) 0)

/-- The v1 log's frames: its tombstone carries the txid's bytes. -/
def v1ActivityFrame : Bytes → Option (Frame (TransactionRecord ρ))
  | [] => none
  | variant :: field =>
    match variant with
    | 0 => (codec.decode field).map .upsert
    | 1 => if field.length = 32 then some (.remove (display (hashOfBytes field))) else none
    | _ => none

/-- The same transaction, re-stamped. -/
def restampedOnly (held record : TransactionRecord ρ) : Bool :=
  match held.unixtimeMsec with
  | none => false -- a row without a stamp takes one
  | some stamp =>
    match codec.encode { record with unixtimeMsec := some stamp }, codec.encode held with
    | .ok a, .ok b => a == b
    | _, _ => false

/-- A store: its log, beside the disk. -/
abbrev ActivityStore (ρ : Type) := Log (TransactionRecord ρ) × Disk

namespace ActivityStore

def load (name : String) (io : LoadIo) (disk : Disk) : Except ChainError (ActivityStore ρ) :=
  Kvlog.load codec hash (activityKey display) (v1ActivityFrame codec display) name io disk

def get (store : ActivityStore ρ) (id : TransactionId) : Option (TransactionRecord ρ) :=
  store.1.records.lookup (display id)

/-- The guard that keeps the held record, if one does. -/
def refusal (existing record : TransactionRecord ρ) : Option Upserted :=
  if record.isIncomingData && existing.isOutgoingData then some .provenanceRefused
  else if record.isChange && existing.carriesFee then some .feeRefused
  else if restampedOnly codec existing record then some .unchanged
  else none

def upsert (write : Write) (record : TransactionRecord ρ) (store : ActivityStore ρ) :
    Except ChainError Upserted × ActivityStore ρ :=
  match (store.get display record.id).bind fun existing => refusal codec existing record with
  | some refused => (.ok refused, store)
  | none =>
    match store.1.upsert codec hash write (activityKey display record) record store.2 with
    | (.ok wrote, after) => (.ok (if wrote then .recorded else .unchanged), after)
    | (.error e, after) => (.error e, after)

end ActivityStore

/-- A record arrives, or the log is loaded again. -/
inductive ActivityEvent (ρ : Type)
  | upsert (record : TransactionRecord ρ) (write : Write)
  | reload (io : LoadIo)

/-- One step whose writes succeed. -/
def ActivityStore.step (name : String) (store : ActivityStore ρ) :
    ActivityEvent ρ → Option (ActivityStore ρ)
  | .upsert record write =>
    match store.upsert codec hash display write record with
    | (.ok _, after) => some after
    | (.error _, _) => none
  | .reload io => (ActivityStore.load codec hash display name io store.2).toOption

end Store

namespace TransactionRecord

variable {ρ : Type}

/-- The shapes the store ranks: a receive below its own change, and that below a spend that states
    its fee. -/
def rank (record : TransactionRecord ρ) : Nat :=
  if record.carriesFee then 2 else if record.isChange then 1 else 0

def isRanked (record : TransactionRecord ρ) : Bool := record.isIncomingData || record.isOutgoingData

/-- The record without its time stamp. -/
def unstamped (record : TransactionRecord ρ) : TransactionRecord ρ := { record with unixtimeMsec := none }

theorem rank_unstamped (record : TransactionRecord ρ) : record.unstamped.rank = record.rank := rfl

theorem rank_of_incoming {record : TransactionRecord ρ} (incoming : record.isIncomingData = true) :
    record.rank = 0 := by
  unfold isIncomingData at incoming
  split at incoming
  · rename_i shape
    simp [rank, carriesFee, isChange, shape]
  · rename_i shape
    simp [rank, carriesFee, isChange, shape]
  · cases incoming

theorem rank_of_change {record : TransactionRecord ρ} (change : record.isChange = true) :
    record.rank = 1 := by
  unfold isChange at change
  split at change
  · rename_i shape
    simp [rank, carriesFee, isChange, shape]
  · cases change

theorem rank_of_fee {record : TransactionRecord ρ} (fee : record.carriesFee = true) :
    record.rank = 2 := if_pos fee

theorem isOutgoingData_iff {record : TransactionRecord ρ} :
    record.isOutgoingData = true ↔ 0 < record.rank := by
  obtain ⟨id, stamp, data, rest⟩ := record
  cases data <;> simp [isOutgoingData, rank, carriesFee, isChange]

theorem carriesFee_iff {record : TransactionRecord ρ} : record.carriesFee = true ↔ 1 < record.rank := by
  obtain ⟨id, stamp, data, rest⟩ := record
  cases data <;> simp [rank, carriesFee, isChange]

theorem isRanked_cases {record : TransactionRecord ρ} (ranked : record.isRanked = true) :
    record.isIncomingData = true ∨ record.isChange = true ∨ record.carriesFee = true := by
  obtain ⟨id, stamp, data, rest⟩ := record
  cases data <;> simp_all [isRanked, isIncomingData, isOutgoingData, isChange, carriesFee]

theorem direction_spends {record : TransactionRecord ρ} :
    record.direction ≠ .incoming ↔ record.isOutgoingData = true := by
  obtain ⟨id, stamp, data, rest⟩ := record
  cases data <;> simp [direction, isOutgoingData]

theorem feeSompi_isSome {record : TransactionRecord ρ} :
    record.feeSompi.isSome = true ↔ record.carriesFee = true := by
  obtain ⟨id, stamp, data, rest⟩ := record
  cases data <;> simp [feeSompi, carriesFee]

theorem direction_unstamped (record : TransactionRecord ρ) :
    record.unstamped.direction = record.direction := rfl

theorem feeSompi_unstamped (record : TransactionRecord ρ) :
    record.unstamped.feeSompi = record.feeSompi := rfl

end TransactionRecord

end Kaspaverse.Chain
