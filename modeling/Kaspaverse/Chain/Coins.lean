import Mathlib.Data.Finset.Basic
import Mathlib.Data.BitVec
import Kaspaverse.Library.KeyedMap

namespace Kaspaverse.Chain

abbrev TransactionId := BitVec 256

instance : LawfulBEq TransactionId := inferInstance

def u64Max : Nat := 2 ^ 64 - 1

/-- `u64::saturating_add`. -/
def saturatingAdd (a b : Nat) : Nat := min (a + b) u64Max

/-- The score a coin carries while the transaction that creates it is not accepted. -/
def unacceptedDaaScore : Nat := u64Max

theorem saturatingAdd_le {a b bound : Nat} (room : bound < u64Max) :
    saturatingAdd a b ≤ bound ↔ a + b ≤ bound := by
  unfold saturatingAdd
  omega

theorem lt_saturatingAdd {a b bound : Nat} (room : bound < u64Max) :
    bound < saturatingAdd a b ↔ bound < a + b := by
  unfold saturatingAdd
  omega

structure Address where
  version : UInt8
  payload : List UInt8
  deriving DecidableEq

structure UtxoEntryId where
  transactionId : TransactionId
  index : Nat
  deriving DecidableEq

structure UtxoEntryReference where
  id : UtxoEntryId
  amount : Nat
  address : Option Address
  scriptVersion : Nat
  script : List UInt8
  blockDaaScore : Nat
  isCoinbase : Bool
  covenantId : Option TransactionId
  deriving DecidableEq

def ids (coins : List UtxoEntryReference) : List UtxoEntryId := coins.map (·.id)

@[simp] theorem mem_ids {coins : List UtxoEntryReference} {id : UtxoEntryId} :
    id ∈ ids coins ↔ ∃ coin ∈ coins, coin.id = id := by
  simp [ids]

/-- The pin's record of a transaction of ours it registered, with the context it registered it on
    and the score it was tagged accepted at. -/
structure OutgoingTransaction where
  id : TransactionId
  utxoEntries : List UtxoEntryReference
  acceptedAt : Option Nat
  originatingContext : Nat
  deriving DecidableEq

def OutgoingTransaction.isAccepted (record : OutgoingTransaction) : Bool :=
  record.acceptedAt.isSome

end Kaspaverse.Chain
