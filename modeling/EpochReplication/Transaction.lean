import Mathlib.Tactic.Common

set_option autoImplicit false

namespace EpochReplication

-- enum transaction_type. `other k` is the char value 4 + k, which no enumerator
-- names but a decoder can still read from a message.
inductive TransactionType where
  | readOnly
  | writeOnly
  | error
  | finishRequest
  | other (k : Fin 252)
deriving DecidableEq, Repr

def TransactionType.toChar : TransactionType → UInt8
  | .readOnly => 0
  | .writeOnly => 1
  | .error => 2
  | .finishRequest => 3
  | .other k => UInt8.ofNat (4 + k.val)

def TransactionType.ofChar (char : UInt8) : TransactionType :=
  if char = 0 then .readOnly
  else if char = 1 then .writeOnly
  else if char = 2 then .error
  else if char = 3 then .finishRequest
  else .other ⟨(char.toNat - 4) % 252, Nat.mod_lt _ (by decide)⟩

structure Tx where
  replicaId : Int16
  clientId : Int16
  id : UInt16
  type : TransactionType
  key : Int16
  value : Int16
  assignedEpochId : Int16
  completeFlag : UInt8
deriving DecidableEq, Repr

structure WireTx where
  replicaId : Int16
  clientId : Int16
  id : UInt16
  type : TransactionType
  key : Int16
  value : Int16
deriving DecidableEq, Repr

def Tx.wire (tx : Tx) : WireTx :=
  ⟨tx.replicaId, tx.clientId, tx.id, tx.type, tx.key, tx.value⟩

-- init_tx stores every member, so what the struct held before is irrelevant.
def initTx : Tx :=
  { replicaId := -1, clientId := -1, id := 65535, type := .error, key := -1, value := -1,
    assignedEpochId := -1, completeFlag := 0 }

def createTx : Tx := initTx

def modifyToWriteTx (tx : Tx) (key value : Int16) : Tx :=
  { tx with type := .writeOnly, key := key, value := value, completeFlag := 0 }

def modifyToReadTx (tx : Tx) (key : Int16) : Tx :=
  { tx with type := .readOnly, key := key, value := -1, completeFlag := 0 }

def setAssignedEpochIdToTx (tx : Tx) (assignedEpochId : Int16) : Tx :=
  { tx with assignedEpochId := assignedEpochId }

def setClientInfoToTx (tx : Tx) (clientReplicaId clientId txId : Int16) : Tx :=
  { tx with replicaId := clientReplicaId, clientId := clientId, id := txId.toUInt16 }

def raiseTxCompleteFlag (tx : Tx) : Tx :=
  { tx with completeFlag := 1 }

def modifyFinishRequest : Tx :=
  { initTx with type := .finishRequest }

theorem type_of_char_to_char (type : TransactionType) : TransactionType.ofChar type.toChar = type := by
  cases type with
  | readOnly => rfl
  | writeOnly => rfl
  | error => rfl
  | finishRequest => rfl
  | other k =>
      have bound := k.isLt
      have code : (UInt8.ofNat (4 + k.val)).toNat = 4 + k.val :=
        UInt8.toNat_ofNat_of_lt' (show 4 + k.val < 256 by omega)
      have named : ∀ c : UInt8, c.toNat < 4 → UInt8.ofNat (4 + k.val) ≠ c := by
        intro c low same
        rw [← same, code] at low
        omega
      simp only [TransactionType.toChar, TransactionType.ofChar, if_neg (named 0 (by decide)),
        if_neg (named 1 (by decide)), if_neg (named 2 (by decide)), if_neg (named 3 (by decide)), code]
      congr 1
      apply Fin.ext
      simp only [Nat.add_sub_cancel_left]
      omega

end EpochReplication
