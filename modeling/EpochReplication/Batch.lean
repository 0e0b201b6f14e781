import EpochReplication.Transaction

set_option autoImplicit false

namespace EpochReplication

def maxBatchSize : Nat := 90

-- tx_num is the number of entries of tx_set in use; batch_add_tx is the only
-- function that changes it, so it never passes the capacity of the array.
structure Batch where
  epochId : Int16
  txSet : List Tx
  fits : txSet.length ≤ maxBatchSize

def Batch.txNum (batch : Batch) : Int16 := Int16.ofNat batch.txSet.length

def Batch.wire (batch : Batch) : List WireTx := batch.txSet.map Tx.wire

def batchCreate (epochId : Int16) : Batch := ⟨epochId, [], Nat.zero_le _⟩

def batchAddTx (batch : Batch) (tx : Tx) : Batch × Int :=
  if room : batch.txSet.length < maxBatchSize then
    (⟨batch.epochId, batch.txSet ++ [tx], by simp only [List.length_append, List.length_singleton]; omega⟩, 1)
  else (batch, 0)

@[simp] theorem batch_create_epoch (epochId : Int16) : (batchCreate epochId).epochId = epochId := rfl

@[simp] theorem batch_create_txs (epochId : Int16) : (batchCreate epochId).txSet = [] := rfl

@[simp] theorem batch_add_epoch (batch : Batch) (tx : Tx) : (batchAddTx batch tx).1.epochId = batch.epochId := by
  unfold batchAddTx
  split <;> rfl

theorem batch_add_room (batch : Batch) (tx : Tx) (room : batch.txSet.length < maxBatchSize) :
    (batchAddTx batch tx).1.txSet = batch.txSet ++ [tx] ∧ (batchAddTx batch tx).2 = 1 := by
  simp [batchAddTx, room]

theorem batch_tx_num (batch : Batch) : batch.txNum.toInt = batch.txSet.length := by
  have fits := batch.fits
  exact Int16.toInt_ofNat_of_lt (by unfold maxBatchSize at fits; omega)

end EpochReplication
