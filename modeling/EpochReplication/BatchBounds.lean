import EpochReplication.BatchCodec
import EpochReplication.LastWriter

set_option autoImplicit false

namespace EpochReplication

-- The decoder once more, on an array of `size` bytes: there is no result where it
-- would read past its end.
def getShortIntWithin (size : Nat) (bytes : Buf) (offset : Nat) : Option Int16 :=
  if offset + 2 ≤ size then some (getShortIntFromBytes bytes offset) else none

def getCharWithin (size : Nat) (bytes : Buf) (offset : Nat) : Option UInt8 :=
  if offset + 1 ≤ size then some (getCharFromBytes bytes offset) else none

def getTxWithin (size : Nat) (layout : TxLayout) (msg : Buf) (tx : Tx) : Option Tx := do
  let replicaId ← getShortIntWithin size msg layout.replicaId
  let clientId ← getShortIntWithin size msg layout.clientId
  let id ← getShortIntWithin size msg layout.id
  let type ← getCharWithin size msg layout.type
  let key ← getShortIntWithin size msg layout.key
  let value ← getShortIntWithin size msg layout.value
  some { tx with
    replicaId := replicaId
    clientId := clientId
    id := id.toUInt16
    type := TransactionType.ofChar type
    key := key
    value := value }

def getBatchTxsWithin (size : Nat) (msg : Buf) : Nat → Nat → Batch → Option Batch
  | 0, _, batch => some batch
  | n + 1, offset, batch => do
      let tx ← getTxWithin size (batchTxInfoLayout offset) msg createTx
      getBatchTxsWithin size msg n (offset + batchTxInfoMessageSize) (batchAddTx batch tx).1

def getInfoFromBatchMsgWithin (size : Nat) (msg : Buf) (batch : Batch) : Option Batch := do
  let epochId ← getShortIntWithin size msg batchEpochIdOffset
  let txNum ← getShortIntWithin size msg batchTxNumOffset
  getBatchTxsWithin size msg txNum.toInt.toNat batchTxInfoOffset { batch with epochId := epochId }

theorem short_within (size : Nat) (bytes : Buf) (offset : Nat) (inside : offset + 2 ≤ size) :
    getShortIntWithin size bytes offset = some (getShortIntFromBytes bytes offset) := if_pos inside

theorem char_within (size : Nat) (bytes : Buf) (offset : Nat) (inside : offset + 1 ≤ size) :
    getCharWithin size bytes offset = some (getCharFromBytes bytes offset) := if_pos inside

theorem get_tx_within (size base : Nat) (msg : Buf) (tx : Tx) :
    getTxWithin size (.at base) msg tx = if base + 11 ≤ size then some (getTxFromBytes (.at base) msg tx) else none := by
  by_cases inside : base + 11 ≤ size
  · rw [if_pos inside]
    simp (disch := omega) only [getTxWithin, TxLayout.at, short_within, char_within]
    rfl
  · have last : getShortIntWithin size msg (base + 9) = none := if_neg (by omega)
    rw [if_neg inside]
    simp [getTxWithin, last]

theorem get_batch_txs_within (size : Nat) (msg : Buf) (n offset : Nat) (batch : Batch) (room : offset ≤ size) :
    getBatchTxsWithin size msg n offset batch =
      if offset + 11 * n ≤ size then some (getBatchTxs msg n offset batch) else none := by
  induction n generalizing offset batch with
  | zero => simp [getBatchTxsWithin, getBatchTxs, room]
  | succ n ih =>
      rw [getBatchTxsWithin, batch_info_layout, get_tx_within]
      by_cases inside : offset + 11 ≤ size
      · have rest := ih (offset + batchTxInfoMessageSize) (batchAddTx batch (getTxFromBytes (.at offset) msg createTx)).1 inside
        have equal : offset + batchTxInfoMessageSize + 11 * n = offset + 11 * (n + 1) := by simp; omega
        rw [if_pos inside, getBatchTxs, batch_info_layout, ← equal]
        exact rest
      · rw [if_neg inside, if_neg (by omega)]
        rfl

def announcedTxNum (msg : Buf) : Int := (getShortIntFromBytes msg batchTxNumOffset).toInt

def announcedTx (msg : Buf) (i : Nat) : WireTx := wireAt (.at (batchTxInfoOffset + batchTxInfoMessageSize * i)) msg

def receivedBatch (msg : Buf) : Batch :=
  getInfoFromBatchMsg msg (batchCreate (Int16.ofInt (getEpochIdFromBatchMeg msg)))

def StaysWithin (size : Nat) (msg : Buf) : Prop :=
  ∃ batch, getInfoFromBatchMsgWithin size msg (batchCreate (Int16.ofInt (getEpochIdFromBatchMeg msg))) = some batch

theorem stays_within_iff (size : Nat) (msg : Buf) (header : 5 ≤ size) :
    StaysWithin size msg ↔ 5 + 11 * (announcedTxNum msg).toNat ≤ size := by
  have epoch := short_within size msg batchEpochIdOffset (by simp; omega)
  have txNum := short_within size msg batchTxNumOffset (by simp; omega)
  simp only [StaysWithin, getInfoFromBatchMsgWithin, epoch, txNum, Option.bind_eq_bind, Option.bind_some]
  rw [get_batch_txs_within size msg _ batchTxInfoOffset _ (by simpa using header)]
  change (∃ batch, (if 5 + 11 * (announcedTxNum msg).toNat ≤ size then some _ else none) = some batch) ↔ _
  by_cases inside : 5 + 11 * (announcedTxNum msg).toNat ≤ size
  · simp [inside]
  · simp [inside]

theorem get_batch_txs_length (msg : Buf) (n offset : Nat) (batch : Batch) :
    (getBatchTxs msg n offset batch).txSet.length = min maxBatchSize (batch.txSet.length + n) := by
  have fits := batch.fits
  induction n generalizing offset batch with
  | zero =>
      rw [getBatchTxs]
      omega
  | succ n ih =>
      rw [getBatchTxs, ih _ _ (batchAddTx batch _).1.fits]
      by_cases room : batch.txSet.length < maxBatchSize
      · rw [(batch_add_room batch _ room).1, List.length_append, List.length_singleton]
        omega
      · simp only [batchAddTx, dif_neg room]
        omega

theorem received_length (msg : Buf) :
    (receivedBatch msg).txSet.length = min maxBatchSize (announcedTxNum msg).toNat := by
  rw [receivedBatch, getInfoFromBatchMsg, get_batch_txs_length]
  simp [announcedTxNum]

theorem received_wire (msg : Buf) (fits : announcedTxNum msg ≤ maxBatchSize) :
    (receivedBatch msg).wire = (List.range (announcedTxNum msg).toNat).map (announcedTx msg) := by
  rw [receivedBatch, getInfoFromBatchMsg]
  refine (get_batch_txs_wire msg _ _ _ _ ?_ (by simp [announcedTxNum]) ?_).trans (List.nil_append _)
  · simp only [batch_create_txs, List.length_nil]
    change 0 + (announcedTxNum msg).toNat ≤ maxBatchSize
    omega
  · intro i bound
    simp only [List.getElem_map, List.getElem_range]
    rfl

structure IndexesInRange (p : Deployment) (r : Nat) (batch : Batch) : Prop where
  key : ∀ run e i tx, (writeScheduler r).Trace run e → e.writePc = .writing batch i → batch.txSet[i]? = some tx →
    0 ≤ tx.key.toInt ∧ tx.key.toInt < e.storage.records.length
  clientId : ∀ run e i tx, (writeScheduler r).Trace run e → e.writePc = .fetching batch i → batch.txSet[i]? = some tx →
    0 ≤ tx.clientId.toInt ∧ tx.clientId.toInt < p.clientNum

def TxInRange (p : Deployment) (r : Nat) (tx : WireTx) : Prop :=
  StorageKey tx.key ∧ (tx.replicaId.toInt = r → 0 ≤ tx.clientId.toInt ∧ tx.clientId.toInt < p.clientNum)

instance (p : Deployment) (r : Nat) (tx : WireTx) : Decidable (TxInRange p r tx) := inferInstanceAs (Decidable (_ ∧ _))

theorem fetching_own (r : Nat) (run : List (Exec × (Int × WriteAct))) (e : Exec) (trace : (writeScheduler r).Trace run e)
    (batch : Batch) (i : Nat) (pc : e.writePc = .fetching batch i) :
    ∃ tx, batch.txSet[i]? = some tx ∧ tx.replicaId.toInt = r := by
  cases trace with
  | init => cases pc
  | step run s t act before taken =>
      obtain ⟨flag, act⟩ := act
      cases write_step_of_some flag r s e act taken with
      | writeOwn written j tx storage _ found _ own =>
          cases pc
          exact ⟨tx, found, own⟩
      | enter | leave | takeNone | take | complete | crash | writeOther | fetchNone | fetch | assign | raise => cases pc

theorem writing_storage (r : Nat) (run : List (Exec × (Int × WriteAct))) (e : Exec) (trace : (writeScheduler r).Trace run e)
    (batch : Batch) (i : Nat) (pc : e.writePc = .writing batch i) : e.storage.records.length = storageSize :=
  exec_storage_length _ e (exec_inv_trace r run e trace) (by simp [pc])

theorem indexes_reached (p : Deployment) (r : Nat) (batch : Batch) (ranges : IndexesInRange p r batch) (i : Nat)
    (bound : i ≤ batch.txSet.length) : ∃ run e, (writeScheduler r).Trace run e ∧ e.writePc = .writing batch i := by
  induction i with
  | zero =>
      obtain ⟨run, e, trace, _, pc⟩ := executes_taken r batch [] Exec.initial .init rfl
      exact ⟨run, e, trace, pc⟩
  | succ i ih =>
      obtain ⟨run, e, trace, pc⟩ := ih (by omega)
      have key := ranges.key run e i batch.txSet[i] trace pc (List.getElem?_eq_getElem (by omega))
      rw [writing_storage r run e trace batch i pc] at key
      obtain ⟨longer, next, moved, _, reached⟩ := executes_next r batch i run e trace pc (by omega) key
      exact ⟨longer, next, moved, reached⟩

theorem indexes_in_range_iff (p : Deployment) (r : Nat) (batch : Batch) :
    IndexesInRange p r batch ↔ ∀ tx ∈ batch.wire, TxInRange p r tx := by
  constructor
  · intro ranges wire member
    obtain ⟨tx, inside, rfl⟩ := List.mem_map.mp member
    obtain ⟨i, bound, same⟩ := List.mem_iff_getElem.mp inside
    have found : batch.txSet[i]? = some tx := by rw [List.getElem?_eq_getElem bound, same]
    obtain ⟨run, e, trace, pc⟩ := indexes_reached p r batch ranges i (by omega)
    have key := ranges.key run e i tx trace pc found
    rw [writing_storage r run e trace batch i pc] at key
    refine ⟨key, fun own => ?_⟩
    replace own : tx.replicaId.toInt = r := own
    obtain ⟨longer, next, moved, _, reached⟩ := executes_write r batch i run e trace pc bound (by rw [same]; exact key)
    rw [same, if_pos own] at reached
    exact ranges.clientId longer next i tx moved reached found
  · intro each
    have inside : ∀ (i : Nat) (tx : Tx), batch.txSet[i]? = some tx → TxInRange p r tx.wire :=
      fun i tx found => each tx.wire (List.mem_map_of_mem (List.mem_of_getElem? found))
    refine ⟨?_, ?_⟩
    · intro run e i tx trace pc found
      rw [writing_storage r run e trace batch i pc]
      exact (inside i tx found).1
    · intro run e i tx trace pc found
      obtain ⟨other, same, own⟩ := fetching_own r run e trace batch i pc
      obtain rfl : tx = other := Option.some.inj (found.symm.trans same)
      exact (inside i tx found).2 own

structure HandledInBounds (p : Deployment) (r : Nat) (msg : Buf) : Prop where
  reads : StaysWithin batchLogSize msg
  count : ((receivedBatch msg).txSet.length : Int) = announcedTxNum msg
  indexes : IndexesInRange p r (receivedBatch msg)

structure SafeBatchMsg (p : Deployment) (r : Nat) (msg : Buf) : Prop where
  low : 0 ≤ announcedTxNum msg
  high : announcedTxNum msg ≤ maxBatchSize
  txs : ∀ i : Nat, i < announcedTxNum msg → TxInRange p r (announcedTx msg i)

theorem handled_in_bounds_iff (p : Deployment) (r : Nat) (msg : Buf) : HandledInBounds p r msg ↔ SafeBatchMsg p r msg := by
  have length := received_length msg
  constructor
  · intro handled
    have count := handled.count
    have high : announcedTxNum msg ≤ maxBatchSize := by omega
    refine ⟨by omega, high, fun i bound => ?_⟩
    have each := (indexes_in_range_iff p r (receivedBatch msg)).mp handled.indexes
    rw [received_wire msg high] at each
    exact each _ (List.mem_map.mpr ⟨i, List.mem_range.mpr (by omega), rfl⟩)
  · intro safe
    have low := safe.low
    have high := safe.high
    refine ⟨?_, by omega, ?_⟩
    · rw [stays_within_iff batchLogSize msg (by decide)]
      unfold batchLogSize
      unfold maxBatchSize at high
      omega
    · rw [indexes_in_range_iff, received_wire msg high]
      intro tx member
      obtain ⟨i, inside, rfl⟩ := List.mem_map.mp member
      have bound := List.mem_range.mp inside
      exact safe.txs i (by omega)

-- No BATCH is rejected: its batch is executed as it was decoded.
theorem batch_msg_in_bounds_iff (p : Deployment) (r : Nat) (slave : Slave)
    (type : checkMsg slave.recvMsg .batchMessage = true)
    (epoch : getEpochIdFromBatchMeg slave.recvMsg = slave.nextBatchEpochId) :
    (∀ recvMsgLen io next sent, proposedMethodRecieveBatchConnection p r slave recvMsgLen io = .returned (next, sent) →
        next.writeTxBuffer = slave.writeTxBuffer.add (receivedBatch slave.recvMsg)) ∧
      (HandledInBounds p r slave.recvMsg ↔ SafeBatchMsg p r slave.recvMsg) := by
  refine ⟨?_, handled_in_bounds_iff p r slave.recvMsg⟩
  intro recvMsgLen io next sent done
  simp only [proposedMethodRecieveBatchConnection, type, if_true, receiveBatch, epoch, acceptBatch] at done
  split at done
  · cases done
  · cases done
  · rename_i accepted outcome
    cases done
    split at outcome
    · cases outcome
    · cases outcome
    · cases outcome
      rw [receivedBatch, epoch]

def slaveWith (recvMsg : Buf) : Slave := ⟨.receiving, 0, none, .empty, recvMsg, fun _ => 0⟩

def uniformBatchMsg (txNum byte : UInt8) : Buf :=
  fun i => if i = 0 then 7 else if i = 3 then txNum else if i < 5 then 0 else byte

-- 93 transactions end at 1028; one transaction with the key 0x7c7c.
theorem batch_msg_out_of_bounds :
    (∃ slave : Slave, checkMsg slave.recvMsg .batchMessage = true ∧
        getEpochIdFromBatchMeg slave.recvMsg = slave.nextBatchEpochId ∧ announcedTxNum slave.recvMsg = 93 ∧
        ¬ StaysWithin batchLogSize slave.recvMsg ∧ (receivedBatch slave.recvMsg).txSet.length = 90 ∧
        ¬ HandledInBounds (configuration .proposedMethod) 1 slave.recvMsg) ∧
      ∃ slave : Slave, checkMsg slave.recvMsg .batchMessage = true ∧
        getEpochIdFromBatchMeg slave.recvMsg = slave.nextBatchEpochId ∧ announcedTxNum slave.recvMsg = 1 ∧
        ¬ IndexesInRange (configuration .proposedMethod) 1 (receivedBatch slave.recvMsg) := by
  refine ⟨⟨slaveWith (uniformBatchMsg 93 0), by decide, by decide, ?_⟩,
    ⟨slaveWith (uniformBatchMsg 1 124), by decide, by decide, ?_⟩⟩
  · have number : announcedTxNum (slaveWith (uniformBatchMsg 93 0)).recvMsg = 93 := by decide
    have long : ¬ StaysWithin batchLogSize (slaveWith (uniformBatchMsg 93 0)).recvMsg := by
      rw [stays_within_iff batchLogSize _ (by decide), number]
      decide
    exact ⟨number, long, by rw [received_length, number]; rfl, fun handled => long handled.reads⟩
  · have number : announcedTxNum (slaveWith (uniformBatchMsg 1 124)).recvMsg = 1 := by decide
    refine ⟨number, fun ranges => ?_⟩
    have each := (indexes_in_range_iff _ 1 _).mp ranges
    rw [received_wire _ (by rw [number]; decide), number] at each
    exact absurd (each _ (List.mem_map.mpr ⟨0, by decide, rfl⟩)) (by decide)

theorem batch_msg_in_bounds_iff_nine : HandledInBounds (configuration .proposedMethod) 1 (uniformBatchMsg 9 0) := by
  have number : announcedTxNum (uniformBatchMsg 9 0) = 9 := by decide
  have each : ∀ i < 9, TxInRange (configuration .proposedMethod) 1 (announcedTx (uniformBatchMsg 9 0) i) := by decide
  refine (batch_msg_in_bounds_iff (configuration .proposedMethod) 1 (slaveWith (uniformBatchMsg 9 0)) (by decide)
    (by decide)).2.mpr ⟨by decide, by decide, fun i bound => each i ?_⟩
  rw [slaveWith, number] at bound
  omega

end EpochReplication
