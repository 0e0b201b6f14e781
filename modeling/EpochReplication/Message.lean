import EpochReplication.Batch
import EpochReplication.Bytes

set_option autoImplicit false

namespace EpochReplication

inductive MessageType where
  | errorMessage
  | requestTerminateMessage
  | responseTerminateMessage
  | requestTxMessage
  | responseTxMessage
  | addToBatchMessage
  | ackAddMessage
  | batchMessage
  | ackBatchMessage
  | requestBatchMessage
deriving DecidableEq, Repr

def MessageType.code : MessageType → UInt8
  | .errorMessage => 0
  | .requestTerminateMessage => 1
  | .responseTerminateMessage => 2
  | .requestTxMessage => 3
  | .responseTxMessage => 4
  | .addToBatchMessage => 5
  | .ackAddMessage => 6
  | .batchMessage => 7
  | .ackBatchMessage => 8
  | .requestBatchMessage => 9

-- The offset macros of message.h. Every one is a sum, so that they are not
-- parenthesised there changes no value.
@[simp] def msgTypeOffset : Nat := 0

@[simp] def requestTxReplicaIdOffset : Nat := msgTypeOffset + 1
@[simp] def requestTxClientIdOffset : Nat := requestTxReplicaIdOffset + 2
@[simp] def requestTxIdOffset : Nat := requestTxClientIdOffset + 2
@[simp] def requestTxTypeOffset : Nat := requestTxIdOffset + 2
@[simp] def requestTxKeyOffset : Nat := requestTxTypeOffset + 1
@[simp] def requestTxValueOffset : Nat := requestTxKeyOffset + 2
@[simp] def requestTxMessageSize : Nat := requestTxValueOffset + 2

@[simp] def responseTxReplicaIdOffset : Nat := msgTypeOffset + 1
@[simp] def responseTxClientIdOffset : Nat := responseTxReplicaIdOffset + 2
@[simp] def responseTxIdOffset : Nat := responseTxClientIdOffset + 2
@[simp] def responseTxTypeOffset : Nat := responseTxIdOffset + 2
@[simp] def responseTxKeyOffset : Nat := responseTxTypeOffset + 1
@[simp] def responseTxValueOffset : Nat := responseTxKeyOffset + 2
@[simp] def responseTxAssignedEpochIdOffset : Nat := responseTxValueOffset + 2
@[simp] def responseTxMessageSize : Nat := responseTxAssignedEpochIdOffset + 2

@[simp] def addToBatchTxReplicaIdOffset : Nat := msgTypeOffset + 1
@[simp] def addToBatchTxClientIdOffset : Nat := addToBatchTxReplicaIdOffset + 2
@[simp] def addToBatchTxIdOffset : Nat := addToBatchTxClientIdOffset + 2
@[simp] def addToBatchTxTypeOffset : Nat := addToBatchTxIdOffset + 2
@[simp] def addToBatchTxKeyOffset : Nat := addToBatchTxTypeOffset + 1
@[simp] def addToBatchTxValueOffset : Nat := addToBatchTxKeyOffset + 2
@[simp] def addToBatchMessageSize : Nat := addToBatchTxValueOffset + 2

@[simp] def batchEpochIdOffset : Nat := msgTypeOffset + 1
@[simp] def batchTxNumOffset : Nat := batchEpochIdOffset + 2
@[simp] def batchTxInfoOffset : Nat := batchTxNumOffset + 2
@[simp] def batchTxInfoReplicaIdOffset : Nat := 0
@[simp] def batchTxInfoClientIdOffset : Nat := batchTxInfoReplicaIdOffset + 2
@[simp] def batchTxInfoTxIdOffset : Nat := batchTxInfoClientIdOffset + 2
@[simp] def batchTxInfoTxTypeOffset : Nat := batchTxInfoTxIdOffset + 2
@[simp] def batchTxInfoTxKeyOffset : Nat := batchTxInfoTxTypeOffset + 1
@[simp] def batchTxInfoTxValueOffset : Nat := batchTxInfoTxKeyOffset + 2
@[simp] def batchTxInfoMessageSize : Nat := batchTxInfoTxValueOffset + 2

@[simp] def ackBatchMyReplicaIdOffset : Nat := msgTypeOffset + 1
@[simp] def ackBatchEpochIdOffset : Nat := ackBatchMyReplicaIdOffset + 2
@[simp] def ackBatchMessageSize : Nat := ackBatchEpochIdOffset + 2

@[simp] def requestBatchMyReplicaIdOffset : Nat := msgTypeOffset + 1
@[simp] def requestBatchEpochIdOffset : Nat := requestBatchMyReplicaIdOffset + 2
@[simp] def requestBatchMessageSize : Nat := requestBatchEpochIdOffset + 2

@[simp] def ackAddTxReplicaIdOffset : Nat := msgTypeOffset + 1
@[simp] def ackAddTxClientIdOffset : Nat := ackAddTxReplicaIdOffset + 2
@[simp] def ackAddTxIdOffset : Nat := ackAddTxClientIdOffset + 2
@[simp] def ackAddMessageSize : Nat := ackAddTxIdOffset + 2

def checkMsg (msg : Buf) (expectedType : MessageType) : Bool :=
  getCharFromBytes msg msgTypeOffset == expectedType.code

structure TxLayout where
  replicaId : Nat
  clientId : Nat
  id : Nat
  type : Nat
  key : Nat
  value : Nat

@[simp] def TxLayout.at (base : Nat) : TxLayout :=
  ⟨base, base + 2, base + 4, base + 6, base + 7, base + 9⟩

def setTxToBytes (layout : TxLayout) (msg : Buf) (tx : Tx) : Buf :=
  let msg := setShortIntToBytes msg layout.replicaId tx.replicaId
  let msg := setShortIntToBytes msg layout.clientId tx.clientId
  let msg := setShortIntToBytes msg layout.id tx.id.toInt16
  let msg := setCharToBytes msg layout.type tx.type.toChar
  let msg := setShortIntToBytes msg layout.key tx.key
  setShortIntToBytes msg layout.value tx.value

def getTxFromBytes (layout : TxLayout) (msg : Buf) (tx : Tx) : Tx :=
  { tx with
    replicaId := getShortIntFromBytes msg layout.replicaId
    clientId := getShortIntFromBytes msg layout.clientId
    id := (getShortIntFromBytes msg layout.id).toUInt16
    type := TransactionType.ofChar (getCharFromBytes msg layout.type)
    key := getShortIntFromBytes msg layout.key
    value := getShortIntFromBytes msg layout.value }

def requestTxLayout : TxLayout :=
  ⟨requestTxReplicaIdOffset, requestTxClientIdOffset, requestTxIdOffset, requestTxTypeOffset,
    requestTxKeyOffset, requestTxValueOffset⟩

def responseTxLayout : TxLayout :=
  ⟨responseTxReplicaIdOffset, responseTxClientIdOffset, responseTxIdOffset, responseTxTypeOffset,
    responseTxKeyOffset, responseTxValueOffset⟩

def addToBatchLayout : TxLayout :=
  ⟨addToBatchTxReplicaIdOffset, addToBatchTxClientIdOffset, addToBatchTxIdOffset, addToBatchTxTypeOffset,
    addToBatchTxKeyOffset, addToBatchTxValueOffset⟩

def batchTxInfoLayout (offset : Nat) : TxLayout :=
  ⟨offset + batchTxInfoReplicaIdOffset, offset + batchTxInfoClientIdOffset, offset + batchTxInfoTxIdOffset,
    offset + batchTxInfoTxTypeOffset, offset + batchTxInfoTxKeyOffset, offset + batchTxInfoTxValueOffset⟩

def getInfoFromRequestTxMsg (msg : Buf) (tx : Tx) : Tx := getTxFromBytes requestTxLayout msg tx

-- The type goes out as a short: its high byte lands on the first byte of the
-- key, which the next store overwrites.
def createRequestTxMsg (tx : Tx) (msg : Buf) : Buf × Nat :=
  let msg := setCharToBytes msg msgTypeOffset MessageType.requestTxMessage.code
  let msg := setShortIntToBytes msg requestTxReplicaIdOffset tx.replicaId
  let msg := setShortIntToBytes msg requestTxClientIdOffset tx.clientId
  let msg := setShortIntToBytes msg requestTxIdOffset tx.id.toInt16
  let msg := setShortIntToBytes msg requestTxTypeOffset tx.type.toChar.toUInt16.toInt16
  let msg := setShortIntToBytes msg requestTxKeyOffset tx.key
  let msg := setShortIntToBytes msg requestTxValueOffset tx.value
  (msg, requestTxMessageSize)

def getInfoFromResponseTxMsg (msg : Buf) (tx : Tx) : Tx :=
  { getTxFromBytes responseTxLayout msg tx with
    assignedEpochId := getShortIntFromBytes msg responseTxAssignedEpochIdOffset }

def createResponseTxMsg (tx : Tx) (msg : Buf) : Buf × Nat :=
  let msg := setCharToBytes msg msgTypeOffset MessageType.responseTxMessage.code
  let msg := setTxToBytes responseTxLayout msg tx
  let msg := setShortIntToBytes msg responseTxAssignedEpochIdOffset tx.assignedEpochId
  (msg, responseTxMessageSize)

def getInfoFromAddToBatchMsg (msg : Buf) (tx : Tx) : Tx := getTxFromBytes addToBatchLayout msg tx

def createAddToBatchMsg (tx : Tx) (msg : Buf) : Buf × Nat :=
  let msg := setCharToBytes msg msgTypeOffset MessageType.addToBatchMessage.code
  let msg := setTxToBytes addToBatchLayout msg tx
  (msg, addToBatchMessageSize)

-- ACK_BATCH and REQUEST_BATCH carry a replica id and an epoch id, cut to shorts.
def createReplicaEpochMsg (type : MessageType) (replicaIdOffset epochIdOffset size : Nat)
    (myReplicaId epochId : Int) (msg : Buf) : Buf × Nat :=
  let msg := setCharToBytes msg msgTypeOffset type.code
  let msg := setShortIntToBytes msg replicaIdOffset (Int16.ofInt myReplicaId)
  let msg := setShortIntToBytes msg epochIdOffset (Int16.ofInt epochId)
  (msg, size)

def getInfoFromReplicaEpochMsg (replicaIdOffset epochIdOffset : Nat) (msg : Buf) : Int × Int :=
  ((getShortIntFromBytes msg replicaIdOffset).toInt, (getShortIntFromBytes msg epochIdOffset).toInt)

def getInfoFromAckBatchMsg : Buf → Int × Int :=
  getInfoFromReplicaEpochMsg ackBatchMyReplicaIdOffset ackBatchEpochIdOffset

def createAckBatchMsg : Int → Int → Buf → Buf × Nat :=
  createReplicaEpochMsg .ackBatchMessage ackBatchMyReplicaIdOffset ackBatchEpochIdOffset ackBatchMessageSize

def getInfoFromRequestBatchMessage : Buf → Int × Int :=
  getInfoFromReplicaEpochMsg requestBatchMyReplicaIdOffset requestBatchEpochIdOffset

def createRequestBatchMsg : Int → Int → Buf → Buf × Nat :=
  createReplicaEpochMsg .requestBatchMessage requestBatchMyReplicaIdOffset requestBatchEpochIdOffset
    requestBatchMessageSize

def getInfoFromAckAddMsg (msg : Buf) : Int × Int × Int :=
  ((getShortIntFromBytes msg ackAddTxReplicaIdOffset).toInt, (getShortIntFromBytes msg ackAddTxClientIdOffset).toInt,
    (getShortIntFromBytes msg ackAddTxIdOffset).toInt)

def createAckAddMsg (replicaId clientId txId : Int) (msg : Buf) : Buf × Nat :=
  let msg := setCharToBytes msg msgTypeOffset MessageType.ackAddMessage.code
  let msg := setShortIntToBytes msg ackAddTxReplicaIdOffset (Int16.ofInt replicaId)
  let msg := setShortIntToBytes msg ackAddTxClientIdOffset (Int16.ofInt clientId)
  let msg := setShortIntToBytes msg ackAddTxIdOffset (Int16.ofInt txId)
  (msg, ackAddMessageSize)

-- The loop of get_info_from_batch_msg: the result of batch_add_tx is not looked at.
def getBatchTxs (msg : Buf) : Nat → Nat → Batch → Batch
  | 0, _, batch => batch
  | n + 1, offset, batch =>
      getBatchTxs msg n (offset + batchTxInfoMessageSize)
        (batchAddTx batch (getTxFromBytes (batchTxInfoLayout offset) msg createTx)).1

def getInfoFromBatchMsg (msg : Buf) (batch : Batch) : Batch :=
  let batch := { batch with epochId := getShortIntFromBytes msg batchEpochIdOffset }
  let txNum := (getShortIntFromBytes msg batchTxNumOffset).toInt
  getBatchTxs msg txNum.toNat batchTxInfoOffset batch

def getEpochIdFromBatchMeg (msg : Buf) : Int := (getShortIntFromBytes msg batchEpochIdOffset).toInt

def setBatchTxs (msg : Buf) (offset : Nat) : List Tx → Buf × Nat
  | [] => (msg, offset)
  | tx :: rest => setBatchTxs (setTxToBytes (batchTxInfoLayout offset) msg tx) (offset + batchTxInfoMessageSize) rest

def createBatchMsg (batch : Batch) (msg : Buf) : Buf × Nat :=
  let msg := setCharToBytes msg msgTypeOffset MessageType.batchMessage.code
  let msg := setShortIntToBytes msg batchEpochIdOffset batch.epochId
  let msg := setShortIntToBytes msg batchTxNumOffset batch.txNum
  setBatchTxs msg batchTxInfoOffset batch.txSet

end EpochReplication
