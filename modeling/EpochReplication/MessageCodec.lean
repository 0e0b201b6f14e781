import EpochReplication.Message

set_option autoImplicit false

namespace EpochReplication

def wireAt (layout : TxLayout) (msg : Buf) : WireTx := (getTxFromBytes layout msg initTx).wire

theorem get_tx_wire (layout : TxLayout) (msg : Buf) (old : Tx) :
    (getTxFromBytes layout msg old).wire = wireAt layout msg := rfl

theorem wire_at_set (base : Nat) (msg : Buf) (tx : Tx) :
    wireAt (.at base) (setTxToBytes (.at base) msg tx) = tx.wire := by
  simp only [wireAt, getTxFromBytes, setTxToBytes, Tx.wire, TxLayout.at, WireTx.mk.injEq]
  refine ⟨?_, ?_, ?_, ?_, ?_, ?_⟩
  · simp (disch := omega) only [setShortIntToBytes, setCharToBytes, get_short_apart]
    exact get_short_set msg base tx.replicaId
  · simp (disch := omega) only [setShortIntToBytes, setCharToBytes, get_short_apart]
    exact get_short_set _ (base + 2) tx.clientId
  · simp (disch := omega) only [setShortIntToBytes, setCharToBytes, get_short_apart]
    exact congrArg Int16.toUInt16 (get_short_set _ (base + 4) tx.id.toInt16)
  · simp (disch := omega) only [setShortIntToBytes, setCharToBytes, get_char_apart]
    exact (congrArg TransactionType.ofChar (get_char_set _ (base + 6) tx.type.toChar)).trans
      (type_of_char_to_char tx.type)
  · simp (disch := omega) only [setShortIntToBytes, setCharToBytes, get_short_apart]
    exact get_short_set _ (base + 7) tx.key
  · exact get_short_set _ (base + 9) tx.value

theorem set_tx_outside (base : Nat) (msg : Buf) (tx : Tx) (i : Nat) (out : i < base ∨ base + 11 ≤ i) :
    setTxToBytes (.at base) msg tx i = msg i := by
  simp only [setTxToBytes, TxLayout.at, setShortIntToBytes, setCharToBytes]
  simp (disch := omega) only [memcpy_outside]

theorem wire_at_congr (base : Nat) (a b : Buf) (same : ∀ i, base ≤ i → i < base + 11 → a i = b i) :
    wireAt (.at base) a = wireAt (.at base) b := by
  have short : ∀ offset, base ≤ offset → offset + 2 ≤ base + 11 →
      getShortIntFromBytes a offset = getShortIntFromBytes b offset := by
    intro offset low high
    simp only [getShortIntFromBytes, le_value_congr a b offset 2 (fun i li hi => same i (by omega) (by omega))]
  have char : getCharFromBytes a (base + 6) = getCharFromBytes b (base + 6) := by
    simp only [getCharFromBytes, le_value_congr a b (base + 6) 1 (fun i li hi => same i (by omega) (by omega))]
  simp only [wireAt, getTxFromBytes, Tx.wire, TxLayout.at, char, short base (by omega) (by omega),
    short (base + 2) (by omega) (by omega), short (base + 4) (by omega) (by omega),
    short (base + 7) (by omega) (by omega), short (base + 9) (by omega) (by omega)]

theorem check_msg_eq (msg : Buf) (type : MessageType) :
    checkMsg msg type = true ↔ getCharFromBytes msg msgTypeOffset = type.code := by
  simp only [checkMsg, beq_iff_eq]

theorem message_code_injective (a b : MessageType) (same : a.code = b.code) : a = b := by
  cases a <;> cases b <;> first | rfl | exact absurd same (by decide)

theorem check_msg_unique (msg : Buf) (a b : MessageType) (is_a : checkMsg msg a = true)
    (is_b : checkMsg msg b = true) : a = b :=
  message_code_injective a b (((check_msg_eq msg a).mp is_a).symm.trans ((check_msg_eq msg b).mp is_b))

theorem check_msg_other (msg : Buf) (a b : MessageType) (is_a : checkMsg msg a = true) (different : a ≠ b) :
    checkMsg msg b = false := by
  cases is_b : checkMsg msg b with
  | false => rfl
  | true => exact absurd (check_msg_unique msg a b is_a is_b) different

theorem check_msg_agree (n : Nat) (a b : Buf) (type : MessageType) (agree : Agree n a b) (inside : 1 ≤ n) :
    checkMsg a type = checkMsg b type := by
  simp only [checkMsg, get_char_agree n a b msgTypeOffset agree (by simpa using inside)]

theorem get_type_after (msg src : Buf) (offset n : Nat) (after : 1 ≤ offset) :
    getCharFromBytes (memcpy msg offset src n) 0 = getCharFromBytes msg 0 :=
  get_char_apart msg src offset n 0 (.inl (by omega))

theorem request_tx_check (tx : Tx) (msg : Buf) :
    checkMsg (createRequestTxMsg tx msg).1 .requestTxMessage = true := by
  rw [check_msg_eq]
  simp (disch := omega) only [createRequestTxMsg, setShortIntToBytes, requestTxReplicaIdOffset, requestTxClientIdOffset,
    requestTxIdOffset, requestTxTypeOffset, requestTxKeyOffset, requestTxValueOffset, msgTypeOffset, get_type_after]
  exact get_char_set msg 0 _

theorem request_tx_round_trip (tx : Tx) (msg : Buf) (old : Tx) :
    (getInfoFromRequestTxMsg (createRequestTxMsg tx msg).1 old).wire = tx.wire := by
  simp only [getInfoFromRequestTxMsg, requestTxLayout, getTxFromBytes, createRequestTxMsg, Tx.wire, WireTx.mk.injEq,
    requestTxReplicaIdOffset, requestTxClientIdOffset, requestTxIdOffset, requestTxTypeOffset, requestTxKeyOffset,
    requestTxValueOffset, msgTypeOffset]
  refine ⟨?_, ?_, ?_, ?_, ?_, ?_⟩
  · simp (disch := omega) only [setShortIntToBytes, setCharToBytes, get_short_apart]
    exact get_short_set _ 1 tx.replicaId
  · simp (disch := omega) only [setShortIntToBytes, setCharToBytes, get_short_apart]
    exact get_short_set _ 3 tx.clientId
  · simp (disch := omega) only [setShortIntToBytes, setCharToBytes, get_short_apart]
    exact congrArg Int16.toUInt16 (get_short_set _ 5 tx.id.toInt16)
  -- Only the low byte of the type is read back; the key has replaced the high one.
  · simp (disch := omega) only [setShortIntToBytes, setCharToBytes, get_char_apart]
    exact (congrArg TransactionType.ofChar (get_char_of_short _ 7 tx.type.toChar)).trans (type_of_char_to_char tx.type)
  · simp (disch := omega) only [setShortIntToBytes, setCharToBytes, get_short_apart]
    exact get_short_set _ 8 tx.key
  · exact get_short_set _ 10 tx.value

theorem add_to_batch_check (tx : Tx) (msg : Buf) :
    checkMsg (createAddToBatchMsg tx msg).1 .addToBatchMessage = true := by
  have type : (createAddToBatchMsg tx msg).1 0 = (setCharToBytes msg 0 MessageType.addToBatchMessage.code) 0 :=
    set_tx_outside 1 _ tx 0 (.inl (by omega))
  have agree : Agree 1 (createAddToBatchMsg tx msg).1 (setCharToBytes msg 0 MessageType.addToBatchMessage.code) := by
    intro i bound
    rw [Nat.lt_one_iff.mp bound, type]
  rw [check_msg_agree 1 _ _ .addToBatchMessage agree (by omega), check_msg_eq]
  exact get_char_set msg 0 _

theorem add_to_batch_round_trip (tx : Tx) (msg : Buf) (old : Tx) :
    (getInfoFromAddToBatchMsg (createAddToBatchMsg tx msg).1 old).wire = tx.wire :=
  wire_at_set 1 _ tx

theorem response_tx_round_trip (tx : Tx) (msg : Buf) (old : Tx) :
    (getInfoFromResponseTxMsg (createResponseTxMsg tx msg).1 old).wire = tx.wire ∧
      (getInfoFromResponseTxMsg (createResponseTxMsg tx msg).1 old).assignedEpochId = tx.assignedEpochId := by
  refine ⟨?_, get_short_set _ 12 tx.assignedEpochId⟩
  have below : wireAt (.at 1) (createResponseTxMsg tx msg).1 = wireAt (.at 1) (setTxToBytes (.at 1) _ tx) :=
    wire_at_congr 1 _ _ (fun i _ high => memcpy_outside _ _ 12 2 i (.inl high))
  exact below.trans (wire_at_set 1 _ tx)

theorem replica_epoch_round_trip (type : MessageType) (size : Nat) (replicaId epochId : Int) (msg : Buf) :
    getInfoFromReplicaEpochMsg 1 3 (createReplicaEpochMsg type 1 3 size replicaId epochId msg).1 =
      (replicaId.bmod 65536, epochId.bmod 65536) := by
  have first := get_short_set (setCharToBytes msg msgTypeOffset type.code) 1 (Int16.ofInt replicaId)
  have kept := get_short_apart (setShortIntToBytes (setCharToBytes msg msgTypeOffset type.code) 1 (Int16.ofInt replicaId))
    (leBytes (Int16.ofInt epochId).toUInt16.toNat) 3 2 1 (.inl (by omega))
  have second := get_short_set (setShortIntToBytes (setCharToBytes msg msgTypeOffset type.code) 1 (Int16.ofInt replicaId))
    3 (Int16.ofInt epochId)
  rw [first] at kept
  exact Prod.ext ((congrArg Int16.toInt kept).trans Int16.toInt_ofInt)
    ((congrArg Int16.toInt second).trans Int16.toInt_ofInt)

theorem replica_epoch_check (type : MessageType) (size : Nat) (replicaId epochId : Int) (msg : Buf) :
    checkMsg (createReplicaEpochMsg type 1 3 size replicaId epochId msg).1 type = true := by
  rw [check_msg_eq]
  simp (disch := omega) only [createReplicaEpochMsg, setShortIntToBytes, msgTypeOffset, get_type_after]
  exact get_char_set msg 0 _

theorem bmod_short (x : Int) (low : -32768 ≤ x) (high : x < 32768) : x.bmod 65536 = x :=
  Int.bmod_eq_of_le (by omega) (by omega)

theorem ack_batch_round_trip (replicaId epochId : Int) (msg : Buf) (replica : -32768 ≤ replicaId ∧ replicaId < 32768)
    (epoch : -32768 ≤ epochId ∧ epochId < 32768) :
    getInfoFromAckBatchMsg (createAckBatchMsg replicaId epochId msg).1 = (replicaId, epochId) := by
  have trip := replica_epoch_round_trip .ackBatchMessage ackBatchMessageSize replicaId epochId msg
  rw [bmod_short replicaId replica.1 replica.2, bmod_short epochId epoch.1 epoch.2] at trip
  exact trip

theorem request_batch_round_trip (replicaId epochId : Int) (msg : Buf)
    (replica : -32768 ≤ replicaId ∧ replicaId < 32768) (epoch : -32768 ≤ epochId ∧ epochId < 32768) :
    getInfoFromRequestBatchMessage (createRequestBatchMsg replicaId epochId msg).1 = (replicaId, epochId) := by
  have trip := replica_epoch_round_trip .requestBatchMessage requestBatchMessageSize replicaId epochId msg
  rw [bmod_short replicaId replica.1 replica.2, bmod_short epochId epoch.1 epoch.2] at trip
  exact trip

theorem ack_batch_check (replicaId epochId : Int) (msg : Buf) :
    checkMsg (createAckBatchMsg replicaId epochId msg).1 .ackBatchMessage = true :=
  replica_epoch_check .ackBatchMessage ackBatchMessageSize replicaId epochId msg

theorem request_batch_check (replicaId epochId : Int) (msg : Buf) :
    checkMsg (createRequestBatchMsg replicaId epochId msg).1 .requestBatchMessage = true :=
  replica_epoch_check .requestBatchMessage requestBatchMessageSize replicaId epochId msg

theorem ack_add_check (replicaId clientId txId : Int) (msg : Buf) :
    checkMsg (createAckAddMsg replicaId clientId txId msg).1 .ackAddMessage = true := by
  rw [check_msg_eq]
  simp (disch := omega) only [createAckAddMsg, setShortIntToBytes, msgTypeOffset, ackAddTxReplicaIdOffset,
    ackAddTxClientIdOffset, ackAddTxIdOffset, get_type_after]
  exact get_char_set msg 0 _

theorem ack_add_round_trip (replicaId clientId txId : Int) (msg : Buf) :
    getInfoFromAckAddMsg (createAckAddMsg replicaId clientId txId msg).1 =
      (replicaId.bmod 65536, clientId.bmod 65536, txId.bmod 65536) := by
  simp only [getInfoFromAckAddMsg, createAckAddMsg, ackAddTxReplicaIdOffset, ackAddTxClientIdOffset, ackAddTxIdOffset,
    msgTypeOffset, Prod.mk.injEq]
  refine ⟨?_, ?_, ?_⟩
  · simp (disch := omega) only [setShortIntToBytes, get_short_apart]
    exact (congrArg Int16.toInt (get_short_set _ 1 (Int16.ofInt replicaId))).trans Int16.toInt_ofInt
  · simp (disch := omega) only [setShortIntToBytes, get_short_apart]
    exact (congrArg Int16.toInt (get_short_set _ 3 (Int16.ofInt clientId))).trans Int16.toInt_ofInt
  · exact (congrArg Int16.toInt (get_short_set _ 5 (Int16.ofInt txId))).trans Int16.toInt_ofInt

theorem wire_at_agree (n base : Nat) (a b : Buf) (agree : Agree n a b) (inside : base + 11 ≤ n) :
    wireAt (.at base) a = wireAt (.at base) b :=
  wire_at_congr base a b (fun i _ high => agree i (by omega))

theorem ack_add_info_agree (n : Nat) (a b : Buf) (agree : Agree n a b) (inside : 7 ≤ n) :
    getInfoFromAckAddMsg a = getInfoFromAckAddMsg b := by
  simp only [getInfoFromAckAddMsg, ackAddTxReplicaIdOffset, ackAddTxClientIdOffset, ackAddTxIdOffset, msgTypeOffset]
  rw [get_short_agree n a b (0 + 1) agree (by omega), get_short_agree n a b (0 + 1 + 2) agree (by omega),
    get_short_agree n a b (0 + 1 + 2 + 2) agree (by omega)]

theorem get_tx_agree (n base : Nat) (a b : Buf) (old : Tx) (agree : Agree n a b) (inside : base + 11 ≤ n) :
    getTxFromBytes (.at base) a old = getTxFromBytes (.at base) b old := by
  have same := wire_at_agree n base a b agree inside
  simp only [wireAt, getTxFromBytes, Tx.wire, WireTx.mk.injEq] at same
  obtain ⟨replica, client, id, type, key, value⟩ := same
  simp only [getTxFromBytes, replica, client, id, type, key, value]

-- What passes between an encoder and its decoder: the bytes below the length
-- that the encoder returns. It writes no others, and the decoder looks at no others.
structure OwnBytes (create : Buf → Buf × Nat) (getInfo : Buf → Tx → Tx) : Prop where
  writes : ∀ msg i, (create msg).2 ≤ i → (create msg).1 i = msg i
  reads : ∀ msg a b old, Agree (create msg).2 a b → getInfo a old = getInfo b old

theorem request_tx_own_bytes (tx : Tx) : OwnBytes (createRequestTxMsg tx) getInfoFromRequestTxMsg := by
  refine ⟨?_, ?_⟩
  · intro msg i out
    replace out : 12 ≤ i := out
    simp only [createRequestTxMsg, setShortIntToBytes, setCharToBytes, requestTxReplicaIdOffset, requestTxClientIdOffset,
      requestTxIdOffset, requestTxTypeOffset, requestTxKeyOffset, requestTxValueOffset, msgTypeOffset]
    simp (disch := omega) only [memcpy_outside]
  · intro msg a b old agree
    exact get_tx_agree 12 1 a b old agree (by omega)

theorem add_to_batch_own_bytes (tx : Tx) : OwnBytes (createAddToBatchMsg tx) getInfoFromAddToBatchMsg := by
  refine ⟨?_, ?_⟩
  · intro msg i out
    replace out : 12 ≤ i := out
    have header : (createAddToBatchMsg tx msg).1 i = setCharToBytes msg 0 MessageType.addToBatchMessage.code i :=
      set_tx_outside 1 _ tx i (.inr out)
    rw [header, setCharToBytes, memcpy_outside _ _ _ _ _ (by omega)]
  · intro msg a b old agree
    exact get_tx_agree 12 1 a b old agree (by omega)

theorem response_tx_own_bytes (tx : Tx) : OwnBytes (createResponseTxMsg tx) getInfoFromResponseTxMsg := by
  refine ⟨?_, ?_⟩
  · intro msg i out
    replace out : 14 ≤ i := out
    have header : setTxToBytes (.at 1) (setCharToBytes msg 0 MessageType.responseTxMessage.code) tx i =
        setCharToBytes msg 0 MessageType.responseTxMessage.code i := set_tx_outside 1 _ tx i (.inr (by omega))
    have last : (createResponseTxMsg tx msg).1 i =
        setTxToBytes (.at 1) (setCharToBytes msg 0 MessageType.responseTxMessage.code) tx i :=
      memcpy_outside _ _ 12 2 i (.inr out)
    rw [last, header, setCharToBytes, memcpy_outside _ _ _ _ _ (by omega)]
  · intro msg a b old agree
    replace agree : Agree 14 a b := agree
    have info : getTxFromBytes responseTxLayout a old = getTxFromBytes responseTxLayout b old :=
      get_tx_agree 14 1 a b old agree (by omega)
    have epoch := get_short_agree 14 a b responseTxAssignedEpochIdOffset agree (by decide)
    simp only [getInfoFromResponseTxMsg, info, epoch]

theorem tx_crosses_messages (tx : Tx) (requestBuf addBuf responseBuf : Buf) (requested added responded : Tx) :
    (getInfoFromAddToBatchMsg (createAddToBatchMsg
        (getInfoFromRequestTxMsg (createRequestTxMsg tx requestBuf).1 requested) addBuf).1 added).wire = tx.wire ∧
      (getInfoFromResponseTxMsg (createResponseTxMsg tx responseBuf).1 responded).wire = tx.wire ∧
      (getInfoFromResponseTxMsg (createResponseTxMsg tx responseBuf).1 responded).assignedEpochId = tx.assignedEpochId ∧
      OwnBytes (createRequestTxMsg tx) getInfoFromRequestTxMsg ∧
      OwnBytes (createAddToBatchMsg tx) getInfoFromAddToBatchMsg ∧
      OwnBytes (createResponseTxMsg tx) getInfoFromResponseTxMsg := by
  obtain ⟨answered, epoch⟩ := response_tx_round_trip tx responseBuf responded
  have forwarded := add_to_batch_round_trip (getInfoFromRequestTxMsg (createRequestTxMsg tx requestBuf).1 requested)
    addBuf added
  rw [request_tx_round_trip] at forwarded
  exact ⟨forwarded, answered, epoch, request_tx_own_bytes tx, add_to_batch_own_bytes tx, response_tx_own_bytes tx⟩

end EpochReplication
