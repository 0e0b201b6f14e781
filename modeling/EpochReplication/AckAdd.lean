import EpochReplication.MessageCodec

set_option autoImplicit false

namespace EpochReplication

def bufsiz : Nat := 8192

def receiveMsg (msg data : Buf) (len : Nat) : Buf := memcpy msg 0 data (min len bufsiz)

-- The answer of recieve_tx_connection to an ADD_TO_BATCH, whatever it does with
-- the transaction afterwards.
def answerAddToBatch (tx : Tx) (msg : Buf) : Buf × Nat :=
  createAckAddMsg tx.replicaId.toInt tx.clientId.toInt tx.id.toNat msg

-- The test with which request_write_tx ends its retransmission loop. Its own id
-- was promoted from unsigned short, the one in the message from short.
def endsRetransmission (tx : Tx) (recvMsg : Buf) : Bool :=
  checkMsg recvMsg .ackAddMessage &&
    (let (ackReplicaId, ackClientId, ackTxId) := getInfoFromAckAddMsg recvMsg
     ackReplicaId == tx.replicaId.toInt && ackClientId == tx.clientId.toInt && ackTxId == (tx.id.toNat : Int))

theorem receive_msg_agree (msg data : Buf) (len : Nat) (fits : len ≤ bufsiz) : Agree len (receiveMsg msg data len) data := by
  simp only [receiveMsg, Nat.min_eq_left fits]
  exact memcpy_agree msg data len

theorem receive_add_to_batch (tx : Tx) (addBuf msg : Buf) (old : Tx) :
    checkMsg (receiveMsg msg (createAddToBatchMsg tx addBuf).1 addToBatchMessageSize) .addToBatchMessage = true ∧
      (getInfoFromAddToBatchMsg (receiveMsg msg (createAddToBatchMsg tx addBuf).1 addToBatchMessageSize) old).wire =
        tx.wire := by
  have agree := receive_msg_agree msg (createAddToBatchMsg tx addBuf).1 addToBatchMessageSize (by decide)
  refine ⟨?_, ?_⟩
  · rw [check_msg_agree addToBatchMessageSize _ _ _ agree (by decide)]
    exact add_to_batch_check tx addBuf
  · have trip := add_to_batch_round_trip tx addBuf old
    simp only [getInfoFromAddToBatchMsg, get_tx_wire] at trip ⊢
    rw [← trip]
    exact wire_at_agree addToBatchMessageSize 1 _ _ agree (by decide)

theorem request_tx_agree (tx : Tx) (requestBuf msg : Buf) (old : Tx)
    (agree : Agree requestTxMessageSize msg (createRequestTxMsg tx requestBuf).1) :
    checkMsg msg .requestTxMessage = true ∧ (getInfoFromRequestTxMsg msg old).wire = tx.wire := by
  refine ⟨?_, ?_⟩
  · rw [check_msg_agree requestTxMessageSize _ _ _ agree (by decide)]
    exact request_tx_check tx requestBuf
  · have trip := request_tx_round_trip tx requestBuf old
    simp only [getInfoFromRequestTxMsg, get_tx_wire] at trip ⊢
    rw [← trip]
    exact wire_at_agree requestTxMessageSize 1 _ _ agree (by decide)

theorem receive_request_tx (tx : Tx) (requestBuf msg : Buf) (old : Tx) :
    checkMsg (receiveMsg msg (createRequestTxMsg tx requestBuf).1 requestTxMessageSize) .requestTxMessage = true ∧
      (getInfoFromRequestTxMsg (receiveMsg msg (createRequestTxMsg tx requestBuf).1 requestTxMessageSize) old).wire =
        tx.wire :=
  request_tx_agree tx requestBuf _ old (receive_msg_agree msg _ requestTxMessageSize (by decide))

theorem receive_response_tx (tx : Tx) (responseBuf msg : Buf) (old : Tx) :
    (getInfoFromResponseTxMsg (receiveMsg msg (createResponseTxMsg tx responseBuf).1 responseTxMessageSize) old).wire =
        tx.wire ∧
      (getInfoFromResponseTxMsg (receiveMsg msg (createResponseTxMsg tx responseBuf).1 responseTxMessageSize)
        old).assignedEpochId = tx.assignedEpochId := by
  have agree := receive_msg_agree msg (createResponseTxMsg tx responseBuf).1 responseTxMessageSize (by decide)
  obtain ⟨wire, epoch⟩ := response_tx_round_trip tx responseBuf old
  refine ⟨(wire_at_agree responseTxMessageSize 1 _ _ agree (by decide)).trans wire, ?_⟩
  have same := get_short_agree responseTxMessageSize _ _ responseTxAssignedEpochIdOffset agree (by decide)
  exact same.trans epoch

theorem receive_ack_add (replicaId clientId txId : Int) (ackBuf msg : Buf) :
    checkMsg (receiveMsg msg (createAckAddMsg replicaId clientId txId ackBuf).1 ackAddMessageSize) .ackAddMessage = true ∧
      getInfoFromAckAddMsg (receiveMsg msg (createAckAddMsg replicaId clientId txId ackBuf).1 ackAddMessageSize) =
        (replicaId.bmod 65536, clientId.bmod 65536, txId.bmod 65536) := by
  have agree := receive_msg_agree msg (createAckAddMsg replicaId clientId txId ackBuf).1 ackAddMessageSize (by decide)
  refine ⟨?_, ?_⟩
  · rw [check_msg_agree ackAddMessageSize _ _ _ agree (by decide)]
    exact ack_add_check replicaId clientId txId ackBuf
  · rw [ack_add_info_agree ackAddMessageSize _ _ agree (by decide)]
    exact ack_add_round_trip replicaId clientId txId ackBuf

theorem short_bmod (x : Int16) : x.toInt.bmod 65536 = x.toInt :=
  bmod_short x.toInt (Int16.le_toInt x) (by have bound := Int16.toInt_lt x; omega)

-- A promoted short is never above 32767, so that only the lower half of the
-- unsigned ids can match, and then only the same id does.
theorem id_survives_iff (sent own : UInt16) :
    (sent.toNat : Int).bmod 65536 = own.toNat ↔ sent = own ∧ own.toNat < 32768 := by
  have bound := sent.toNat_lt
  have own_bound := own.toNat_lt
  constructor
  · intro same
    have low : sent.toNat < 32768 := by
      by_contra high
      have wrapped : (sent.toNat : Int).bmod 65536 = sent.toNat - 65536 := by
        rw [Int.bmod_def]
        omega
      omega
    rw [bmod_short _ (by omega) (by omega)] at same
    have equal : sent.toNat = own.toNat := by omega
    exact ⟨UInt16.toNat_inj.mp equal, by omega⟩
  · rintro ⟨rfl, low⟩
    exact bmod_short _ (by omega) (by omega)

theorem ack_ends_iff (tx : Tx) (sent : UInt16) (ackBuf msg : Buf) :
    endsRetransmission tx (receiveMsg msg
        (createAckAddMsg tx.replicaId.toInt tx.clientId.toInt sent.toNat ackBuf).1 ackAddMessageSize) = true ↔
      sent = tx.id ∧ tx.id.toNat < 32768 := by
  obtain ⟨type, info⟩ := receive_ack_add tx.replicaId.toInt tx.clientId.toInt sent.toNat ackBuf msg
  simp only [endsRetransmission, type, info, short_bmod, beq_self_eq_true, Bool.true_and, beq_iff_eq]
  exact id_survives_iff sent tx.id

structure AckRecognised (tx : Tx) (addBuf masterBuf ackBuf clientBuf : Buf) : Prop where
  decoded : ∀ old,
    getInfoFromAckAddMsg (receiveMsg clientBuf (answerAddToBatch
        (getInfoFromAddToBatchMsg (receiveMsg masterBuf (createAddToBatchMsg tx addBuf).1 addToBatchMessageSize) old)
        ackBuf).1 ackAddMessageSize) =
      (tx.replicaId.toInt, tx.clientId.toInt, (tx.id.toNat : Int))
  ends : ∀ old,
    endsRetransmission tx (receiveMsg clientBuf (answerAddToBatch
        (getInfoFromAddToBatchMsg (receiveMsg masterBuf (createAddToBatchMsg tx addBuf).1 addToBatchMessageSize) old)
        ackBuf).1 ackAddMessageSize) = true
  others : ∀ other : UInt16, other ≠ tx.id →
    endsRetransmission tx (receiveMsg clientBuf
      (createAckAddMsg tx.replicaId.toInt tx.clientId.toInt other.toNat ackBuf).1 ackAddMessageSize) = false

theorem answer_of_received (tx : Tx) (addBuf masterBuf ackBuf : Buf) (old : Tx) :
    answerAddToBatch
        (getInfoFromAddToBatchMsg (receiveMsg masterBuf (createAddToBatchMsg tx addBuf).1 addToBatchMessageSize) old)
        ackBuf = createAckAddMsg tx.replicaId.toInt tx.clientId.toInt tx.id.toNat ackBuf := by
  have same := (receive_add_to_batch tx addBuf masterBuf old).2
  simp only [Tx.wire, WireTx.mk.injEq] at same
  obtain ⟨replica, client, id, _⟩ := same
  rw [answerAddToBatch, replica, client, id]

theorem ack_recognised_iff (tx : Tx) (addBuf masterBuf ackBuf clientBuf : Buf) :
    AckRecognised tx addBuf masterBuf ackBuf clientBuf ↔ tx.id.toNat < 32768 := by
  constructor
  · intro recognised
    have ends := recognised.ends createTx
    rw [answer_of_received] at ends
    exact ((ack_ends_iff tx tx.id ackBuf clientBuf).mp ends).2
  · intro low
    refine ⟨?_, ?_, ?_⟩
    · intro old
      rw [answer_of_received, (receive_ack_add _ _ _ ackBuf clientBuf).2, short_bmod, short_bmod,
        (id_survives_iff tx.id tx.id).mpr ⟨rfl, low⟩]
    · intro old
      rw [answer_of_received]
      exact (ack_ends_iff tx tx.id ackBuf clientBuf).mpr ⟨rfl, low⟩
    · intro other different
      rw [Bool.eq_false_iff]
      intro ends
      exact different ((ack_ends_iff tx other ackBuf clientBuf).mp ends).1

theorem ack_of_32768_ignored : ∃ tx : Tx, tx.replicaId = 1 ∧ tx.clientId = 0 ∧ tx.id = 32768 ∧ tx.type = .writeOnly ∧
    getInfoFromAckAddMsg (createAckAddMsg 1 0 tx.id.toNat (fun _ => 0)).1 = (1, 0, -32768) ∧
    ∀ addBuf masterBuf ackBuf clientBuf, ¬ AckRecognised tx addBuf masterBuf ackBuf clientBuf := by
  refine ⟨⟨1, 0, 32768, .writeOnly, 0, 0, 0, 0⟩, rfl, rfl, rfl, rfl, by decide, ?_⟩
  intro addBuf masterBuf ackBuf clientBuf recognised
  have ends := recognised.ends createTx
  rw [answer_of_received] at ends
  exact absurd ((ack_ends_iff _ _ ackBuf clientBuf).mp ends).2 (by decide)

end EpochReplication
