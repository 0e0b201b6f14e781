import EpochReplication.MasterInvariant

set_option autoImplicit false

namespace EpochReplication

def Slave.accepted (slave : Slave) : Nat := slave.writeTxBuffer.entered.length

inductive Carried (p : Deployment) (confirmed : List Batch) (accepted : Nat → Nat) : Datagram → Prop where
  | batch (r k : Nat) (b : Batch) (data : Buf) (reached : k ≤ accepted r) (found : confirmed[k]? = some b)
      (content : CarriesBatch data b.epochId b.wire) :
      Carried p confirmed accepted ⟨.slaveSequencer r, data, batchLogSize⟩
  | ackMaster (r e : Nat) (old : Buf) (slave : p.IsSlave r) (logged : e < accepted r) :
      Carried p confirmed accepted
        ⟨.masterSequencerFromSlaveSequencer r, (createAckBatchMsg r e old).1, ackBatchMessageSize⟩
  | ackPeer (r q e : Nat) (old : Buf) (slave : p.IsSlave r) (logged : e < accepted r) :
      Carried p confirmed accepted ⟨.slaveSequencer q, (createAckBatchMsg r e old).1, ackBatchMessageSize⟩
  | request (r q e : Nat) (old : Buf) (slave : p.IsSlave q) (asked : e ≤ accepted q) (logged : e < accepted r) :
      Carried p confirmed accepted ⟨.slaveSequencer r, (createRequestBatchMsg q e old).1, requestBatchMessageSize⟩

theorem found_grown {α : Type} (before after : List α) (k : Nat) (b : α) (grown : before <+: after)
    (found : before[k]? = some b) : after[k]? = some b := by
  obtain ⟨rest, rfl⟩ := grown
  obtain ⟨inside, rfl⟩ := List.getElem?_eq_some_iff.mp found
  rw [List.getElem?_append_left inside, List.getElem?_eq_getElem inside]

theorem carried_mono (p : Deployment) (before after : List Batch) (accepted reached : Nat → Nat) (d : Datagram)
    (grown : before <+: after) (more : ∀ r, accepted r ≤ reached r) (carried : Carried p before accepted d) :
    Carried p after reached d := by
  cases carried with
  | batch r k b data reached found content =>
      exact .batch r k b data (Nat.le_trans reached (more r)) (found_grown before after k b grown found) content
  | ackMaster r e old slave logged => exact .ackMaster r e old slave (Nat.lt_of_lt_of_le logged (more r))
  | ackPeer r q e old slave logged => exact .ackPeer r q e old slave (Nat.lt_of_lt_of_le logged (more r))
  | request r q e old slave asked logged =>
      exact .request r q e old slave (Nat.le_trans asked (more q)) (Nat.lt_of_lt_of_le logged (more r))

theorem receive_agree (msg data : Buf) (size len : Nat) (dst : Endpoint) (fits : len ≤ size) :
    Agree len (udpSvReceiveMsg msg size ⟨dst, data, len⟩).1 data := by
  simp only [udpSvReceiveMsg, Nat.min_eq_left fits]
  exact memcpy_agree msg data len

theorem receive_check (msg data : Buf) (len : Nat) (dst : Endpoint) (type : MessageType) (fits : len ≤ batchLogSize)
    (some_bytes : 1 ≤ len) (is_type : checkMsg data type = true) :
    checkMsg (udpSvReceiveMsg msg batchLogSize ⟨dst, data, len⟩).1 type = true := by
  rw [check_msg_agree len _ data type (receive_agree msg data batchLogSize len dst fits) some_bytes]
  exact is_type

theorem receive_replica_epoch (msg data : Buf) (len : Nat) (dst : Endpoint) (fits : len ≤ batchLogSize)
    (long : 5 ≤ len) :
    getInfoFromReplicaEpochMsg 1 3 (udpSvReceiveMsg msg batchLogSize ⟨dst, data, len⟩).1 =
      getInfoFromReplicaEpochMsg 1 3 data := by
  have agree := receive_agree msg data batchLogSize len dst fits
  simp only [getInfoFromReplicaEpochMsg, get_short_agree len _ data 1 agree (by omega),
    get_short_agree len _ data 3 agree (by omega)]

theorem receive_ack_batch (p : Deployment) (msg old : Buf) (dst : Endpoint) (r e : Nat) (slave : p.IsSlave r)
    (fits : e < 32768) :
    checkMsg (udpSvReceiveMsg msg batchLogSize ⟨dst, (createAckBatchMsg r e old).1, ackBatchMessageSize⟩).1
        .ackBatchMessage = true ∧
      getInfoFromAckBatchMsg
        (udpSvReceiveMsg msg batchLogSize ⟨dst, (createAckBatchMsg r e old).1, ackBatchMessageSize⟩).1 =
          ((r : Int), (e : Int)) := by
  have replicas := p.replicasFit
  have bound := slave.2
  refine ⟨receive_check msg _ _ dst .ackBatchMessage (by decide) (by decide) (ack_batch_check r e old), ?_⟩
  exact (receive_replica_epoch msg _ _ dst (by decide) (by decide)).trans
    (ack_batch_round_trip r e old ⟨by omega, by omega⟩ ⟨by omega, by omega⟩)

theorem receive_request_batch (p : Deployment) (msg old : Buf) (dst : Endpoint) (q e : Nat) (slave : p.IsSlave q)
    (fits : e < 32768) :
    checkMsg (udpSvReceiveMsg msg batchLogSize ⟨dst, (createRequestBatchMsg q e old).1, requestBatchMessageSize⟩).1
        .requestBatchMessage = true ∧
      getInfoFromRequestBatchMessage
        (udpSvReceiveMsg msg batchLogSize ⟨dst, (createRequestBatchMsg q e old).1, requestBatchMessageSize⟩).1 =
          ((q : Int), (e : Int)) := by
  have replicas := p.replicasFit
  have bound := slave.2
  refine ⟨receive_check msg _ _ dst .requestBatchMessage (by decide) (by decide) (request_batch_check q e old), ?_⟩
  exact (receive_replica_epoch msg _ _ dst (by decide) (by decide)).trans
    (request_batch_round_trip q e old ⟨by omega, by omega⟩ ⟨by omega, by omega⟩)

theorem receive_batch (msg data : Buf) (dst : Endpoint) (b : Batch) (content : CarriesBatch data b.epochId b.wire) :
    CarriesBatch (udpSvReceiveMsg msg batchLogSize ⟨dst, data, batchLogSize⟩).1 b.epochId b.wire := by
  have agree := receive_agree msg data batchLogSize batchLogSize dst (Nat.le_refl _)
  have fits := batch_msg_fits b
  exact carries_batch_agree data _ b.epochId b.wire
    (agree_symm _ _ _ (agree_mono _ _ _ _ (by unfold batchLogSize; omega) agree)) content

inductive SendStep (accepts : Int → Int → Bool) (systemFinishRequest : Int) (m : Master) (net : List Datagram) (r : Nat)
    (t : SendThread) : SendAct → SendThread → List Datagram → Prop where
  | spin (pc : t.pc = .barrier) : SendStep accepts systemFinishRequest m net r t .barrier t []
  | start (pc : t.pc = .barrier) (flag : systemFinishRequest = 0) :
      SendStep accepts systemFinishRequest m net r t .barrier { t with pc := .loop } []
  | idle (pc : t.pc = .loop) (flag : systemFinishRequest = 0) (none_new : m.determinedEpochId < t.nextEpochId) :
      SendStep accepts systemFinishRequest m net r t .loop t []
  | pick (pc : t.pc = .loop) (flag : systemFinishRequest = 0) (new : t.nextEpochId ≤ m.determinedEpochId) :
      SendStep accepts systemFinishRequest m net r t .loop { t with pc := .reading, sendEpochId := t.nextEpochId } []
  | leave (pc : t.pc = .loop) (flag : systemFinishRequest ≠ 0) :
      SendStep accepts systemFinishRequest m net r t .loop { t with pc := .returned } []
  | read (io : LogIo) (sendMsg : Buf) (len : Int) (pc : t.pc = .reading)
      (done : readLog m.batchLog t.sendMsg t.sendEpochId io = .returned (sendMsg, len)) :
      SendStep accepts systemFinishRequest m net r t (.read io)
        { t with pc := .sending, sendMsg := sendMsg, sendMsgLen := len } []
  | abandon (pc : t.pc = .sending) (flag : systemFinishRequest = 1) :
      SendStep accepts systemFinishRequest m net r t .send { t with pc := .loop } []
  | send (pc : t.pc = .sending) (flag : systemFinishRequest ≠ 1) :
      SendStep accepts systemFinishRequest m net r t .send { t with pc := .waiting }
        [⟨.slaveSequencer r, t.sendMsg, t.sendMsgLen.toNat⟩]
  | receive (i : Nat) (d : Datagram) (pc : t.pc = .waiting) (found : net[i]? = some d)
      (mine : d.dst = .masterSequencerFromSlaveSequencer r) :
      SendStep accepts systemFinishRequest m net r t (.receive i) (receiveAck accepts t d) []
  | timeout (pc : t.pc = .waiting) : SendStep accepts systemFinishRequest m net r t .timeout { t with pc := .sending } []

theorem send_step_of_returned (accepts : Int → Int → Bool) (systemFinishRequest : Int) (m : Master)
    (net sent : List Datagram) (r : Nat) (t next : SendThread) (act : SendAct)
    (done : sendBatchConnection accepts systemFinishRequest m net r t act = .returned (next, sent)) :
    SendStep accepts systemFinishRequest m net r t act next sent := by
  unfold sendBatchConnection at done
  split at done
  · rename_i pc
    split at done
    · cases done
      exact .spin pc
    · rename_i flag
      cases done
      exact .start pc (by omega)
  · rename_i pc
    split at done
    · rename_i flag
      split at done
      · rename_i new
        cases done
        exact .pick pc flag new
      · rename_i old
        cases done
        exact .idle pc flag (by omega)
    · rename_i flag
      cases done
      exact .leave pc flag
  · rename_i io pc
    split at done
    · rename_i sendMsg len read
      cases done
      exact .read io sendMsg len pc read
    · cases done
    · cases done
  · rename_i pc
    split at done
    · rename_i flag
      cases done
      exact .abandon pc flag
    · rename_i flag
      cases done
      exact .send pc flag
  · rename_i i pc
    split at done
    · cases done
    · rename_i d found
      split at done
      · rename_i mine
        cases done
        exact .receive i d pc found mine
      · cases done
  · rename_i pc
    cases done
    exact .timeout pc
  · cases done

def SendCurrent (confirmed : List Batch) (t : SendThread) : Prop :=
  match t.pc with
  | .reading => t.sendEpochId = t.nextEpochId ∧ t.sendEpochId < confirmed.length
  | .sending | .waiting =>
      t.sendEpochId = t.nextEpochId ∧ t.sendMsgLen = batchLogSize ∧
        ∃ b, confirmed[t.sendEpochId.toNat]? = some b ∧ CarriesBatch t.sendMsg b.epochId b.wire
  | _ => True

structure SendInv (confirmed : List Batch) (accepted : Nat) (t : SendThread) : Prop where
  next : 0 ≤ t.nextEpochId ∧ t.nextEpochId ≤ accepted
  current : SendCurrent confirmed t

theorem send_inv_mono (before after : List Batch) (accepted reached : Nat) (t : SendThread)
    (grown : before <+: after) (more : accepted ≤ reached) (inv : SendInv before accepted t) :
    SendInv after reached t := by
  obtain ⟨⟨low, high⟩, current⟩ := inv
  have longer := grown.length_le
  refine ⟨⟨low, by omega⟩, ?_⟩
  unfold SendCurrent at current ⊢
  split at current
  · exact ⟨current.1, by omega⟩
  · obtain ⟨same, length, b, found, content⟩ := current
    exact ⟨same, length, b, found_grown before after _ b grown found, content⟩
  · obtain ⟨same, length, b, found, content⟩ := current
    exact ⟨same, length, b, found_grown before after _ b grown found, content⟩
  · trivial

theorem receive_ack_keeps (p : Deployment) (confirmed : List Batch) (accepted : Nat → Nat) (accepts : Int → Int → Bool)
    (r : Nat) (t : SendThread) (d : Datagram) (fits : accepted r ≤ 32768)
    (sound : ∀ got sent, accepts got sent = true → sent ≤ got)
    (pc : t.pc = .waiting) (mine : d.dst = .masterSequencerFromSlaveSequencer r) (carried : Carried p confirmed accepted d)
    (inv : SendInv confirmed (accepted r) t) :
    SendInv confirmed (accepted r) (receiveAck accepts t d) ∧ t.nextEpochId ≤ (receiveAck accepts t d).nextEpochId := by
  obtain ⟨⟨low, high⟩, current⟩ := inv
  simp only [SendCurrent, pc] at current
  obtain ⟨same, length, b, found, content⟩ := current
  cases carried with
  | batch q k b data reached found content => cases mine
  | ackPeer q s e old slave logged => cases mine
  | request q s e old slave asked logged => cases mine
  | ackMaster q e old slave logged =>
      obtain rfl : q = r := by
        injection mine with same
        omega
      obtain ⟨ack, decoded⟩ := receive_ack_batch p t.recvMsg old (.masterSequencerFromSlaveSequencer q) q e slave
        (by omega)
      simp only [receiveAck, ack, if_true, decoded]
      split
      · rename_i accepted_ack
        have ahead := sound _ _ accepted_ack
        exact ⟨⟨⟨by simp only; omega, by simp only; omega⟩, trivial⟩, by simp only; omega⟩
      · refine ⟨⟨⟨low, high⟩, ?_⟩, Int.le_refl _⟩
        simp only [SendCurrent, pc]
        exact ⟨same, length, b, found, content⟩

theorem send_inv_step (p : Deployment) (accepts : Int → Int → Bool) (systemFinishRequest : Int) (m : Master)
    (accepted : Nat → Nat) (net sent : List Datagram) (r : Nat) (t next : SendThread) (act : SendAct)
    (sound : ∀ got sent, accepts got sent = true → sent ≤ got) (fits : accepted r ≤ 32768) (master : MasterInv m)
    (carried : ∀ d ∈ net, Carried p m.confirmed accepted d) (inv : SendInv m.confirmed (accepted r) t)
    (step : SendStep accepts systemFinishRequest m net r t act next sent) :
    SendInv m.confirmed (accepted r) next ∧ t.nextEpochId ≤ next.nextEpochId ∧
      ∀ d ∈ sent, Carried p m.confirmed accepted d := by
  have nothing : ∀ d ∈ ([] : List Datagram), Carried p m.confirmed accepted d := by simp
  obtain ⟨⟨low, high⟩, current⟩ := inv
  cases step with
  | spin pc => exact ⟨⟨⟨low, high⟩, current⟩, Int.le_refl _, nothing⟩
  | start pc flag => exact ⟨⟨⟨low, high⟩, trivial⟩, Int.le_refl _, nothing⟩
  | idle pc flag none_new => exact ⟨⟨⟨low, high⟩, current⟩, Int.le_refl _, nothing⟩
  | pick pc flag new =>
      have counted := master.determined
      exact ⟨⟨⟨low, high⟩, rfl, by simp only; omega⟩, Int.le_refl _, nothing⟩
  | leave pc flag => exact ⟨⟨⟨low, high⟩, trivial⟩, Int.le_refl _, nothing⟩
  | read io sendMsg len pc done =>
      simp only [SendCurrent, pc] at current
      obtain ⟨same, confirmed⟩ := current
      obtain ⟨e, number⟩ := Int.eq_ofNat_of_zero_le (show 0 ≤ t.sendEpochId by omega)
      have inside : e < m.confirmed.length := by omega
      have found := List.getElem?_eq_getElem inside
      rw [number] at done
      obtain ⟨length, content⟩ := log_carries_read _ m.batchLog t.sendMsg e _ io sendMsg len (by decide)
        (master.logged e _ found) done
      refine ⟨⟨⟨low, high⟩, same, length, m.confirmed[e], ?_, content⟩, Int.le_refl _, nothing⟩
      simp [number]
  | abandon pc flag => exact ⟨⟨⟨low, high⟩, trivial⟩, Int.le_refl _, nothing⟩
  | send pc flag =>
      simp only [SendCurrent, pc] at current
      refine ⟨⟨⟨low, high⟩, current⟩, Int.le_refl _, ?_⟩
      obtain ⟨same, length, b, found, content⟩ := current
      intro d member
      obtain rfl := List.mem_singleton.mp member
      rw [length, Int.toNat_natCast]
      exact .batch r t.sendEpochId.toNat b t.sendMsg (by omega) found content
  | receive i d pc found mine =>
      have kept := receive_ack_keeps p m.confirmed accepted accepts r t d fits sound pc mine
        (carried d (List.mem_of_getElem? found)) ⟨⟨low, high⟩, current⟩
      exact ⟨kept.1, kept.2, nothing⟩
  | timeout pc =>
      simp only [SendCurrent, pc] at current
      exact ⟨⟨⟨low, high⟩, current⟩, Int.le_refl _, nothing⟩

end EpochReplication
