import EpochReplication.Replicated

set_option autoImplicit false

namespace EpochReplication

def Deployment.using (p : Deployment) (exp : ExpT) : Deployment := { p with exp := exp }

inductive InTurn (p : Deployment) (confirmed : List Batch) (next : Nat → Int) : Datagram → Prop where
  | batch (r k : Nat) (b : Batch) (data : Buf) (sent : k ≤ next r) (found : confirmed[k]? = some b)
      (content : CarriesBatch data b.epochId b.wire) :
      InTurn p confirmed next ⟨.slaveSequencer r, data, batchLogSize⟩
  | ack (r e : Nat) (old : Buf) (slave : p.IsSlave r) (below : e ≤ next r) (short : e < 32768) :
      InTurn p confirmed next
        ⟨.masterSequencerFromSlaveSequencer r, (createAckBatchMsg r e old).1, ackBatchMessageSize⟩

theorem in_turn_mono (p : Deployment) (before after : List Batch) (next reached : Nat → Int) (d : Datagram)
    (grown : before <+: after) (more : ∀ r, next r ≤ reached r) (turn : InTurn p before next d) :
    InTurn p after reached d := by
  cases turn with
  | batch r k b data sent found content =>
      exact .batch r k b data (Int.le_trans sent (more r)) (found_grown before after k b grown found) content
  | ack r e old slave below short => exact .ack r e old slave (Int.le_trans below (more r)) short

def Sequencers.next (s : Sequencers) (r : Nat) : Int := (s.send r).nextEpochId

structure TurnInv (p : Deployment) (s : Sequencers) : Prop where
  tight : ∀ r, p.IsSlave r → (s.slave r).nextBatchEpochId ≤ s.next r + 1
  net : ∀ d ∈ s.net, InTurn p s.master.confirmed s.next d

theorem turn_inv_initial (p : Deployment) : TurnInv p (Sequencers.initial p) := by
  refine ⟨fun r _ => ?_, ?_⟩ <;> simp [Sequencers.initial, Sequencers.next]

theorem turn_inv_master (p : Deployment) (s : Sequencers) (master : Master) (inv : TurnInv p s)
    (grown : s.master.confirmed <+: master.confirmed) : TurnInv p { s with master := master } :=
  ⟨inv.tight, fun d member => in_turn_mono p _ _ _ _ d grown (fun _ => Int.le_refl _) (inv.net d member)⟩

theorem turn_inv_send (p : Deployment) (s : Sequencers) (r : Nat) (t : SendThread) (sent : List Datagram)
    (inv : TurnInv p s) (forward : (s.send r).nextEpochId ≤ t.nextEpochId)
    (fresh : ∀ d ∈ sent, InTurn p s.master.confirmed s.next d) :
    TurnInv p { s with send := Function.update s.send r t, net := s.net ++ sent } := by
  have more : ∀ q, s.next q ≤ Sequencers.next { s with send := Function.update s.send r t, net := s.net ++ sent } q := by
    intro q
    by_cases same : q = r
    · subst same
      simpa [Sequencers.next] using forward
    · simp [Sequencers.next, same]
  refine ⟨fun q replica => ?_, fun d member => ?_⟩
  · have tight := inv.tight q replica
    have later := more q
    simp only
    omega
  · refine in_turn_mono p _ _ _ _ d (List.prefix_refl _) more ?_
    rcases List.mem_append.mp member with earlier | last
    · exact inv.net d earlier
    · exact fresh d last

theorem send_step_in_turn (p : Deployment) (s : Sequencers) (accepts : Int → Int → Bool) (flag : Int) (r : Nat)
    (next : SendThread) (act : SendAct) (sent : List Datagram) (inv : SequencersInv p s) (replica : p.IsSlave r)
    (step : SendStep accepts flag s.master s.net r (s.send r) act next sent) :
    ∀ d ∈ sent, InTurn p s.master.confirmed s.next d := by
  cases step with
  | send pc flag =>
      have thread := inv.send r replica
      have current := thread.current
      have low := thread.next.1
      simp only [SendCurrent, pc] at current
      obtain ⟨same, length, b, found, content⟩ := current
      intro d member
      obtain rfl := List.mem_singleton.mp member
      rw [length, Int.toNat_natCast]
      exact .batch r _ b _ (by simp only [Sequencers.next]; omega) found content
  | spin | start | idle | pick | leave | read | abandon | receive | timeout => simp

theorem slave_turn (p : Deployment) (confirmed : List Batch) (next : Nat → Int) (r : Nat) (d : Datagram) (old : Buf)
    (turn : InTurn p confirmed next d) (mine : d.dst = .slaveSequencer r) :
    (udpSvReceiveMsg old batchLogSize d).2 = batchLogSize ∧ ∃ k : Nat, ∃ b, (k : Int) ≤ next r ∧ confirmed[k]? = some b ∧
      CarriesBatch (udpSvReceiveMsg old batchLogSize d).1 b.epochId b.wire := by
  cases turn with
  | ack => cases mine
  | batch q k b data sent found content =>
      obtain rfl : q = r := by
        injection mine with same
        omega
      exact ⟨by simp [udpSvReceiveMsg], k, b, sent, found, receive_batch old data (.slaveSequencer q) b content⟩

theorem receive_batch_in_turn (p : Deployment) (confirmed : List Batch) (turns : Nat → Int) (r k : Nat) (slave next : Slave)
    (b : Batch) (len : Int) (io : LogIo) (sent : List Datagram) (replica : p.IsSlave r) (below : k ≤ turns r)
    (tight : slave.nextBatchEpochId ≤ turns r + 1) (numbered : b.epochId.toInt = k)
    (content : CarriesBatch slave.recvMsg b.epochId b.wire)
    (done : receiveBatch r [] slave len io = .returned (next, sent)) :
    next.nextBatchEpochId ≤ turns r + 1 ∧ ∀ d ∈ sent, InTurn p confirmed turns d := by
  have short := b.epochId.toInt_lt
  have answer : ∀ old d, d ∈ [(⟨.masterSequencerFromSlaveSequencer r, (createAckBatchMsg r k old).1,
      (createAckBatchMsg r k old).2⟩ : Datagram)] → InTurn p confirmed turns d := by
    intro old d member
    cases List.mem_singleton.mp member
    exact .ack r k old replica below (by omega)
  simp only [receiveBatch, carries_batch_epoch slave.recvMsg b.epochId b.wire content, numbered] at done
  split at done
  · rename_i expected
    split at done
    · cases done
    · cases done
    · rename_i after wrote
      cases done
      have counted : after.nextBatchEpochId = slave.nextBatchEpochId + 1 := by
        unfold acceptBatch at wrote
        split at wrote
        · cases wrote
        · cases wrote
        · cases wrote
          rfl
      refine ⟨?_, answer _⟩
      change after.nextBatchEpochId ≤ turns r + 1
      omega
  · split at done
    · cases done
      exact ⟨tight, answer _⟩
    · cases done
      exact ⟨tight, by simp⟩

theorem slave_step_in_turn (p : Deployment) (s : Sequencers) (flag : Int) (r : Nat) (next : Slave) (act : SlaveAct)
    (sent : List Datagram) (method : p.exp = .conventionalMethod) (replica : p.IsSlave r) (inv : SequencersInv p s)
    (turn : TurnInv p s) (done : slaveSequencer p flag s.net r (s.slave r) act = .returned (next, sent)) :
    next.nextBatchEpochId ≤ s.next r + 1 ∧ ∀ d ∈ sent, InTurn p s.master.confirmed s.next d := by
  have tight := turn.tight r replica
  unfold slaveSequencer at done
  split at done
  · split at done <;> cases done <;> exact ⟨tight, by simp⟩
  · rename_i i io pc
    split at done
    · cases done
    · rename_i d found
      split at done
      · rename_i mine
        obtain ⟨_, k, b, below, confirmed, content⟩ :=
          slave_turn p _ _ r d (s.slave r).recvMsg (turn.net d (List.mem_of_getElem? found)) mine
        simp only [method, conventionalMethodRecieveBatchConnection, content.type, if_true] at done
        exact receive_batch_in_turn p s.master.confirmed s.next r k
          { s.slave r with pc := .loop, recvMsg := (udpSvReceiveMsg (s.slave r).recvMsg batchLogSize d).1 } next b _ io sent
          replica below tight (inv.master.epochs k b confirmed) content done
      · cases done
  · cases done

theorem turn_inv_slave (p : Deployment) (s : Sequencers) (r : Nat) (slave : Slave) (sent : List Datagram) (inv : TurnInv p s)
    (tight : slave.nextBatchEpochId ≤ s.next r + 1) (fresh : ∀ d ∈ sent, InTurn p s.master.confirmed s.next d) :
    TurnInv p { s with slave := Function.update s.slave r slave, net := s.net ++ sent } := by
  refine ⟨fun q replica => ?_, fun d member => ?_⟩
  · change (Function.update s.slave r slave q).nextBatchEpochId ≤ s.next q + 1
    by_cases same : q = r
    · subst same
      rw [Function.update_self]
      exact tight
    · rw [Function.update_of_ne same]
      exact inv.tight q replica
  · rcases List.mem_append.mp member with earlier | last
    · exact inv.net d earlier
    · exact fresh d last

theorem turn_inv_step (p : Deployment) (s t : Sequencers) (act : Int × SequencersAct) (method : p.exp = .conventionalMethod)
    (inv : SequencersInv p s) (turn : TurnInv p s) (taken : Sequencers.step p s act = some t) : TurnInv p t := by
  cases sequencers_step_cases p s t act taken with
  | epoch flag act master live step =>
      exact turn_inv_master p s master turn (master_inv_step flag s.master master act inv.master step).2
  | epochExit | addWriteTx | sendExit | takeMaster => exact turn_inv_master p s _ turn (List.prefix_refl _)
  | send flag r act thread sent live replica done =>
      obtain ⟨accepts, _, step⟩ := send_thread_sound p flag s.master s.net sent r (s.send r) thread act done
      exact turn_inv_send p s r thread sent turn (sequencers_inv_send p s flag r thread sent act replica inv done).2
        (send_step_in_turn p s accepts flag r thread act sent inv replica step)
  | slave flag r act slave sent replica done =>
      obtain ⟨tight, fresh⟩ := slave_step_in_turn p s flag r slave act sent method replica inv turn done
      exact turn_inv_slave p s r slave sent turn tight fresh
  | slaveExit flag r act replica done =>
      simpa using turn_inv_slave p s r { s.slave r with pc := .exited } [] turn (turn.tight r replica) (by simp)
  | takeSlave flag r batch rest replica took =>
      simpa using turn_inv_slave p s r { s.slave r with writeTxBuffer := rest } [] turn (turn.tight r replica) (by simp)

theorem turn_inv_reachable (p : Deployment) (s : Sequencers) (method : p.exp = .conventionalMethod)
    (reachable : (sequencers p).Reachable s) : TurnInv p s := by
  induction reachable with
  | init => exact turn_inv_initial p
  | step s t act before taken ih => exact turn_inv_step p s t act method (sequencers_inv_reachable p s before) ih taken

def Datagram.peerAck (d : Datagram) : Bool :=
  checkMsg d.data .ackBatchMessage && (d.dst matches .slaveSequencer _)

theorem in_turn_not_peer (p : Deployment) (confirmed : List Batch) (next : Nat → Int) (d : Datagram)
    (turn : InTurn p confirmed next d) : d.peerAck = false := by
  cases turn with
  | batch r k b data sent found content =>
      simp [Datagram.peerAck, check_msg_other data .batchMessage .ackBatchMessage content.type (by decide)]
  | ack r e old slave below => simp [Datagram.peerAck]

structure StopAndWait (s : Sequencers) (r : Nat) : Prop where
  behind : (s.send r).nextEpochId ≤ (s.slave r).nextBatchEpochId
  tight : (s.slave r).nextBatchEpochId ≤ (s.send r).nextEpochId + 1
  acks : ∀ d ∈ s.net, checkMsg d.data .ackBatchMessage = true → (getInfoFromAckBatchMsg d.data).1 = r →
    (getInfoFromAckBatchMsg d.data).2 ≤ (s.send r).nextEpochId
  accepts : ∀ d ∈ s.net, d.dst = .masterSequencerFromSlaveSequencer r → (s.send r).pc = .waiting →
    ((getInfoFromAckBatchMsg d.data).2 = (s.send r).sendEpochId ↔ (getInfoFromAckBatchMsg d.data).2 ≥ (s.send r).sendEpochId)

theorem in_turn_ack (p : Deployment) (confirmed : List Batch) (next : Nat → Int) (d : Datagram)
    (turn : InTurn p confirmed next d) (ack : checkMsg d.data .ackBatchMessage = true) :
    ∃ r e : Nat, p.IsSlave r ∧ (e : Int) ≤ next r ∧ e < 32768 ∧ d.dst = .masterSequencerFromSlaveSequencer r ∧
      getInfoFromAckBatchMsg d.data = ((r : Int), (e : Int)) := by
  have replicas := p.replicasFit
  cases turn with
  | batch r k b data sent found content => cases check_msg_unique data .batchMessage .ackBatchMessage content.type ack
  | ack r e old slave below short =>
      have bound := slave.2
      exact ⟨r, e, slave, below, short, rfl, ack_batch_round_trip r e old ⟨by omega, by omega⟩ ⟨by omega, by omega⟩⟩

theorem in_turn_to_master (p : Deployment) (confirmed : List Batch) (next : Nat → Int) (d : Datagram) (r : Nat)
    (turn : InTurn p confirmed next d) (mine : d.dst = .masterSequencerFromSlaveSequencer r) :
    checkMsg d.data .ackBatchMessage = true := by
  cases turn with
  | batch => cases mine
  | ack q e old => exact ack_batch_check q e old

theorem stop_and_wait (p : Deployment) (s : Sequencers) (r : Nat) (replica : p.IsSlave r) (inv : SequencersInv p s)
    (turn : TurnInv p s) : StopAndWait s r := by
  have bound := (inv.send r replica).next.2
  have count := (inv.slave r replica).count
  refine ⟨?_, turn.tight r replica, ?_, ?_⟩
  · simp only [Sequencers.accepted] at bound
    omega
  · intro d member ack own
    obtain ⟨q, e, _, below, _, _, decoded⟩ := in_turn_ack p _ _ d (turn.net d member) ack
    rw [decoded] at own ⊢
    obtain rfl : q = r := Int.ofNat_inj.mp own
    exact below
  · intro d member mine waiting
    have current := (inv.send r replica).current
    simp only [SendCurrent, waiting] at current
    obtain ⟨q, e, _, below, _, dst, decoded⟩ :=
      in_turn_ack p _ _ d (turn.net d member) (in_turn_to_master p _ _ d r (turn.net d member) mine)
    obtain rfl : q = r := by
      rw [mine] at dst
      injection dst with same
      omega
    simp only [Sequencers.next] at below
    rw [decoded, current.1]
    simp only
    omega

theorem receive_ack_same (p : Deployment) (s : Sequencers) (r : Nat) (d : Datagram) (replica : p.IsSlave r)
    (inv : SequencersInv p s) (turn : TurnInv p s) (member : d ∈ s.net)
    (mine : d.dst = .masterSequencerFromSlaveSequencer r) (waiting : (s.send r).pc = .waiting) :
    receiveAck (fun got sent => got ≥ sent) (s.send r) d = receiveAck (fun got sent => got == sent) (s.send r) d := by
  have accepts := (stop_and_wait p s r replica inv turn).accepts d member mine waiting
  cases turn.net d member with
  | batch => cases mine
  | ack q e old slave below short =>
      have replicas := p.replicasFit
      have bound := slave.2
      rw [ack_batch_round_trip q e old ⟨by omega, by omega⟩ ⟨by omega, by omega⟩] at accepts
      obtain ⟨type, info⟩ :=
        receive_ack_batch p (s.send r).recvMsg old (.masterSequencerFromSlaveSequencer q) q e slave short
      have same : decide ((e : Int) ≥ (s.send r).sendEpochId) = ((e : Int) == (s.send r).sendEpochId) := by
        rw [Bool.eq_iff_iff, decide_eq_true_iff, beq_iff_eq]
        exact accepts.symm
      simp only [receiveAck, type, info, if_true, same]

-- The run with the proposed method that goes along: everything the threads hold
-- is the same, and the net also has the ACKs among the slaves.
structure Matches (s t : Sequencers) : Prop where
  master : t.master = s.master
  send : t.send = s.send
  slave : t.slave = s.slave
  net : t.net.filter (fun d => !d.peerAck) = s.net

inductive SameAct (s t : Sequencers) : SequencersAct → SequencersAct → Prop where
  | same (act : SequencersAct) (quiet : act.delivered = none) : SameAct s t act act
  | send (r i j : Nat) (d : Datagram) (found : s.net[i]? = some d) (there : t.net[j]? = some d)
      (kind : d.peerAck = false) : SameAct s t (.send r (.receive i)) (.send r (.receive j))
  | slave (r i j : Nat) (io : LogIo) (d : Datagram) (found : s.net[i]? = some d) (there : t.net[j]? = some d)
      (kind : d.peerAck = false) : SameAct s t (.slave r (.receive i io)) (.slave r (.receive j io))

structure StepByStep (x y : Sequencers × Int × SequencersAct) : Prop where
  states : Matches x.1 y.1
  flag : y.2.1 = x.2.1
  act : SameAct x.1 y.1 x.2.2 y.2.2

theorem matches_over (s t : Sequencers) (states : Matches s t) :
    ∃ net, t = { s with net := net } ∧ net.filter (fun d => !d.peerAck) = s.net := by
  obtain ⟨master, send, slave, net⟩ := states
  obtain ⟨m, th, sl, n⟩ := t
  simp only at master send slave net
  subst master send slave
  exact ⟨n, rfl, net⟩

theorem found_over (small large : List Datagram) (i : Nat) (d : Datagram)
    (net : large.filter (fun d => !d.peerAck) = small) (found : small[i]? = some d) :
    ∃ j : Nat, large[j]? = some d ∧ d.peerAck = false := by
  have member := List.mem_of_getElem? found
  rw [← net, List.mem_filter] at member
  obtain ⟨j, there⟩ := List.mem_iff_getElem?.mp member.1
  exact ⟨j, there, by simpa using member.2⟩

theorem filter_sent (small large sent copies : List Datagram) (net : large.filter (fun d => !d.peerAck) = small)
    (own : ∀ d ∈ sent, d.peerAck = false) (peers : ∀ d ∈ copies, d.peerAck = true) :
    (large ++ (sent ++ copies)).filter (fun d => !d.peerAck) = small ++ sent := by
  have kept : sent.filter (fun d => !d.peerAck) = sent := List.filter_eq_self.mpr (fun d member => by simp [own d member])
  have lost : copies.filter (fun d => !d.peerAck) = [] :=
    List.filter_eq_nil_iff.mpr (fun d member => by simp [peers d member])
  rw [List.filter_append, List.filter_append, net, kept, lost, List.append_nil]

theorem local_step (p : Deployment) (exp other : ExpT) (s t : Sequencers) (net : List Datagram) (flag : Int)
    (act : SequencersAct) (send : ∀ r a, act ≠ .send r a) (slave : ∀ r a, act ≠ .slave r a)
    (taken : Sequencers.step (p.using exp) s (flag, act) = some t) :
    Sequencers.step (p.using other) { s with net := net } (flag, act) = some { t with net := net } ∧ t.net = s.net := by
  cases act with
  | send r a => exact absurd rfl (send r a)
  | slave r a => exact absurd rfl (slave r a)
  | epoch a =>
      simp only [Sequencers.step] at taken ⊢
      split at taken
      · cases taken
      · rename_i live
        rw [if_neg live]
        split at taken <;> cases taken <;> exact ⟨rfl, rfl⟩
  | addWriteTx tx =>
      simp only [Sequencers.step] at taken ⊢
      split at taken
      · cases taken
      · rename_i live
        rw [if_neg live]
        cases taken
        exact ⟨rfl, rfl⟩
  | takeBatch r =>
      simp only [Sequencers.step] at taken ⊢
      split at taken
      · rename_i master
        rw [if_pos master]
        split at taken
        · cases taken
        · rename_i live
          rw [if_neg live]
          obtain ⟨pair, took, rfl⟩ := Option.map_eq_some_iff.mp taken
          rw [took]
          exact ⟨rfl, rfl⟩
      · rename_i master
        rw [if_neg master]
        split at taken
        · cases taken
        · rename_i live
          obtain ⟨pair, took, rfl⟩ := Option.map_eq_some_iff.mp taken
          rw [if_neg (show ¬ (¬ (p.using other).IsSlave r ∨ (s.slave r).pc = .aborted ∨ (s.slave r).pc = .exited) from live),
            took]
          exact ⟨rfl, rfl⟩

theorem send_over (accepts test : Int → Int → Bool) (flag : Int) (m : Master) (small large : List Datagram) (r : Nat)
    (t : SendThread) (act : SendAct) (other : ∀ i, act ≠ .receive i) :
    sendBatchConnection test flag m large r t act = sendBatchConnection accepts flag m small r t act := by
  cases act with
  | receive i => exact absurd rfl (other i)
  | barrier | loop | read | send | timeout => cases pc : t.pc <;> simp only [sendBatchConnection, pc]

theorem send_matched (p : Deployment) (s : Sequencers) (large : List Datagram) (flag : Int) (r : Nat) (act : SendAct)
    (replica : p.IsSlave r) (inv : SequencersInv p s) (turn : TurnInv p s)
    (net : large.filter (fun d => !d.peerAck) = s.net)
    (moves : conventionalMethodSendBatchConnection flag s.master s.net r (s.send r) act ≠ .blocked) :
    ∃ act', SameAct s { s with net := large } (.send r act) (.send r act') ∧
      proposedMethodSendBatchConnection flag s.master large r (s.send r) act' =
        conventionalMethodSendBatchConnection flag s.master s.net r (s.send r) act := by
  cases act with
  | barrier | loop | read | send | timeout =>
      exact ⟨_, .same _ rfl, send_over _ _ flag s.master s.net large r (s.send r) _ (by simp)⟩
  | receive i =>
      simp only [conventionalMethodSendBatchConnection, sendBatchConnection] at moves ⊢
      cases pc : (s.send r).pc with
      | barrier | loop | reading | sending | returned => simp [pc] at moves
      | waiting =>
          simp only [pc] at moves ⊢
          cases found : s.net[i]? with
          | none => simp [found] at moves
          | some d =>
              simp only [found] at moves ⊢
              by_cases mine : d.dst = .masterSequencerFromSlaveSequencer r
              · obtain ⟨j, there, kind⟩ := found_over s.net large i d net found
                refine ⟨.receive j, .send r i j d found there kind, ?_⟩
                simp only [proposedMethodSendBatchConnection, sendBatchConnection, pc, there, if_pos mine]
                rw [receive_ack_same p s r d replica inv turn (List.mem_of_getElem? found) mine pc]
              · simp [mine] at moves

theorem peer_copies (r : Nat) (e : Int) (old : Buf) (peers : List Nat) :
    ∀ d ∈ peers.map (fun id : Nat => (⟨.slaveSequencer id, (createAckBatchMsg r e old).1,
      (createAckBatchMsg r e old).2⟩ : Datagram)), d.peerAck = true := by
  intro d member
  obtain ⟨q, _, rfl⟩ := List.mem_map.mp member
  simp [Datagram.peerAck, ack_batch_check]

theorem receive_batch_peers (r : Nat) (peers : List Nat) (slave : Slave) (len : Int) (io : LogIo) :
    match receiveBatch r [] slave len io with
    | .returned (next, sent) => ∃ copies, receiveBatch r peers slave len io = .returned (next, sent ++ copies) ∧
        ∀ d ∈ copies, d.peerAck = true
    | .exited => receiveBatch r peers slave len io = .exited
    | .blocked => receiveBatch r peers slave len io = .blocked := by
  unfold receiveBatch
  simp only
  by_cases expected : getEpochIdFromBatchMeg slave.recvMsg = slave.nextBatchEpochId
  · simp only [if_pos expected]
    cases acceptBatch slave len (getEpochIdFromBatchMeg slave.recvMsg) io with
    | exited => rfl
    | blocked => rfl
    | returned next => exact ⟨_, rfl, peer_copies r _ _ peers⟩
  · simp only [if_neg expected]
    by_cases old : getEpochIdFromBatchMeg slave.recvMsg < slave.nextBatchEpochId
    · simp only [if_pos old]
      exact ⟨[], by rw [List.append_nil], by simp⟩
    · simp only [if_neg old]
      exact ⟨[], by rw [List.append_nil], by simp⟩

theorem slave_matched (p : Deployment) (s : Sequencers) (large : List Datagram) (flag : Int) (r : Nat) (act : SlaveAct)
    (turn : TurnInv (p.using .conventionalMethod) s) (net : large.filter (fun d => !d.peerAck) = s.net) :
    match slaveSequencer (p.using .conventionalMethod) flag s.net r (s.slave r) act with
    | .returned (next, sent) => ∃ act' copies, SameAct s { s with net := large } (.slave r act) (.slave r act') ∧
        slaveSequencer (p.using .proposedMethod) flag large r (s.slave r) act' = .returned (next, sent ++ copies) ∧
        ∀ d ∈ copies, d.peerAck = true
    | .exited => ∃ act', SameAct s { s with net := large } (.slave r act) (.slave r act') ∧
        slaveSequencer (p.using .proposedMethod) flag large r (s.slave r) act' = .exited
    | .blocked => True := by
  cases act with
  | loop =>
      unfold slaveSequencer
      cases pc : (s.slave r).pc with
      | loop =>
          simp only
          by_cases zero : flag = 0
          · simp only [if_pos zero]
            exact ⟨.loop, [], .same _ rfl, rfl, by simp⟩
          · simp only [if_neg zero]
            exact ⟨.loop, [], .same _ rfl, rfl, by simp⟩
      | receiving | returned | aborted | exited => exact trivial
  | receive i io =>
      unfold slaveSequencer
      cases pc : (s.slave r).pc with
      | loop | returned | aborted | exited => exact trivial
      | receiving =>
          simp only
          cases found : s.net[i]? with
          | none => exact trivial
          | some d =>
              simp only
              by_cases mine : d.dst = .slaveSequencer r
              · obtain ⟨j, there, kind⟩ := found_over s.net large i d net found
                obtain ⟨_, k, b, _, _, content⟩ :=
                  slave_turn _ _ _ r d (s.slave r).recvMsg (turn.net d (List.mem_of_getElem? found)) mine
                have same := receive_batch_peers r ((p.using .proposedMethod).regionPeers r)
                  { s.slave r with pc := .loop, recvMsg := (udpSvReceiveMsg (s.slave r).recvMsg batchLogSize d).1 }
                  (udpSvReceiveMsg (s.slave r).recvMsg batchLogSize d).2 io
                have act : SameAct s { s with net := large } (.slave r (.receive i io)) (.slave r (.receive j io)) :=
                  .slave r i j io d found there kind
                simp only [if_pos mine, Deployment.using, conventionalMethodRecieveBatchConnection, content.type, if_true]
                  at same ⊢
                split at same
                · obtain ⟨copies, also, peers⟩ := same
                  refine ⟨.receive j io, copies, act, ?_, peers⟩
                  simp only [there, if_pos mine, proposedMethodRecieveBatchConnection, content.type, if_true]
                  exact also
                · refine ⟨.receive j io, act, ?_⟩
                  simp only [there, if_pos mine, proposedMethodRecieveBatchConnection, content.type, if_true]
                  exact same
                · exact trivial
              · simp only [if_neg mine]

theorem matched_step (p : Deployment) (s t next : Sequencers) (act : Int × SequencersAct)
    (inv : SequencersInv (p.using .conventionalMethod) s) (turn : TurnInv (p.using .conventionalMethod) s)
    (states : Matches s t) (taken : Sequencers.step (p.using .conventionalMethod) s act = some next) :
    ∃ act' next', Sequencers.step (p.using .proposedMethod) t act' = some next' ∧ Matches next next' ∧
      StepByStep (s, act) (t, act') := by
  obtain ⟨large, rfl, net⟩ := matches_over s t states
  obtain ⟨flag, act⟩ := act
  have after := turn_inv_step _ s next (flag, act) rfl inv turn taken
  have quiet : act.delivered = none → (∀ r a, act ≠ .send r a) → (∀ r a, act ≠ .slave r a) →
      ∃ act' next', Sequencers.step (p.using .proposedMethod) { s with net := large } act' = some next' ∧
        Matches next next' ∧ StepByStep (s, (flag, act)) ({ s with net := large }, act') := by
    intro none send slave
    obtain ⟨moved, kept⟩ := local_step p .conventionalMethod .proposedMethod s next large flag act send slave taken
    exact ⟨(flag, act), _, moved, ⟨rfl, rfl, rfl, by rw [kept]; exact net⟩, states, rfl, .same act none⟩
  cases sequencers_step_cases _ s next (flag, act) taken with
  | epoch | epochExit | addWriteTx | takeMaster | takeSlave => exact quiet rfl (by simp) (by simp)
  | send flag r act thread sent live replica done =>
      obtain ⟨act', same, moved⟩ := send_matched _ s large flag r act replica inv turn net (by
        rw [show conventionalMethodSendBatchConnection flag s.master s.net r (s.send r) act = _ from done]
        simp)
      have own : ∀ d ∈ sent, d.peerAck = false := fun d member =>
        in_turn_not_peer _ _ _ d (after.net d (List.mem_append_right _ member))
      have kept := filter_sent s.net large sent [] net own (by simp)
      rw [List.append_nil] at kept
      refine ⟨(flag, .send r act'), { s with send := Function.update s.send r thread, net := large ++ sent }, ?_,
        ⟨rfl, rfl, rfl, kept⟩, states, rfl, same⟩
      exact send_moves (p.using .proposedMethod) { s with net := large } flag r act' thread sent live replica
        (moved.trans done)
  | sendExit flag r act live replica done =>
      obtain ⟨act', same, moved⟩ := send_matched _ s large flag r act replica inv turn net (by
        rw [show conventionalMethodSendBatchConnection flag s.master s.net r (s.send r) act = _ from done]
        simp)
      refine ⟨(flag, .send r act'), { s with master := { s.master with exited := true }, net := large }, ?_,
        ⟨rfl, rfl, rfl, net⟩, states, rfl, same⟩
      exact send_exits (p.using .proposedMethod) { s with net := large } flag r act' live replica (moved.trans done)
  | slave flag r act slave sent replica done =>
      have matched := slave_matched p s large flag r act turn net
      rw [done] at matched
      obtain ⟨act', copies, same, moved, peers⟩ := matched
      have own : ∀ d ∈ sent, d.peerAck = false := fun d member =>
        in_turn_not_peer _ _ _ d (after.net d (List.mem_append_right _ member))
      refine ⟨(flag, .slave r act'),
        { s with slave := Function.update s.slave r slave, net := large ++ (sent ++ copies) }, ?_,
        ⟨rfl, rfl, rfl, filter_sent s.net large sent copies net own peers⟩, states, rfl, same⟩
      exact slave_moves (p.using .proposedMethod) { s with net := large } flag r act' slave _ replica moved
  | slaveExit flag r act replica done =>
      have matched := slave_matched p s large flag r act turn net
      rw [done] at matched
      obtain ⟨act', same, moved⟩ := matched
      refine ⟨(flag, .slave r act'),
        { s with slave := Function.update s.slave r { s.slave r with pc := .exited }, net := large }, ?_,
        ⟨rfl, rfl, rfl, net⟩, states, rfl, same⟩
      exact slave_exits (p.using .proposedMethod) { s with net := large } flag r act' replica moved

theorem conventional_simulates (p : Deployment) : Machine.Simulates (sequencers (p.using .conventionalMethod))
    (sequencers (p.using .proposedMethod)) Matches StepByStep where
  init := ⟨rfl, rfl, rfl, rfl⟩
  step := by
    intro s t act next reachable states taken
    exact matched_step p s t next act (sequencers_inv_reachable _ s reachable) (turn_inv_reachable _ s rfl reachable)
      states taken

theorem conventional_refines_proposed (p : Deployment) :
    (∀ s, (sequencers (p.using .conventionalMethod)).Reachable s → ∀ r, p.IsSlave r → StopAndWait s r) ∧
      ∀ run s, (sequencers (p.using .conventionalMethod)).Trace run s →
        ∃ run' t, (sequencers (p.using .proposedMethod)).Trace run' t ∧ Matches s t ∧ List.Forall₂ StepByStep run run' := by
  refine ⟨fun s reachable r replica => ?_, fun run s trace => ?_⟩
  · exact stop_and_wait (p.using .conventionalMethod) s r replica (sequencers_inv_reachable _ s reachable)
      (turn_inv_reachable _ s rfl reachable)
  · exact Machine.simulates_trace _ _ _ _ (conventional_simulates p) run s trace

theorem conventional_refines_proposed_first_batch : ∃ s, afterFirstBatch .conventionalMethod = some s ∧ StopAndWait s 1 ∧
    ∃ t, (sequencers (configuration .proposedMethod)).Reachable t ∧ Matches s t := by
  have ran : (afterFirstBatch .conventionalMethod).isSome = true := by decide +kernel
  obtain ⟨s, ran⟩ := Option.isSome_iff_exists.mp ran
  have reachable := after_first_batch_reachable .conventionalMethod s ran
  obtain ⟨run, trace⟩ := Machine.reachable_trace _ s reachable
  obtain ⟨stop, runs⟩ := conventional_refines_proposed (configuration .conventionalMethod)
  obtain ⟨run', t, also, states, _⟩ := runs run s trace
  exact ⟨s, ran, stop s reachable 1 (by decide), t, Machine.trace_reachable _ run' t also, states⟩

end EpochReplication
