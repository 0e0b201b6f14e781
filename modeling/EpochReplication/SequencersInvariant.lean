import EpochReplication.SlaveInvariant

set_option autoImplicit false

namespace EpochReplication

def Sequencers.accepted (s : Sequencers) (r : Nat) : Nat := (s.slave r).accepted

structure SequencersInv (p : Deployment) (s : Sequencers) : Prop where
  master : MasterInv s.master
  send : ∀ r, p.IsSlave r → SendInv s.master.confirmed (s.accepted r) (s.send r)
  slave : ∀ r, p.IsSlave r → SlaveInv s.master.confirmed (s.slave r)
  net : ∀ d ∈ s.net, Carried p s.master.confirmed s.accepted d

theorem sequencers_inv_initial (p : Deployment) : SequencersInv p (Sequencers.initial p) := by
  refine ⟨master_inv_initial p, fun r _ => ⟨⟨Int.le_refl _, Int.le_refl _⟩, trivial⟩,
    fun r _ => ⟨rfl, ?_, ?_, by simp [Sequencers.initial]⟩, ?_⟩
  · simp [Sequencers.initial]
  · simp [Sequencers.initial]
  · simp [Sequencers.initial]

theorem accepted_fits (p : Deployment) (s : Sequencers) (inv : SequencersInv p s) (r : Nat) (slave : p.IsSlave r) :
    s.accepted r ≤ 32768 :=
  Nat.le_trans (slave_behind _ _ (inv.slave r slave)) inv.master.fits

theorem sequencers_inv_master (p : Deployment) (s : Sequencers) (master : Master) (inv : SequencersInv p s)
    (kept : MasterInv master) (grown : s.master.confirmed <+: master.confirmed) :
    SequencersInv p { s with master := master } :=
  ⟨kept,
    fun r slave => send_inv_mono _ _ _ _ _ grown (Nat.le_refl _) (inv.send r slave),
    fun r slave => slave_inv_mono _ _ _ grown (inv.slave r slave),
    fun d member => carried_mono p _ _ _ _ d grown (fun _ => Nat.le_refl _) (inv.net d member)⟩

theorem sequencers_inv_slave (p : Deployment) (s : Sequencers) (r : Nat) (slave : Slave) (sent : List Datagram)
    (inv : SequencersInv p s) (handled : Handled p s.master.confirmed s.accepted r (s.slave r) slave sent) :
    SequencersInv p { s with slave := Function.update s.slave r slave, net := s.net ++ sent } := by
  have counted : Sequencers.accepted { s with slave := Function.update s.slave r slave, net := s.net ++ sent } =
      Function.update s.accepted r slave.accepted := by
    funext q
    by_cases same : q = r
    · subst same
      simp [Sequencers.accepted]
    · simp [Sequencers.accepted, same]
  have more : ∀ q, s.accepted q ≤ Function.update s.accepted r slave.accepted q := by
    intro q
    by_cases same : q = r
    · subst same
      rw [Function.update_self]
      exact handled.more
    · simp [same]
  refine ⟨inv.master, ?_, ?_, ?_⟩
  · intro q replica
    rw [counted]
    exact send_inv_mono _ _ _ _ _ (List.prefix_refl _) (more q) (inv.send q replica)
  · intro q replica
    by_cases same : q = r
    · subst same
      simpa using handled.inv
    · simpa [same] using inv.slave q replica
  · rw [counted]
    intro d member
    rcases List.mem_append.mp member with earlier | fresh
    · exact carried_mono p _ _ _ _ d (List.prefix_refl _) more (inv.net d earlier)
    · exact handled.sent d fresh

theorem send_thread_sound (p : Deployment) (systemFinishRequest : Int) (m : Master) (net sent : List Datagram) (r : Nat)
    (t next : SendThread) (act : SendAct)
    (done : sendThread p systemFinishRequest m net r t act = .returned (next, sent)) :
    ∃ accepts : Int → Int → Bool, (∀ got sent, accepts got sent = true → sent ≤ got) ∧
      SendStep accepts systemFinishRequest m net r t act next sent := by
  cases method : p.exp with
  | proposedMethod =>
      simp only [sendThread, method] at done
      refine ⟨_, ?_, send_step_of_returned _ systemFinishRequest m net sent r t next act done⟩
      intro got sent passes
      simpa using passes
  | conventionalMethod =>
      simp only [sendThread, method] at done
      refine ⟨_, ?_, send_step_of_returned _ systemFinishRequest m net sent r t next act done⟩
      intro got sent passes
      exact (Int.le_of_eq (eq_of_beq passes).symm)
  | tcpMethod =>
      simp only [sendThread, method] at done
      cases done

theorem sequencers_inv_send (p : Deployment) (s : Sequencers) (systemFinishRequest : Int) (r : Nat) (next : SendThread)
    (sent : List Datagram) (act : SendAct) (replica : p.IsSlave r) (inv : SequencersInv p s)
    (done : sendThread p systemFinishRequest s.master s.net r (s.send r) act = .returned (next, sent)) :
    SequencersInv p { s with send := Function.update s.send r next, net := s.net ++ sent } ∧
      (s.send r).nextEpochId ≤ next.nextEpochId := by
  obtain ⟨accepts, sound, step⟩ := send_thread_sound p systemFinishRequest s.master s.net sent r (s.send r) next act done
  obtain ⟨kept, forward, fresh⟩ := send_inv_step p accepts systemFinishRequest s.master s.accepted s.net sent r
    (s.send r) next act sound (accepted_fits p s inv r replica) inv.master inv.net (inv.send r replica) step
  refine ⟨⟨inv.master, ?_, inv.slave, ?_⟩, forward⟩
  · intro q other
    change SendInv s.master.confirmed (s.accepted q) (Function.update s.send r next q)
    by_cases same : q = r
    · subst same
      rw [Function.update_self]
      exact kept
    · rw [Function.update_of_ne same]
      exact inv.send q other
  · intro d member
    rcases List.mem_append.mp member with earlier | last
    · exact inv.net d earlier
    · exact fresh d last

inductive SequencersStep (p : Deployment) (s : Sequencers) : Int × SequencersAct → Sequencers → Prop where
  | epoch (systemFinishRequest : Int) (act : EpochAct) (master : Master) (live : s.master.exited = false)
      (step : EpochStep systemFinishRequest s.master act master) :
      SequencersStep p s (systemFinishRequest, .epoch act) { s with master := master }
  | epochExit (systemFinishRequest : Int) (act : EpochAct) (live : s.master.exited = false)
      (done : masterSequencerStartup systemFinishRequest s.master act = .exited) :
      SequencersStep p s (systemFinishRequest, .epoch act) { s with master := { s.master with exited := true } }
  | addWriteTx (systemFinishRequest : Int) (tx : Tx) (live : s.master.exited = false) :
      SequencersStep p s (systemFinishRequest, .addWriteTx tx)
        { s with master := { s.master with batch := (sequencerAddWriteTxToBatch s.master.batch tx).1 } }
  | send (systemFinishRequest : Int) (r : Nat) (act : SendAct) (thread : SendThread) (sent : List Datagram)
      (live : s.master.exited = false) (replica : p.IsSlave r)
      (done : sendThread p systemFinishRequest s.master s.net r (s.send r) act = .returned (thread, sent)) :
      SequencersStep p s (systemFinishRequest, .send r act)
        { s with send := Function.update s.send r thread, net := s.net ++ sent }
  | sendExit (systemFinishRequest : Int) (r : Nat) (act : SendAct) (live : s.master.exited = false)
      (replica : p.IsSlave r) (done : sendThread p systemFinishRequest s.master s.net r (s.send r) act = .exited) :
      SequencersStep p s (systemFinishRequest, .send r act) { s with master := { s.master with exited := true } }
  | slave (systemFinishRequest : Int) (r : Nat) (act : SlaveAct) (slave : Slave) (sent : List Datagram)
      (replica : p.IsSlave r)
      (done : slaveSequencer p systemFinishRequest s.net r (s.slave r) act = .returned (slave, sent)) :
      SequencersStep p s (systemFinishRequest, .slave r act)
        { s with slave := Function.update s.slave r slave, net := s.net ++ sent }
  | slaveExit (systemFinishRequest : Int) (r : Nat) (act : SlaveAct) (replica : p.IsSlave r)
      (done : slaveSequencer p systemFinishRequest s.net r (s.slave r) act = .exited) :
      SequencersStep p s (systemFinishRequest, .slave r act)
        { s with slave := Function.update s.slave r { s.slave r with pc := .exited } }
  | takeMaster (systemFinishRequest : Int) (batch : Batch) (rest : Fifo Batch) (live : s.master.exited = false)
      (took : s.master.writeTxBuffer.tryTake = some (batch, rest)) :
      SequencersStep p s (systemFinishRequest, .takeBatch 0)
        { s with master := { s.master with writeTxBuffer := rest } }
  | takeSlave (systemFinishRequest : Int) (r : Nat) (batch : Batch) (rest : Fifo Batch) (replica : p.IsSlave r)
      (took : (s.slave r).writeTxBuffer.tryTake = some (batch, rest)) :
      SequencersStep p s (systemFinishRequest, .takeBatch r)
        { s with slave := Function.update s.slave r { s.slave r with writeTxBuffer := rest } }

theorem sequencers_step_cases (p : Deployment) (s t : Sequencers) (act : Int × SequencersAct)
    (taken : Sequencers.step p s act = some t) : SequencersStep p s act t := by
  obtain ⟨systemFinishRequest, act⟩ := act
  cases act with
  | epoch act =>
      simp only [Sequencers.step] at taken
      split at taken
      · cases taken
      · rename_i live
        split at taken
        · rename_i master done
          cases taken
          exact .epoch systemFinishRequest act master (by simpa using live)
            (epoch_step_of_returned systemFinishRequest s.master master act done)
        · rename_i done
          cases taken
          exact .epochExit systemFinishRequest act (by simpa using live) done
        · cases taken
  | addWriteTx tx =>
      simp only [Sequencers.step] at taken
      split at taken
      · cases taken
      · rename_i live
        cases taken
        exact .addWriteTx systemFinishRequest tx (by simpa using live)
  | send r act =>
      simp only [Sequencers.step] at taken
      split at taken
      · cases taken
      · rename_i blocked
        obtain ⟨live, replica⟩ := not_or.mp blocked
        split at taken
        · rename_i thread sent done
          cases taken
          exact .send systemFinishRequest r act thread sent (by simpa using live) (not_not.mp replica) done
        · rename_i done
          cases taken
          exact .sendExit systemFinishRequest r act (by simpa using live) (not_not.mp replica) done
        · cases taken
  | slave r act =>
      simp only [Sequencers.step] at taken
      split at taken
      · cases taken
      · rename_i replica
        split at taken
        · rename_i slave sent done
          cases taken
          exact .slave systemFinishRequest r act slave sent (not_not.mp replica) done
        · rename_i done
          cases taken
          exact .slaveExit systemFinishRequest r act (not_not.mp replica) done
        · cases taken
  | takeBatch r =>
      simp only [Sequencers.step] at taken
      split at taken
      · rename_i master
        subst master
        split at taken
        · cases taken
        · rename_i live
          obtain ⟨⟨batch, rest⟩, took, rfl⟩ := Option.map_eq_some_iff.mp taken
          exact .takeMaster systemFinishRequest batch rest (by simpa using live) took
      · split at taken
        · cases taken
        · rename_i blocked
          obtain ⟨⟨batch, rest⟩, took, rfl⟩ := Option.map_eq_some_iff.mp taken
          exact .takeSlave systemFinishRequest r batch rest (not_not.mp (not_or.mp blocked).1) took

theorem master_inv_exit (m : Master) (inv : MasterInv m) : MasterInv { m with exited := true } :=
  ⟨inv.determined, inv.fits, inv.epochs, inv.logged, inv.position⟩

theorem sequencers_inv_step (p : Deployment) (s t : Sequencers) (act : Int × SequencersAct) (inv : SequencersInv p s)
    (taken : Sequencers.step p s act = some t) : SequencersInv p t := by
  cases sequencers_step_cases p s t act taken with
  | epoch systemFinishRequest act master live step =>
      obtain ⟨kept, grown⟩ := master_inv_step systemFinishRequest s.master master act inv.master step
      exact sequencers_inv_master p s master inv kept grown
  | epochExit systemFinishRequest act live done =>
      exact sequencers_inv_master p s _ inv (master_inv_exit s.master inv.master) (List.prefix_refl _)
  | addWriteTx systemFinishRequest tx live =>
      exact sequencers_inv_master p s _ inv (master_inv_add s.master tx inv.master) (List.prefix_refl _)
  | send systemFinishRequest r act thread sent live replica done =>
      exact (sequencers_inv_send p s systemFinishRequest r thread sent act replica inv done).1
  | sendExit systemFinishRequest r act live replica done =>
      exact sequencers_inv_master p s _ inv (master_inv_exit s.master inv.master) (List.prefix_refl _)
  | slave systemFinishRequest r act slave sent replica done =>
      exact sequencers_inv_slave p s r slave sent inv
        (slave_inv_step p systemFinishRequest s.master.confirmed s.accepted s.net sent r (s.slave r) slave act replica
          (accepted_fits p s inv) rfl inv.master.epochs (inv.slave r replica) inv.net done)
  | slaveExit systemFinishRequest r act replica done =>
      have before := inv.slave r replica
      have gone := sequencers_inv_slave p s r { s.slave r with pc := .exited } [] inv
        ⟨⟨before.count, before.delivered, before.logged, by simp⟩, Nat.le_refl _, by simp⟩
      simpa using gone
  | takeMaster systemFinishRequest batch rest live took =>
      obtain ⟨_, same, _⟩ := Fifo.try_take_some _ _ _ took
      refine sequencers_inv_master p s _ inv ⟨inv.master.determined, inv.master.fits, inv.master.epochs,
        inv.master.logged, ?_⟩ (List.prefix_refl _)
      have position := inv.master.position
      simp only [EpochInv, same] at position ⊢
      exact position
  | takeSlave systemFinishRequest r batch rest replica took =>
      obtain ⟨_, same, _⟩ := Fifo.try_take_some _ _ _ took
      have before := inv.slave r replica
      have counted : Slave.accepted { s.slave r with writeTxBuffer := rest } = (s.slave r).accepted :=
        congrArg List.length same
      have rested := sequencers_inv_slave p s r { s.slave r with writeTxBuffer := rest } [] inv
        ⟨⟨by rw [counted]; exact before.count, by rw [same]; exact before.delivered,
          by rw [counted]; exact before.logged, before.running⟩, Nat.le_of_eq counted.symm, by simp⟩
      simpa using rested

theorem sequencers_inv_reachable (p : Deployment) (s : Sequencers) (reachable : (sequencers p).Reachable s) :
    SequencersInv p s :=
  Machine.invariant_reachable (sequencers p) (SequencersInv p) (sequencers_inv_initial p)
    (fun s act t inv taken => sequencers_inv_step p s t act inv taken) s reachable

theorem carried_ack (p : Deployment) (confirmed : List Batch) (accepted : Nat → Nat) (d : Datagram)
    (fits : ∀ q, p.IsSlave q → accepted q ≤ 32768) (carried : Carried p confirmed accepted d)
    (ack : checkMsg d.data .ackBatchMessage = true) :
    ∃ r e : Nat, p.IsSlave r ∧ e < accepted r ∧ getInfoFromAckBatchMsg d.data = ((r : Int), (e : Int)) := by
  have replicas := p.replicasFit
  have decoded : ∀ (r e : Nat) (old : Buf), p.IsSlave r → e < accepted r →
      getInfoFromAckBatchMsg (createAckBatchMsg r e old).1 = ((r : Int), (e : Int)) := by
    intro r e old slave logged
    have bound := slave.2
    have small := fits r slave
    exact ack_batch_round_trip r e old ⟨by omega, by omega⟩ ⟨by omega, by omega⟩
  cases carried with
  | batch r k b data reached found content =>
      cases check_msg_unique data .batchMessage .ackBatchMessage content.type ack
  | ackMaster r e old slave logged => exact ⟨r, e, slave, logged, decoded r e old slave logged⟩
  | ackPeer r q e old slave logged => exact ⟨r, e, slave, logged, decoded r e old slave logged⟩
  | request r q e old slave asked logged =>
      cases check_msg_unique _ .requestBatchMessage .ackBatchMessage (request_batch_check q e old) ack

theorem carried_batch (p : Deployment) (confirmed : List Batch) (accepted : Nat → Nat) (d : Datagram) (r : Nat)
    (carried : Carried p confirmed accepted d) (dst : d.dst = .slaveSequencer r)
    (batch : checkMsg d.data .batchMessage = true) :
    d.len = batchLogSize ∧ ∃ k b, k ≤ accepted r ∧ confirmed[k]? = some b ∧ CarriesBatch d.data b.epochId b.wire := by
  cases carried with
  | batch q k b data reached found content =>
      obtain rfl : q = r := by
        injection dst with same
        omega
      exact ⟨rfl, k, b, reached, found, content⟩
  | ackMaster q e old slave logged => cases dst
  | ackPeer s q e old slave logged =>
      cases check_msg_unique _ .batchMessage .ackBatchMessage batch (ack_batch_check s e old)
  | request q s e old slave asked logged =>
      cases check_msg_unique _ .batchMessage .requestBatchMessage batch (request_batch_check s e old)

theorem next_epoch_forward (p : Deployment) (s t : Sequencers) (act : Int × SequencersAct) (r : Nat)
    (inv : SequencersInv p s) (taken : Sequencers.step p s act = some t) :
    (s.send r).nextEpochId ≤ (t.send r).nextEpochId := by
  cases sequencers_step_cases p s t act taken with
  | send systemFinishRequest q act thread sent live replica done =>
      have forward := (sequencers_inv_send p s systemFinishRequest q thread sent act replica inv done).2
      change (s.send r).nextEpochId ≤ (Function.update s.send q thread r).nextEpochId
      by_cases same : r = q
      · subst same
        rw [Function.update_self]
        exact forward
      · exact Int.le_of_eq (congrArg SendThread.nextEpochId (Function.update_of_ne same thread s.send).symm)
  | epoch | epochExit | addWriteTx | sendExit | slave | slaveExit | takeMaster | takeSlave => exact Int.le_refl _

theorem epoch_moves (p : Deployment) (s : Sequencers) (systemFinishRequest : Int) (act : EpochAct) (master : Master)
    (reachable : (sequencers p).Reachable s) (live : s.master.exited = false)
    (done : masterSequencerStartup systemFinishRequest s.master act = .returned master) :
    (sequencers p).Reachable { s with master := master } := by
  refine .step s _ (systemFinishRequest, .epoch act) reachable ?_
  simp only [sequencers, Sequencers.step, live, Bool.false_eq_true, if_false, done]

theorem send_moves (p : Deployment) (s : Sequencers) (systemFinishRequest : Int) (r : Nat) (act : SendAct)
    (thread : SendThread) (sent : List Datagram) (live : s.master.exited = false) (replica : p.IsSlave r)
    (done : sendThread p systemFinishRequest s.master s.net r (s.send r) act = .returned (thread, sent)) :
    Sequencers.step p s (systemFinishRequest, .send r act) =
      some { s with send := Function.update s.send r thread, net := s.net ++ sent } := by
  simp only [Sequencers.step, live, replica, done, not_true_eq_false, Bool.false_eq_true, or_self, if_false]

theorem send_exits (p : Deployment) (s : Sequencers) (systemFinishRequest : Int) (r : Nat) (act : SendAct)
    (live : s.master.exited = false) (replica : p.IsSlave r)
    (done : sendThread p systemFinishRequest s.master s.net r (s.send r) act = .exited) :
    Sequencers.step p s (systemFinishRequest, .send r act) =
      some { s with master := { s.master with exited := true } } := by
  simp only [Sequencers.step, live, replica, done, not_true_eq_false, Bool.false_eq_true, or_self, if_false]

theorem slave_moves (p : Deployment) (s : Sequencers) (systemFinishRequest : Int) (r : Nat) (act : SlaveAct) (slave : Slave)
    (sent : List Datagram) (replica : p.IsSlave r)
    (done : slaveSequencer p systemFinishRequest s.net r (s.slave r) act = .returned (slave, sent)) :
    Sequencers.step p s (systemFinishRequest, .slave r act) =
      some { s with slave := Function.update s.slave r slave, net := s.net ++ sent } := by
  simp only [Sequencers.step, replica, done, not_true_eq_false, if_false]

theorem slave_exits (p : Deployment) (s : Sequencers) (systemFinishRequest : Int) (r : Nat) (act : SlaveAct)
    (replica : p.IsSlave r) (done : slaveSequencer p systemFinishRequest s.net r (s.slave r) act = .exited) :
    Sequencers.step p s (systemFinishRequest, .slave r act) =
      some { s with slave := Function.update s.slave r { s.slave r with pc := .exited } } := by
  simp only [Sequencers.step, replica, done, not_true_eq_false, if_false]

end EpochReplication
