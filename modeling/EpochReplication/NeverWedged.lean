import EpochReplication.StartBarrier
import EpochReplication.Unwedged

set_option autoImplicit false

namespace EpochReplication

theorem receive_batch_pc (r : Nat) (peers : List Nat) (slave next : Slave) (len : Int) (io : LogIo) (sent : List Datagram)
    (done : receiveBatch r peers slave len io = .returned (next, sent)) : next.pc = slave.pc ∨ next.pc = .aborted := by
  simp only [receiveBatch, acceptBatch] at done
  split at done
  · cases wrote : appendLog slave.batchLog slave.recvMsg len (getEpochIdFromBatchMeg slave.recvMsg) io with
    | exited => simp [wrote] at done
    | blocked => simp [wrote] at done
    | returned file =>
        simp only [wrote] at done
        cases done
        exact .inl rfl
  · split at done
    · cases done
      exact .inl rfl
    · cases done
      exact .inr rfl

theorem slave_stays (p : Deployment) (net sent : List Datagram) (r : Nat) (slave next : Slave) (act : SlaveAct)
    (done : slaveSequencer p 0 net r slave act = .returned (next, sent)) : next.pc ≠ .returned := by
  unfold slaveSequencer at done
  split at done
  · rw [if_pos rfl] at done
    cases done
    simp
  · split at done
    · cases done
    · split at done
      · intro returned
        cases method : p.exp with
        | proposedMethod =>
            simp only [method] at done
            rcases proposed_recieve_cases p r _ next _ _ sent done with ⟨_, done⟩ | ⟨sendMsg, rfl⟩
            · have pc := receive_batch_pc r _ _ next _ _ sent done
              simp [returned] at pc
            · cases returned
        | conventionalMethod =>
            simp only [method] at done
            rcases conventional_recieve_cases r _ next _ _ sent done with ⟨_, done⟩ | rfl
            · have pc := receive_batch_pc r _ _ next _ _ sent done
              simp [returned] at pc
            · cases returned
        | tcpMethod =>
            simp only [method] at done
            cases done
      · cases done
  · cases done

theorem send_stays (accepts : Int → Int → Bool) (flag : Int) (m : Master) (net sent : List Datagram) (r : Nat)
    (t next : SendThread) (act : SendAct) (step : SendStep accepts flag m net r t act next sent)
    (started : flag = 0 ∨ t.pc = .barrier) : next.pc ≠ .returned := by
  cases step with
  | leave pc other =>
      rcases started with zero | barrier
      · exact absurd zero other
      · rw [pc] at barrier
        cases barrier
  | receive i d pc =>
      unfold receiveAck
      simp only
      split
      · split <;> simp [pc]
      · simp [pc]
  | spin pc | idle pc => simp [pc]
  | start | pick | read | abandon | send | timeout => simp

structure WorkingInv (p : Deployment) (d : Database) : Prop where
  values : d.intake.flag 0 = -1 ∨ d.intake.flag 0 = 0 ∨ d.intake.flag 0 = 1
  early : d.intake.flag 0 = -1 → ∀ r, (d.replicas.sequencers.send r).pc = .barrier
  send : d.intake.flag 0 ≠ 1 → ∀ r, (d.replicas.sequencers.send r).pc ≠ .returned
  slave : ∀ r, p.IsSlave r → d.intake.flag r = 0 → (d.replicas.sequencers.slave r).pc ≠ .returned

theorem sequencers_send_stays (p : Deployment) (s t : Sequencers) (flag : Int) (act : SequencersAct) (r : Nat)
    (started : ∀ a, act = .send r a → flag = 0 ∨ (s.send r).pc = .barrier) (works : (s.send r).pc ≠ .returned)
    (taken : Sequencers.step p s (flag, act) = some t) : (t.send r).pc ≠ .returned := by
  cases sequencers_step_cases p s t (flag, act) taken with
  | epoch | epochExit | addWriteTx | sendExit | slave | slaveExit | takeMaster | takeSlave => exact works
  | send flag q act thread sent live replica done =>
      by_cases same : r = q
      · subst same
        obtain ⟨accepts, _, step⟩ := send_thread_sound p flag s.master s.net sent r (s.send r) thread act done
        simp only [Function.update_self]
        exact send_stays accepts flag s.master s.net sent r (s.send r) thread act step (started act rfl)
      · simp only [Function.update_of_ne same]
        exact works

theorem sequencers_slave_stays (p : Deployment) (s t : Sequencers) (flag : Int) (act : SequencersAct) (r : Nat)
    (running : ∀ a, act = .slave r a → flag = 0) (works : (s.slave r).pc ≠ .returned)
    (taken : Sequencers.step p s (flag, act) = some t) : (t.slave r).pc ≠ .returned := by
  cases sequencers_step_cases p s t (flag, act) taken with
  | epoch | epochExit | addWriteTx | send | sendExit | takeMaster => exact works
  | slave flag q act slave sent replica done =>
      by_cases same : r = q
      · subst same
        obtain rfl : flag = 0 := running act rfl
        simp only [Function.update_self]
        exact slave_stays p s.net sent r (s.slave r) slave act done
      · simp only [Function.update_of_ne same]
        exact works
  | slaveExit flag q act replica done =>
      by_cases same : r = q
      · subst same
        simp
      · simp only [Function.update_of_ne same]
        exact works
  | takeSlave flag q batch rest replica took =>
      by_cases same : r = q
      · subst same
        simpa using works
      · simp only [Function.update_of_ne same]
        exact works

theorem replicas_threads_stay (p : Deployment) (s t : Replicas) (flag : Int) (act : ReplicasAct) (r : Nat)
    (taken : Replicas.step p s (flag, act) = some t) :
    ((∀ a, act = .sequencers (.send r a) → flag = 0 ∨ (s.sequencers.send r).pc = .barrier) →
      (s.sequencers.send r).pc ≠ .returned → (t.sequencers.send r).pc ≠ .returned) ∧
    ((∀ a, act = .sequencers (.slave r a) → flag = 0) →
      (s.sequencers.slave r).pc ≠ .returned → (t.sequencers.slave r).pc ≠ .returned) := by
  cases replicas_step_cases p s t (flag, act) taken with
  | sequencers flag act next kind moved =>
      refine ⟨fun started works => ?_, fun running works => ?_⟩
      · exact sequencers_send_stays p s.sequencers next flag act r (fun a same => started a (same ▸ rfl)) works moved
      · exact sequencers_slave_stays p s.sequencers next flag act r (fun a same => running a (same ▸ rfl)) works moved
  | take flag q batch rest next exec node running took moved done =>
      refine ⟨fun _ works => ?_, fun _ works => ?_⟩
      · exact sequencers_send_stays p s.sequencers next flag (.takeBatch q) r (by simp) works moved
      · exact sequencers_slave_stays p s.sequencers next flag (.takeBatch q) r (by simp) works moved
  | takeNone | write | read => exact ⟨fun _ works => works, fun _ works => works⟩

theorem working_inv_initial (p : Deployment) : WorkingInv p (Database.initial p) := by
  refine ⟨.inl rfl, fun _ r => rfl, fun _ r => ?_, fun r _ _ => ?_⟩ <;>
    simp [Database.initial, Replicas.initial, Sequencers.initial]

theorem working_inv_step (p : Deployment) (writeRate : Nat) (d next : Database) (act : DatabaseAct)
    (inv : WorkingInv p d) (taken : Database.step p writeRate d act = some next) : WorkingInv p next := by
  obtain ⟨values, early, send, slave⟩ := inv
  have flag := database_flag_step p writeRate d next act 0 taken
  have nodes := database_nodes_step p writeRate d next act taken
  refine ⟨?_, ?_, ?_, ?_⟩
  · rcases flag with same | one | ⟨_, _, zero, _⟩
    · rw [same]
      exact values
    · exact .inr (.inr one)
    · exact .inr (.inl zero)
  · intro before r
    have was : d.intake.flag 0 = -1 := by
      rcases flag with same | one | ⟨_, _, zero, _⟩ <;> omega
    have waits := early was r
    rcases nodes with same | ⟨q, inner, moved, from_⟩
    · rw [same]
      exact waits
    · by_contra left
      obtain ⟨rfl, zero⟩ := ((replicas_barrier p d.replicas next.replicas _ inner moved).2 r).2 waits left
      obtain ⟨rfl, _⟩ := from_ _ rfl
      change d.intake.flag 0 = 0 at zero
      omega
  · intro running r
    have was : d.intake.flag 0 ≠ 1 := by
      rcases flag with same | one | ⟨_, live, _, _⟩
      · rw [← same]
        exact running
      · exact absurd one running
      · exact live
    rcases nodes with same | ⟨q, inner, moved, from_⟩
    · rw [same]
      exact send was r
    · refine (replicas_threads_stay p d.replicas next.replicas _ inner r moved).1 (fun a same => ?_) (send was r)
      subst same
      obtain ⟨rfl, _⟩ := from_ _ rfl
      change d.intake.flag 0 = 0 ∨ _
      rcases values with before | zero | one
      · exact .inr (early before r)
      · exact .inl zero
      · exact absurd one was
  · intro r replica running
    have was : d.intake.flag r = 0 := by
      rcases database_flag_step p writeRate d next act r taken with same | one | ⟨master, _⟩
      · rw [← same]
        exact running
      · rw [one] at running
        cases running
      · exact absurd master (Nat.ne_of_gt replica.1)
    rcases nodes with same | ⟨q, inner, moved, from_⟩
    · rw [same]
      exact slave r replica was
    · refine (replicas_threads_stay p d.replicas next.replicas _ inner r moved).2 (fun a same => ?_) (slave r replica was)
      subst same
      obtain ⟨rfl, _⟩ := from_ _ rfl
      exact was

theorem working_inv_reachable (p : Deployment) (writeRate : Nat) (d : Database)
    (reachable : (database p writeRate).Reachable d) : WorkingInv p d :=
  Machine.invariant_reachable (database p writeRate) (WorkingInv p) (working_inv_initial p)
    (fun d act next inv taken => working_inv_step p writeRate d next act inv taken) d reachable

theorem replica_works (p : Deployment) (writeRate r : Nat) (d : Database) (reachable : (database p writeRate).Reachable d)
    (replica : p.IsSlave r) (flag : d.intake.flag r = 0) (running : d.running r = true) :
    (d.replicas.sequencers.slave r).pc = .loop ∨ (d.replicas.sequencers.slave r).pc = .receiving := by
  have stays := (working_inv_reachable p writeRate d reachable).slave r replica flag
  simp only [Database.running, Sequencers.running, if_neg (Nat.ne_of_gt replica.1)] at running
  cases pc : (d.replicas.sequencers.slave r).pc with
  | loop => exact .inl rfl
  | receiving => exact .inr rfl
  | returned => exact absurd pc stays
  | aborted | exited => simp [pc] at running

theorem database_continues (p : Deployment) (writeRate : Nat) (d : Database) (r : Nat) (acts : List SequencersAct)
    (t : Sequencers) (master : d.intake.flag 0 = 0) (slave : d.intake.flag r = 0)
    (own : ∀ act ∈ acts, (∃ a, act = .send r a) ∨ ∃ a, act = .slave r a)
    (ran : (sequencers p).exec d.replicas.sequencers (untilFinish acts) = some t) :
    (database p writeRate).exec d (acts.map .sequencers) =
      some { d with replicas := { d.replicas with sequencers := t } } := by
  induction acts generalizing d with
  | nil =>
      cases ran
      rfl
  | cons act rest ih =>
      obtain ⟨next, taken, ran⟩ := Option.bind_eq_some_iff.mp ran
      have later := ih { d with replicas := { d.replicas with sequencers := next } } master slave
        (fun act member => own act (List.mem_cons_of_mem _ member)) ran
      have moved : Database.step p writeRate d (.sequencers act) =
          some { d with replicas := { d.replicas with sequencers := next } } := by
        change Sequencers.step p d.replicas.sequencers (0, act) = some next at taken
        rcases own act List.mem_cons_self with ⟨a, rfl⟩ | ⟨a, rfl⟩
        · simp [Database.step, Database.inside, SequencersAct.node, master, Replicas.step, taken]
        · simp [Database.step, Database.inside, SequencersAct.node, slave, Replicas.step, taken]
      simp only [List.map_cons, Machine.exec]
      rw [show (database p writeRate).step d (.sequencers act) = _ from moved]
      exact later

structure Delivered (s t : Sequencers) (r n : Nat) : Prop where
  number : (s.slave r).nextBatchEpochId = n
  delivered : ∃ b c, t.master.confirmed[n]? = some c ∧ LogCarries batchLogSize (t.slave r).batchLog n c ∧
    (t.slave r).writeTxBuffer.entered[n]? = some b ∧ b.content = c.content
  counted : (t.slave r).nextBatchEpochId = n + 1
  passed : n < (t.send r).nextEpochId

theorem delivered_of_counters (p : Deployment) (s t : Sequencers) (r n : Nat) (replica : p.IsSlave r)
    (inv : SequencersInv p t) (number : (s.slave r).nextBatchEpochId = n) (counted : (t.slave r).nextBatchEpochId = n + 1)
    (passed : (t.send r).nextEpochId = n + 1) : Delivered s t r n := by
  have slave := inv.slave r replica
  have count := slave.count
  have behind := slave_behind _ _ slave
  have inside : n < (t.slave r).accepted := by omega
  have found := List.getElem?_eq_getElem (show n < t.master.confirmed.length by omega)
  have entered := List.getElem?_eq_getElem (show n < (t.slave r).writeTxBuffer.entered.length from inside)
  obtain ⟨c, confirmed, epoch, wire⟩ := delivered_content _ _ n _ slave.delivered entered
  refine ⟨number, ⟨_, c, confirmed, slave.logged n c inside confirmed, entered, Prod.ext epoch wire⟩, counted, by omega⟩

theorem replication_never_wedged (p : Deployment) (writeRate : Nat) (d : Database) (r : Nat)
    (method : p.exp = .proposedMethod ∨ p.exp = .conventionalMethod) (replica : p.IsSlave r)
    (reachable : (database p writeRate).Reachable d) (flags : ∀ q, p.IsNode q → d.intake.flag q = 0)
    (running : d.running 0 = true ∧ d.running r = true)
    (behind : (d.replicas.sequencers.slave r).nextBatchEpochId ≤ d.replicas.sequencers.master.determinedEpochId) :
    ∃ acts e n, (database p writeRate).exec d (acts.map .sequencers) = some e ∧
      Between r d.replicas.sequencers.net acts e.replicas.sequencers.net ∧
      Delivered d.replicas.sequencers e.replicas.sequencers r n := by
  have inv := working_inv_reachable p writeRate d reachable
  have inner := Machine.projects_reachable _ _ _ (replicas_projects p) d.replicas
    (database_replicas_reachable p writeRate d reachable)
  have seq := sequencers_inv_reachable p d.replicas.sequencers inner
  have master := flags 0 (.inl rfl)
  have slave := flags r (.inr replica)
  have live : d.replicas.sequencers.master.exited = false := by
    simpa [Database.running, Sequencers.running] using running.1
  have works := replica_works p writeRate r d reachable replica slave running.2
  have count := (seq.slave r replica).count
  have bound := (seq.send r replica).next.2
  simp only [Sequencers.accepted] at bound
  obtain ⟨gap, ahead⟩ := Int.eq_ofNat_of_zero_le (show 0 ≤ (d.replicas.sequencers.slave r).nextBatchEpochId -
    (d.replicas.sequencers.send r).nextEpochId by omega)
  obtain ⟨acts, t, continues, _, reached, passed⟩ := catches_up p gap d.replicas.sequencers r
    (by rcases method with exp | exp <;> simp [exp]) replica inner live (inv.send (by rw [master]; decide) r) works
    (by omega) behind
  refine ⟨acts, _, (d.replicas.sequencers.slave r).accepted,
    database_continues p writeRate d r acts t master slave continues.between.own continues.ran,
    continues.between, ?_⟩
  exact delivered_of_counters p d.replicas.sequencers t r (d.replicas.sequencers.slave r).accepted replica
    (sequencers_inv_reachable p t (continues_reachable p r _ t acts inner continues)) count (by omega) (by omega)

def firstConfirmed : List DatabaseAct :=
  [.start, .sequencers (.epoch .barrier), .sequencers (.epoch .loop), .sequencers (.epoch .check),
    .sequencers (.epoch .swap), .sequencers (.epoch (.log wholeIo)), .sequencers (.epoch .count)]

def afterFirstConfirmed : Option Database :=
  (database (configuration .proposedMethod) ClientTime.writeRate).exec (Database.initial (configuration .proposedMethod))
    firstConfirmed

theorem replication_never_wedged_first_batch : ∃ d, afterFirstConfirmed = some d ∧ ∃ acts e n,
    (database (configuration .proposedMethod) ClientTime.writeRate).exec d (acts.map .sequencers) = some e ∧
      Between 1 d.replicas.sequencers.net acts e.replicas.sequencers.net ∧
      Delivered d.replicas.sequencers e.replicas.sequencers 1 n := by
  have ends : afterFirstConfirmed.map (fun d => ((List.range 7).all (fun q => d.intake.flag q == 0), d.running 0,
      d.running 1, (d.replicas.sequencers.slave 1).nextBatchEpochId, d.replicas.sequencers.master.determinedEpochId)) =
      some (true, true, true, 0, 0) := by
    decide +kernel
  obtain ⟨d, ran, ends⟩ := Option.map_eq_some_iff.mp ends
  simp only [Prod.mk.injEq] at ends
  obtain ⟨flags, master, slave, next, determined⟩ := ends
  refine ⟨d, ran, replication_never_wedged (configuration .proposedMethod) ClientTime.writeRate d 1 (.inl rfl) (by decide)
    (Machine.reachable_exec _ firstConfirmed _ d .init ran) (fun q node => ?_) ⟨master, slave⟩ (by omega)⟩
  have inside : q ∈ List.range 7 := by
    rw [List.mem_range]
    rcases node with rfl | ⟨_, high⟩
    · decide
    · exact high
  simpa using List.all_eq_true.mp flags q inside

end EpochReplication
