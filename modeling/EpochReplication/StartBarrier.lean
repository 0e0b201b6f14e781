import EpochReplication.DatabaseInvariant
import EpochReplication.NodeControl

set_option autoImplicit false

namespace EpochReplication

-- Where master_sequencer_startup stands before its barrier: in the nested loops
-- over the recieve_tx_connection threads, in the loop over the send threads, or
-- past both. The ids are those of the next thread to be created.
inductive Creating where
  | recieveTx (replicaId clientId : Nat)
  | sendBatch (rId : Nat)
  | started
deriving DecidableEq, Repr

namespace Creating

def next (p : Deployment) : Creating → Option Creating
  | .recieveTx replicaId clientId =>
      if replicaId < p.replicaNum then
        if clientId < p.clientNum then some (.recieveTx replicaId (clientId + 1))
        else some (.recieveTx (replicaId + 1) 0)
      else some (.sendBatch 1)
  | .sendBatch rId => if rId < p.replicaNum then some (.sendBatch (rId + 1)) else some .started
  | .started => none

def recieveTxCreated : Creating → Nat → Nat → Bool
  | .recieveTx replicaId clientId, r, c => r < replicaId || (r == replicaId && c < clientId)
  | _, _, _ => true

def sendBatchCreated : Creating → Nat → Bool
  | .recieveTx _ _, _ => false
  | .sendBatch rId, r => r < rId
  | .started, _ => true

end Creating

-- The process of the master in the system: main, the creation of the threads,
-- and everything that runs once it has been created.
structure MasterProcess where
  main : MasterMain
  creating : Creating
  database : Database

inductive ProcessAct where
  | create
  | createThread
  | receive (recvMsg : String)
  | finish
  | run (act : DatabaseAct)

namespace MasterProcess

def flag (s : MasterProcess) : Int := s.database.intake.flag 0

-- The thread that takes this step exists. The flag of the master is main's.
def created (s : MasterProcess) : DatabaseAct → Bool
  | .start => false
  | .finish r => r ≠ 0
  | .recieve r c _ | .addWriteTx r c => s.creating.recieveTxCreated r c
  | .sequencers (.epoch _) => s.creating = .started
  | .sequencers (.send r _) => s.creating.sendBatchCreated r
  | .takeBatch r | .writeLoop r | .write r | .fetch r | .assign r | .raise r => r ≠ 0 || s.main.writeSchedulerCreated
  | .readLoop r | .takeRead r | .read r | .raiseRead r => r ≠ 0 || s.main.readSchedulerCreated
  | .client _ _ _ | .thread _ _ _ | .sequencers _ => true

def initial (p : Deployment) : MasterProcess := ⟨.creatingSequencer, .recieveTx 1 0, .initial p⟩

def step (p : Deployment) (writeRate : Nat) (s : MasterProcess) : ProcessAct → Option MasterProcess
  | .create => if s.database.running 0 then s.main.next.map (fun main => { s with main := main }) else none
  | .createThread =>
      if s.database.running 0 ∧ s.main ≠ .creatingSequencer then
        (s.creating.next p).map (fun creating => { s with creating := creating })
      else none
  | .receive recvMsg =>
      if s.database.running 0 ∧ s.main = .receiving then
        if recvMsg = "finish" then some { s with main := .finishing }
        else if recvMsg = "start" then
          (Database.step p writeRate s.database .start).map (fun database => { s with database := database })
        else some s
      else none
  | .finish =>
      if s.database.running 0 ∧ s.main = .finishing then
        (Database.step p writeRate s.database (.finish 0)).map
          (fun database => { s with main := .finished, database := database })
      else none
  | .run act =>
      if s.created act then
        (Database.step p writeRate s.database act).map (fun database => { s with database := database })
      else none

end MasterProcess

def masterProcess (p : Deployment) (writeRate : Nat) : Machine MasterProcess ProcessAct :=
  ⟨.initial p, MasterProcess.step p writeRate⟩

-- The threads of the master that begin with while (system_finish_request != 0).
inductive BarrierThread where
  | sequencer
  | recieveTx (r c : Nat)
  | sendBatch (r : Nat)

namespace BarrierThread

def IsThread (p : Deployment) : BarrierThread → Prop
  | .sequencer => True
  | .recieveTx r c => p.IsConnection r c
  | .sendBatch r => p.IsSlave r ∧ p.exp ≠ .tcpMethod

def Waits (d : Database) : BarrierThread → Prop
  | .sequencer => d.replicas.sequencers.master.epochPc = .barrier
  | .recieveTx r c => (d.intake.conn (r, c)).recieve.pc = .barrier
  | .sendBatch r => (d.replicas.sequencers.send r).pc = .barrier

def test : BarrierThread → DatabaseAct
  | .sequencer => .sequencers (.epoch .barrier)
  | .recieveTx r c => .recieve r c .barrier
  | .sendBatch r => .sequencers (.send r .barrier)

end BarrierThread

def LeftBehind (p : Deployment) (s : MasterProcess) : Prop :=
  s.flag = 1 ∧ ∃ thread : BarrierThread, thread.IsThread p ∧ thread.Waits s.database

def PassesBarrier (thread : BarrierThread) (x : MasterProcess × ProcessAct) : Prop :=
  x.2 = .run thread.test ∧ x.1.flag = 0

theorem recieve_barrier (flag : Int) (net sent : List Packet) (r c : Nat) (t next : RecieveThread) (act : RecieveAct)
    (step : RecieveStep flag net r c t act next sent) : (next.pc = .barrier → t.pc = .barrier) ∧
      (t.pc = .barrier → next.pc ≠ .barrier → act = .barrier ∧ flag = 0) := by
  cases step with
  | wait pc => exact ⟨fun _ => pc, fun _ left => absurd pc left⟩
  | start pc zero => exact ⟨fun _ => pc, fun _ _ => ⟨rfl, zero⟩⟩
  | enter pc | leave pc | receive _ _ _ _ pc | ignore _ _ _ pc | discard _ pc | accept _ pc | quit _ pc | retry _ _ pc
  | add _ _ pc => simp [pc]

theorem epoch_barrier (flag : Int) (m next : Master) (act : EpochAct) (step : EpochStep flag m act next) :
    (next.epochPc = .barrier → m.epochPc = .barrier) ∧
      (m.epochPc = .barrier → next.epochPc ≠ .barrier → act = .barrier ∧ flag = 0) := by
  cases step with
  | spin pc => exact ⟨fun _ => pc, fun _ left => absurd pc left⟩
  | start pc zero => exact ⟨fun _ => pc, fun _ _ => ⟨rfl, zero⟩⟩
  | enter pc | leave pc | stop _ pc | check _ pc | swap _ pc | log _ _ _ _ pc | count _ _ pc | enqueue _ _ pc => simp [pc]

theorem receive_ack_pc (accepts : Int → Int → Bool) (t : SendThread) (d : Datagram) (waiting : t.pc = .waiting) :
    (receiveAck accepts t d).pc ≠ .barrier := by
  unfold receiveAck
  simp only
  split
  · split <;> simp [waiting]
  · simp [waiting]

theorem send_barrier (accepts : Int → Int → Bool) (flag : Int) (m : Master) (net sent : List Datagram) (r : Nat)
    (t next : SendThread) (act : SendAct) (step : SendStep accepts flag m net r t act next sent) :
    (next.pc = .barrier → t.pc = .barrier) ∧ (t.pc = .barrier → next.pc ≠ .barrier → act = .barrier ∧ flag = 0) := by
  cases step with
  | spin pc => exact ⟨fun _ => pc, fun _ left => absurd pc left⟩
  | start pc zero => exact ⟨fun _ => pc, fun _ _ => ⟨rfl, zero⟩⟩
  | receive i d pc => exact ⟨fun back => absurd back (receive_ack_pc accepts t d pc), by simp [pc]⟩
  | idle pc | pick pc | leave pc | read _ _ _ pc | abandon pc | send pc | timeout pc => simp [pc]

theorem sequencers_barrier (p : Deployment) (s t : Sequencers) (flag : Int) (act : SequencersAct)
    (taken : Sequencers.step p s (flag, act) = some t) :
    ((t.master.epochPc = .barrier → s.master.epochPc = .barrier) ∧
      (s.master.epochPc = .barrier → t.master.epochPc ≠ .barrier → act = .epoch .barrier ∧ flag = 0)) ∧
    ∀ r, ((t.send r).pc = .barrier → (s.send r).pc = .barrier) ∧
      ((s.send r).pc = .barrier → (t.send r).pc ≠ .barrier → act = .send r .barrier ∧ flag = 0) := by
  have still : ∀ (waits : Prop) (test : SequencersAct),
      (waits → waits) ∧ (waits → ¬ waits → act = test ∧ flag = 0) :=
    fun _ _ => ⟨id, fun here gone => absurd here gone⟩
  cases sequencers_step_cases p s t (flag, act) taken with
  | epoch flag act master live step =>
      obtain ⟨back, left⟩ := epoch_barrier flag s.master master act step
      refine ⟨⟨back, fun here gone => ?_⟩, fun r => still _ _⟩
      obtain ⟨rfl, zero⟩ := left here gone
      exact ⟨rfl, zero⟩
  | send flag q act thread sent live replica done =>
      refine ⟨still _ _, fun r => ?_⟩
      by_cases same : r = q
      · subst same
        obtain ⟨accepts, _, step⟩ := send_thread_sound p flag s.master s.net sent r (s.send r) thread act done
        obtain ⟨back, left⟩ := send_barrier accepts flag s.master s.net sent r (s.send r) thread act step
        simp only [Function.update_self]
        refine ⟨back, fun here gone => ?_⟩
        obtain ⟨rfl, zero⟩ := left here gone
        exact ⟨rfl, zero⟩
      · simp only [Function.update_of_ne same]
        exact still _ _
  | epochExit | addWriteTx | sendExit | slave | slaveExit | takeMaster | takeSlave =>
      exact ⟨still _ _, fun r => still _ _⟩

theorem replicas_barrier (p : Deployment) (s t : Replicas) (flag : Int) (act : ReplicasAct)
    (taken : Replicas.step p s (flag, act) = some t) :
    ((t.sequencers.master.epochPc = .barrier → s.sequencers.master.epochPc = .barrier) ∧
      (s.sequencers.master.epochPc = .barrier → t.sequencers.master.epochPc ≠ .barrier →
        act = .sequencers (.epoch .barrier) ∧ flag = 0)) ∧
    ∀ r, ((t.sequencers.send r).pc = .barrier → (s.sequencers.send r).pc = .barrier) ∧
      ((s.sequencers.send r).pc = .barrier → (t.sequencers.send r).pc ≠ .barrier →
        act = .sequencers (.send r .barrier) ∧ flag = 0) := by
  have still : ∀ (waits : Prop) (test : ReplicasAct), (waits → waits) ∧ (waits → ¬ waits → act = test ∧ flag = 0) :=
    fun _ _ => ⟨id, fun here gone => absurd here gone⟩
  cases replicas_step_cases p s t (flag, act) taken with
  | sequencers flag act next kind moved =>
      obtain ⟨⟨back, left⟩, send⟩ := sequencers_barrier p s.sequencers next flag act moved
      refine ⟨⟨back, fun here gone => ?_⟩, fun r => ⟨(send r).1, fun here gone => ?_⟩⟩
      · obtain ⟨rfl, zero⟩ := left here gone
        exact ⟨rfl, zero⟩
      · obtain ⟨rfl, zero⟩ := (send r).2 here gone
        exact ⟨rfl, zero⟩
  | take flag q batch rest next exec node running took moved done =>
      obtain ⟨⟨back, left⟩, send⟩ := sequencers_barrier p s.sequencers next flag (.takeBatch q) moved
      exact ⟨⟨back, fun here gone => absurd (left here gone).1 (by simp)⟩,
        fun r => ⟨(send r).1, fun here gone => absurd ((send r).2 here gone).1 (by simp)⟩⟩
  | takeNone | write | read => exact ⟨still _ _, fun r => still _ _⟩

theorem barrier_step (p : Deployment) (writeRate : Nat) (d next : Database) (act : DatabaseAct) (thread : BarrierThread)
    (taken : Database.step p writeRate d act = some next) :
    (thread.Waits next → thread.Waits d) ∧
      (thread.Waits d → ¬ thread.Waits next → act = thread.test ∧ d.intake.flag 0 = 0) := by
  cases thread with
  | recieveTx r c =>
      simp only [BarrierThread.Waits]
      rcases database_recieve_step p writeRate d next act r c taken with same | ⟨inner, sent, step, from_⟩
      · rw [same]
        exact ⟨id, fun here gone => absurd here gone⟩
      · obtain ⟨back, left⟩ := recieve_barrier _ _ sent r c _ _ inner step
        refine ⟨back, fun here gone => ?_⟩
        obtain ⟨rfl, zero⟩ := left here gone
        rcases from_ with same | ⟨batch, other⟩
        · exact ⟨same, zero⟩
        · cases other
  | sequencer =>
      simp only [BarrierThread.Waits]
      rcases database_nodes_step p writeRate d next act taken with same | ⟨q, inner, moved, from_⟩
      · rw [same]
        exact ⟨id, fun here gone => absurd here gone⟩
      · obtain ⟨⟨back, left⟩, _⟩ := replicas_barrier p d.replicas next.replicas _ inner moved
        refine ⟨back, fun here gone => ?_⟩
        obtain ⟨rfl, zero⟩ := left here gone
        obtain ⟨rfl, same | ⟨tx, other⟩⟩ := from_ _ rfl
        · exact ⟨same, zero⟩
        · cases other
  | sendBatch r =>
      simp only [BarrierThread.Waits]
      rcases database_nodes_step p writeRate d next act taken with same | ⟨q, inner, moved, from_⟩
      · rw [same]
        exact ⟨id, fun here gone => absurd here gone⟩
      · obtain ⟨back, left⟩ := (replicas_barrier p d.replicas next.replicas _ inner moved).2 r
        refine ⟨back, fun here gone => ?_⟩
        obtain ⟨rfl, zero⟩ := left here gone
        obtain ⟨rfl, same | ⟨tx, other⟩⟩ := from_ _ rfl
        · exact ⟨same, zero⟩
        · cases other

theorem send_test (accepts : Int → Int → Bool) (m : Master) (net : List Datagram) (r : Nat) (t : SendThread) :
    sendBatchConnection accepts 0 m net r t .barrier = .blocked ∨
      sendBatchConnection accepts 0 m net r t .barrier = .returned ({ t with pc := .loop }, []) := by
  unfold sendBatchConnection
  cases pc : t.pc <;> simp

theorem epoch_test (m : Master) : masterSequencerStartup 0 m .barrier = .blocked ∨
    masterSequencerStartup 0 m .barrier = .returned { m with epochPc := .loop } := by
  unfold masterSequencerStartup
  cases pc : m.epochPc <;> simp

theorem recieve_test (net : List Packet) (r c : Nat) (t : RecieveThread) :
    recieveTxConnection 0 net r c t .barrier = none ∨
      recieveTxConnection 0 net r c t .barrier = some ({ t with pc := .loop }, []) := by
  unfold recieveTxConnection
  cases pc : t.pc <;> simp

theorem send_thread_test (p : Deployment) (m : Master) (net : List Datagram) (r : Nat) (t : SendThread) :
    sendThread p 0 m net r t .barrier = .blocked ∨
      sendThread p 0 m net r t .barrier = .returned ({ t with pc := .loop }, []) := by
  cases method : p.exp with
  | proposedMethod =>
      simp only [sendThread, method]
      exact send_test _ m net r t
  | conventionalMethod =>
      simp only [sendThread, method]
      exact send_test _ m net r t
  | tcpMethod =>
      simp only [sendThread, method]
      exact .inl trivial

theorem barrier_passed (p : Deployment) (writeRate : Nat) (d next : Database) (thread : BarrierThread)
    (zero : d.intake.flag 0 = 0) (taken : Database.step p writeRate d thread.test = some next) :
    ¬ thread.Waits next := by
  cases thread with
  | recieveTx r c =>
      simp only [BarrierThread.test, Database.step] at taken
      split at taken
      · obtain ⟨intake, stepped, rfl⟩ := Option.map_eq_some_iff.mp taken
        obtain ⟨⟨recieve, sent⟩, done, rfl⟩ := Option.map_eq_some_iff.mp stepped
        rw [zero] at done
        rcases recieve_test d.intake.net r c (d.intake.conn (r, c)).recieve with blocked | passed
        · rw [blocked] at done
          cases done
        · rw [passed] at done
          cases done
          simp [BarrierThread.Waits]
      · cases taken
  | sequencer =>
      simp only [BarrierThread.test, Database.step, SequencersAct.node] at taken
      obtain ⟨replicas, moved, rfl⟩ := Option.map_eq_some_iff.mp taken
      obtain ⟨sequencers, stepped, rfl⟩ := Option.map_eq_some_iff.mp moved
      rw [zero] at stepped
      simp only [Sequencers.step] at stepped
      split at stepped
      · cases stepped
      · rcases epoch_test d.replicas.sequencers.master with blocked | passed
        · rw [blocked] at stepped
          cases stepped
        · rw [passed] at stepped
          cases stepped
          simp [BarrierThread.Waits]
  | sendBatch r =>
      simp only [BarrierThread.test, Database.step, SequencersAct.node] at taken
      obtain ⟨replicas, moved, rfl⟩ := Option.map_eq_some_iff.mp taken
      obtain ⟨sequencers, stepped, rfl⟩ := Option.map_eq_some_iff.mp moved
      rw [zero] at stepped
      simp only [Sequencers.step] at stepped
      split at stepped
      · cases stepped
      · rcases send_thread_test p d.replicas.sequencers.master d.replicas.sequencers.net r
          (d.replicas.sequencers.send r) with blocked | passed
        · rw [blocked] at stepped
          cases stepped
        · rw [passed] at stepped
          cases stepped
          simp [BarrierThread.Waits]

theorem database_flag_kept (p : Deployment) (writeRate : Nat) (d next : Database) (act : DatabaseAct) (node : Nat)
    (start : act ≠ .start) (finish : act ≠ .finish node) (taken : Database.step p writeRate d act = some next) :
    next.intake.flag node = d.intake.flag node := by
  cases database_step_cases p writeRate d next act taken with
  | start => exact absurd rfl start
  | finish r =>
      have other : node ≠ r := fun same => finish (same ▸ rfl)
      simp [Intake.finish, Function.update_of_ne other]
  | takeRead =>
      unfold Intake.takeRead
      split <;> rfl
  | client | thread | recieve | addWriteTx | sequencers | takeBatch | writeLoop | write | fetch | assign | raise
  | readLoop | readOut | read | raiseRead => rfl

inductive ProcessStep (p : Deployment) (writeRate : Nat) (s : MasterProcess) : ProcessAct → MasterProcess → Prop where
  | create (main : MasterMain) : ProcessStep p writeRate s .create { s with main := main }
  | createThread (creating : Creating) : ProcessStep p writeRate s .createThread { s with creating := creating }
  | finishRequest : ProcessStep p writeRate s (.receive "finish") { s with main := .finishing }
  | start (live : s.flag ≠ 1) (database : Database)
      (same : database = { s.database with
        intake := { s.database.intake with flag := Function.update s.database.intake.flag 0 0 } }) :
      ProcessStep p writeRate s (.receive "start") { s with database := database }
  | ignore (recvMsg : String) : ProcessStep p writeRate s (.receive recvMsg) s
  | finish : ProcessStep p writeRate s .finish
      { s with main := .finished, database := { s.database with intake := s.database.intake.finish 0 } }
  | run (act : DatabaseAct) (database : Database) (start : act ≠ .start) (finish : act ≠ .finish 0)
      (moved : Database.step p writeRate s.database act = some database) :
      ProcessStep p writeRate s (.run act) { s with database := database }

theorem process_step_cases (p : Deployment) (writeRate : Nat) (s t : MasterProcess) (act : ProcessAct)
    (taken : MasterProcess.step p writeRate s act = some t) : ProcessStep p writeRate s act t := by
  unfold MasterProcess.step at taken
  split at taken
  · split at taken
    · obtain ⟨main, _, rfl⟩ := Option.map_eq_some_iff.mp taken
      exact .create main
    · cases taken
  · split at taken
    · obtain ⟨creating, _, rfl⟩ := Option.map_eq_some_iff.mp taken
      exact .createThread creating
    · cases taken
  · split at taken
    · split at taken
      · rename_i msg
        cases taken
        exact msg ▸ .finishRequest
      · split at taken
        · rename_i msg
          obtain ⟨database, moved, rfl⟩ := Option.map_eq_some_iff.mp taken
          cases database_step_cases p writeRate _ _ _ moved with
          | start live => exact msg ▸ .start live _ rfl
        · cases taken
          exact .ignore _
    · cases taken
  · split at taken
    · obtain ⟨database, moved, rfl⟩ := Option.map_eq_some_iff.mp taken
      cases database_step_cases p writeRate _ _ _ moved with
      | finish => exact .finish
    · cases taken
  · rename_i act
    split at taken
    · rename_i created
      obtain ⟨database, moved, rfl⟩ := Option.map_eq_some_iff.mp taken
      refine .run act database ?_ ?_ moved
      · rintro rfl
        simp [MasterProcess.created] at created
      · rintro rfl
        simp [MasterProcess.created] at created
    · cases taken

theorem process_flag (p : Deployment) (writeRate : Nat) (s t : MasterProcess) (act : ProcessAct)
    (taken : MasterProcess.step p writeRate s act = some t) : t.flag = 1 ↔ s.flag = 1 ∨ act = .finish := by
  cases process_step_cases p writeRate s t act taken with
  | create | createThread | finishRequest | ignore => simp [MasterProcess.flag]
  | start live database same =>
      subst same
      simpa [MasterProcess.flag] using live
  | finish => simp [MasterProcess.flag, Intake.finish]
  | run act database start finish moved =>
      simp [MasterProcess.flag, database_flag_kept p writeRate s.database database act 0 start finish moved]

theorem process_waits (p : Deployment) (writeRate : Nat) (s t : MasterProcess) (act : ProcessAct) (thread : BarrierThread)
    (taken : MasterProcess.step p writeRate s act = some t) :
    thread.Waits t.database ↔ thread.Waits s.database ∧ ¬ PassesBarrier thread (s, act) := by
  have same : t.database.replicas = s.database.replicas → t.database.intake.conn = s.database.intake.conn →
      (∀ act', act ≠ .run act') →
      (thread.Waits t.database ↔ thread.Waits s.database ∧ ¬ PassesBarrier thread (s, act)) := by
    intro replicas conn other
    have kept : thread.Waits t.database ↔ thread.Waits s.database := by
      cases thread <;> simp only [BarrierThread.Waits, replicas, conn]
    exact kept.trans (iff_self_and.mpr (fun _ passes => other _ passes.1))
  cases process_step_cases p writeRate s t act taken with
  | create | createThread | finishRequest | ignore | finish => exact same rfl rfl (by simp)
  | start live database equal => exact same (by rw [equal]) (by rw [equal]) (by simp)
  | run act database start finish moved =>
      obtain ⟨back, left⟩ := barrier_step p writeRate s.database database act thread moved
      constructor
      · intro waits
        refine ⟨back waits, fun passes => ?_⟩
        obtain ⟨test, zero⟩ := passes
        cases test
        exact barrier_passed p writeRate s.database database thread zero moved waits
      · rintro ⟨here, fails⟩
        by_contra gone
        obtain ⟨rfl, zero⟩ := left here gone
        exact fails ⟨rfl, zero⟩

theorem left_behind_stays (p : Deployment) (writeRate : Nat) (s : MasterProcess) (act : ProcessAct) (t : MasterProcess)
    (behind : LeftBehind p s) (taken : MasterProcess.step p writeRate s act = some t) : LeftBehind p t := by
  obtain ⟨finished, thread, exists_, waits⟩ := behind
  refine ⟨(process_flag p writeRate s t act taken).mpr (.inl finished), thread, exists_, ?_⟩
  refine (process_waits p writeRate s t act thread taken).mpr ⟨waits, fun passes => ?_⟩
  have zero := passes.2
  simp only [finished] at zero
  cases zero

theorem finished_iff (p : Deployment) (writeRate : Nat) (run : List (MasterProcess × ProcessAct)) (s : MasterProcess)
    (trace : (masterProcess p writeRate).Trace run s) : s.flag = 1 ↔ ∃ x ∈ run, x.2 = .finish := by
  induction trace with
  | init => simp [masterProcess, MasterProcess.initial, MasterProcess.flag, Database.initial, Intake.initial]
  | step run s t act before taken ih =>
      rw [process_flag p writeRate s t act taken, ih]
      simp [or_and_right, exists_or]

theorem waits_iff (p : Deployment) (writeRate : Nat) (run : List (MasterProcess × ProcessAct)) (s : MasterProcess)
    (trace : (masterProcess p writeRate).Trace run s) (thread : BarrierThread) :
    thread.Waits s.database ↔ ∀ x ∈ run, ¬ PassesBarrier thread x := by
  induction trace with
  | init =>
      cases thread <;> simp [masterProcess, MasterProcess.initial, BarrierThread.Waits, Database.initial,
        Replicas.initial, Sequencers.initial, Intake.initial]
  | step run s t act before taken ih =>
      rw [process_waits p writeRate s t act thread taken, ih]
      simp [or_imp, forall_and]

theorem no_thread_left_behind_iff (p : Deployment) (writeRate : Nat) (run : List (MasterProcess × ProcessAct))
    (s : MasterProcess) (trace : (masterProcess p writeRate).Trace run s) :
    (∀ t, t = s ∨ (∃ x ∈ run, x.1 = t) → ¬ LeftBehind p t) ↔
      ((∃ x ∈ run, x.2 = .finish) → ∀ thread : BarrierThread, thread.IsThread p → ∃ x ∈ run, PassesBarrier thread x) := by
  have last : (∀ t, t = s ∨ (∃ x ∈ run, x.1 = t) → ¬ LeftBehind p t) ↔ ¬ LeftBehind p s := by
    refine ⟨fun never => never s (.inl rfl), ?_⟩
    rintro free t (rfl | ⟨x, member, rfl⟩) behind
    · exact free behind
    · exact free (Machine.trace_stable _ (LeftBehind p) (left_behind_stays p writeRate) run s trace x member behind)
  rw [last, LeftBehind, finished_iff p writeRate run s trace, not_and, not_exists]
  refine imp_congr_right (fun _ => forall_congr' (fun thread => ?_))
  rw [not_and, waits_iff p writeRate run s trace thread]
  simp only [not_forall, not_not, exists_prop]

-- The start datagram is lost, and the finish datagram arrives while the first of
-- the threads is at its barrier.
def lostStart : List ProcessAct :=
  [.create, .create, .create, .createThread, .run (.recieve 1 0 .barrier), .receive "finish", .finish]

theorem lost_start_leaves_behind : ∃ s,
    (masterProcess (configuration .proposedMethod) ClientTime.writeRate).exec
      (MasterProcess.initial (configuration .proposedMethod)) lostStart = some s ∧
    LeftBehind (configuration .proposedMethod) s :=
  ⟨_, rfl, rfl, .recieveTx 1 0, by simp [BarrierThread.IsThread]; decide, rfl⟩

def oneSlave : Deployment where
  exp := .proposedMethod
  replicaNum := 2
  clientNum := 1
  region := fun _ => 0
  uninitialised := fun _ => 0
  replicasFit := by decide
  clientsFit := by decide

def everyThreadPasses : List ProcessAct :=
  [.create, .create, .create, .createThread, .createThread, .createThread, .createThread, .createThread,
    .receive "start", .run (.recieve 1 0 .barrier), .run (.sequencers (.send 1 .barrier)),
    .run (.sequencers (.epoch .barrier)), .receive "finish", .finish]

def EpochPc.atBarrier (pc : EpochPc) : Bool := pc matches .barrier

theorem no_thread_left_behind_iff_one_slave : ∃ run s, (masterProcess oneSlave ClientTime.writeRate).Trace run s ∧
    s.flag = 1 ∧ ∀ thread : BarrierThread, thread.IsThread oneSlave → ∃ x ∈ run, PassesBarrier thread x := by
  have ends : ((masterProcess oneSlave ClientTime.writeRate).exec (MasterProcess.initial oneSlave) everyThreadPasses).map
      (fun s => (s.flag, s.database.replicas.sequencers.master.epochPc.atBarrier, (s.database.intake.conn (1, 0)).recieve.pc,
        (s.database.replicas.sequencers.send 1).pc)) = some (1, false, .loop, .loop) := by
    decide +kernel
  obtain ⟨s, ran, ends⟩ := Option.map_eq_some_iff.mp ends
  simp only [Prod.mk.injEq] at ends
  obtain ⟨finished, epoch, recieve, send⟩ := ends
  obtain ⟨run, trace⟩ := Machine.reachable_trace _ s (Machine.reachable_exec _ everyThreadPasses _ s .init ran)
  have free : ¬ LeftBehind oneSlave s := by
    rintro ⟨_, thread, exists_, waits⟩
    cases thread with
    | sequencer =>
        rw [BarrierThread.Waits] at waits
        rw [waits] at epoch
        cases epoch
    | recieveTx r c =>
        obtain ⟨⟨low, high⟩, client⟩ := exists_
        obtain rfl : r = 1 := by simp only [oneSlave] at high; omega
        obtain rfl : c = 0 := by simp only [oneSlave] at client; omega
        rw [BarrierThread.Waits, recieve] at waits
        cases waits
    | sendBatch r =>
        obtain ⟨⟨low, high⟩, _⟩ := exists_
        obtain rfl : r = 1 := by simp only [oneSlave] at high; omega
        rw [BarrierThread.Waits, send] at waits
        cases waits
  refine ⟨run, s, trace, finished, ?_⟩
  refine (no_thread_left_behind_iff oneSlave ClientTime.writeRate run s trace).mp ?_
    ((finished_iff oneSlave ClientTime.writeRate run s trace).mp finished)
  rintro t (rfl | ⟨x, member, rfl⟩) behind
  · exact free behind
  · exact free (Machine.trace_stable _ (LeftBehind oneSlave) (left_behind_stays oneSlave ClientTime.writeRate) run s trace x
      member behind)

end EpochReplication
