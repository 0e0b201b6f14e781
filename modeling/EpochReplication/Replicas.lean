import EpochReplication.LogCalls
import EpochReplication.Scheduler

set_option autoImplicit false

namespace EpochReplication

def Deployment.IsNode (p : Deployment) (r : Nat) : Prop := r = 0 ∨ p.IsSlave r

instance (p : Deployment) (r : Nat) : Decidable (p.IsNode r) := inferInstanceAs (Decidable (_ ∨ _))

namespace Sequencers

def queue (s : Sequencers) (r : Nat) : Fifo Batch :=
  if r = 0 then s.master.writeTxBuffer else (s.slave r).writeTxBuffer

-- exit and a failed assertion end all threads of the process.
def running (s : Sequencers) (r : Nat) : Bool :=
  if r = 0 then !s.master.exited else (s.slave r).pc != .aborted && (s.slave r).pc != .exited

end Sequencers

structure Replicas where
  sequencers : Sequencers
  exec : Nat → Exec

inductive ReplicasAct where
  | sequencers (act : SequencersAct)
  | takeBatch (r : Nat)
  | write (r : Nat) (act : WriteAct)
  | read (r : Nat) (act : ReadAct)

namespace Replicas

def initial (p : Deployment) : Replicas := ⟨.initial p, fun _ => .initial⟩

-- try_delete_node_batch_list under its mutex: the batch leaves the list and is
-- in the hands of the scheduler.
def takeBatch (p : Deployment) (systemFinishRequest : Int) (s : Replicas) (r : Nat) : Option Replicas :=
  match (s.sequencers.queue r).tryTake with
  | none =>
      (writeSchedulerStartup systemFinishRequest r (s.exec r) (.take none)).map
        (fun exec => { s with exec := Function.update s.exec r exec })
  | some (batch, _) =>
      (Sequencers.step p s.sequencers (systemFinishRequest, .takeBatch r)).bind (fun sequencers =>
        (writeSchedulerStartup systemFinishRequest r (s.exec r) (.take (some batch))).map
          (fun exec => ⟨sequencers, Function.update s.exec r exec⟩))

def step (p : Deployment) (s : Replicas) : Int × ReplicasAct → Option Replicas
  | (_, .sequencers (.takeBatch _)) => none
  | (systemFinishRequest, .sequencers act) =>
      (Sequencers.step p s.sequencers (systemFinishRequest, act)).map
        (fun sequencers => { s with sequencers := sequencers })
  | (systemFinishRequest, .takeBatch r) =>
      if p.IsNode r ∧ s.sequencers.running r = true then s.takeBatch p systemFinishRequest r else none
  | (_, .write _ (.take _)) => none
  | (systemFinishRequest, .write r act) =>
      if p.IsNode r ∧ s.sequencers.running r = true then
        (writeSchedulerStartup systemFinishRequest r (s.exec r) act).map
          (fun exec => { s with exec := Function.update s.exec r exec })
      else none
  | (systemFinishRequest, .read r act) =>
      if p.IsNode r ∧ s.sequencers.running r = true then
        (readSchedulerStartup systemFinishRequest (s.exec r) act).map
          (fun exec => { s with exec := Function.update s.exec r exec })
      else none

end Replicas

def replicas (p : Deployment) : Machine Replicas (Int × ReplicasAct) := ⟨.initial p, Replicas.step p⟩

inductive ReplicasStep (p : Deployment) (s : Replicas) : Int × ReplicasAct → Replicas → Prop where
  | sequencers (systemFinishRequest : Int) (act : SequencersAct) (next : Sequencers) (kind : ∀ r, act ≠ .takeBatch r)
      (moved : Sequencers.step p s.sequencers (systemFinishRequest, act) = some next) :
      ReplicasStep p s (systemFinishRequest, .sequencers act) { s with sequencers := next }
  | takeNone (systemFinishRequest : Int) (r : Nat) (exec : Exec) (node : p.IsNode r)
      (running : s.sequencers.running r = true) (done : WriteStep systemFinishRequest r (s.exec r) (.take none) exec) :
      ReplicasStep p s (systemFinishRequest, .takeBatch r) { s with exec := Function.update s.exec r exec }
  | take (systemFinishRequest : Int) (r : Nat) (batch : Batch) (rest : Fifo Batch) (next : Sequencers) (exec : Exec)
      (node : p.IsNode r) (running : s.sequencers.running r = true)
      (took : (s.sequencers.queue r).tryTake = some (batch, rest))
      (moved : Sequencers.step p s.sequencers (systemFinishRequest, .takeBatch r) = some next)
      (done : WriteStep systemFinishRequest r (s.exec r) (.take (some batch)) exec) :
      ReplicasStep p s (systemFinishRequest, .takeBatch r) ⟨next, Function.update s.exec r exec⟩
  | write (systemFinishRequest : Int) (r : Nat) (act : WriteAct) (exec : Exec) (kind : ∀ batch, act ≠ .take batch)
      (node : p.IsNode r) (running : s.sequencers.running r = true)
      (done : WriteStep systemFinishRequest r (s.exec r) act exec) :
      ReplicasStep p s (systemFinishRequest, .write r act) { s with exec := Function.update s.exec r exec }
  | read (systemFinishRequest : Int) (r : Nat) (act : ReadAct) (exec : Exec) (node : p.IsNode r)
      (running : s.sequencers.running r = true) (done : ReadStep systemFinishRequest (s.exec r) act exec) :
      ReplicasStep p s (systemFinishRequest, .read r act) { s with exec := Function.update s.exec r exec }

theorem replicas_step_cases (p : Deployment) (s t : Replicas) (act : Int × ReplicasAct)
    (taken : Replicas.step p s act = some t) : ReplicasStep p s act t := by
  unfold Replicas.step at taken
  split at taken
  · cases taken
  · rename_i flag act kind
    obtain ⟨next, moved, rfl⟩ := Option.map_eq_some_iff.mp taken
    exact .sequencers flag act next kind moved
  · rename_i flag r
    split at taken
    · rename_i ready
      unfold Replicas.takeBatch at taken
      split at taken
      · obtain ⟨exec, done, rfl⟩ := Option.map_eq_some_iff.mp taken
        exact .takeNone flag r exec ready.1 ready.2 (write_step_of_some flag r _ exec _ done)
      · rename_i batch rest took
        obtain ⟨next, moved, taken⟩ := Option.bind_eq_some_iff.mp taken
        obtain ⟨exec, done, rfl⟩ := Option.map_eq_some_iff.mp taken
        exact .take flag r batch rest next exec ready.1 ready.2 took moved (write_step_of_some flag r _ exec _ done)
    · cases taken
  · cases taken
  · rename_i flag r act kind
    split at taken
    · rename_i ready
      obtain ⟨exec, done, rfl⟩ := Option.map_eq_some_iff.mp taken
      exact .write flag r act exec kind ready.1 ready.2 (write_step_of_some flag r _ exec act done)
    · cases taken
  · rename_i flag r act
    split at taken
    · rename_i ready
      obtain ⟨exec, done, rfl⟩ := Option.map_eq_some_iff.mp taken
      exact .read flag r act exec ready.1 ready.2 (read_step_of_some flag _ exec act done)
    · cases taken

theorem replicas_projects (p : Deployment) : Machine.Projects (replicas p) (sequencers p) Replicas.sequencers where
  init := rfl
  step := by
    intro s act t taken
    cases replicas_step_cases p s t act taken with
    | sequencers flag act next kind moved => exact .inr ⟨(flag, act), moved⟩
    | take flag r batch rest next exec node running took moved done => exact .inr ⟨(flag, .takeBatch r), moved⟩
    | takeNone | write | read => exact .inl rfl

theorem replicas_sequencers_inv (p : Deployment) (s : Replicas) (reachable : (replicas p).Reachable s) :
    SequencersInv p s.sequencers :=
  sequencers_inv_reachable p s.sequencers (Machine.projects_reachable _ _ _ (replicas_projects p) s reachable)

theorem epoch_step_list (flag : Int) (m next : Master) (act : EpochAct) (step : EpochStep flag m act next) :
    m.writeTxBuffer.entered <+: next.writeTxBuffer.entered ∧ next.writeTxBuffer.left = m.writeTxBuffer.left := by
  cases step with
  | enqueue cur rev pc => exact ⟨List.prefix_append _ _, rfl⟩
  | spin | start | enter | leave | stop | check | swap | log | count => exact ⟨List.prefix_refl _, rfl⟩

theorem queue_grows (p : Deployment) (s t : Sequencers) (flag : Int) (act : SequencersAct) (q : Nat)
    (kind : ∀ r, act ≠ .takeBatch r) (taken : Sequencers.step p s (flag, act) = some t) :
    (s.queue q).entered <+: (t.queue q).entered ∧ (t.queue q).left = (s.queue q).left := by
  have same : ∀ list : Fifo Batch, list.entered <+: list.entered ∧ list.left = list.left :=
    fun list => ⟨List.prefix_refl _, rfl⟩
  cases sequencers_step_cases p s t (flag, act) taken with
  | epoch flag act master live step =>
      unfold Sequencers.queue
      split
      · exact epoch_step_list flag s.master master act step
      · exact same _
  | epochExit | addWriteTx | send | sendExit => exact same _
  | slave flag r act slave sent replica done =>
      have added : (s.slave r).writeTxBuffer.entered <+: slave.writeTxBuffer.entered ∧
          slave.writeTxBuffer.left = (s.slave r).writeTxBuffer.left := by
        rcases slave_step_change p s flag r act slave sent replica done with ⟨_, list⟩ |
          ⟨_, _, _, _, _, _, _, _, _, _, _, batch, list⟩
        · rw [list]
          exact same _
        · rw [list]
          exact ⟨List.prefix_append _ _, rfl⟩
      unfold Sequencers.queue
      split
      · exact same _
      · by_cases here : q = r
        · subst here
          simpa using added
        · simp [here]
  | slaveExit flag r act replica done =>
      unfold Sequencers.queue
      split
      · exact same _
      · by_cases here : q = r
        · subst here
          simp
        · simp [here]
  | takeMaster => exact absurd rfl (kind 0)
  | takeSlave flag r => exact absurd rfl (kind r)

theorem queue_taken (p : Deployment) (s t : Sequencers) (flag : Int) (r q : Nat) (batch : Batch) (rest : Fifo Batch)
    (took : (s.queue r).tryTake = some (batch, rest)) (taken : Sequencers.step p s (flag, .takeBatch r) = some t) :
    t.queue q = if q = r then rest else s.queue q := by
  cases sequencers_step_cases p s t (flag, .takeBatch r) taken with
  | takeMaster flag first others live also =>
      have equal : others = rest := by
        have both := also.symm.trans took
        simp only [Option.some.injEq, Prod.mk.injEq] at both
        exact both.2
      by_cases here : q = 0
      · simp [Sequencers.queue, here, equal]
      · simp [Sequencers.queue, here]
  | takeSlave flag r first others replica also =>
      have not_master : r ≠ 0 := Nat.ne_of_gt replica.1
      have own : s.queue r = (s.slave r).writeTxBuffer := if_neg not_master
      have equal : others = rest := by
        rw [own, also] at took
        simp only [Option.some.injEq, Prod.mk.injEq] at took
        exact took.2
      by_cases here : q = r
      · subst here
        simp [Sequencers.queue, not_master, equal]
      · by_cases master : q = 0
        · simp [Sequencers.queue, master, Ne.symm not_master]
        · simp [Sequencers.queue, here, master]

theorem confirmed_grows (p : Deployment) (s t : Sequencers) (act : Int × SequencersAct) (inv : SequencersInv p s)
    (taken : Sequencers.step p s act = some t) : s.master.confirmed <+: t.master.confirmed := by
  cases sequencers_step_cases p s t act taken with
  | epoch flag act master live step => exact (master_inv_step flag s.master master act inv.master step).2
  | epochExit | addWriteTx | send | sendExit | slave | slaveExit | takeMaster | takeSlave => exact List.prefix_refl _

theorem master_list (m : Master) (position : EpochInv m) : m.writeTxBuffer.entered <+: m.confirmed := by
  unfold EpochInv at position
  split at position
  · exact position.2 ▸ List.prefix_refl _
  · exact position.2 ▸ List.prefix_refl _
  · exact position.2 ▸ List.prefix_refl _
  · exact position.2.2 ▸ List.prefix_refl _
  · exact position.2.2 ▸ List.prefix_refl _
  · exact position.2.2.1 ▸ List.prefix_refl _
  · exact position.2.2.1 ▸ List.prefix_refl _
  · exact position.2.2 ▸ List.prefix_append _ _

theorem queue_content (p : Deployment) (s : Sequencers) (r : Nat) (inv : SequencersInv p s) (node : p.IsNode r) :
    (s.queue r).entered.map Batch.content <+: s.master.confirmed.map Batch.content := by
  rcases node with rfl | replica
  · exact (master_list s.master inv.master.position).map Batch.content
  · have own : s.queue r = (s.slave r).writeTxBuffer := if_neg (Nat.ne_of_gt replica.1)
    rw [own]
    exact (inv.slave r replica).delivered

end EpochReplication
