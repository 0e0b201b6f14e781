import EpochReplication.Lib.Machine
import EpochReplication.Scheduler

set_option autoImplicit false

namespace EpochReplication

-- Where main of the master stands: the three pthread_create calls, the loop over
-- the datagrams of the finish port, and the store of the 1 behind it.
inductive MasterMain where
  | creatingSequencer
  | creatingReadScheduler
  | creatingWriteScheduler
  | receiving
  | finishing
  | finished
deriving DecidableEq, Repr

def MasterMain.next : MasterMain → Option MasterMain
  | .creatingSequencer => some .creatingReadScheduler
  | .creatingReadScheduler => some .creatingWriteScheduler
  | .creatingWriteScheduler => some .receiving
  | _ => none

def MasterMain.readSchedulerCreated : MasterMain → Bool
  | .creatingSequencer | .creatingReadScheduler => false
  | _ => true

def MasterMain.writeSchedulerCreated : MasterMain → Bool
  | .receiving | .finishing | .finished => true
  | _ => false

structure MasterNode where
  systemFinishRequest : Int
  main : MasterMain
  exec : Exec

inductive NodeAct where
  | create
  | receive (recvMsg : String)
  | finish
  | write (act : WriteAct)
  | read (act : ReadAct)

def masterMain (n : MasterNode) (act : NodeAct) : Option MasterNode :=
  match act with
  | .create => n.main.next.map (fun main => { n with main := main })
  | .receive recvMsg =>
      if n.main = .receiving then
        if recvMsg = "finish" then some { n with main := .finishing }
        else if recvMsg = "start" then some { n with systemFinishRequest := 0 }
        else some n
      else none
  | .finish => if n.main = .finishing then some { n with systemFinishRequest := 1, main := .finished } else none
  | .write act =>
      if n.main.writeSchedulerCreated then
        (writeSchedulerStartup n.systemFinishRequest 0 n.exec act).map (fun exec => { n with exec := exec })
      else none
  | .read act =>
      if n.main.readSchedulerCreated then
        (readSchedulerStartup n.systemFinishRequest n.exec act).map (fun exec => { n with exec := exec })
      else none

def masterNode : Machine MasterNode NodeAct := ⟨⟨-1, .creatingSequencer, Exec.initial⟩, masterMain⟩

-- On a slave the finish port belongs to client_interface_startup, which has to
-- accept all its clients first, and main itself becomes the write scheduler.
inductive SlaveMain where
  | creatingClientInterface
  | creatingSequencer
  | creatingReadScheduler
  | writeScheduler
deriving DecidableEq, Repr

def SlaveMain.next : SlaveMain → Option SlaveMain
  | .creatingClientInterface => some .creatingSequencer
  | .creatingSequencer => some .creatingReadScheduler
  | .creatingReadScheduler => some .writeScheduler
  | .writeScheduler => none

inductive ClientInterfacePc where
  | accepting (n : Nat)
  | receiving
  | finishing
  | finished
deriving DecidableEq, Repr

structure SlaveNode where
  systemFinishRequest : Int
  main : SlaveMain
  clientInterface : ClientInterfacePc
  exec : Exec

inductive SlaveNodeAct where
  | create
  | accept
  | receive (recvMsg : String)
  | finish
  | write (act : WriteAct)
  | read (act : ReadAct)

def slaveMain (clientNum myReplicaId : Nat) (n : SlaveNode) (act : SlaveNodeAct) : Option SlaveNode :=
  match act with
  | .create => n.main.next.map (fun main => { n with main := main })
  | .accept =>
      match n.main, n.clientInterface with
      | .creatingClientInterface, _ => none
      | _, .accepting left =>
          if left + 1 < clientNum then some { n with clientInterface := .accepting (left + 1) }
          else some { n with clientInterface := .receiving }
      | _, _ => none
  | .receive recvMsg =>
      if n.clientInterface = .receiving then
        if recvMsg = "finish" then some { n with clientInterface := .finishing } else some n
      else none
  | .finish =>
      if n.clientInterface = .finishing then some { n with systemFinishRequest := 1, clientInterface := .finished }
      else none
  | .write act =>
      if n.main = .writeScheduler then
        (writeSchedulerStartup n.systemFinishRequest myReplicaId n.exec act).map (fun exec => { n with exec := exec })
      else none
  | .read act =>
      if n.main = .writeScheduler then
        (readSchedulerStartup n.systemFinishRequest n.exec act).map (fun exec => { n with exec := exec })
      else none

def slaveNode (clientNum myReplicaId : Nat) : Machine SlaveNode SlaveNodeAct :=
  ⟨⟨0, .creatingClientInterface, .accepting 0, Exec.initial⟩, slaveMain clientNum myReplicaId⟩

def QuitsEarly (systemFinishRequest : Int) (exec : Exec) : Prop :=
  (exec.writePc = .returned ∨ exec.readPc = .returned) ∧ systemFinishRequest ≠ 1

def TestsBeforeStart (n : MasterNode) (act : NodeAct) : Prop :=
  n.systemFinishRequest = -1 ∧ (act = .write .loop ∨ act = .read .loop)

structure MasterFlag (n : MasterNode) : Prop where
  values : n.systemFinishRequest = -1 ∨ n.systemFinishRequest = 0 ∨ n.systemFinishRequest = 1
  last : n.systemFinishRequest = 1 → n.main = .finished

theorem write_returned (flag : Int) (r : Nat) (e next : Exec) (act : WriteAct)
    (done : writeSchedulerStartup flag r e act = some next) :
    next.readPc = e.readPc ∧
      (next.writePc = .returned → e.writePc = .loop ∧ act = .loop ∧ flag ≠ 0) ∧
      (act = .loop → flag ≠ 0 → next.writePc = .returned) := by
  cases write_step_of_some flag r e next act done with
  | enter pc running => exact ⟨rfl, by simp, fun _ stopped => absurd running stopped⟩
  | leave pc stopped => exact ⟨rfl, fun _ => ⟨pc, rfl, stopped⟩, fun _ _ => rfl⟩
  | takeNone | take | complete | crash | writeOwn | writeOther | fetchNone | fetch | assign | raise =>
      exact ⟨rfl, by simp, by simp⟩

theorem read_returned (flag : Int) (e next : Exec) (act : ReadAct)
    (done : readSchedulerStartup flag e act = some next) :
    next.writePc = e.writePc ∧
      (next.readPc = .returned → e.readPc = .loop ∧ act = .loop ∧ flag ≠ 0) ∧
      (act = .loop → flag ≠ 0 → next.readPc = .returned) := by
  cases read_step_of_some flag e next act done with
  | enter pc running => exact ⟨rfl, by simp, fun _ stopped => absurd running stopped⟩
  | leave pc stopped => exact ⟨rfl, fun _ => ⟨pc, rfl, stopped⟩, fun _ _ => rfl⟩
  | takeNone | take | crash | read | raise => exact ⟨rfl, by simp, by simp⟩

inductive MasterNodeStep (n : MasterNode) : NodeAct → MasterNode → Prop where
  | create (main : MasterMain) (moved : n.main.next = some main) : MasterNodeStep n .create { n with main := main }
  | finishRequest (pc : n.main = .receiving) : MasterNodeStep n (.receive "finish") { n with main := .finishing }
  | start (pc : n.main = .receiving) : MasterNodeStep n (.receive "start") { n with systemFinishRequest := 0 }
  | ignore (recvMsg : String) (pc : n.main = .receiving) : MasterNodeStep n (.receive recvMsg) n
  | finish (pc : n.main = .finishing) :
      MasterNodeStep n .finish { n with systemFinishRequest := 1, main := .finished }
  | write (act : WriteAct) (exec : Exec) (created : n.main.writeSchedulerCreated = true)
      (done : writeSchedulerStartup n.systemFinishRequest 0 n.exec act = some exec) :
      MasterNodeStep n (.write act) { n with exec := exec }
  | read (act : ReadAct) (exec : Exec) (created : n.main.readSchedulerCreated = true)
      (done : readSchedulerStartup n.systemFinishRequest n.exec act = some exec) :
      MasterNodeStep n (.read act) { n with exec := exec }

theorem master_node_step_of_some (n next : MasterNode) (act : NodeAct) (done : masterMain n act = some next) :
    MasterNodeStep n act next := by
  cases act with
  | create =>
      obtain ⟨main, moved, rfl⟩ := Option.map_eq_some_iff.mp done
      exact .create main moved
  | receive recvMsg =>
      simp only [masterMain] at done
      split at done
      · rename_i pc
        split at done
        · rename_i msg
          cases done
          exact msg ▸ .finishRequest pc
        · split at done
          · rename_i msg
            cases done
            exact msg ▸ .start pc
          · cases done
            exact .ignore recvMsg pc
      · cases done
  | finish =>
      simp only [masterMain] at done
      split at done
      · rename_i pc
        cases done
        exact .finish pc
      · cases done
  | write act =>
      simp only [masterMain] at done
      split at done
      · rename_i created
        obtain ⟨exec, moved, rfl⟩ := Option.map_eq_some_iff.mp done
        exact .write act exec created moved
      · cases done
  | read act =>
      simp only [masterMain] at done
      split at done
      · rename_i created
        obtain ⟨exec, moved, rfl⟩ := Option.map_eq_some_iff.mp done
        exact .read act exec created moved
      · cases done

theorem master_flag_step (n next : MasterNode) (act : NodeAct) (flag : MasterFlag n)
    (done : masterMain n act = some next) : MasterFlag next := by
  obtain ⟨values, last⟩ := flag
  cases master_node_step_of_some n next act done with
  | create main moved =>
      refine ⟨values, fun one => ?_⟩
      simp [last one, MasterMain.next] at moved
  | finishRequest pc => exact ⟨values, fun one => by simp [last one] at pc⟩
  | start pc => exact ⟨.inr (.inl rfl), by simp⟩
  | ignore recvMsg pc => exact ⟨values, last⟩
  | finish pc => exact ⟨.inr (.inr rfl), fun _ => rfl⟩
  | write act exec created moved => exact ⟨values, last⟩
  | read act exec created moved => exact ⟨values, last⟩

theorem master_flag_reachable (n : MasterNode) (reachable : masterNode.Reachable n) : MasterFlag n :=
  Machine.invariant_reachable masterNode MasterFlag ⟨.inl rfl, by simp [masterNode]⟩
    (fun s act t flag taken => master_flag_step s t act flag taken) n reachable

theorem quits_early_step (n next : MasterNode) (act : NodeAct) (flag : MasterFlag n)
    (patient : ¬ TestsBeforeStart n act) (before : ¬ QuitsEarly n.systemFinishRequest n.exec)
    (done : masterMain n act = some next) : ¬ QuitsEarly next.systemFinishRequest next.exec := by
  obtain ⟨values, last⟩ := flag
  cases master_node_step_of_some n next act done with
  | create main moved => exact before
  | finishRequest pc => exact before
  | ignore recvMsg pc => exact before
  | start pc =>
      rintro ⟨returned, _⟩
      have running : n.systemFinishRequest ≠ 1 := fun one => by simp [last one] at pc
      exact before ⟨returned, running⟩
  | finish pc => exact fun early => early.2 rfl
  | write act exec created moved =>
      rintro ⟨returned, running⟩
      obtain ⟨same, enters, _⟩ := write_returned n.systemFinishRequest 0 n.exec exec act moved
      rcases returned with write | read
      · obtain ⟨_, rfl, stopped⟩ := enters write
        exact patient ⟨by simp only at running; omega, .inl rfl⟩
      · exact before ⟨.inr (same ▸ read), running⟩
  | read act exec created moved =>
      rintro ⟨returned, running⟩
      obtain ⟨same, enters, _⟩ := read_returned n.systemFinishRequest n.exec exec act moved
      rcases returned with write | read
      · exact before ⟨.inl (same ▸ write), running⟩
      · obtain ⟨_, rfl, stopped⟩ := enters read
        exact patient ⟨by simp only at running; omega, .inr rfl⟩

theorem patient_run (run : List (MasterNode × NodeAct)) (n : MasterNode) (trace : masterNode.Trace run n)
    (patient : ∀ x ∈ run, ¬ TestsBeforeStart x.1 x.2) : ¬ QuitsEarly n.systemFinishRequest n.exec := by
  induction trace with
  | init => simp [QuitsEarly, masterNode, Exec.initial]
  | step run s t act before taken ih =>
      exact quits_early_step s t act (master_flag_reachable s (Machine.trace_reachable _ run s before))
        (patient (s, act) (by simp)) (ih (fun x member => patient x (List.mem_append_left _ member))) taken

theorem tests_before_start_quits (n next : MasterNode) (act : NodeAct) (early : TestsBeforeStart n act)
    (done : masterMain n act = some next) : QuitsEarly next.systemFinishRequest next.exec := by
  obtain ⟨flag, rfl | rfl⟩ := early
  · cases master_node_step_of_some n next _ done with
    | write act exec created moved =>
        refine ⟨.inl ?_, by simp only [flag]; decide⟩
        exact (write_returned n.systemFinishRequest 0 n.exec exec .loop moved).2.2 rfl (by rw [flag]; decide)
  · cases master_node_step_of_some n next _ done with
    | read act exec created moved =>
        refine ⟨.inr ?_, by simp only [flag]; decide⟩
        exact (read_returned n.systemFinishRequest n.exec exec .loop moved).2.2 rfl (by rw [flag]; decide)

structure SlaveFlag (n : SlaveNode) : Prop where
  values : n.systemFinishRequest = 0 ∨ n.systemFinishRequest = 1
  live : ¬ QuitsEarly n.systemFinishRequest n.exec

theorem slave_flag_step (clientNum r : Nat) (n next : SlaveNode) (act : SlaveNodeAct) (flag : SlaveFlag n)
    (done : slaveMain clientNum r n act = some next) : SlaveFlag next := by
  obtain ⟨values, live⟩ := flag
  cases act with
  | create =>
      obtain ⟨main, moved, rfl⟩ := Option.map_eq_some_iff.mp done
      exact ⟨values, live⟩
  | accept =>
      simp only [slaveMain] at done
      split at done
      · cases done
      · split at done
        · cases done
          exact ⟨values, live⟩
        · cases done
          exact ⟨values, live⟩
      · cases done
  | receive recvMsg =>
      simp only [slaveMain] at done
      split at done
      · split at done
        · cases done
          exact ⟨values, live⟩
        · cases done
          exact ⟨values, live⟩
      · cases done
  | finish =>
      simp only [slaveMain] at done
      split at done
      · cases done
        exact ⟨.inr rfl, fun early => early.2 rfl⟩
      · cases done
  | write act =>
      simp only [slaveMain] at done
      split at done
      · obtain ⟨exec, moved, rfl⟩ := Option.map_eq_some_iff.mp done
        refine ⟨values, ?_⟩
        rintro ⟨returned, running⟩
        obtain ⟨same, enters, _⟩ := write_returned n.systemFinishRequest r n.exec exec act moved
        rcases returned with write | read
        · obtain ⟨_, _, stopped⟩ := enters write
          simp only at running
          omega
        · exact live ⟨.inr (same ▸ read), running⟩
      · cases done
  | read act =>
      simp only [slaveMain] at done
      split at done
      · obtain ⟨exec, moved, rfl⟩ := Option.map_eq_some_iff.mp done
        refine ⟨values, ?_⟩
        rintro ⟨returned, running⟩
        obtain ⟨same, enters, _⟩ := read_returned n.systemFinishRequest n.exec exec act moved
        rcases returned with write | read
        · exact live ⟨.inl (same ▸ write), running⟩
        · obtain ⟨_, _, stopped⟩ := enters read
          simp only at running
          omega
      · cases done

theorem slave_flag_reachable (clientNum r : Nat) (n : SlaveNode) (reachable : (slaveNode clientNum r).Reachable n) :
    SlaveFlag n :=
  Machine.invariant_reachable (slaveNode clientNum r) SlaveFlag
    ⟨.inl rfl, by simp [QuitsEarly, slaveNode, Exec.initial]⟩
    (fun s act t flag taken => slave_flag_step clientNum r s t act flag taken) n reachable

-- The threads of the sequencer wait for the flag to become 0 before they loop on
-- it; the schedulers of the master do not, and on a slave it starts out as 0.
theorem schedulers_stay_iff (run : List (MasterNode × NodeAct)) (n : MasterNode) (trace : masterNode.Trace run n) :
    ((∀ s, s = n ∨ (∃ x ∈ run, x.1 = s) → ¬ QuitsEarly s.systemFinishRequest s.exec) ↔
      ∀ x ∈ run, ¬ TestsBeforeStart x.1 x.2) ∧
    ∀ clientNum r s, (slaveNode clientNum r).Reachable s → ¬ QuitsEarly s.systemFinishRequest s.exec := by
  refine ⟨⟨?_, ?_⟩, fun clientNum r s reachable => (slave_flag_reachable clientNum r s reachable).live⟩
  · intro stay x member early
    obtain ⟨next, moved, there⟩ := Machine.trace_after _ run n trace x member
    exact stay next there (tests_before_start_quits x.1 next x.2 early moved)
  · rintro patient s (rfl | ⟨x, member, rfl⟩)
    · exact patient_run run s trace patient
    · obtain ⟨earlier, before, within⟩ := Machine.trace_before _ run n trace x member
      exact patient_run earlier x.1 before (fun y found => patient y (within y found))

def earlyTest : List NodeAct := [.create, .create, .create, .write .loop]

theorem early_test_returns : ∃ n, masterNode.exec masterNode.init earlyTest = some n ∧
    QuitsEarly n.systemFinishRequest n.exec :=
  ⟨_, rfl, .inl rfl, by decide⟩

theorem schedulers_stay_iff_early_test : ∃ run n, masterNode.Trace run n ∧
    ¬ ∀ x ∈ run, ¬ TestsBeforeStart x.1 x.2 := by
  obtain ⟨n, ran, early⟩ : ∃ n, masterNode.exec masterNode.init earlyTest = some n ∧
      QuitsEarly n.systemFinishRequest n.exec := ⟨_, rfl, .inl rfl, by decide⟩
  obtain ⟨run, trace⟩ := Machine.reachable_trace _ n (Machine.reachable_exec _ earlyTest _ n .init ran)
  exact ⟨run, n, trace, fun patient => (schedulers_stay_iff run n trace).1.mpr patient n (.inl rfl) early⟩

end EpochReplication
