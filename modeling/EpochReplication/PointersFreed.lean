import EpochReplication.Lib.Progress
import EpochReplication.ThreadsStay

set_option autoImplicit false

namespace EpochReplication

-- How far a client_thread is from free_tx once its replica has been asked to
-- finish: request_write_tx gives up at its next datagram, the wait for the
-- complete flag ends at once, and the loop is left before the response.
def ClientThreadPc.untilFreed : ClientThreadPc → Nat
  | .polling => 5
  | .registering | .waitingAck => 4
  | .reading | .sending => 3
  | .completing | .receiving => 2
  | .responding | .loop => 1
  | .returned => 0

theorem finishing_thread (net : List Packet) (r c : Nat) (conn : Connection) (receiving : conn.thread.pc ≠ .receiving)
    (there : conn.thread.pc ≠ .returned) : ∃ act next, ClientInterface.clientThread 1 net r c conn act = some (next, []) ∧
      next.thread.pc.untilFreed < conn.thread.pc.untilFreed := by
  cases pc : conn.thread.pc with
  | receiving => exact absurd pc receiving
  | returned => exact absurd pc there
  | loop =>
      refine ⟨.loop, { conn with thread := { conn.thread with pc := .returned } }, ?_, by simp [ClientThreadPc.untilFreed]⟩
      simp [ClientInterface.clientThread, pc]
  | reading =>
      refine ⟨.requestRead, { conn with thread := { conn.thread with pc := .completing } }, ?_, by simp [ClientThreadPc.untilFreed]⟩
      simp [ClientInterface.clientThread, pc]
  | registering =>
      refine ⟨.requestWrite conn.thread.sendMsg conn.thread.recvMsg,
        { conn with
          thread := { conn.thread with
            pc := .sending
            addMsg := (createAddToBatchMsg conn.thread.tx conn.thread.sendMsg).1
            addMsgLen := (createAddToBatchMsg conn.thread.tx conn.thread.sendMsg).2
            ackMsg := conn.thread.recvMsg } }, ?_, by simp [ClientThreadPc.untilFreed]⟩
      simp [ClientInterface.clientThread, pc]
  | sending =>
      refine ⟨.send, { conn with thread := { conn.thread with pc := .completing } }, ?_, by simp [ClientThreadPc.untilFreed]⟩
      simp [ClientInterface.clientThread, pc]
  | waitingAck =>
      refine ⟨.check, { conn with thread := { conn.thread with pc := .sending } }, ?_, by simp [ClientThreadPc.untilFreed]⟩
      simp [ClientInterface.clientThread, pc]
  | polling =>
      refine ⟨.pollNothing false, { conn with thread := { conn.thread with pc := .waitingAck } }, ?_, by simp [ClientThreadPc.untilFreed]⟩
      simp [ClientInterface.clientThread, ClientInterface.afterPoll, pc]
  | completing =>
      refine ⟨.spin, { conn with thread := { conn.thread with pc := .responding } }, ?_, by simp [ClientThreadPc.untilFreed]⟩
      simp [ClientInterface.clientThread, pc]
  | responding =>
      refine ⟨.respond, { conn with thread := { conn.thread with pc := .returned } }, ?_, by simp [ClientThreadPc.untilFreed]⟩
      simp [ClientInterface.clientThread, pc]

theorem pointer_kept (d : Database) (r c : Nat) (act : ClientInterface.Act) (conn : Nat × Nat → Connection)
    (net : List Packet) (holds : HoldsPointer d r c) :
    HoldsPointer { d with
      intake := ⟨d.intake.flag, conn, d.intake.registered r c act, d.intake.requestedReads r c act, net⟩ } r c := by
  cases holds with
  | queued reader =>
      refine .queued ?_
      have more : ∀ e ∈ (d.intake.readTxBuffer r).pending, e ∈ (d.intake.requestedReads r c act r).pending := by
        intro e member
        cases act with
        | requestRead => simp [Intake.requestedReads, member]
        | loop | receive | requestWrite | send | check | poll | pollNothing | spin | respond => exact member
      rcases List.mem_append.mp reader with held | queued
      · exact List.mem_append_left _ held
      · exact List.mem_append_right _ (more c queued)
  | fetching batch i tx pc found slot =>
      refine .fetching batch i tx pc found ?_
      cases act with
      | requestWrite =>
          simp only [Intake.registered, Function.update_self]
          by_cases same : tx.clientId.toInt = (d.intake.conn (r, c)).thread.tx.clientId.toInt
          · rw [same, Function.update_self]
          · rw [Function.update_of_ne same]
            exact slot
      | loop | receive | requestRead | send | check | poll | pollNothing | spin | respond => exact slot
  | reporting pointer => exact .reporting pointer

def DatabaseAct.shutsDown (r c : Nat) : DatabaseAct → Prop
  | .finish q => q = r
  | .thread q e _ => q = r ∧ e = c
  | _ => False

structure ShuttingDown (p : Deployment) (writeRate r c : Nat) (replicas : Replicas) (d : Database) : Prop where
  reachable : (database p writeRate).Reachable d
  flag : d.intake.flag r = 1
  same : d.replicas = replicas
  holds : HoldsPointer d r c

theorem shutting_down_closer (p : Deployment) (writeRate r c : Nat) (replicas : Replicas) (d : Database)
    (replica : p.IsSlave r) (running : replicas.sequencers.running r = true)
    (down : ShuttingDown p writeRate r c replicas d) (there : (d.intake.conn (r, c)).thread.pc ≠ .returned) :
    ∃ next, (database p writeRate).Leads (DatabaseAct.shutsDown r c) d next ∧ ShuttingDown p writeRate r c replicas next ∧
      (next.intake.conn (r, c)).thread.pc.untilFreed < (d.intake.conn (r, c)).thread.pc.untilFreed := by
  obtain ⟨connection, pointed⟩ := pointed_to p writeRate d r c down.reachable replica down.holds
  obtain ⟨act, conn, done, less⟩ := finishing_thread d.intake.net r c (d.intake.conn (r, c)) pointed.receiving there
  have ready : p.IsConnection r c ∧ d.running r = true := ⟨connection, by rw [Database.running, down.same]; exact running⟩
  have taken : Database.step p writeRate d (.thread r c act) = some
      { d with
        intake :=
          { flag := d.intake.flag
            conn := Function.update d.intake.conn (r, c) conn
            waitForExe := d.intake.registered r c act
            readTxBuffer := d.intake.requestedReads r c act
            net := d.intake.net ++ [] } } := by
    simp only [Database.step, if_pos ready, Intake.threadStep, down.flag, done, Option.map_some]
  refine ⟨_, Machine.leads_one _ _ d _ (.thread r c act) ⟨rfl, rfl⟩ taken, ⟨.step d _ (.thread r c act) down.reachable taken,
    down.flag, down.same, pointer_kept d r c act _ _ down.holds⟩, ?_⟩
  simp only [Function.update_self]
  exact less

theorem finish_frees_pointed (p : Deployment) (writeRate : Nat) (d : Database) (r c : Nat)
    (reachable : (database p writeRate).Reachable d) (replica : p.IsSlave r) (running : d.running r = true)
    (holds : HoldsPointer d r c) :
    ∃ next, (database p writeRate).Leads (DatabaseAct.shutsDown r c) d next ∧ next.replicas = d.replicas ∧
      HoldsPointer next r c ∧ (next.intake.conn (r, c)).thread.pc = .returned := by
  have taken : Database.step p writeRate d (.finish r) = some { d with intake := d.intake.finish r } := rfl
  have asked : (database p writeRate).Leads (DatabaseAct.shutsDown r c) d { d with intake := d.intake.finish r } :=
    Machine.leads_one _ _ d _ (.finish r) rfl taken
  have down : ShuttingDown p writeRate r c d.replicas { d with intake := d.intake.finish r } := by
    refine ⟨.step d _ (.finish r) reachable taken, Function.update_self .., rfl, ?_⟩
    cases holds with
    | queued reader => exact .queued reader
    | fetching batch i tx pc found slot => exact .fetching batch i tx pc found slot
    | reporting pointer => exact .reporting pointer
  obtain ⟨next, later, there, freed⟩ := Machine.leads_until _ (DatabaseAct.shutsDown r c)
    (ShuttingDown p writeRate r c d.replicas) (fun e => (e.intake.conn (r, c)).thread.pc = .returned)
    (fun e => (e.intake.conn (r, c)).thread.pc.untilFreed)
    (fun e shut left => shutting_down_closer p writeRate r c d.replicas e replica running shut left) _ down
  exact ⟨next, Machine.leads_trans _ _ d _ next asked later, there.same, there.holds, freed⟩

theorem finish_frees_pointed_first_write : ∃ d next, afterActs firstReported = some d ∧
    (database (configuration .proposedMethod) 50).Leads (DatabaseAct.shutsDown 1 0) d next ∧
    HoldsPointer next 1 0 ∧ (next.intake.conn (1, 0)).thread.pc = .returned := by
  have ends : (afterActs firstReported).map (fun d => (d.running 1, (d.replicas.exec 1).writePc.pointer)) =
      some (true, some 0) := by
    decide +kernel
  obtain ⟨d, ran, ends⟩ := Option.map_eq_some_iff.mp ends
  simp only [Prod.mk.injEq] at ends
  obtain ⟨running, pointer⟩ := ends
  obtain ⟨next, leads, -, holds, freed⟩ := finish_frees_pointed (configuration .proposedMethod) 50 d 1 0
    (Machine.reachable_exec _ firstReported _ d .init ran) (by decide) running (.reporting pointer)
  exact ⟨d, next, ran, leads, holds, freed⟩

end EpochReplication
