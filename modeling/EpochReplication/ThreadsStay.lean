import EpochReplication.NeverWedged
import EpochReplication.SessionReads

set_option autoImplicit false

namespace EpochReplication

theorem epoch_returned (flag : Int) (m next : Master) (act : EpochAct) (step : EpochStep flag m act next)
    (returned : next.epochPc = .returned) : flag ≠ 0 ∧ m.epochPc ≠ .barrier := by
  cases step with
  | leave pc other => exact ⟨other, by rw [pc]; simp⟩
  | stop cur pc one => exact ⟨by rw [one]; decide, by rw [pc]; simp⟩
  | spin pc =>
      rw [pc] at returned
      cases returned
  | start | enter | check | swap | log | count | enqueue => cases returned

theorem recieve_returned (flag masterFlag : Int) (net sent : List Packet) (r c : Nat) (conn : Connection)
    (next : RecieveThread) (act : RecieveAct) (inv : ConnectionInv flag r c conn)
    (step : RecieveStep masterFlag net r c conn.recieve act next sent) (returned : next.pc = .returned) :
    masterFlag ≠ 0 ∧ conn.recieve.pc ≠ .barrier := by
  cases step with
  | leave pc other => exact ⟨other, by rw [pc]; simp⟩
  | quit tx pc fresh other => exact absurd (inv.hands tx (.inl pc)).write other
  | wait pc | retry _ _ pc =>
      rw [pc] at returned
      cases returned
  | start | enter | receive | ignore | discard | accept | add => cases returned

theorem master_returned (p : Deployment) (s t : Sequencers) (flag : Int) (act : SequencersAct)
    (taken : Sequencers.step p s (flag, act) = some t) (returned : t.master.epochPc = .returned) :
    s.master.epochPc = .returned ∨ (∃ a, act = .epoch a) ∧ flag ≠ 0 ∧ s.master.epochPc ≠ .barrier := by
  cases sequencers_step_cases p s t (flag, act) taken with
  | epoch flag act master live step => exact .inr ⟨⟨act, rfl⟩, epoch_returned flag s.master master act step returned⟩
  | epochExit | addWriteTx | send | sendExit | slave | slaveExit | takeMaster | takeSlave => exact .inl returned

theorem epoch_leaves (p : Deployment) (writeRate : Nat) (d next : Database) (act : DatabaseAct)
    (taken : Database.step p writeRate d act = some next) (returned : next.replicas.sequencers.master.epochPc = .returned) :
    d.replicas.sequencers.master.epochPc = .returned ∨
      d.intake.flag 0 ≠ 0 ∧ d.replicas.sequencers.master.epochPc ≠ .barrier := by
  rcases database_nodes_step p writeRate d next act taken with same | ⟨q, inner, moved, from_⟩
  · rw [same] at returned
    exact .inl returned
  · generalize next.replicas = s at moved returned
    cases replicas_step_cases p d.replicas s _ moved with
    | sequencers flag act t kind stepped =>
        refine (master_returned p d.replicas.sequencers t _ act stepped returned).imp_right fun left => ?_
        obtain ⟨⟨a, rfl⟩, other⟩ := left
        obtain ⟨rfl, _⟩ := from_ _ rfl
        exact other
    | take flag q batch rest t exec node running took stepped done =>
        refine (master_returned p d.replicas.sequencers t _ _ stepped returned).imp_right fun left => ?_
        obtain ⟨⟨a, no⟩, _⟩ := left
        cases no
    | takeNone | write | read => exact .inl returned

theorem schedulers_leave (p : Deployment) (s t : Replicas) (flag : Int) (act : ReplicasAct) (r : Nat)
    (taken : Replicas.step p s (flag, act) = some t) :
    ((t.exec r).writePc = .returned → (s.exec r).writePc = .returned ∨ act = .write r .loop ∧ flag ≠ 0) ∧
      ((t.exec r).readPc = .returned → (s.exec r).readPc = .returned ∨ act = .read r .loop ∧ flag ≠ 0) := by
  have write : ∀ (q : Nat) (act : WriteAct) (exec : Exec), WriteStep flag q (s.exec q) act exec →
      ((Function.update s.exec q exec r).writePc = .returned →
        (s.exec r).writePc = .returned ∨ (r = q ∧ act = .loop) ∧ flag ≠ 0) ∧
      ((Function.update s.exec q exec r).readPc = .returned → (s.exec r).readPc = .returned) := by
    intro q act exec done
    by_cases here : r = q
    · subst here
      simp only [Function.update_self]
      refine ⟨fun returned => .inr ?_, fun returned => ?_⟩
      · cases done with
        | leave pc other => exact ⟨⟨trivial, rfl⟩, other⟩
        | enter | takeNone | take | complete | crash | writeOwn | writeOther | fetchNone | fetch | assign | raise =>
            cases returned
      · rw [write_step_reads flag r (s.exec r) exec act done] at returned
        exact returned
    · simp only [Function.update_of_ne here]
      exact ⟨.inl, id⟩
  cases replicas_step_cases p s t (flag, act) taken with
  | sequencers => exact ⟨.inl, .inl⟩
  | takeNone flag q exec node running done =>
      obtain ⟨writes, reads⟩ := write q _ exec done
      exact ⟨fun returned => (writes returned).imp_right fun no => (by cases no.1.2), fun returned => .inl (reads returned)⟩
  | take flag q batch rest next exec node running took moved done =>
      obtain ⟨writes, reads⟩ := write q _ exec done
      exact ⟨fun returned => (writes returned).imp_right fun no => (by cases no.1.2), fun returned => .inl (reads returned)⟩
  | write flag q act exec kind node running done =>
      obtain ⟨writes, reads⟩ := write q act exec done
      refine ⟨fun returned => (writes returned).imp_right fun left => ?_, fun returned => .inl (reads returned)⟩
      obtain ⟨⟨rfl, rfl⟩, other⟩ := left
      exact ⟨rfl, other⟩
  | read flag q act exec node running done =>
      by_cases here : r = q
      · subst here
        simp only [Function.update_self]
        refine ⟨fun returned => ?_, fun returned => .inr ?_⟩
        · have same : exec.writePc = (s.exec r).writePc := by cases done <;> rfl
          rw [same] at returned
          exact .inl returned
        · cases done with
          | leave pc other => exact ⟨rfl, other⟩
          | enter | takeNone | take | crash | read | raise => cases returned
      · simp only [Function.update_of_ne here]
        exact ⟨.inl, .inl⟩

theorem schedulers_leave_database (p : Deployment) (writeRate : Nat) (d next : Database) (act : DatabaseAct) (r : Nat)
    (taken : Database.step p writeRate d act = some next) :
    ((next.replicas.exec r).writePc = .returned → (d.replicas.exec r).writePc = .returned ∨ d.intake.flag r ≠ 0) ∧
      ((next.replicas.exec r).readPc = .returned → (d.replicas.exec r).readPc = .returned ∨ d.intake.flag r ≠ 0) := by
  have still : ∀ (q : Nat) (inner : ReplicasAct), (∀ e, inner = .write e .loop ∨ inner = .read e .loop → e = q) →
      Replicas.step p d.replicas (d.intake.flag q, inner) = some next.replicas →
      ((next.replicas.exec r).writePc = .returned → (d.replicas.exec r).writePc = .returned ∨ d.intake.flag r ≠ 0) ∧
        ((next.replicas.exec r).readPc = .returned → (d.replicas.exec r).readPc = .returned ∨ d.intake.flag r ≠ 0) := by
    intro q inner own moved
    obtain ⟨write, read⟩ := schedulers_leave p d.replicas next.replicas _ inner r moved
    refine ⟨fun returned => (write returned).imp_right fun left => ?_, fun returned => (read returned).imp_right fun left => ?_⟩
    · rw [own r (.inl left.1)]
      exact left.2
    · rw [own r (.inr left.1)]
      exact left.2
  cases database_step_cases p writeRate d next act taken with
  | start | finish | client | thread | recieve => exact ⟨.inl, .inl⟩
  | addWriteTx q e tx recieve sent replicas connection running pc step moved => exact still 0 _ (by simp) moved
  | sequencers act replicas kind moved => exact still _ _ (by simp) moved
  | takeBatch q replicas moved | write q replicas moved => exact still q _ (by simp) moved
  | writeLoop q replicas moved | readLoop q replicas moved => exact still q _ (by simp) moved
  | takeRead q replicas moved => exact still q _ (by simp) moved
  | fetch q i batch tx replicas pc found moved => exact still q _ (by simp) moved
  | assign q i e batch replicas pc moved | raise q i e batch replicas pc moved => exact still q _ (by simp) moved
  | readOut q e replicas pc out moved => exact still q _ (by simp) moved
  | read q e value replicas pc found moved => exact still q _ (by simp) moved
  | raiseRead q e replicas pc moved => exact still q _ (by simp) moved

structure Gone (flag : Int) (conn : Connection) : Prop where
  asked : flag = 1 ∨ conn.client.pc = .returned ∧ conn.thread.tx.type = .finishRequest

theorem thread_returned (flag : Int) (net sent : List Packet) (r c : Nat) (conn next : Connection)
    (act : ClientInterface.Act) (inv : ConnectionInv flag r c conn) (step : ThreadStep flag net r c conn act next sent)
    (gone : next.thread.pc = .returned) : Gone flag next := by
  cases step with
  | leave pc one | abandon pc one => exact ⟨.inl one⟩
  | receive data recvMsg len rest tx pc took filled request decoded =>
      subst filled
      obtain ⟨_, _, _, ⟨waiting, wire⟩ | ⟨left, wire⟩⟩ :=
        received_request_of_turn conn inv.turn pc data conn.thread.recvMsg len rest took
      · rw [← decoded] at wire
        have type : tx.type = conn.client.sendTx.type := congrArg WireTx.type wire
        rcases (inv.issued waiting).1.kind with write | read
        · rw [type.trans write] at gone
          cases gone
        · rw [type.trans read] at gone
          cases gone
      · rw [← decoded] at wire
        exact ⟨.inr ⟨left, congrArg WireTx.type wire⟩⟩
  | spin pc =>
      rw [pc] at gone
      cases gone
  | poll _ overtime _ _ | pollNothing overtime _ => cases overtime <;> cases gone
  | enter | ignore | requestRead | requestWrite | giveUp | send | check | checkFinish | acknowledge | complete | respond =>
      cases gone

theorem gone_step (p : Deployment) (writeRate : Nat) (d next : Database) (act : DatabaseAct) (r c : Nat)
    (inv : DatabaseInv p d) (connection : p.IsConnection r c) (taken : Database.step p writeRate d act = some next)
    (before : (d.intake.conn (r, c)).thread.pc = .returned → Gone (d.intake.flag r) (d.intake.conn (r, c))) :
    (next.intake.conn (r, c)).thread.pc = .returned → Gone (next.intake.flag r) (next.intake.conn (r, c)) := by
  intro gone
  have here : Gone (d.intake.flag r) (next.intake.conn (r, c)) := by
    cases database_conn_step p writeRate d next act r c taken with
    | same act other quiet conn =>
        rw [conn] at gone ⊢
        exact before gone
    | client act after _ step conn =>
        rw [conn] at gone ⊢
        have thread : after.thread = (d.intake.conn (r, c)).thread := by cases step <;> rfl
        rw [thread] at gone
        rcases (before gone).asked with one | ⟨left, _⟩
        · exact ⟨.inl one⟩
        · cases step with
          | request _ _ _ pc | receive _ _ _ _ _ pc | finish pc =>
              rw [left] at pc
              cases pc
    | thread act after sent _ step conn =>
        rw [conn] at gone ⊢
        exact thread_returned _ d.intake.net sent r c _ after act (inv.conns r c connection) step gone
    | recieve act inner recieve sent from_ step conn =>
        rw [conn] at gone ⊢
        exact ⟨(before gone).asked⟩
    | touch act tx touches conn =>
        rw [conn] at gone ⊢
        have pc : (waitForTx (d.intake.conn (r, c)).thread tx).pc = (d.intake.conn (r, c)).thread.pc := by cases tx <;> rfl
        have type : (waitForTx (d.intake.conn (r, c)).thread tx).tx.type = (d.intake.conn (r, c)).thread.tx.type := by
          cases tx <;> rfl
        refine ⟨(before (pc ▸ gone)).asked.imp_right fun left => ⟨left.1, type.trans left.2⟩⟩
  rcases database_flag_step p writeRate d next act r taken with same | one | ⟨master, _⟩
  · rw [same]
    exact here
  · exact ⟨.inl one⟩
  · exact absurd master (connection_not_master p r c connection)

structure StayingInv (p : Deployment) (d : Database) : Prop where
  early : d.intake.flag 0 = -1 → ∀ thread : BarrierThread, thread.Waits d
  epoch : d.intake.flag 0 ≠ 1 → d.replicas.sequencers.master.epochPc ≠ .returned
  recieve : d.intake.flag 0 ≠ 1 → ∀ r c, p.IsConnection r c → (d.intake.conn (r, c)).recieve.pc ≠ .returned
  write : ∀ r, p.IsSlave r → d.intake.flag r = 0 → (d.replicas.exec r).writePc ≠ .returned
  read : ∀ r, p.IsSlave r → d.intake.flag r = 0 → (d.replicas.exec r).readPc ≠ .returned
  gone : ∀ r c, p.IsConnection r c → (d.intake.conn (r, c)).thread.pc = .returned →
    Gone (d.intake.flag r) (d.intake.conn (r, c))

theorem staying_inv_initial (p : Deployment) : StayingInv p (Database.initial p) := by
  refine ⟨fun _ thread => by cases thread <;> rfl, ?_, ?_, ?_, ?_, ?_⟩ <;>
    simp [Database.initial, Replicas.initial, Sequencers.initial, Intake.initial, Exec.initial]

theorem flag_live (p : Deployment) (writeRate : Nat) (d next : Database) (act : DatabaseAct)
    (taken : Database.step p writeRate d act = some next) (live : next.intake.flag 0 ≠ 1) : d.intake.flag 0 ≠ 1 := by
  rcases database_flag_step p writeRate d next act 0 taken with same | one | ⟨_, was, _⟩
  · rw [← same]
    exact live
  · exact absurd one live
  · exact was

theorem flag_running (p : Deployment) (writeRate : Nat) (d next : Database) (act : DatabaseAct) (r : Nat)
    (replica : p.IsSlave r) (taken : Database.step p writeRate d act = some next) (running : next.intake.flag r = 0) :
    d.intake.flag r = 0 := by
  rcases database_flag_step p writeRate d next act r taken with same | one | ⟨master, _⟩
  · rw [← same]
    exact running
  · rw [one] at running
    cases running
  · exact absurd master (Nat.ne_of_gt replica.1)

theorem staying_inv_step (p : Deployment) (writeRate : Nat) (d next : Database) (act : DatabaseAct) (inv : DatabaseInv p d)
    (working : WorkingInv p d) (staying : StayingInv p d) (taken : Database.step p writeRate d act = some next) :
    StayingInv p next := by
  -- what is past its barrier has seen the flag at 0
  have started : ∀ thread : BarrierThread, ¬ thread.Waits d → d.intake.flag 0 ≠ 1 → d.intake.flag 0 = 0 := by
    intro thread past live
    rcases working.values with before | zero | one
    · exact absurd (staying.early before thread) past
    · exact zero
    · exact absurd one live
  refine ⟨?_, ?_, ?_, ?_, ?_, ?_⟩
  · intro before thread
    have was : d.intake.flag 0 = -1 := by
      rcases database_flag_step p writeRate d next act 0 taken with same | one | ⟨_, _, zero, _⟩
      · rw [← same]
        exact before
      · rw [one] at before
        cases before
      · rw [zero] at before
        cases before
    by_contra left
    have zero := ((barrier_step p writeRate d next act thread taken).2 (staying.early was thread) left).2
    rw [was] at zero
    cases zero
  · intro live returned
    have was := flag_live p writeRate d next act taken live
    rcases epoch_leaves p writeRate d next act taken returned with already | ⟨other, past⟩
    · exact staying.epoch was already
    · exact other (started .sequencer past was)
  · intro live r c connection returned
    have was := flag_live p writeRate d next act taken live
    rcases database_recieve_step p writeRate d next act r c taken with same | ⟨inner, sent, step, _⟩
    · rw [same] at returned
      exact staying.recieve was r c connection returned
    · obtain ⟨other, past⟩ := recieve_returned (d.intake.flag r) _ d.intake.net sent r c (d.intake.conn (r, c)) _ inner
        (inv.conns r c connection) step returned
      exact other (started (.recieveTx r c) past was)
  · intro r replica running returned
    have was := flag_running p writeRate d next act r replica taken running
    rcases (schedulers_leave_database p writeRate d next act r taken).1 returned with already | other
    · exact staying.write r replica was already
    · exact other was
  · intro r replica running returned
    have was := flag_running p writeRate d next act r replica taken running
    rcases (schedulers_leave_database p writeRate d next act r taken).2 returned with already | other
    · exact staying.read r replica was already
    · exact other was
  · intro r c connection
    exact gone_step p writeRate d next act r c inv connection taken (staying.gone r c connection)

theorem staying_inv_reachable (p : Deployment) (writeRate : Nat) (d : Database)
    (reachable : (database p writeRate).Reachable d) : StayingInv p d := by
  induction reachable with
  | init => exact staying_inv_initial p
  | step d next act before taken ih =>
      exact staying_inv_step p writeRate d next act (database_inv_reachable p writeRate d before)
        (working_inv_reachable p writeRate d before) ih taken

def WritePc.pointer : WritePc → Option Nat
  | .assigning _ _ c | .raising _ _ c => some c
  | _ => none

-- The schedulers of replica `r` hold a pointer to the transaction of the
-- client_thread of client `c`, or are about to read it from wait_for_exe.
inductive HoldsPointer (d : Database) (r c : Nat) : Prop where
  | queued (reader : c ∈ d.readers r) : HoldsPointer d r c
  | fetching (batch : Batch) (i : Nat) (tx : Tx) (pc : (d.replicas.exec r).writePc = .fetching batch i)
      (found : batch.txSet[i]? = some tx) (slot : d.intake.waitForExe r tx.clientId.toInt = some c) : HoldsPointer d r c
  | reporting (pointer : (d.replicas.exec r).writePc.pointer = some c) : HoldsPointer d r c

theorem write_pointer (pc : WritePc) (c : Nat) (pointer : pc.pointer = some c) :
    ∃ batch i, pc = .raising batch i c ∨ pc = .assigning batch i c := by
  cases pc with
  | assigning batch i e =>
      cases pointer
      exact ⟨batch, i, .inr rfl⟩
  | raising batch i e =>
      cases pointer
      exact ⟨batch, i, .inl rfl⟩
  | loop | taking | writing | fetching | returned | crashed => cases pointer

structure StillServed (conn : Connection) : Prop where
  waiting : conn.client.pc = .waiting
  busy : conn.thread.pc.idle = false
  same : SameRequest conn.thread.tx.wire conn.client.sendTx.wire
  incomplete : conn.thread.tx.completeFlag = 0

theorem still_served (flag : Int) (conn : Connection) (turn : Turn conn) (loop : conn.thread.pc ≠ .loop)
    (receiving : conn.thread.pc ≠ .receiving) (kind : conn.thread.tx.type ≠ .finishRequest) (live : flag ≠ 1)
    (gone : conn.thread.pc = .returned → Gone flag conn) (incomplete : conn.thread.tx.completeFlag = 0) :
    StillServed conn := by
  have busy : conn.thread.pc.idle = false := by
    cases pc : conn.thread.pc with
    | loop => exact absurd pc loop
    | receiving => exact absurd pc receiving
    | returned =>
        rcases (gone pc).asked with one | ⟨_, finish⟩
        · exact absurd one live
        · exact absurd finish kind
    | reading | registering | sending | waitingAck | polling | completing | responding => rfl
  obtain ⟨waiting, _, _, same⟩ := turn_serving conn turn busy
  exact ⟨waiting, busy, same, incomplete⟩

theorem fetched_flow (p : Deployment) (d : Database) (r c i : Nat) (batch : Batch) (tx : Tx) (inv : DatabaseInv p d)
    (nodes : NodesInv p d.replicas) (node : p.IsNode r) (pc : (d.replicas.exec r).writePc = .fetching batch i)
    (found : batch.txSet[i]? = some tx) (slot : d.intake.waitForExe r tx.clientId.toInt = some c) :
    p.IsConnection r c ∧ ∃ rest, flow r c (d.replicas.unfinished r) (d.intake.conn (r, c)).recieve = tx.wire :: rest := by
  have reports := inv.reports r node
  unfold Reports at reports
  rw [pc] at reports
  obtain ⟨same, there, own⟩ := reports
  rw [found] at there
  cases there
  have member := current_placed p d.replicas r (i + 1) batch nodes.sequencers nodes.replicas node (by rw [pc]; rfl) tx.wire
    (wire_member batch i tx found)
  obtain ⟨⟨q, e, connection, issued⟩, _⟩ := inv.placed tx.wire member
  have replica : tx.replicaId.toInt = q := issued.replica
  have client : tx.clientId.toInt = e := issued.client
  obtain rfl : q = r := by omega
  have report : (d.replicas.exec q).writePc.reporting = [tx.wire] := by simp [pc, WritePc.reporting, found]
  obtain ⟨rest, work⟩ := reporting_flow d q e tx.wire (d.intake.conn (q, e)).recieve report
    ((mine_iff q e tx.wire).mpr ⟨replica, client⟩)
  have parked := (stage_carries _ _ _ _ e _ _ tx.wire rest work (inv.stages q e connection)).2.2.2.1
  rw [client, parked] at slot
  cases slot
  exact ⟨connection, rest, work⟩

structure PointedTo (conn : Connection) : Prop where
  loop : conn.thread.pc ≠ .loop
  receiving : conn.thread.pc ≠ .receiving
  kind : conn.thread.tx.type ≠ .finishRequest
  incomplete : conn.thread.tx.completeFlag = 0

theorem pointed_to (p : Deployment) (writeRate : Nat) (d : Database) (r c : Nat) (reachable : (database p writeRate).Reachable d)
    (replica : p.IsSlave r) (holds : HoldsPointer d r c) : p.IsConnection r c ∧ PointedTo (d.intake.conn (r, c)) := by
  have inv := database_inv_reachable p writeRate d reachable
  have nodes := database_nodes_inv p writeRate d reachable
  have node : p.IsNode r := .inr replica
  have reported : ∀ (w : WireTx) (rest : List WireTx), p.IsConnection r c →
      flow r c (d.replicas.unfinished r) (d.intake.conn (r, c)).recieve = w :: rest → PointedTo (d.intake.conn (r, c)) := by
    intro w rest connection work
    obtain ⟨_, _, write, _, _, loop, receiving, unraised, _⟩ :=
      stage_carries _ _ _ _ c _ _ w rest work (inv.stages r c connection)
    exact ⟨loop, receiving, by rw [write]; simp, unraised.complete⟩
  cases holds with
  | queued reader =>
      obtain ⟨connection, waits⟩ := (inv.reads r).waits c reader
      have past : ∀ pc : ClientThreadPc, pc.completes = true ∨ pc = .returned → pc ≠ .loop ∧ pc ≠ .receiving := by
        rintro pc (completes | rfl)
        · constructor <;> rintro rfl <;> simp [ClientThreadPc.completes] at completes
        · simp
      obtain ⟨loop, receiving⟩ := past _ waits.waits
      exact ⟨connection, loop, receiving, by rw [waits.kind]; simp, waits.complete⟩
  | fetching batch i tx pc found slot =>
      obtain ⟨connection, rest, work⟩ := fetched_flow p d r c i batch tx inv nodes node pc found slot
      exact ⟨connection, reported tx.wire rest connection work⟩
  | reporting pointer =>
      obtain ⟨batch, i, pc⟩ := write_pointer _ c pointer
      have connection := reported_connection p d r c i batch inv nodes node pc
      obtain ⟨tx, rest, _, _, work⟩ := reported_waits p d r c i batch connection inv pc
      exact ⟨connection, reported tx.wire rest connection work⟩

theorem pointers_live (p : Deployment) (writeRate : Nat) (d : Database) (r c : Nat)
    (reachable : (database p writeRate).Reachable d) (replica : p.IsSlave r) (live : d.intake.flag r ≠ 1)
    (holds : HoldsPointer d r c) : p.IsConnection r c ∧ StillServed (d.intake.conn (r, c)) := by
  have inv := database_inv_reachable p writeRate d reachable
  obtain ⟨connection, pointed⟩ := pointed_to p writeRate d r c reachable replica holds
  exact ⟨connection, still_served (d.intake.flag r) _ (inv.conns r c connection).turn pointed.loop pointed.receiving
    pointed.kind live ((staying_inv_reachable p writeRate d reachable).gone r c connection) pointed.incomplete⟩

def firstReported : List DatabaseAct := firstResponse.take (firstResponse.length - 2)

theorem pointers_live_first_write : ∃ d, afterActs firstReported = some d ∧ HoldsPointer d 1 0 ∧
    StillServed (d.intake.conn (1, 0)) := by
  have ends : (afterActs firstReported).map (fun d => (d.intake.flag 1, (d.replicas.exec 1).writePc.pointer)) =
      some (0, some 0) := by
    decide +kernel
  obtain ⟨d, ran, ends⟩ := Option.map_eq_some_iff.mp ends
  simp only [Prod.mk.injEq] at ends
  obtain ⟨flag, pointer⟩ := ends
  exact ⟨d, ran, .reporting pointer, (pointers_live (configuration .proposedMethod) 50 d 1 0
    (Machine.reachable_exec _ firstReported _ d .init ran) (by decide) (by rw [flag]; decide) (.reporting pointer)).2⟩

end EpochReplication
