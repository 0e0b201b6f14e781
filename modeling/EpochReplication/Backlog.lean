import EpochReplication.Lib.Progress
import EpochReplication.ThreadsStay

set_option autoImplicit false

namespace EpochReplication

-- How many steps write_scheduler_startup has still to take for the batch it has
-- in its hands, at most four for a transaction of its own replica.
def WritePc.weight : WritePc → Nat
  | .loop => 2
  | .taking => 1
  | .writing batch i => 4 * (batch.txSet.length - i) + 3
  | .fetching batch i => 4 * (batch.txSet.length - i) + 2
  | .assigning batch i _ => 4 * (batch.txSet.length - i) + 1
  | .raising batch i _ => 4 * (batch.txSet.length - i)
  | .returned | .crashed => 0

def Batch.weight (batch : Batch) : Nat := 4 * batch.txSet.length + 4

def Database.backlog (r : Nat) (d : Database) : Nat :=
  (d.replicas.exec r).writePc.weight + ((d.replicas.sequencers.queue r).pending.map Batch.weight).sum

def DatabaseAct.schedulesWrites (r : Nat) : DatabaseAct → Prop
  | .takeBatch q | .writeLoop q | .write q | .fetch q | .assign q | .raise q => q = r
  | _ => False

structure Unscheduled (r : Nat) (d next : Database) : Prop where
  flag : next.intake.flag = d.intake.flag
  master : next.replicas.sequencers.master = d.replicas.sequencers.master
  slave : ∀ q, (next.replicas.sequencers.slave q).pc = (d.replicas.sequencers.slave q).pc
  entered : (next.replicas.sequencers.queue r).entered = (d.replicas.sequencers.queue r).entered
  client : ∀ q e, (next.intake.conn (q, e)).client = (d.intake.conn (q, e)).client
  recieve : ∀ q e, (next.intake.conn (q, e)).recieve = (d.intake.conn (q, e)).recieve
  thread : ∀ q e, (next.intake.conn (q, e)).thread.pc = (d.intake.conn (q, e)).thread.pc

theorem unscheduled_refl (r : Nat) (d : Database) : Unscheduled r d d :=
  ⟨rfl, rfl, fun _ => rfl, rfl, fun _ _ => rfl, fun _ _ => rfl, fun _ _ => rfl⟩

theorem unscheduled_trans (r : Nat) (d next last : Database) (first : Unscheduled r d next)
    (rest : Unscheduled r next last) : Unscheduled r d last where
  flag := rest.flag.trans first.flag
  master := rest.master.trans first.master
  slave := fun q => (rest.slave q).trans (first.slave q)
  entered := rest.entered.trans first.entered
  client := fun q e => (rest.client q e).trans (first.client q e)
  recieve := fun q e => (rest.recieve q e).trans (first.recieve q e)
  thread := fun q e => (rest.thread q e).trans (first.thread q e)

theorem unscheduled_exec (p : Deployment) (d : Database) (replicas : Replicas) (flag : Int) (r : Nat) (act : WriteAct)
    (intake : Intake) (moved : Replicas.step p d.replicas (flag, .write r act) = some replicas)
    (same : intake = d.intake ∨ ∃ e tx, intake = d.intake.touchTx r e tx) : Unscheduled r d ⟨replicas, intake⟩ := by
  have conns : intake.flag = d.intake.flag ∧ ∀ q e, (intake.conn (q, e)).client = (d.intake.conn (q, e)).client ∧
      (intake.conn (q, e)).recieve = (d.intake.conn (q, e)).recieve ∧
      (intake.conn (q, e)).thread.pc = (d.intake.conn (q, e)).thread.pc := by
    rcases same with rfl | ⟨c, tx, rfl⟩
    · exact ⟨rfl, fun _ _ => ⟨rfl, rfl, rfl⟩⟩
    · refine ⟨rfl, fun q e => ⟨?_, ?_, ?_⟩⟩
      · exact update_view Connection.client d.intake.conn r c q e _ rfl
      · exact update_view Connection.recieve d.intake.conn r c q e _ rfl
      · refine update_view (fun conn => conn.thread.pc) d.intake.conn r c q e _ ?_
        cases tx <;> rfl
  cases replicas_step_cases p d.replicas replicas _ moved with
  | write flag r act exec kind node running done =>
      exact ⟨conns.1, rfl, fun _ => rfl, rfl, fun q e => (conns.2 q e).1, fun q e => (conns.2 q e).2.1,
        fun q e => (conns.2 q e).2.2⟩

theorem unscheduled_take (p : Deployment) (d : Database) (replicas : Replicas) (flag : Int) (r : Nat)
    (replica : p.IsSlave r) (moved : Replicas.step p d.replicas (flag, .takeBatch r) = some replicas) :
    Unscheduled r d { d with replicas := replicas } := by
  have not_master : r ≠ 0 := Nat.ne_of_gt replica.1
  cases replicas_step_cases p d.replicas replicas _ moved with
  | takeNone flag r exec node running done =>
      exact ⟨rfl, rfl, fun _ => rfl, rfl, fun _ _ => rfl, fun _ _ => rfl, fun _ _ => rfl⟩
  | take flag r batch rest next exec node running took stepped done =>
      have list := queue_taken p d.replicas.sequencers next flag r r batch rest took stepped
      rw [if_pos rfl] at list
      cases sequencers_step_cases p d.replicas.sequencers next (flag, .takeBatch r) stepped with
      | takeMaster => exact absurd rfl not_master
      | takeSlave flag r first others replica also =>
          refine ⟨rfl, rfl, fun q => ?_, ?_, fun _ _ => rfl, fun _ _ => rfl, fun _ _ => rfl⟩
          · by_cases here : q = r
            · subst here
              simp
            · simp [here]
          · rw [list, (Fifo.try_take_some _ rest batch took).2.1]

theorem unscheduled_step (p : Deployment) (writeRate : Nat) (d next : Database) (act : DatabaseAct) (r : Nat)
    (replica : p.IsSlave r) (kind : act.schedulesWrites r) (taken : Database.step p writeRate d act = some next) :
    Unscheduled r d next := by
  cases database_step_cases p writeRate d next act taken with
  | start | finish | client | thread | recieve | addWriteTx | sequencers | readLoop | takeRead | readOut | read
  | raiseRead => exact kind.elim
  | takeBatch q replicas moved =>
      obtain rfl : q = r := kind
      exact unscheduled_take p d replicas _ q replica moved
  | writeLoop q replicas moved | write q replicas moved =>
      obtain rfl : q = r := kind
      exact unscheduled_exec p d replicas _ q _ _ moved (.inl rfl)
  | fetch q i batch tx replicas pc found moved =>
      obtain rfl : q = r := kind
      exact unscheduled_exec p d replicas _ q _ _ moved (.inl rfl)
  | assign q i e batch replicas pc moved | raise q i e batch replicas pc moved =>
      obtain rfl : q = r := kind
      exact unscheduled_exec p d replicas _ q _ _ moved (.inr ⟨e, _, rfl⟩)

theorem inside_write (p : Deployment) (d : Database) (r : Nat) (act : WriteAct) (exec : Exec)
    (kind : ∀ batch, act ≠ .take batch) (node : p.IsNode r) (running : d.running r = true)
    (done : writeSchedulerStartup (d.intake.flag r) r (d.replicas.exec r) act = some exec) :
    Replicas.step p d.replicas (d.intake.flag r, .write r act) =
      some { d.replicas with exec := Function.update d.replicas.exec r exec } := by
  have ready : p.IsNode r ∧ d.replicas.sequencers.running r = true := ⟨node, running⟩
  cases act with
  | take batch => exact absurd rfl (kind batch)
  | loop | write | fetch | assign | raise => simp only [Replicas.step, if_pos ready, done, Option.map_some]

theorem take_moves (p : Deployment) (d : Database) (r : Nat) (replica : p.IsSlave r) (running : d.running r = true)
    (pc : (d.replicas.exec r).writePc = .taking) (work : (d.replicas.sequencers.queue r).pending ≠ []) :
    ∃ batch rest sequencers,
      (d.replicas.sequencers.queue r).pending = batch :: rest ∧
      (sequencers.queue r).pending = rest ∧
      Replicas.step p d.replicas (d.intake.flag r, .takeBatch r) =
        some ⟨sequencers, Function.update d.replicas.exec r { d.replicas.exec r with writePc := .writing batch 0 }⟩ := by
  have not_master : r ≠ 0 := Nat.ne_of_gt replica.1
  have list : d.replicas.sequencers.queue r = (d.replicas.sequencers.slave r).writeTxBuffer := if_neg not_master
  have ready : p.IsNode r ∧ d.replicas.sequencers.running r = true := ⟨.inr replica, running⟩
  have live : ¬ (¬ p.IsSlave r ∨ (d.replicas.sequencers.slave r).pc = .aborted ∨
      (d.replicas.sequencers.slave r).pc = .exited) := by
    simp only [Database.running, Sequencers.running, if_neg not_master] at running
    simp only [not_or, not_not]
    refine ⟨replica, ?_, ?_⟩ <;> intro pc <;> simp [pc] at running
  cases took : (d.replicas.sequencers.queue r).tryTake with
  | none => exact absurd (Fifo.try_take_none _ took) work
  | some pair =>
      obtain ⟨batch, rest⟩ := pair
      have stepped : Sequencers.step p d.replicas.sequencers (d.intake.flag r, .takeBatch r) = some
          { d.replicas.sequencers with
            slave := Function.update d.replicas.sequencers.slave r
              { d.replicas.sequencers.slave r with writeTxBuffer := rest } } := by
        rw [list] at took
        simp only [Sequencers.step, if_neg not_master, if_neg live, took, Option.map_some]
      refine ⟨batch, rest.pending, { d.replicas.sequencers with
        slave := Function.update d.replicas.sequencers.slave r
          { d.replicas.sequencers.slave r with writeTxBuffer := rest } },
        Fifo.try_take_pending _ rest batch took, ?_, ?_⟩
      · simp [Sequencers.queue, not_master]
      · simp only [Replicas.step, if_pos ready, Replicas.takeBatch, took, stepped, writeSchedulerStartup, pc,
          Option.bind_some, Option.map_some]

theorem backlog_exec (d : Database) (r : Nat) (exec : Exec) (intake : Intake)
    (less : exec.writePc.weight < (d.replicas.exec r).writePc.weight) :
    Database.backlog r ⟨{ d.replicas with exec := Function.update d.replicas.exec r exec }, intake⟩ < d.backlog r := by
  simp only [Database.backlog, Function.update_self]
  exact Nat.add_lt_add_right less _

theorem scheduler_moves (p : Deployment) (writeRate : Nat) (d : Database) (r : Nat)
    (reachable : (database p writeRate).Reachable d) (replica : p.IsSlave r) (flag : d.intake.flag r = 0)
    (running : d.running r = true) (stays : (d.replicas.exec r).writePc ≠ .returned)
    (work : (d.replicas.exec r).writePc = .taking → (d.replicas.sequencers.queue r).pending ≠ []) :
    ∃ act next, act.schedulesWrites r ∧ Database.step p writeRate d act = some next ∧ next.backlog r < d.backlog r := by
  have inv := database_inv_reachable p writeRate d reachable
  have nodes := database_nodes_inv p writeRate d reachable
  have node : p.IsNode r := .inr replica
  have reports := inv.reports r node
  have inside := (nodes.replicas r node).inside
  have moves : ∀ (act : WriteAct) (exec : Exec), (∀ batch, act ≠ .take batch) →
      writeSchedulerStartup (d.intake.flag r) r (d.replicas.exec r) act = some exec →
      Replicas.step p d.replicas (d.intake.flag r, .write r act) =
        some { d.replicas with exec := Function.update d.replicas.exec r exec } :=
    fun act exec kind done => inside_write p d r act exec kind node running done
  cases pc : (d.replicas.exec r).writePc with
  | returned => exact absurd pc stays
  | crashed => exact absurd pc (reports_live _ _ r reports)
  | loop =>
      have moved := moves .loop { d.replicas.exec r with writePc := .taking } (by simp)
        (by simp only [writeSchedulerStartup, pc, flag, if_true])
      refine ⟨.writeLoop r, _, rfl, by simp only [Database.step, Database.inside, moved]; rfl, ?_⟩
      exact backlog_exec d r _ _ (by rw [pc]; exact Nat.lt_succ_self 1)
  | taking =>
      obtain ⟨batch, rest, sequencers, before, after, moved⟩ := take_moves p d r replica running pc (work pc)
      refine ⟨.takeBatch r, _, rfl, by simp only [Database.step, Database.inside, moved]; rfl, ?_⟩
      simp only [Database.backlog, Function.update_self, after, before, pc, WritePc.weight, List.map_cons, List.sum_cons,
        Batch.weight, Nat.sub_zero]
      omega
  | writing batch i =>
      have some_exec : ∃ exec, writeSchedulerStartup (d.intake.flag r) r (d.replicas.exec r) .write = some exec := by
        simp only [writeSchedulerStartup, pc]
        split
        · exact ⟨_, rfl⟩
        · split
          · exact ⟨_, rfl⟩
          · split <;> exact ⟨_, rfl⟩
      obtain ⟨exec, done⟩ := some_exec
      have moved := moves .write exec (by simp) done
      have taken : Database.step p writeRate d (.write r) =
          some { d with replicas := { d.replicas with exec := Function.update d.replicas.exec r exec } } := by
        simp only [Database.step, Database.inside, moved]
        rfl
      have later : (database p writeRate).Reachable
          { d with replicas := { d.replicas with exec := Function.update d.replicas.exec r exec } } :=
        .step d _ (.write r) reachable taken
      have live := reports_live _ _ r ((database_inv_reachable p writeRate _ later).reports r node)
      simp only [Function.update_self] at live
      refine ⟨.write r, _, rfl, taken, backlog_exec d r exec _ ?_⟩
      cases write_step_of_some _ r _ exec .write done with
      | crash => exact absurd rfl live
      | complete other j here last =>
          rw [here, WritePc.weight, WritePc.weight]
          omega
      | writeOwn other j tx storage here found | writeOther other j tx storage here found =>
          have short := (List.getElem?_eq_some_iff.mp found).1
          rw [here, WritePc.weight, WritePc.weight]
          omega
  | fetching batch i =>
      have reports := reports
      unfold Reports at reports
      rw [pc] at reports
      obtain ⟨tx, found, _⟩ := reports
      obtain ⟨c, _, slot⟩ := fetching_parked p d r i batch tx inv nodes.sequencers nodes.replicas node pc found
      have moved := moves (.fetch (d.intake.waitForExe r tx.clientId.toInt))
        { d.replicas.exec r with writePc := .assigning batch i c } (by simp)
        (by simp only [writeSchedulerStartup, pc, slot])
      refine ⟨.fetch r, _, rfl, ?_, backlog_exec d r { d.replicas.exec r with writePc := .assigning batch i c } d.intake ?_⟩
      · simp only [Database.step, Database.fetch, pc, found, Option.bind_some, Database.inside, moved]
        rfl
      · rw [pc]
        exact Nat.lt_succ_self _
  | assigning batch i c =>
      have moved := moves .assign { d.replicas.exec r with writePc := .raising batch i c } (by simp)
        (by simp only [writeSchedulerStartup, pc])
      refine ⟨.assign r, _, rfl, ?_, backlog_exec d r { d.replicas.exec r with writePc := .raising batch i c }
        (d.intake.touchTx r c (.assign (Int16.ofInt (d.replicas.exec r).epoch))) ?_⟩
      · simp only [Database.step, Database.assign, pc, Database.touching, moved]
        rfl
      · rw [pc]
        exact Nat.lt_succ_self _
  | raising batch i c =>
      obtain ⟨_, _, _, _, short⟩ := inside batch (i + 1) (by rw [pc]; rfl)
      have moved := moves .raise { d.replicas.exec r with writePc := .writing batch (i + 1) } (by simp)
        (by simp only [writeSchedulerStartup, pc])
      refine ⟨.raise r, _, rfl, ?_, backlog_exec d r { d.replicas.exec r with writePc := .writing batch (i + 1) }
        (d.intake.touchTx r c (.raise (some ((d.replicas.exec r).epoch.toNat, i)))) ?_⟩
      · simp only [Database.step, Database.raise, pc, Database.touching, moved]
        rfl
      · rw [pc, WritePc.weight, WritePc.weight]
        omega

structure AllDelivered (r : Nat) (d : Database) : Prop where
  placed : d.replicas.sequencers.master.placed = d.replicas.sequencers.master.confirmed.flatMap Batch.wire
  delivered : (d.replicas.sequencers.queue r).entered.length = d.replicas.sequencers.master.confirmed.length

theorem dry_finished (p : Deployment) (d : Database) (r : Nat) (nodes : NodesInv p d.replicas) (node : p.IsNode r)
    (delivered : AllDelivered r d) (pc : (d.replicas.exec r).writePc = .taking)
    (dry : (d.replicas.sequencers.queue r).pending = []) : d.replicas.unfinished r = [] := by
  have copy := queue_content p d.replicas.sequencers r nodes.sequencers node
  have same := copy.eq_of_length (by simp [delivered.delivered])
  have all : (d.replicas.sequencers.queue r).entered.take (d.replicas.sequencers.queue r).left =
      (d.replicas.sequencers.queue r).entered := List.take_of_length_le (List.drop_eq_nil_iff.mp dry)
  have executed : d.replicas.executedBy r = d.replicas.sequencers.master.placed := by
    rw [delivered.placed, content_wires, ← same, ← content_wires]
    simp only [Replicas.executedBy, executed, pc, WritePc.current, all]
  simp [Replicas.unfinished, executed, pc, WritePc.reporting]

theorem write_scheduler_drains (p : Deployment) (writeRate : Nat) (d : Database) (r : Nat)
    (reachable : (database p writeRate).Reachable d) (replica : p.IsSlave r) (flag : d.intake.flag r = 0)
    (running : d.running r = true) (delivered : AllDelivered r d) :
    ∃ next, (database p writeRate).Leads (DatabaseAct.schedulesWrites r) d next ∧ Unscheduled r d next ∧
      next.replicas.unfinished r = [] := by
  have not_master : r ≠ 0 := Nat.ne_of_gt replica.1
  have closer : ∀ e, (database p writeRate).Reachable e ∧ Unscheduled r d e → ¬ e.replicas.unfinished r = [] →
      ∃ after, (database p writeRate).Leads (DatabaseAct.schedulesWrites r) e after ∧
        ((database p writeRate).Reachable after ∧ Unscheduled r d after) ∧ after.backlog r < e.backlog r := by
    rintro e ⟨reachable, kept⟩ unfinished
    have still : e.running r = true := by
      simp only [Database.running, Sequencers.running, if_neg not_master, kept.slave] at running ⊢
      exact running
    have flag : e.intake.flag r = 0 := by
      rw [kept.flag]
      exact flag
    have stays := (staying_inv_reachable p writeRate e reachable).write r replica flag
    have arrived : AllDelivered r e := ⟨by rw [kept.master]; exact delivered.placed,
      by rw [kept.entered, kept.master]; exact delivered.delivered⟩
    have nodes := database_nodes_inv p writeRate e reachable
    obtain ⟨act, after, kind, taken, less⟩ := scheduler_moves p writeRate e r reachable replica flag still stays
      (fun pc dry => unfinished (dry_finished p e r nodes (.inr replica) arrived pc dry))
    have moved := unscheduled_step p writeRate e after act r replica kind taken
    exact ⟨after, Machine.leads_one _ _ e after act kind taken,
      ⟨.step e after act reachable taken, unscheduled_trans r d e after kept moved⟩, less⟩
  obtain ⟨next, leads, ⟨_, kept⟩, done⟩ := Machine.leads_until (database p writeRate) (DatabaseAct.schedulesWrites r)
    (fun e => (database p writeRate).Reachable e ∧ Unscheduled r d e) (fun e => e.replicas.unfinished r = [])
    (Database.backlog r) closer d ⟨reachable, unscheduled_refl r d⟩
  exact ⟨next, leads, kept, done⟩

end EpochReplication
