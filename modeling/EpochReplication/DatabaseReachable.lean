import EpochReplication.DatabaseNodes

set_option autoImplicit false

namespace EpochReplication

theorem write_step_reads (flag : Int) (r : Nat) (e next : Exec) (act : WriteAct) (step : WriteStep flag r e act next) :
    next.readPc = e.readPc := by
  cases step <;> rfl

theorem reports_exec (p : Deployment) (s t : Replicas) (conn : Nat × Nat → Connection) (r : Nat) (exec : Exec)
    (moved : t.exec = Function.update s.exec r exec) (here : Reports t conn r)
    (inv : ∀ q, p.IsNode q → Reports s conn q) (q : Nat) (node : p.IsNode q) : Reports t conn q := by
  by_cases same : q = r
  · exact same ▸ here
  · have kept : t.exec q = s.exec q := by rw [moved, Function.update_of_ne same]
    exact reports_of_same s t conn q (by rw [kept]) (by rw [kept]) (inv q node)

theorem readers_exec (p : Deployment) (d : Database) (t : Replicas) (conn : Nat × Nat → Connection) (r : Nat) (exec : Exec)
    (moved : t.exec = Function.update d.replicas.exec r exec) (pc : exec.readPc = (d.replicas.exec r).readPc)
    (inv : ∀ q, ReadsInv p q (d.readers q) conn) (q : Nat) :
    ReadsInv p q ((t.exec q).readPc.pointer.toList ++ (d.intake.readTxBuffer q).pending) conn := by
  have same : (t.exec q).readPc = (d.replicas.exec q).readPc := by
    rw [moved]
    by_cases here : q = r
    · subst here
      rw [Function.update_self, pc]
    · rw [Function.update_of_ne here]
  rw [same]
  exact inv q

theorem sequencers_database (p : Deployment) (d : Database) (replicas : Replicas) (flag : Int) (act : SequencersAct)
    (inv : DatabaseInv p d) (before : NodesInv p d.replicas) (after : NodesInv p replicas)
    (kind : ∀ tx, act ≠ .addWriteTx tx) (moved : Replicas.step p d.replicas (flag, .sequencers act) = some replicas) :
    DatabaseInv p { d with replicas := replicas } := by
  have exec : replicas.exec = d.replicas.exec := by
    cases replicas_step_cases p d.replicas replicas _ moved with
    | sequencers => rfl
  refine database_inv_inner p d replicas flag (.sequencers act) d.intake.readTxBuffer inv before after moved
    (fun tx add => kind tx (ReplicasAct.sequencers.inj add)) (fun r raise => (by cases raise)) ?_ ?_
  · intro r node
    exact reports_of_same d.replicas replicas d.intake.conn r (by rw [exec]) (by rw [exec]) (inv.reports r node)
  · intro r
    rw [exec]
    exact inv.reads r

theorem take_batch_database (p : Deployment) (d : Database) (replicas : Replicas) (flag : Int) (r : Nat)
    (inv : DatabaseInv p d) (before : NodesInv p d.replicas) (after : NodesInv p replicas)
    (moved : Replicas.step p d.replicas (flag, .takeBatch r) = some replicas) :
    DatabaseInv p { d with replicas := replicas } := by
  obtain ⟨exec, same, pc, reads⟩ : ∃ exec, replicas.exec = Function.update d.replicas.exec r exec ∧
      (exec.writePc = .loop ∨ ∃ batch, exec.writePc = .writing batch 0) ∧ exec.readPc = (d.replicas.exec r).readPc := by
    cases replicas_step_cases p d.replicas replicas _ moved with
    | takeNone flag r exec node running done =>
        refine ⟨exec, rfl, .inl ?_, write_step_reads flag r _ exec _ done⟩
        cases done
        rfl
    | take flag r batch rest next exec node running took stepped done =>
        refine ⟨exec, rfl, .inr ⟨batch, ?_⟩, write_step_reads flag r _ exec _ done⟩
        cases done
        rfl
  refine database_inv_inner p d replicas flag (.takeBatch r) d.intake.readTxBuffer inv before after moved
    (fun tx add => (by cases add)) (fun r raise => (by cases raise)) ?_
    (readers_exec p d replicas d.intake.conn r exec same reads inv.reads)
  refine reports_exec p d.replicas replicas d.intake.conn r exec same ?_ inv.reports
  unfold Reports
  rw [same, Function.update_self]
  rcases pc with loop | ⟨batch, writing⟩
  · rw [loop]
    trivial
  · rw [writing]
    trivial

theorem write_database (p : Deployment) (d : Database) (replicas : Replicas) (flag : Int) (r : Nat) (act : WriteAct)
    (inv : DatabaseInv p d) (before : NodesInv p d.replicas) (after : NodesInv p replicas) (other : act ≠ .assign)
    (quiet : act ≠ .raise)
    (fetch : ∀ slot, act = .fetch slot → ∃ batch i tx, (d.replicas.exec r).writePc = .fetching batch i ∧
      batch.txSet[i]? = some tx ∧ slot = d.intake.waitForExe r tx.clientId.toInt)
    (moved : Replicas.step p d.replicas (flag, .write r act) = some replicas) :
    DatabaseInv p { d with replicas := replicas } := by
  cases replicas_step_cases p d.replicas replicas _ moved with
  | write flag r act exec kind node running done =>
      have here := reports_write_step p d r flag act exec inv before.sequencers before.replicas node kind other fetch done
      exact database_inv_inner p d _ flag (.write r act) d.intake.readTxBuffer inv before after moved
        (fun tx add => (by cases add)) (fun q raise => quiet (ReplicasAct.write.inj raise).2)
        (reports_exec p d.replicas _ d.intake.conn r exec rfl here inv.reports)
        (readers_exec p d _ d.intake.conn r exec rfl (write_step_reads flag r _ exec act done) inv.reads)

theorem read_database (p : Deployment) (d : Database) (replicas : Replicas) (flag : Int) (r : Nat) (act : ReadAct)
    (reads : Nat → Fifo Nat) (inv : DatabaseInv p d) (before : NodesInv p d.replicas) (after : NodesInv p replicas)
    (readers : ∀ q, List.Sublist ((replicas.exec q).readPc.pointer.toList ++ (reads q).pending) (d.readers q))
    (moved : Replicas.step p d.replicas (flag, .read r act) = some replicas) :
    DatabaseInv p ⟨replicas, { d.intake with readTxBuffer := reads }⟩ := by
  cases replicas_step_cases p d.replicas replicas _ moved with
  | read flag r act exec node running done =>
      obtain ⟨pc, epoch, _⟩ := read_step_keeps flag _ exec act done
      refine database_inv_inner p d _ flag (.read r act) reads inv before after moved (fun tx add => (by cases add))
        (fun q raise => (by cases raise)) (reports_exec p d.replicas _ d.intake.conn r exec rfl ?_ inv.reports) ?_
      · exact reports_of_same d.replicas _ d.intake.conn r (by simpa using pc) (by simpa using epoch) (inv.reports r node)
      · intro q
        exact ⟨(inv.reads q).once.sublist (readers q), fun c member => (inv.reads q).waits c ((readers q).subset member)⟩

theorem reported_connection (p : Deployment) (d : Database) (r c i : Nat) (batch : Batch) (inv : DatabaseInv p d)
    (nodes : NodesInv p d.replicas) (node : p.IsNode r)
    (pc : (d.replicas.exec r).writePc = .raising batch i c ∨ (d.replicas.exec r).writePc = .assigning batch i c) :
    p.IsConnection r c := by
  obtain ⟨tx, found, replica, client, _⟩ := reported_tx d.replicas d.intake.conn r c i batch (inv.reports r node) pc
  have current : (d.replicas.exec r).writePc.current = some (batch, i + 1) := by
    rcases pc with raising | assigning
    · rw [raising]
      rfl
    · rw [assigning]
      rfl
  have member := current_placed p d.replicas r (i + 1) batch nodes.sequencers nodes.replicas node current tx.wire
    (wire_member batch i tx found)
  obtain ⟨⟨q, e, connection, issued⟩, _⟩ := inv.placed tx.wire member
  have own : tx.replicaId.toInt = q := issued.replica
  have by_client : tx.clientId.toInt = e := issued.client
  obtain rfl : q = r := by omega
  obtain rfl : e = c := by omega
  exact connection

theorem readers_touch (p : Deployment) (d : Database) (r c : Nat) (tx : TxAct) (inv : DatabaseInv p d)
    (write : (d.intake.conn (r, c)).thread.tx.type = .writeOnly) (q : Nat) :
    ReadsInv p q (d.readers q) (d.intake.touchTx r c tx).conn := by
  refine reads_update p q r c _ d.intake.conn _ ?_ (inv.reads q)
  intro _ _ waits
  rw [waits.kind] at write
  cases write

theorem assign_database (p : Deployment) (d : Database) (replicas : Replicas) (flag : Int) (r i c : Nat) (batch : Batch)
    (inv : DatabaseInv p d) (before : NodesInv p d.replicas) (after : NodesInv p replicas)
    (pc : (d.replicas.exec r).writePc = .assigning batch i c)
    (moved : Replicas.step p d.replicas (flag, .write r .assign) = some replicas) :
    DatabaseInv p ⟨replicas, d.intake.touchTx r c (.assign (Int16.ofInt (d.replicas.exec r).epoch))⟩ := by
  cases replicas_step_cases p d.replicas replicas _ moved with
  | write flag r act exec kind node running done =>
      obtain rfl : exec = { d.replicas.exec r with writePc := .raising batch i c } := by
        cases done with
        | assign other j e here =>
            rw [pc] at here
            cases here
            rfl
      have connection := reported_connection p d r c i batch inv before node (.inr pc)
      obtain ⟨tx, found, replica, client, report⟩ :=
        reported_tx d.replicas d.intake.conn r c i batch (inv.reports r node) (.inr pc)
      have own := (mine_iff r c tx.wire).mpr ⟨replica, client⟩
      obtain ⟨rest, work⟩ := reporting_flow d r c tx.wire (d.intake.conn (r, c)).recieve report own
      have carries := stage_carries _ _ _ _ c _ _ tx.wire rest work (inv.stages r c connection)
      have write := carries.2.2.1
      refine database_inv_touch p d _ flag (.write r .assign) r c _ inv before after moved (fun tx add => (by cases add))
        connection (fun v no => (by cases no)) (fun position no => (by cases no)) ?_ (fun q e _ no => (by cases no)) ?_
        (readers_exec p d _ _ r _ rfl rfl (readers_touch p d r c _ inv write))
      · have stage := stage_after p d _ flag (.write r .assign) before.sequencers after.sequencers before.replicas
          after.replicas moved (fun tx add => (by cases add)) r c node (by simp) (fun no => (by cases no))
          (inv.stages r c connection)
        obtain ⟨rest, work⟩ := reporting_flow
          { d with replicas := { d.replicas with
            exec := Function.update d.replicas.exec r { d.replicas.exec r with writePc := .raising batch i c } } }
          r c tx.wire (d.intake.conn (r, c)).recieve (by simp [WritePc.reporting, found]) own
        unfold Database.stage at stage
        simp only at work stage
        rw [work] at stage ⊢
        exact stage_touch_assign _ _ _ c _ _ _ tx.wire rest stage
      · refine reports_exec p d.replicas _ _ r _ rfl ?_ ?_
        · unfold Reports
          simp only [Function.update_self]
          exact ⟨⟨tx, found, replica, client⟩, by simp [Intake.touchTx, waitForTx, setAssignedEpochIdToTx]⟩
        · intro q other
          refine reports_update d.replicas q r c d.intake.conn _ ?_ (inv.reports q other)
          intro batch i raising
          rw [pc] at raising
          cases raising

theorem raising_position (p : Deployment) (s : Replicas) (r i c : Nat) (batch : Batch) (tx : Tx) (nodes : NodesInv p s)
    (node : p.IsNode r) (pc : (s.exec r).writePc = .raising batch i c) (found : batch.txSet[i]? = some tx) :
    ∃ k : Nat, (s.exec r).epoch = k ∧ ∃ confirmed same, s.sequencers.master.confirmed[k]? = some confirmed ∧
      confirmed.txSet[i]? = some same ∧ same.wire = tx.wire ∧
      ((s.sequencers.master.confirmed.take k).flatMap Batch.wire).length + i < (s.executedBy r).length := by
  have copy := queue_content p s.sequencers r nodes.sequencers node
  obtain ⟨k, count, left, entered, _⟩ := (nodes.replicas r node).inside batch (i + 1) (by rw [pc]; rfl)
  obtain ⟨confirmed, there, _, content⟩ := delivered_content _ _ k batch copy entered
  have inside := (List.getElem?_eq_some_iff.mp entered).1
  have wire : confirmed.wire[i]? = some tx.wire := by
    rw [← content]
    simp [Batch.wire, found]
  obtain ⟨same, original, equal⟩ : ∃ same, confirmed.txSet[i]? = some same ∧ same.wire = tx.wire := by
    simpa [Batch.wire] using wire
  have length : (s.executedBy r).length =
      (((s.sequencers.queue r).entered.take k).flatMap Batch.wire).length + (i + 1) := by
    have short : i < batch.wire.length := by
      rw [content]
      exact (List.getElem?_eq_some_iff.mp wire).1
    simp only [Replicas.executedBy, executed, pc, WritePc.current, left, Nat.add_sub_cancel, List.length_append,
      List.length_take]
    omega
  have taken : (s.sequencers.master.confirmed.take k).flatMap Batch.wire =
      ((s.sequencers.queue r).entered.take k).flatMap Batch.wire := by
    obtain ⟨rest, whole⟩ := copy
    rw [content_wires, content_wires, List.map_take, List.map_take, ← whole,
      List.take_append_of_le_length (by simp only [List.length_map]; omega)]
  exact ⟨k, count, confirmed, same, there, original, equal, by rw [taken, length]; omega⟩

theorem raise_database (p : Deployment) (d : Database) (replicas : Replicas) (flag : Int) (r i c : Nat) (batch : Batch)
    (inv : DatabaseInv p d) (before : NodesInv p d.replicas) (after : NodesInv p replicas)
    (pc : (d.replicas.exec r).writePc = .raising batch i c)
    (moved : Replicas.step p d.replicas (flag, .write r .raise) = some replicas) :
    DatabaseInv p ⟨replicas, d.intake.touchTx r c (.raise (some ((d.replicas.exec r).epoch.toNat, i)))⟩ := by
  cases replicas_step_cases p d.replicas replicas _ moved with
  | write flag r act exec kind node running done =>
      obtain rfl : exec = { d.replicas.exec r with writePc := .writing batch (i + 1) } := by
        cases done with
        | raise other j e here =>
            rw [pc] at here
            cases here
            rfl
      have connection := reported_connection p d r c i batch inv before node (.inl pc)
      obtain ⟨tx, found, replica, client, report⟩ :=
        reported_tx d.replicas d.intake.conn r c i batch (inv.reports r node) (.inl pc)
      have own := (mine_iff r c tx.wire).mpr ⟨replica, client⟩
      obtain ⟨rest, work⟩ := reporting_flow d r c tx.wire (d.intake.conn (r, c)).recieve report own
      have carries := stage_carries _ _ _ _ c _ _ tx.wire rest work (inv.stages r c connection)
      have write := carries.2.2.1
      refine database_inv_touch p d _ flag (.write r .raise) r c _ inv before after moved (fun tx add => (by cases add))
        connection (fun v no => (by cases no)) (fun _ _ reading => ?_) ?_ ?_ ?_
        (readers_exec p d _ _ r _ rfl rfl (readers_touch p d r c _ inv write))
      · have read := (inv.conns r c connection).reads reading
        rw [write] at read
        cases read
      · obtain ⟨more, _⟩ := work_step p d.replicas _ flag (.write r .raise) r after.sequencers before.replicas
          after.replicas node (by simp) (fun tx add => (by cases add)) moved
        have grown := confirmed_step p d.replicas _ (flag, .write r .raise) before.sequencers moved
        obtain ⟨k, count, confirmed, same, there, original, equal, position⟩ :=
          raising_position p d.replicas r i c batch tx before node pc found
        have reports := inv.reports r node
        unfold Reports at reports
        rw [pc] at reports
        have assigned : (d.intake.conn (r, c)).thread.tx.assignedEpochId = Int16.ofInt k := by rw [reports.2, count]
        have stage := inv.stages r c connection
        have rest : d.replicas.unfinished r = tx.wire ::
            Replicas.unfinished { d.replicas with
              exec := Function.update d.replicas.exec r { d.replicas.exec r with writePc := .writing batch (i + 1) } } r := by
          simp [Replicas.unfinished, Replicas.executedBy, executed, pc, WritePc.current, WritePc.reporting, found]
        unfold Database.stage flow at stage
        rw [rest, List.filter_cons, own, if_pos rfl, List.cons_append] at stage
        rw [count, Int.toNat_natCast]
        exact stage_mono _ _ _ _ _ _ c _ _ _ grown more.length_le (fun _ settled => settled)
          (stage_touch_raise _ _ k i _ c _ _ tx.wire _ confirmed same there original equal position assigned stage)
      · intro q e different same w member
        cases same
        rw [report] at member
        cases List.mem_singleton.mp member
        rw [Bool.eq_false_iff, Ne, mine_iff]
        rintro ⟨_, other⟩
        have both : tx.clientId.toInt = e := other
        exact different (by rw [show e = c by omega])
      · refine reports_exec p d.replicas _ _ r _ rfl ?_ ?_
        · unfold Reports
          simp only [Function.update_self]
        · intro q other
          refine reports_update d.replicas q r c d.intake.conn _ ?_ (inv.reports q other)
          intro _ _ _
          rfl

theorem read_waits (p : Deployment) (d : Database) (r c : Nat) (inv : DatabaseInv p d)
    (pointer : (d.replicas.exec r).readPc.pointer = some c) :
    p.IsConnection r c ∧ ReadWaits (d.intake.conn (r, c)).thread ∧ c ∉ (d.intake.readTxBuffer r).pending := by
  have reads := inv.reads r
  unfold Database.readers at reads
  rw [pointer] at reads
  obtain ⟨connection, waits⟩ := reads.waits c (by simp)
  exact ⟨connection, waits, (List.nodup_cons.mp reads.once).1⟩

theorem stage_reading (p : Deployment) (d : Database) (replicas : Replicas) (flag : Int) (r c : Nat) (act : ReadAct)
    (tx : TxAct) (inv : DatabaseInv p d) (before : NodesInv p d.replicas) (after : NodesInv p replicas)
    (connection : p.IsConnection r c) (waits : ReadWaits (d.intake.conn (r, c)).thread)
    (reports : Reports replicas d.intake.conn r)
    (moved : Replicas.step p d.replicas (flag, .read r act) = some replicas) :
    WriteStage replicas.sequencers.master.confirmed (replicas.executedBy r).length
      (flow r c (replicas.unfinished r) (d.intake.conn (r, c)).recieve) (d.intake.waitForExe r c) c
      (waitForTx (d.intake.conn (r, c)).thread tx) (d.intake.conn (r, c)).recieve := by
  have stage := stage_after p d replicas flag (.read r act) before.sequencers after.sequencers before.replicas
    after.replicas moved (fun tx add => (by cases add)) r c (connection_node p r c connection)
    (reports_live _ _ r reports) (fun no => (by cases no)) (inv.stages r c connection)
  have read : (d.intake.conn (r, c)).thread.tx.type ≠ .writeOnly := by
    rw [waits.kind]
    simp
  exact stage_touch_other _ _ _ _ c _ _ tx read stage

theorem value_database (p : Deployment) (d : Database) (replicas : Replicas) (flag : Int) (r c : Nat) (key : Int16)
    (value : Int) (inv : DatabaseInv p d) (before : NodesInv p d.replicas) (after : NodesInv p replicas)
    (pc : (d.replicas.exec r).readPc = .reading c) (found : readFromStorage (d.replicas.exec r).storage key = some value)
    (moved : Replicas.step p d.replicas (flag, .read r (.read key)) = some replicas) :
    DatabaseInv p ⟨replicas, d.intake.touchTx r c (.value value)⟩ := by
  cases replicas_step_cases p d.replicas replicas _ moved with
  | read flag r act exec node running done =>
      obtain rfl : exec = { d.replicas.exec r with readPc := .raising c } := by
        cases done with
        | crash e key here out =>
            rw [found] at out
            cases out
        | read e key stored here =>
            rw [pc] at here
            cases here
            rfl
      obtain ⟨connection, waits, _⟩ := read_waits p d r c inv (by rw [pc]; rfl)
      have reports : ∀ q, p.IsNode q → Reports { d.replicas with
          exec := Function.update d.replicas.exec r { d.replicas.exec r with readPc := .raising c } } d.intake.conn q :=
        reports_exec p d.replicas _ d.intake.conn r _ rfl
          (reports_of_same d.replicas _ d.intake.conn r (by simp) (by simp) (inv.reports r node)) inv.reports
      refine database_inv_touch p d _ flag (.read r (.read key)) r c _ inv before after moved (fun tx add => (by cases add))
        connection (fun _ _ => waits.kind) (fun position no => (by cases no))
        (stage_reading p d _ flag r c (.read key) _ inv before after connection waits (reports r node) moved)
        (fun q e _ no => (by cases no)) ?_ ?_
      · intro q other
        exact reports_update _ q r c d.intake.conn _ (fun _ _ _ => rfl) (reports q other)
      · intro q
        refine reads_update p q r c _ d.intake.conn _ (fun _ _ waits => ⟨waits.kind, waits.complete, waits.waits⟩) ?_
        by_cases here : q = r
        · subst here
          have reads := inv.reads q
          unfold Database.readers at reads
          rw [pc] at reads
          simpa [ReadPc.pointer] using reads
        · simpa [Database.readers, here] using inv.reads q

theorem raise_read_database (p : Deployment) (d : Database) (replicas : Replicas) (flag : Int) (r c : Nat)
    (inv : DatabaseInv p d) (before : NodesInv p d.replicas) (after : NodesInv p replicas)
    (pc : (d.replicas.exec r).readPc = .raising c)
    (moved : Replicas.step p d.replicas (flag, .read r .raise) = some replicas) :
    DatabaseInv p ⟨replicas, d.intake.touchTx r c (.raise none)⟩ := by
  cases replicas_step_cases p d.replicas replicas _ moved with
  | read flag r act exec node running done =>
      obtain rfl : exec = { d.replicas.exec r with readPc := .loop } := by
        cases done
        rfl
      obtain ⟨connection, waits, alone⟩ := read_waits p d r c inv (by rw [pc]; rfl)
      have reports : ∀ q, p.IsNode q → Reports { d.replicas with
          exec := Function.update d.replicas.exec r { d.replicas.exec r with readPc := .loop } } d.intake.conn q :=
        reports_exec p d.replicas _ d.intake.conn r _ rfl
          (reports_of_same d.replicas _ d.intake.conn r (by simp) (by simp) (inv.reports r node)) inv.reports
      refine database_inv_touch p d _ flag (.read r .raise) r c _ inv before after moved (fun tx add => (by cases add))
        connection (fun _ _ => waits.kind) (fun _ _ reading => ?_)
        (stage_reading p d _ flag r c .raise _ inv before after connection waits (reports r node) moved)
        (fun q e _ no => (by cases no)) ?_ ?_
      · rcases waits.waits with completes | gone
        · rw [reading] at completes
          cases completes
        · rw [reading] at gone
          cases gone
      · intro q other
        exact reports_update _ q r c d.intake.conn _ (fun _ _ _ => rfl) (reports q other)
      · intro q
        by_cases here : q = r
        · subst here
          refine reads_update p q q c _ d.intake.conn _ (fun _ member => ?_) ?_
          · simp only [Function.update_self, ReadPc.pointer, Option.toList_none, List.nil_append] at member
            exact absurd member alone
          · have reads := inv.reads q
            unfold Database.readers at reads
            rw [pc] at reads
            simp only [Function.update_self, ReadPc.pointer, Option.toList_none, List.nil_append]
            exact ⟨(List.nodup_cons.mp reads.once).2, fun e member => reads.waits e (List.mem_cons_of_mem _ member)⟩
        · refine reads_update p q r c _ d.intake.conn _ (fun same => absurd same here) ?_
          simpa [Database.readers, here] using inv.reads q

theorem readers_shorter (d : Database) (r q : Nat) (exec : Exec) (none : exec.readPc.pointer = none) :
    List.Sublist ((Function.update d.replicas.exec r exec q).readPc.pointer.toList ++ (d.intake.readTxBuffer q).pending)
      (d.readers q) := by
  unfold Database.readers
  by_cases here : q = r
  · subst here
    simp [none]
  · simp [here]

theorem take_read_shorter (d : Database) (r q : Nat) (exec : Exec) (flag : Int)
    (step : ReadStep flag (d.replicas.exec r) (.take (d.intake.takeRead r).1) exec) :
    (d.intake.takeRead r).2 = { d.intake with readTxBuffer := (d.intake.takeRead r).2.readTxBuffer } ∧
      List.Sublist ((Function.update d.replicas.exec r exec q).readPc.pointer.toList ++
        ((d.intake.takeRead r).2.readTxBuffer q).pending) (d.readers q) := by
  unfold Intake.takeRead at step ⊢
  unfold Database.readers
  cases took : (d.intake.readTxBuffer r).tryTake with
  | none =>
      rw [took] at step
      refine ⟨rfl, ?_⟩
      cases step with
      | takeNone pc =>
          by_cases here : q = r
          · subst here
            simp [ReadPc.pointer]
          · simp [here]
  | some pair =>
      obtain ⟨c, rest⟩ := pair
      rw [took] at step
      refine ⟨rfl, ?_⟩
      have before := Fifo.try_take_pending _ rest c took
      cases step with
      | take c pc =>
          by_cases here : q = r
          · subst here
            simp [ReadPc.pointer, before]
          · simp [here]

theorem start_database (p : Deployment) (d : Database) (inv : DatabaseInv p d) :
    DatabaseInv p { d with intake := { d.intake with flag := Function.update d.intake.flag 0 0 } } := by
  have same : ∀ r c, p.IsConnection r c → Function.update d.intake.flag 0 0 r = d.intake.flag r := by
    intro r c connection
    rw [Function.update_of_ne (connection_not_master p r c connection)]
  refine ⟨?_, ?_, ?_, ?_, inv.stages, inv.reports, inv.reads, inv.placed⟩
  · intro r not_master
    simp only [Function.update_of_ne not_master]
    exact inv.flags r not_master
  · intro r c connection
    simp only [same r c connection]
    exact inv.conns r c connection
  · intro packet member
    obtain ⟨r, c, connection, of⟩ := inv.net packet member
    refine ⟨r, c, connection, ?_⟩
    simp only [same r c connection]
    exact of
  · intro r c connection
    simp only [same r c connection]
    exact inv.answers r c connection

theorem finish_database (p : Deployment) (d : Database) (r : Nat) (inv : DatabaseInv p d) :
    DatabaseInv p { d with intake := d.intake.finish r } := by
  have values : ∀ q, (d.intake.finish r).flag q = if q = r then 1 else d.intake.flag q := by
    intro q
    by_cases here : q = r
    · subst here
      simp [Intake.finish]
    · simp [Intake.finish, here]
  refine ⟨?_, ?_, ?_, ?_, inv.stages, inv.reports, inv.reads, inv.placed⟩
  · intro q not_master
    simp only [values]
    split
    · exact .inr rfl
    · exact inv.flags q not_master
  · intro q c connection
    simp only [values]
    split
    · exact (finish_inv _ q c _ (inv.conns q c connection)).1
    · exact inv.conns q c connection
  · intro packet member
    obtain ⟨q, c, connection, of⟩ := inv.net packet member
    refine ⟨q, c, connection, ?_⟩
    simp only [values]
    split
    · exact packet_kept _ _ q c _ _ packet (finish_inv _ q c _ (inv.conns q c connection)).2 of
    · exact of
  · intro q c connection
    simp only [values]
    split
    · exact ⟨fun _ running => absurd rfl running, (inv.answers q c connection).read⟩
    · exact inv.answers q c connection

theorem database_inv_step (p : Deployment) (writeRate : Nat) (d next : Database) (act : DatabaseAct)
    (inv : DatabaseInv p d) (before : NodesInv p d.replicas) (after : NodesInv p next.replicas)
    (taken : Database.step p writeRate d act = some next) : DatabaseInv p next := by
  cases database_step_cases p writeRate d next act taken with
  | start live => exact start_database p d inv
  | finish r => exact finish_database p d r inv
  | client r c act conn connection step => exact client_step_database p writeRate d r c act conn connection inv step
  | thread r c act conn sent connection running step => exact thread_step_database p d r c act conn sent connection inv step
  | recieve r c act recieve sent kind connection running step =>
      exact recieve_step_database p d r c act recieve sent kind connection inv step
  | addWriteTx r c tx recieve sent replicas connection running pc step moved =>
      exact add_write_database p d replicas _ r c tx recieve sent inv before connection pc step moved
  | sequencers act replicas kind moved => exact sequencers_database p d replicas _ act inv before after kind moved
  | takeBatch r replicas moved => exact take_batch_database p d replicas _ r inv before after moved
  | writeLoop r replicas moved =>
      exact write_database p d replicas _ r .loop inv before after (by simp) (by simp) (fun _ no => (by cases no)) moved
  | write r replicas moved =>
      exact write_database p d replicas _ r .write inv before after (by simp) (by simp) (fun _ no => (by cases no)) moved
  | fetch r i batch tx replicas pc found moved =>
      refine write_database p d replicas _ r _ inv before after (by simp) (by simp) (fun slot same => ?_) moved
      cases same
      exact ⟨batch, i, tx, pc, found, rfl⟩
  | assign r i c batch replicas pc moved => exact assign_database p d replicas _ r i c batch inv before after pc moved
  | raise r i c batch replicas pc moved => exact raise_database p d replicas _ r i c batch inv before after pc moved
  | readLoop r replicas moved =>
      refine read_database p d replicas _ r .loop d.intake.readTxBuffer inv before after (fun q => ?_) moved
      cases replicas_step_cases p d.replicas replicas _ moved with
      | read flag r act exec node running done =>
          refine readers_shorter d r q exec ?_
          cases done <;> rfl
  | readOut r c replicas pc out moved =>
      refine read_database p d replicas _ r _ d.intake.readTxBuffer inv before after (fun q => ?_) moved
      cases replicas_step_cases p d.replicas replicas _ moved with
      | read flag r act exec node running done =>
          refine readers_shorter d r q exec ?_
          cases done with
          | crash => rfl
          | read e key value other found =>
              rw [found] at out
              cases out
  | takeRead r replicas moved =>
      cases replicas_step_cases p d.replicas replicas _ moved with
      | read flag r act exec node running done =>
          have shorter := fun q => take_read_shorter d r q exec _ done
          rw [(shorter r).1]
          exact read_database p d _ _ r _ _ inv before after (fun q => (shorter q).2) moved
  | read r c value replicas pc found moved =>
      exact value_database p d replicas _ r c _ value inv before after pc found moved
  | raiseRead r c replicas pc moved => exact raise_read_database p d replicas _ r c inv before after pc moved

theorem database_nodes_inv (p : Deployment) (writeRate : Nat) (d : Database)
    (reachable : (database p writeRate).Reachable d) : NodesInv p d.replicas :=
  nodes_inv_reachable p d.replicas (database_replicas_reachable p writeRate d reachable)

theorem database_inv_reachable (p : Deployment) (writeRate : Nat) (d : Database)
    (reachable : (database p writeRate).Reachable d) : DatabaseInv p d := by
  induction reachable with
  | init => exact database_inv_initial p
  | step d next act before taken ih =>
      exact database_inv_step p writeRate d next act ih (database_nodes_inv p writeRate d before)
        (database_nodes_inv p writeRate next (.step d next act before taken)) taken

end EpochReplication
