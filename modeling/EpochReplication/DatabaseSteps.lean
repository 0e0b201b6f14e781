import EpochReplication.DatabaseInvariant

set_option autoImplicit false

namespace EpochReplication

theorem mine_iff (r c : Nat) (w : WireTx) : mine r c w = true ↔ w.replicaId.toInt = r ∧ w.clientId.toInt = c := by
  simp [mine]

theorem reporting_flow (d : Database) (r c : Nat) (w : WireTx) (m : RecieveThread)
    (report : (d.replicas.exec r).writePc.reporting = [w]) (own : mine r c w = true) :
    ∃ rest, flow r c (d.replicas.unfinished r) m = w :: rest := by
  simp only [flow, Replicas.unfinished, report, List.filter_cons, own, if_true, List.cons_append]
  exact ⟨_, rfl⟩

theorem reported_tx (s : Replicas) (conn : Nat × Nat → Connection) (r c i : Nat) (batch : Batch)
    (reports : Reports s conn r)
    (pc : (s.exec r).writePc = .raising batch i c ∨ (s.exec r).writePc = .assigning batch i c) :
    ∃ tx, batch.txSet[i]? = some tx ∧ tx.replicaId.toInt = r ∧ tx.clientId.toInt = c ∧
      (s.exec r).writePc.reporting = [tx.wire] := by
  unfold Reports at reports
  obtain ⟨tx, found, replica, client⟩ :
      ∃ tx, batch.txSet[i]? = some tx ∧ tx.replicaId.toInt = r ∧ tx.clientId.toInt = c := by
    rcases pc with raising | assigning
    · rw [raising] at reports
      exact reports.1
    · rw [assigning] at reports
      exact reports
  refine ⟨tx, found, replica, client, ?_⟩
  rcases pc with raising | assigning
  · simp [raising, WritePc.reporting, found]
  · simp [assigning, WritePc.reporting, found]

theorem reported_waits (p : Deployment) (d : Database) (r c i : Nat) (batch : Batch) (connection : p.IsConnection r c)
    (inv : DatabaseInv p d) (pc : (d.replicas.exec r).writePc = .raising batch i c ∨
      (d.replicas.exec r).writePc = .assigning batch i c) :
    ∃ tx rest, batch.txSet[i]? = some tx ∧ (d.replicas.exec r).writePc.reporting = [tx.wire] ∧
      flow r c (d.replicas.unfinished r) (d.intake.conn (r, c)).recieve = tx.wire :: rest := by
  obtain ⟨tx, found, replica, client, report⟩ :=
    reported_tx d.replicas d.intake.conn r c i batch (inv.reports r (connection_node p r c connection)) pc
  obtain ⟨rest, same⟩ := reporting_flow d r c tx.wire (d.intake.conn (r, c)).recieve report
    ((mine_iff r c tx.wire).mpr ⟨replica, client⟩)
  exact ⟨tx, rest, found, report, same⟩

theorem database_inv_conn (p : Deployment) (d : Database) (r c : Nat) (conn : Connection) (net : List Packet)
    (slots : Nat → Int → Option Nat) (reads : Nat → Fifo Nat) (inv : DatabaseInv p d)
    (kept : ConnectionInv (d.intake.flag r) r c conn)
    (packets : PacketsKept (d.intake.flag r) (d.intake.flag r) (d.intake.conn (r, c)) conn)
    (connection : p.IsConnection r c)
    (sent : ∀ packet ∈ net, packet ∈ d.intake.net ∨ PacketOf (d.intake.flag r) r c conn packet)
    (answers : Answers (d.intake.flag r) conn.thread)
    (stage : WriteStage d.replicas.sequencers.master.confirmed (d.replicas.executedBy r).length
      (flow r c (d.replicas.unfinished r) conn.recieve) (slots r c) c conn.thread conn.recieve)
    (others : ∀ q e, p.IsConnection q e → (q, e) ≠ (r, c) → slots q e = d.intake.waitForExe q e)
    (assigned : ∀ batch i, (d.replicas.exec r).writePc = .raising batch i c →
      conn.thread.tx.assignedEpochId = (d.intake.conn (r, c)).thread.tx.assignedEpochId)
    (readers : ∀ q, ReadsInv p q ((d.replicas.exec q).readPc.pointer.toList ++ (reads q).pending)
      (Function.update d.intake.conn (r, c) conn)) :
    DatabaseInv p { d with
      intake := ⟨d.intake.flag, Function.update d.intake.conn (r, c) conn, slots, reads, net⟩ } where
  flags := inv.flags
  conns := update_conn p d.intake.conn r c conn (fun q e conn => ConnectionInv (d.intake.flag q) q e conn) kept
    (fun q e connection _ => inv.conns q e connection)
  net := by
    intro packet member
    rcases sent packet member with earlier | fresh
    · exact net_update p d r c conn inv packets packet earlier
    · exact ⟨r, c, connection, by simpa using fresh⟩
  answers := update_conn p d.intake.conn r c conn (fun q _ conn => Answers (d.intake.flag q) conn.thread) answers
    (fun q e connection _ => inv.answers q e connection)
  stages := update_conn p d.intake.conn r c conn (fun q e conn =>
      WriteStage d.replicas.sequencers.master.confirmed (d.replicas.executedBy q).length
        (flow q e (d.replicas.unfinished q) conn.recieve) (slots q e) e conn.thread conn.recieve) stage (by
    intro q e connection different
    rw [others q e connection different]
    exact inv.stages q e connection)
  reports := fun q node => reports_update d.replicas q r c d.intake.conn conn assigned (inv.reports q node)
  reads := readers
  placed := inv.placed

theorem client_step_database (p : Deployment) (writeRate : Nat) (d : Database) (r c : Nat) (act : ClientTime.Act)
    (conn : Connection) (connection : p.IsConnection r c) (inv : DatabaseInv p d)
    (step : ClientStep writeRate r c (d.intake.conn (r, c)) act conn) :
    DatabaseInv p { d with intake := { d.intake with conn := Function.update d.intake.conn (r, c) conn } } := by
  obtain ⟨kept, packets⟩ := client_inv_step p writeRate _ r c _ conn act connection (inv.conns r c connection) step
  have same : conn.thread = (d.intake.conn (r, c)).thread ∧ conn.recieve = (d.intake.conn (r, c)).recieve := by
    cases step <;> exact ⟨rfl, rfl⟩
  refine database_inv_conn p d r c conn d.intake.net d.intake.waitForExe d.intake.readTxBuffer inv kept packets connection
    (fun packet member => .inl member) (same.1 ▸ inv.answers r c connection) ?_ (fun _ _ _ _ => rfl)
    (fun _ _ _ => by rw [same.1]) ?_
  · rw [same.1, same.2]
    exact inv.stages r c connection
  · intro q
    exact reads_update p q r c _ d.intake.conn conn (fun _ _ waits => same.1 ▸ waits) (inv.reads q)

theorem recieve_step_database (p : Deployment) (d : Database) (r c : Nat) (act : RecieveAct) (recieve : RecieveThread)
    (sent : List Packet) (kind : ∀ batch, act ≠ .add batch) (connection : p.IsConnection r c) (inv : DatabaseInv p d)
    (step : RecieveStep (d.intake.flag 0) d.intake.net r c (d.intake.conn (r, c)).recieve act recieve sent) :
    DatabaseInv p { d with
      intake := { d.intake with
        conn := Function.update d.intake.conn (r, c) { d.intake.conn (r, c) with recieve := recieve }
        net := d.intake.net ++ sent } } := by
  obtain ⟨kept, packets, fresh⟩ := recieve_inv_step _ (d.intake.flag r) d.intake.net sent r c _ recieve act
    (inv.conns r c connection) (packets_of_recieve p d r c inv) step
  refine database_inv_conn p d r c _ (d.intake.net ++ sent) d.intake.waitForExe d.intake.readTxBuffer inv kept packets
    connection ?_ (inv.answers r c connection) ?_ (fun _ _ _ _ => rfl) (fun _ _ _ => rfl) ?_
  · intro packet member
    exact (List.mem_append.mp member).imp_right (fresh packet)
  · exact stage_recieve_step _ _ _ _ (d.intake.flag 0) (d.intake.flag r) d.intake.net sent r c
      (d.intake.conn (r, c)) recieve act kind (inv.conns r c connection) (packets_of_recieve p d r c inv) step
      (inv.stages r c connection)
  · intro q
    exact reads_update p q r c _ d.intake.conn _ (fun _ _ waits => waits) (inv.reads q)

theorem thread_keeps_tx (flag : Int) (net sent : List Packet) (r c : Nat) (conn next : Connection)
    (act : ClientInterface.Act) (other : conn.thread.pc ≠ .receiving) (step : ThreadStep flag net r c conn act next sent) :
    next.thread.tx = conn.thread.tx := by
  cases step with
  | receive _ _ _ _ _ pc => exact absurd pc other
  | _ => rfl

theorem read_waits_step (flag : Int) (net sent : List Packet) (r c : Nat) (conn next : Connection)
    (act : ClientInterface.Act) (answers : Answers flag conn.thread) (step : ThreadStep flag net r c conn act next sent)
    (waits : ReadWaits conn.thread) : ReadWaits next.thread := by
  obtain ⟨kind, complete, position⟩ := waits
  cases step with
  | spin => exact ⟨kind, complete, position⟩
  | complete pc free => exact ⟨kind, complete, .inl rfl⟩
  | abandon pc finish => exact ⟨kind, complete, .inr rfl⟩
  | respond pc running => exact absurd complete (answers.respond pc running)
  | enter pc | leave pc | receive _ _ _ _ _ pc | ignore _ _ _ _ pc | requestRead pc | requestWrite _ _ pc | giveUp pc
  | send pc | check pc | checkFinish pc | acknowledge _ _ _ _ pc | poll _ _ _ pc | pollNothing _ pc =>
      rw [pc] at position
      rcases position with no | no <;> cases no

theorem thread_step_database (p : Deployment) (d : Database) (r c : Nat) (act : ClientInterface.Act) (conn : Connection)
    (sent : List Packet) (connection : p.IsConnection r c) (inv : DatabaseInv p d)
    (step : ThreadStep (d.intake.flag r) d.intake.net r c (d.intake.conn (r, c)) act conn sent) :
    DatabaseInv p { d with
      intake :=
        { flag := d.intake.flag
          conn := Function.update d.intake.conn (r, c) conn
          waitForExe := d.intake.registered r c act
          readTxBuffer := d.intake.requestedReads r c act
          net := d.intake.net ++ sent } } := by
  have before := inv.conns r c connection
  have answers := inv.answers r c connection
  obtain ⟨kept, packets, fresh⟩ := thread_inv_step (d.intake.flag r) d.intake.net sent r c _ conn act before
    (packets_of_thread p d r c inv) step
  have recieve : conn.recieve = (d.intake.conn (r, c)).recieve := by cases step <;> rfl
  have own : (d.intake.conn (r, c)).thread.pc = .registering → (d.intake.conn (r, c)).thread.tx.clientId.toInt = c := by
    intro pc
    exact (serving_submitted _ r c _ before (by rw [pc]; rfl) (before.writes (.inl pc))).issued.client
  refine database_inv_conn p d r c conn (d.intake.net ++ sent) _ _ inv kept packets connection ?_
    (answers_step _ d.intake.net sent r c _ conn act (inv.flags r (connection_not_master p r c connection)) answers step)
    ?_ ?_ ?_ ?_
  · intro packet member
    exact (List.mem_append.mp member).imp_right (fresh packet)
  · have work : flow r c (d.replicas.unfinished r) conn.recieve =
        flow r c (d.replicas.unfinished r) (d.intake.conn (r, c)).recieve := by rw [recieve]
    rw [work]
    refine stage_thread_step _ _ _ (d.intake.waitForExe r c) _ _ d.intake.net sent r c _ conn act before answers
      ?_ ?_ step (inv.stages r c connection)
    · intro other
      cases step with
      | requestWrite _ _ pc => exact absurd pc other
      | _ => rfl
    · intro pc
      cases step with
      | requestWrite sendMsg recvMsg _ => simp [Intake.registered, own pc]
      | enter here | leave here | receive _ _ _ _ _ here | ignore _ _ _ _ here | requestRead here | giveUp here
      | send here | check here | checkFinish here | acknowledge _ _ _ _ here | poll _ _ _ here | pollNothing _ here
      | spin here | complete here | abandon here | respond here =>
          rw [pc] at here
          cases here
  · intro q e other different
    cases step with
    | requestWrite sendMsg recvMsg pc =>
        simp only [Intake.registered, own pc]
        by_cases same : q = r
        · subst same
          have apart : (e : Int) ≠ c := fun equal => different (by rw [Int.ofNat_inj.mp equal])
          rw [Function.update_self, Function.update_of_ne apart]
        · rw [Function.update_of_ne same]
    | _ => rfl
  · intro batch i raising
    obtain ⟨tx, rest, _, _, work⟩ := reported_waits p d r c i batch connection inv (.inl raising)
    have busy := stage_carries _ _ _ _ c _ _ tx.wire rest work (inv.stages r c connection)
    rw [thread_keeps_tx _ d.intake.net sent r c _ conn act busy.2.2.2.2.2.2.1 step]
  · intro q
    have waits := read_waits_step _ d.intake.net sent r c _ conn act answers step
    have same := reads_update p q r c _ d.intake.conn conn (fun _ _ => waits) (inv.reads q)
    cases step with
    | requestRead pc =>
        by_cases here : q = r
        · subst here
          have absent : c ∉ d.readers q := by
            intro member
            have position := ((inv.reads q).waits c member).2.waits
            rw [pc] at position
            rcases position with no | no <;> cases no
          simp only [Intake.requestedReads, Function.update_self, Fifo.pending_add]
          rw [← List.append_assoc]
          refine ⟨?_, ?_⟩
          · refine List.nodup_append.mpr ⟨(inv.reads q).once, by simp, ?_⟩
            intro a member b last equal
            cases List.mem_singleton.mp last
            exact absent (equal ▸ member)
          · intro e member
            rcases List.mem_append.mp member with earlier | last
            · exact same.waits e earlier
            · cases List.mem_singleton.mp last
              refine ⟨connection, ?_⟩
              rw [Function.update_self]
              exact ⟨before.reads pc, answers.read pc, .inl rfl⟩
        · simp only [Intake.requestedReads, Function.update_of_ne here]
          exact same
    | _ => exact same

end EpochReplication
