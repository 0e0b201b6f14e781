import EpochReplication.DatabaseSteps

set_option autoImplicit false

namespace EpochReplication

theorem work_filter (s t : Replicas) (q e : Nat) (act : ReplicasAct) (work : WorkStep s t q act)
    (quiet : act = .write q .raise → ∀ w ∈ (s.exec q).writePc.reporting, mine q e w = false) :
    (t.unfinished q).filter (mine q e) = (s.unfinished q).filter (mine q e) := by
  cases work with
  | same act work => rw [work]
  | foreign batch i tx pc found other work =>
      have apart : mine q e tx.wire = false := by
        rw [Bool.eq_false_iff, Ne, mine_iff]
        exact fun own => other own.1
      rw [work, List.filter_cons, apart]
      rfl
  | report batch i c pc work =>
      have none : (s.exec q).writePc.reporting.filter (mine q e) = [] := by
        rw [List.filter_eq_nil_iff]
        intro w member
        rw [quiet rfl w member]
        decide
      rw [work, List.filter_append, none, List.nil_append]

theorem stage_after (p : Deployment) (d : Database) (replicas : Replicas) (flag : Int) (act : ReplicasAct)
    (before : SequencersInv p d.replicas.sequencers) (seq : SequencersInv p replicas.sequencers)
    (rep : ReplicasInv p d.replicas) (after : ReplicasInv p replicas)
    (moved : Replicas.step p d.replicas (flag, act) = some replicas) (kind : ∀ tx, act ≠ .sequencers (.addWriteTx tx))
    (q e : Nat) (node : p.IsNode q) (live : (replicas.exec q).writePc ≠ .crashed)
    (quiet : act = .write q .raise → ∀ w ∈ (d.replicas.exec q).writePc.reporting, mine q e w = false)
    (stage : d.stage q e) : Database.stage { d with replicas := replicas } q e := by
  obtain ⟨more, work⟩ := work_step p d.replicas replicas flag act q seq rep after node live kind moved
  have same := work_filter d.replicas replicas q e act work quiet
  have grown := confirmed_step p d.replicas replicas (flag, act) before moved
  unfold Database.stage flow at stage ⊢
  simp only [same]
  exact stage_mono _ _ _ _ _ _ e _ _ _ grown more.length_le (fun _ settled => settled) stage

theorem current_placed (p : Deployment) (s : Replicas) (r n : Nat) (batch : Batch) (seq : SequencersInv p s.sequencers)
    (inv : ReplicasInv p s) (node : p.IsNode r) (current : (s.exec r).writePc.current = some (batch, n)) (w : WireTx)
    (member : w ∈ batch.wire) : w ∈ s.sequencers.master.placed := by
  obtain ⟨k, _, _, found, _⟩ := (inv r node).inside batch n current
  obtain ⟨confirmed, there, _, same⟩ := delivered_content _ _ k batch (queue_content p s.sequencers r seq node) found
  unfold Master.placed
  refine List.mem_append_left _ (List.mem_append_left _ ?_)
  exact List.mem_flatMap.mpr ⟨confirmed, List.mem_of_getElem? there, same ▸ member⟩

theorem wire_member (batch : Batch) (i : Nat) (tx : Tx) (found : batch.txSet[i]? = some tx) : tx.wire ∈ batch.wire :=
  List.mem_map_of_mem (List.mem_of_getElem? found)

theorem fetching_parked (p : Deployment) (d : Database) (r i : Nat) (batch : Batch) (tx : Tx) (inv : DatabaseInv p d)
    (seq : SequencersInv p d.replicas.sequencers) (rep : ReplicasInv p d.replicas) (node : p.IsNode r)
    (pc : (d.replicas.exec r).writePc = .fetching batch i) (found : batch.txSet[i]? = some tx) :
    ∃ c : Nat, tx.clientId.toInt = c ∧ d.intake.waitForExe r tx.clientId.toInt = some c := by
  have reports := inv.reports r node
  unfold Reports at reports
  rw [pc] at reports
  obtain ⟨same, there, own⟩ := reports
  rw [found] at there
  cases there
  have member := current_placed p d.replicas r (i + 1) batch seq rep node (by rw [pc]; rfl) tx.wire
    (wire_member batch i tx found)
  obtain ⟨⟨q, c, connection, issued⟩, write⟩ := inv.placed tx.wire member
  have client : tx.clientId.toInt = c := issued.client
  have replica : tx.replicaId.toInt = q := issued.replica
  obtain rfl : q = r := by omega
  have report : (d.replicas.exec q).writePc.reporting = [tx.wire] := by simp [pc, WritePc.reporting, found]
  obtain ⟨rest, work⟩ := reporting_flow d q c tx.wire (d.intake.conn (q, c)).recieve report
    ((mine_iff q c tx.wire).mpr ⟨replica, client⟩)
  have parked := (stage_carries _ _ _ _ c _ _ tx.wire rest work (inv.stages q c connection)).2.2.2.1
  exact ⟨c, client, by rw [client]; exact parked⟩

theorem reports_of_same (s t : Replicas) (conn : Nat × Nat → Connection) (r : Nat)
    (pc : (t.exec r).writePc = (s.exec r).writePc) (epoch : (t.exec r).epoch = (s.exec r).epoch)
    (reports : Reports s conn r) : Reports t conn r := by
  unfold Reports at reports ⊢
  rw [pc, epoch]
  exact reports

theorem reports_write_step (p : Deployment) (d : Database) (r : Nat) (flag : Int) (act : WriteAct) (exec : Exec)
    (inv : DatabaseInv p d) (seq : SequencersInv p d.replicas.sequencers) (rep : ReplicasInv p d.replicas)
    (node : p.IsNode r) (kind : ∀ batch, act ≠ .take batch) (other : act ≠ .assign)
    (fetch : ∀ slot, act = .fetch slot → ∃ batch i tx, (d.replicas.exec r).writePc = .fetching batch i ∧
      batch.txSet[i]? = some tx ∧ slot = d.intake.waitForExe r tx.clientId.toInt)
    (step : WriteStep flag r (d.replicas.exec r) act exec) :
    Reports { d.replicas with exec := Function.update d.replicas.exec r exec } d.intake.conn r := by
  unfold Reports
  simp only [Function.update_self]
  cases step with
  | enter | leave | complete | writeOther | raise => trivial
  | takeNone => exact absurd rfl (kind none)
  | take batch => exact absurd rfl (kind (some batch))
  | assign => exact absurd rfl other
  | writeOwn batch i tx storage pc found wrote own => exact ⟨tx, found, own⟩
  | crash batch i tx pc found out =>
      have member := current_placed p d.replicas r i batch seq rep node (by rw [pc]; rfl) tx.wire
        (wire_member batch i tx found)
      obtain ⟨⟨q, c, _, issued⟩, _⟩ := inv.placed tx.wire member
      have size := exec_storage_length _ _ (rep r node) (by simp [pc])
      obtain ⟨next, wrote⟩ := write_to_storage_some (d.replicas.exec r).storage tx.key tx.value issued.key.1
        (by rw [size]; exact issued.key.2)
      rw [wrote] at out
      cases out
  | fetchNone batch i pc =>
      obtain ⟨same, j, tx, here, found, slot⟩ := fetch none rfl
      obtain ⟨c, _, parked⟩ := fetching_parked p d r j same tx inv seq rep node here found
      rw [← slot] at parked
      cases parked
  | fetch batch i waitForTx pc =>
      obtain ⟨same, j, tx, here, found, slot⟩ := fetch (some waitForTx) rfl
      obtain ⟨c, client, parked⟩ := fetching_parked p d r j same tx inv seq rep node here found
      rw [pc] at here
      cases here
      rw [← slot] at parked
      cases parked
      have reports := inv.reports r node
      unfold Reports at reports
      rw [pc] at reports
      obtain ⟨first, there, own⟩ := reports
      rw [found] at there
      cases there
      exact ⟨tx, found, own, client⟩

theorem replicas_placed_kept (p : Deployment) (s t : Replicas) (flag : Int) (act : ReplicasAct)
    (kind : ∀ tx, act ≠ .sequencers (.addWriteTx tx)) (taken : Replicas.step p s (flag, act) = some t) :
    t.sequencers.master.placed = s.sequencers.master.placed := by
  cases replicas_step_cases p s t (flag, act) taken with
  | sequencers flag act next other moved =>
      exact placed_kept p s.sequencers next flag act (fun tx add => kind tx (congrArg _ add)) moved
  | take flag q batch rest next exec node running took moved done =>
      exact placed_kept p s.sequencers next flag (.takeBatch q) (by simp) moved
  | takeNone | write | read => rfl

structure NodesInv (p : Deployment) (s : Replicas) : Prop where
  sequencers : SequencersInv p s.sequencers
  replicas : ReplicasInv p s

theorem nodes_inv_reachable (p : Deployment) (s : Replicas) (reachable : (replicas p).Reachable s) : NodesInv p s :=
  ⟨replicas_sequencers_inv p s reachable, replicas_inv_reachable p s reachable⟩

theorem reports_live (s : Replicas) (conn : Nat × Nat → Connection) (r : Nat) (reports : Reports s conn r) :
    (s.exec r).writePc ≠ .crashed := by
  intro crashed
  unfold Reports at reports
  rw [crashed] at reports
  exact reports

theorem database_inv_inner (p : Deployment) (d : Database) (replicas : Replicas) (flag : Int) (act : ReplicasAct)
    (reads : Nat → Fifo Nat) (inv : DatabaseInv p d) (before : NodesInv p d.replicas) (after : NodesInv p replicas)
    (moved : Replicas.step p d.replicas (flag, act) = some replicas) (kind : ∀ tx, act ≠ .sequencers (.addWriteTx tx))
    (quiet : ∀ r, act ≠ .write r .raise) (reports : ∀ r, p.IsNode r → Reports replicas d.intake.conn r)
    (readers : ∀ r, ReadsInv p r ((replicas.exec r).readPc.pointer.toList ++ (reads r).pending) d.intake.conn) :
    DatabaseInv p ⟨replicas, { d.intake with readTxBuffer := reads }⟩ where
  flags := inv.flags
  conns := inv.conns
  net := inv.net
  answers := inv.answers
  stages := by
    intro q e connection
    have node := connection_node p q e connection
    exact stage_after p d replicas flag act before.sequencers after.sequencers before.replicas after.replicas moved kind
      q e node (reports_live _ _ q (reports q node)) (fun raise => absurd raise (quiet q)) (inv.stages q e connection)
  reports := reports
  reads := readers
  placed := by
    simp only [replicas_placed_kept p d.replicas replicas flag act kind moved]
    exact inv.placed

theorem database_inv_touch (p : Deployment) (d : Database) (replicas : Replicas) (flag : Int) (act : ReplicasAct)
    (r c : Nat) (tx : TxAct) (inv : DatabaseInv p d) (before : NodesInv p d.replicas) (after : NodesInv p replicas)
    (moved : Replicas.step p d.replicas (flag, act) = some replicas) (kind : ∀ tx, act ≠ .sequencers (.addWriteTx tx))
    (connection : p.IsConnection r c) (value : ∀ v, tx = .value v → (d.intake.conn (r, c)).thread.tx.type = .readOnly)
    (unread : ∀ position, tx = .raise position → (d.intake.conn (r, c)).thread.pc ≠ .reading)
    (stage : WriteStage replicas.sequencers.master.confirmed (replicas.executedBy r).length
      (flow r c (replicas.unfinished r) (d.intake.conn (r, c)).recieve) (d.intake.waitForExe r c) c
      (waitForTx (d.intake.conn (r, c)).thread tx) (d.intake.conn (r, c)).recieve)
    (quiet : ∀ q e, (q, e) ≠ (r, c) → act = .write q .raise → ∀ w ∈ (d.replicas.exec q).writePc.reporting,
      mine q e w = false)
    (reports : ∀ q, p.IsNode q → Reports replicas (d.intake.touchTx r c tx).conn q)
    (readers : ∀ q, ReadsInv p q ((replicas.exec q).readPc.pointer.toList ++ (d.intake.readTxBuffer q).pending)
      (d.intake.touchTx r c tx).conn) :
    DatabaseInv p ⟨replicas, d.intake.touchTx r c tx⟩ := by
  obtain ⟨kept, packets⟩ := touch_inv (d.intake.flag r) r c (d.intake.conn (r, c)) tx (inv.conns r c connection) value
  have answers := inv.answers r c connection
  refine ⟨inv.flags, ?_, ?_, ?_, ?_, reports, readers, ?_⟩
  · exact update_conn p d.intake.conn r c _ (fun q e conn => ConnectionInv (d.intake.flag q) q e conn) kept
      (fun q e connection _ => inv.conns q e connection)
  · exact fun packet member => net_update p d r c _ inv packets packet member
  · refine update_conn p d.intake.conn r c _ (fun q _ conn => Answers (d.intake.flag q) conn.thread) ?_
      (fun q e connection _ => inv.answers q e connection)
    cases tx with
    | assign | value => exact ⟨answers.respond, answers.read⟩
    | raise position =>
        exact ⟨fun _ _ => by simp [waitForTx, raiseTxCompleteFlag], fun reading => absurd reading (unread position rfl)⟩
  · refine update_conn p d.intake.conn r c _ (fun q e conn =>
      WriteStage replicas.sequencers.master.confirmed (replicas.executedBy q).length
        (flow q e (replicas.unfinished q) conn.recieve) (d.intake.waitForExe q e) e conn.thread conn.recieve) stage ?_
    intro q e other different
    have node := connection_node p q e other
    exact stage_after p d replicas flag act before.sequencers after.sequencers before.replicas after.replicas moved kind
      q e node (reports_live _ _ q (reports q node)) (quiet q e different) (inv.stages q e other)
  · simp only [replicas_placed_kept p d.replicas replicas flag act kind moved]
    exact inv.placed

theorem hands_adding (t : RecieveThread) (tx : Tx) (pc : t.pc = .adding tx) : t.hands = [tx.wire] := by
  simp only [RecieveThread.hands, pc]

theorem add_write_outcome (flag : Int) (net sent : List Packet) (r c : Nat) (t recieve : RecieveThread) (tx : Tx)
    (batch : Batch) (before after : List WireTx) (pc : t.pc = .adding tx)
    (outcome : ((sequencerAddWriteTxToBatch batch tx).2 = 0 ∧ after = before) ∨
      ((sequencerAddWriteTxToBatch batch tx).2 ≠ 0 ∧ after = before ++ [tx.wire]))
    (step : RecieveStep flag net r c t (.add batch) recieve sent) :
    ∃ more, (more = [] ∨ more = [tx.wire]) ∧ after = before ++ more ∧ more ++ recieve.hands = t.hands ∧
      recieve.added = t.added ++ more := by
  have holding := hands_adding t tx pc
  cases step with
  | retry other batch here full =>
      rw [pc] at here
      cases here
      rcases outcome with ⟨_, same⟩ | ⟨one, _⟩
      · exact ⟨[], .inl rfl, by rw [same, List.append_nil], rfl, (List.append_nil _).symm⟩
      · exact absurd full one
  | add other batch here room =>
      rw [pc] at here
      cases here
      rcases outcome with ⟨none, _⟩ | ⟨_, more⟩
      · exact absurd none room
      · exact ⟨[tx.wire], .inr rfl, more, by rw [holding]; rfl, rfl⟩

theorem filter_mine (r c q e : Nat) (w : WireTx) (more : List WireTx) (issued : IssuedBy r c w)
    (values : more = [] ∨ more = [w]) : more.filter (mine q e) = if (q, e) = (r, c) then more else [] := by
  rcases values with rfl | rfl
  · simp
  · by_cases here : (q, e) = (r, c)
    · cases here
      have own := (mine_iff r c w).mpr ⟨issued.replica, issued.client⟩
      simp [own]
    · have apart : mine q e w = false := by
        rw [Bool.eq_false_iff, Ne, mine_iff]
        rintro ⟨replica, client⟩
        have first := issued.replica
        have second := issued.client
        exact here (by rw [show q = r by omega, show e = c by omega])
      simp [apart, here]

theorem add_write_database (p : Deployment) (d : Database) (replicas : Replicas) (flag : Int) (r c : Nat) (tx : Tx)
    (recieve : RecieveThread) (sent : List Packet) (inv : DatabaseInv p d) (before : NodesInv p d.replicas)
    (connection : p.IsConnection r c) (pc : (d.intake.conn (r, c)).recieve.pc = .adding tx)
    (step : RecieveStep (d.intake.flag 0) d.intake.net r c (d.intake.conn (r, c)).recieve
      (.add d.replicas.sequencers.master.batch) recieve sent)
    (moved : Replicas.step p d.replicas (flag, .sequencers (.addWriteTx tx)) = some replicas) :
    DatabaseInv p ⟨replicas, { d.intake with
      conn := Function.update d.intake.conn (r, c) { d.intake.conn (r, c) with recieve := recieve }
      net := d.intake.net ++ sent }⟩ := by
  obtain ⟨kept, packets, fresh⟩ := recieve_inv_step _ (d.intake.flag r) d.intake.net sent r c _ recieve _
    (inv.conns r c connection) (packets_of_recieve p d r c inv) step
  obtain ⟨exec, confirmed, queue, outcome⟩ := placed_added p d.replicas replicas flag tx moved
  have mine_tx := (inv.conns r c connection).hands tx (.inr pc)
  have executed : ∀ q, replicas.executedBy q = d.replicas.executedBy q := by
    intro q
    simp only [Replicas.executedBy, queue, exec]
  obtain ⟨more, values, placed, hands, _⟩ :=
    add_write_outcome _ d.intake.net sent r c _ recieve tx _ _ _ pc outcome step
  have unfinished : ∀ q, p.IsNode q → replicas.unfinished q = d.replicas.unfinished q ++ more := by
    intro q node
    have bound := (executed_placed p d.replicas q before.sequencers before.replicas node).length_le
    rw [Replicas.unfinished, Replicas.unfinished, executed q, placed, exec, List.drop_append_of_le_length bound,
      List.append_assoc]
  refine ⟨inv.flags, ?_, ?_, ?_, ?_, ?_, ?_, ?_⟩
  · exact update_conn p d.intake.conn r c _ (fun q e conn => ConnectionInv (d.intake.flag q) q e conn) kept
      (fun q e connection _ => inv.conns q e connection)
  · intro packet member
    rcases List.mem_append.mp member with earlier | last
    · exact net_update p d r c _ inv packets packet earlier
    · exact ⟨r, c, connection, by simpa using fresh packet last⟩
  · exact update_conn p d.intake.conn r c _ (fun q _ conn => Answers (d.intake.flag q) conn.thread)
      (inv.answers r c connection) (fun q e connection _ => inv.answers q e connection)
  · refine update_conn p d.intake.conn r c _ (fun q e conn =>
      WriteStage replicas.sequencers.master.confirmed (replicas.executedBy q).length
        (flow q e (replicas.unfinished q) conn.recieve) (d.intake.waitForExe q e) e conn.thread conn.recieve) ?_ ?_
    · have same : flow r c (replicas.unfinished r) recieve =
          flow r c (d.replicas.unfinished r) (d.intake.conn (r, c)).recieve := by
        rw [flow, flow, unfinished r (connection_node p r c connection), List.filter_append,
          filter_mine r c r c tx.wire more mine_tx.issued values, if_pos rfl, List.append_assoc, hands]
      rw [same, confirmed, executed r]
      exact stage_mono _ _ _ _ _ _ c _ _ _ (List.prefix_refl _) (Nat.le_refl _) packets.settled (inv.stages r c connection)
    · intro q e other different
      have same : flow q e (replicas.unfinished q) (d.intake.conn (q, e)).recieve =
          flow q e (d.replicas.unfinished q) (d.intake.conn (q, e)).recieve := by
        rw [flow, flow, unfinished q (connection_node p q e other), List.filter_append,
          filter_mine r c q e tx.wire more mine_tx.issued values, if_neg different, List.append_nil]
      rw [same, confirmed, executed q]
      exact inv.stages q e other
  · intro q node
    exact reports_update replicas q r c d.intake.conn _ (fun _ _ _ => rfl)
      (reports_of_same d.replicas replicas d.intake.conn q (by rw [exec]) (by rw [exec]) (inv.reports q node))
  · intro q
    simp only [Database.readers, exec]
    exact reads_update p q r c _ d.intake.conn _ (fun _ _ waits => waits) (inv.reads q)
  · intro w member
    simp only [placed] at member
    rcases List.mem_append.mp member with earlier | last
    · exact inv.placed w earlier
    · rcases values with rfl | rfl
      · cases last
      · cases List.mem_singleton.mp last
        exact ⟨⟨r, c, connection, mine_tx.issued⟩, mine_tx.write⟩

end EpochReplication
