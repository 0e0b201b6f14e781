import EpochReplication.DatabaseReachable

set_option autoImplicit false

namespace EpochReplication

-- `tx` is the transaction that the RESPONSE_TX of a write carries.
structure Answered (s : Replicas) (r c : Nat) (tx : Tx) (raised : List (Nat × Nat)) (k i : Nat) : Prop where
  replica : tx.replicaId.toInt = r
  client : tx.clientId.toInt = c
  number : tx.assignedEpochId.toInt = k
  contained : ∃ batch same, s.sequencers.master.confirmed[k]? = some batch ∧ batch.epochId = tx.assignedEpochId ∧
    batch.txSet[i]? = some same ∧ same.wire = tx.wire
  applied : (s.executedBy r)[((s.sequencers.master.confirmed.take k).flatMap Batch.wire).length + i]? = some tx.wire
  stored : replay applyTx (newStorage storageSize) (s.executedBy r) = some (s.exec r).storage
  raised : raised = [(k, i)]

theorem response_step (p : Deployment) (writeRate : Nat) (d next : Database) (act : DatabaseAct) (r c : Nat)
    (message : Buf × Nat) (taken : Database.step p writeRate d act = some next)
    (sent : (next.intake.conn (r, c)).toClient.entered = (d.intake.conn (r, c)).toClient.entered ++ [message]) :
    p.IsConnection r c ∧ d.intake.flag r ≠ 1 ∧ (d.intake.conn (r, c)).thread.pc = .responding ∧
      message = ((createResponseTxMsg (d.intake.conn (r, c)).thread.tx (d.intake.conn (r, c)).thread.sendMsg).1,
        responseTxMessageSize) := by
  have quiet : (next.intake.conn (r, c)).toClient.entered ≠ (d.intake.conn (r, c)).toClient.entered := by
    intro same
    rw [same] at sent
    have lengths := congrArg List.length sent
    simp at lengths
  cases database_conn_step p writeRate d next act r c taken with
  | same act other untouched conn => exact absurd (by rw [conn]) quiet
  | recieve act inner recieve packets from_ step conn => exact absurd (by rw [conn]) quiet
  | touch act tx touches conn => exact absurd (by rw [conn]) quiet
  | client act after connection step conn =>
      rw [conn] at quiet
      refine absurd ?_ quiet
      cases step with
      | request | finish => rfl
      | receive data msg len rest recvTx pc took => exact (Fifo.try_take_some _ rest _ took).2.1
  | thread act after packets connection step conn =>
      rw [conn] at sent quiet
      cases step with
      | respond pc flag =>
          simp only [Fifo.entered_add] at sent
          exact ⟨connection, flag, pc, (List.cons.inj (List.append_cancel_left sent)).1.symm⟩
      | _ => exact absurd rfl quiet

theorem responses_name_their_batch (p : Deployment) (writeRate : Nat) (d next : Database) (act : DatabaseAct) (r c : Nat)
    (message : Buf × Nat) (reachable : (database p writeRate).Reachable d)
    (taken : Database.step p writeRate d act = some next)
    (sent : (next.intake.conn (r, c)).toClient.entered = (d.intake.conn (r, c)).toClient.entered ++ [message])
    (buf : Buf) (old : Tx) (write : (getInfoFromResponseTxMsg (receiveMsg buf message.1 message.2) old).type = .writeOnly) :
    ∃ k i, Answered d.replicas r c (getInfoFromResponseTxMsg (receiveMsg buf message.1 message.2) old)
      (d.intake.conn (r, c)).thread.raised k i := by
  obtain ⟨connection, running, pc, rfl⟩ := response_step p writeRate d next act r c message taken sent
  have inv := database_inv_reachable p writeRate d reachable
  have nodes := database_nodes_inv p writeRate d reachable
  have node := connection_node p r c connection
  obtain ⟨wire, epoch⟩ :=
    receive_response_tx (d.intake.conn (r, c)).thread.tx (d.intake.conn (r, c)).thread.sendMsg buf old
  have type : (d.intake.conn (r, c)).thread.tx.type = .writeOnly := (congrArg WireTx.type wire).symm.trans write
  have complete := (inv.answers r c connection).respond pc running
  have issued := (serving_submitted _ r c _ (inv.conns r c connection) (by rw [pc]; rfl) type).issued
  have stage := inv.stages r c connection
  unfold Database.stage at stage
  cases stage with
  | idle kind => exact absurd type kind
  | fresh _ _ unraised | sent _ _ _ _ _ unraised | placed _ _ _ _ _ _ unraised => exact absurd unraised.complete complete
  | raised k i _ _ _ _ _ position =>
      obtain ⟨batch, same, found, there, equal⟩ := position.contained
      have small := (List.getElem?_eq_some_iff.mp found).1
      have number : (d.intake.conn (r, c)).thread.tx.assignedEpochId.toInt = k := by
        have fits := nodes.sequencers.master.fits
        rw [position.assigned]
        exact short_of_int k (by omega) (by omega)
      refine ⟨k, i, ?_, ?_, by rw [epoch, number], ⟨batch, same, found, ?_, there, by rw [wire, equal]⟩, ?_, ?_,
        position.raised⟩
      · exact (congrArg (fun w => w.replicaId.toInt) wire).trans issued.replica
      · exact (congrArg (fun w => w.clientId.toInt) wire).trans issued.client
      · rw [epoch, position.assigned, ← nodes.sequencers.master.epochs k batch found, Int16.ofInt_toInt]
      · rw [wire, ← equal]
        exact executed_position p d.replicas r k i batch same nodes.sequencers nodes.replicas node found there
          position.executed
      · exact (nodes.replicas r node).store (reports_live _ _ r (inv.reports r node))

theorem respond_sends (p : Deployment) (writeRate : Nat) (d : Database) (r c : Nat) (connection : p.IsConnection r c)
    (running : d.running r = true) (pc : (d.intake.conn (r, c)).thread.pc = .responding) (flag : d.intake.flag r ≠ 1) :
    ∃ next, Database.step p writeRate d (.thread r c .respond) = some next ∧
      (next.intake.conn (r, c)).toClient.entered = (d.intake.conn (r, c)).toClient.entered ++
        [createResponseTxMsg (d.intake.conn (r, c)).thread.tx (d.intake.conn (r, c)).thread.sendMsg] := by
  simp [Database.step, Intake.threadStep, ClientInterface.clientThread, connection, running, pc, flag]

def firstResponse : List DatabaseAct :=
  let buf : Buf := fun _ => 0
  [.start, .client 1 0 (.request 0 5), .thread 1 0 .loop, .thread 1 0 .receive, .thread 1 0 (.requestWrite buf buf),
    .thread 1 0 .send, .recieve 1 0 .barrier, .recieve 1 0 .loop, .recieve 1 0 (.receive 0), .recieve 1 0 .test,
    .addWriteTx 1 0, .thread 1 0 .check, .thread 1 0 (.poll 1 false)] ++
  firstBatch.map (fun act => .sequencers act.2) ++
  [.writeLoop 1, .takeBatch 1, .write 1, .fetch 1, .assign 1, .raise 1, .thread 1 0 .spin]

def beforeFirstResponse : Option Database :=
  (database (configuration .proposedMethod) ClientTime.writeRate).exec (Database.initial (configuration .proposedMethod))
    firstResponse

theorem responses_name_their_batch_first_write : ∃ d, beforeFirstResponse = some d ∧ ∀ buf old, ∃ k i,
    Answered d.replicas 1 0 (getInfoFromResponseTxMsg (receiveMsg buf (createResponseTxMsg (d.intake.conn (1, 0)).thread.tx
      (d.intake.conn (1, 0)).thread.sendMsg).1 responseTxMessageSize) old) (d.intake.conn (1, 0)).thread.raised k i := by
  have ends : beforeFirstResponse.map (fun d => (d.running 1, d.intake.flag 1, (d.intake.conn (1, 0)).thread.pc,
      (d.intake.conn (1, 0)).thread.tx.type)) = some (true, 0, .responding, .writeOnly) := by
    decide +kernel
  obtain ⟨d, ran, ends⟩ := Option.map_eq_some_iff.mp ends
  simp only [Prod.mk.injEq] at ends
  obtain ⟨running, flag, pc, type⟩ := ends
  obtain ⟨next, taken, sent⟩ := respond_sends (configuration .proposedMethod) ClientTime.writeRate d 1 0 (by decide)
    running pc (by rw [flag]; decide)
  refine ⟨d, ran, fun buf old => ?_⟩
  have wire := (receive_response_tx (d.intake.conn (1, 0)).thread.tx (d.intake.conn (1, 0)).thread.sendMsg buf old).1
  exact responses_name_their_batch (configuration .proposedMethod) ClientTime.writeRate d next (.thread 1 0 .respond) 1 0 _
    (Machine.reachable_exec _ firstResponse _ d .init ran) taken sent buf old
    ((congrArg WireTx.type wire).trans type)

end EpochReplication
