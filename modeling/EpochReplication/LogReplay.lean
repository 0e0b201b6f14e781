import EpochReplication.Accounted

set_option autoImplicit false

namespace EpochReplication

-- The records from `epochId` on as the test of the log reads them, with read_log
-- and get_info_from_batch_msg. The buffer keeps what the last record left in it.
def readBack (log : Option File) : Nat → Buf → List LogIo → Outcome (List Batch)
  | _, _, [] => .returned []
  | epochId, msg, io :: rest =>
      match readLog log msg epochId io with
      | .exited => .exited
      | .blocked => .blocked
      | .returned (msg, _) =>
          match readBack log (epochId + 1) msg rest with
          | .exited => .exited
          | .blocked => .blocked
          | .returned batches => .returned (getInfoFromBatchMsg msg (batchCreate (-1)) :: batches)

theorem read_back_carried (log : Option File) (confirmed : List Batch) (epoch : Nat) (msg : Buf) (ios : List LogIo)
    (each : ∀ io ∈ ios, io.Succeeds) (inside : epoch + ios.length ≤ confirmed.length)
    (carries : ∀ k b, k < epoch + ios.length → confirmed[k]? = some b → LogCarries batchLogSize log k b) :
    ∃ batches, readBack log epoch msg ios = .returned batches ∧
      batches.map Batch.content = ((confirmed.drop epoch).take ios.length).map Batch.content := by
  induction ios generalizing epoch msg with
  | nil => exact ⟨[], rfl, by simp⟩
  | cons io rest ih =>
      rw [List.length_cons] at inside carries
      have here : epoch < confirmed.length := by omega
      have record := carries epoch _ (by omega) (List.getElem?_eq_getElem here)
      obtain ⟨out, done⟩ := read_log_progress log msg epoch io (log_carries_holds _ _ _ _ record) (each io List.mem_cons_self)
      obtain ⟨_, content⟩ := log_carries_read batchLogSize log msg epoch _ io out _ (Nat.le_refl _) record done
      obtain ⟨number, txs⟩ := get_info_from_batch_carried out _ _ (batchCreate (-1)) content (batch_wire_fits _) rfl
      obtain ⟨batches, later, same⟩ := ih (epoch + 1) out (fun other member => each other (List.mem_cons_of_mem io member))
        (by omega) (fun k b bound found => carries k b (by omega) found)
      refine ⟨getInfoFromBatchMsg out (batchCreate (-1)) :: batches, by simp only [readBack, done, later], ?_⟩
      rw [List.drop_eq_getElem_cons here, List.length_cons, List.take_succ_cons, List.map_cons, List.map_cons, same]
      exact congrArg (· :: _) (Prod.ext number txs)

def Sequencers.logged (s : Sequencers) (node : Nat) : Int :=
  if node = 0 then s.master.determinedEpochId + 1 else (s.slave node).nextBatchEpochId

theorem logged_records (p : Deployment) (s : Sequencers) (r n : Nat) (inv : SequencersInv p s) (node : p.IsNode r)
    (count : (n : Int) = s.logged r) :
    n ≤ s.master.confirmed.length ∧ (s.queue r).entered.length ≤ n ∧
      ∀ k b, k < n → s.master.confirmed[k]? = some b → LogCarries batchLogSize (s.log r) k b := by
  have written : ∀ k b, k < n → s.master.confirmed[k]? = some b → RecordWritten s r k →
      LogCarries batchLogSize (s.log r) k b := by
    intro k b _ found record
    obtain ⟨other, same, carries⟩ := record.content
    rw [Int.toNat_natCast, found] at same
    cases same
    exact carries
  have determined := inv.master.determined
  rcases node with rfl | replica
  · rw [Sequencers.logged, if_pos rfl] at count
    have short := (queue_content p s 0 inv (.inl rfl)).length_le
    rw [List.length_map, List.length_map] at short
    exact ⟨by omega, by omega,
      fun k b bound found => written k b bound found (master_record_written p s k inv (by omega))⟩
  · have not_master : r ≠ 0 := Nat.ne_of_gt replica.1
    have slave := inv.slave r replica
    have behind := slave_behind _ _ slave
    have accepted := slave.count
    rw [Sequencers.logged, if_neg not_master] at count
    refine ⟨by omega, ?_, fun k b bound found => written k b bound found
      (slave_record_written p s r k inv replica (by simp only [Sequencers.accepted]; omega))⟩
    rw [Sequencers.queue, if_neg not_master]
    exact Nat.le_of_eq (show (s.slave r).accepted = n by omega)

structure Rebuilds (p : Deployment) (d : Database) (r : Nat) (batches : List Batch) : Prop where
  confirmed : batches.map Batch.content <+: d.replicas.sequencers.master.confirmed.map Batch.content
  logged : d.replicas.executedBy r <+: batches.flatMap Batch.wire
  store : replay applyTx (newStorage storageSize) (d.replicas.executedBy r) = some (d.replicas.exec r).storage
  whole : (d.replicas.exec r).writePc.current = none →
    d.replicas.executedBy r = (batches.take (d.replicas.exec r).epoch.toNat).flatMap Batch.wire
  answered : ∀ c, p.IsConnection r c → ∀ w ∈ (d.intake.conn (r, c)).client.submitted,
    (d.intake.conn (r, c)).client.pc = .waiting ∧ w = (d.intake.conn (r, c)).client.sendTx.wire ∨ w ∈ d.replicas.executedBy r

theorem flat_content_take (short long : List Batch) (k : Nat) (bound : k ≤ short.length)
    (copy : short.map Batch.content <+: long.map Batch.content) :
    (short.take k).flatMap Batch.wire = (long.take k).flatMap Batch.wire := by
  obtain ⟨rest, equal⟩ := copy
  rw [content_wires, content_wires, List.map_take, List.map_take, ← equal,
    List.take_append_of_le_length (by rw [List.length_map]; exact bound)]

theorem log_rebuilds_store (p : Deployment) (writeRate : Nat) (d : Database) (r : Nat) (msg : Buf) (ios : List LogIo)
    (reachable : (database p writeRate).Reachable d) (node : p.IsNode r) (each : ∀ io ∈ ios, io.Succeeds)
    (count : (ios.length : Int) = d.replicas.sequencers.logged r) :
    ∃ batches, readBack (d.replicas.sequencers.log r) 0 msg ios = .returned batches ∧
      batches.length = ios.length ∧ Rebuilds p d r batches := by
  have nodes := database_nodes_inv p writeRate d reachable
  have live := reports_live _ _ r ((database_inv_reachable p writeRate d reachable).reports r node)
  have exec := nodes.replicas r node
  obtain ⟨inside, behind, carries⟩ := logged_records p d.replicas.sequencers r ios.length nodes.sequencers node count
  obtain ⟨batches, read, same⟩ := read_back_carried (d.replicas.sequencers.log r) d.replicas.sequencers.master.confirmed 0 msg
    ios each (by omega) (fun k b bound found => carries k b (by omega) found)
  rw [List.drop_zero] at same
  have length : batches.length = ios.length := by
    have lengths := congrArg List.length same
    simpa [inside] using lengths
  have prefixed : batches.map Batch.content <+: d.replicas.sequencers.master.confirmed.map Batch.content := by
    rw [same, List.map_take]
    exact List.take_prefix _ _
  have entered : (d.replicas.sequencers.queue r).entered.map Batch.content <+: batches.map Batch.content :=
    List.prefix_of_prefix_length_le (queue_content p _ r nodes.sequencers node) prefixed (by simpa [length] using behind)
  refine ⟨batches, read, length, prefixed,
    (executed_queue _ _ exec).trans (content_flat_grows _ _ entered), exec.store live, fun between => ?_, ?_⟩
  · have left := (d.replicas.sequencers.queue r).le
    rw [exec.between live between, Int.toNat_natCast, Replicas.executedBy, executed, between]
    exact flat_content_take _ _ _ left entered
  · intro c connection w member
    refine ((submitted_applied_reachable p writeRate d r c reachable connection).applied w member).imp_right fun done => ?_
    obtain ⟨k, i, applied⟩ := done
    exact List.mem_of_getElem? applied.executed

theorem log_rebuilds_store_first_write : ∃ d batches, afterActs firstAnswered = some d ∧
    readBack (d.replicas.sequencers.log 1) 0 (fun _ => 204) [fullIo] = .returned batches ∧ batches.length = 1 ∧
      Rebuilds (configuration .proposedMethod) d 1 batches := by
  have ends : (afterActs firstAnswered).map (fun d => d.replicas.sequencers.logged 1) = some 1 := by decide +kernel
  obtain ⟨d, ran, logged⟩ := Option.map_eq_some_iff.mp ends
  obtain ⟨batches, read, length, rebuilds⟩ := log_rebuilds_store (configuration .proposedMethod) 50 d 1 (fun _ => 204)
    [fullIo] (Machine.reachable_exec _ firstAnswered _ d .init ran) (by decide) (by simpa using full_io_succeeds)
    (by rw [logged]; rfl)
  exact ⟨d, batches, ran, read, length, rebuilds⟩

end EpochReplication
