import EpochReplication.SequencersInvariant

set_option autoImplicit false

namespace EpochReplication

def AcceptedAs (p : Deployment) (n : Nat) (msg : Buf) (len : Nat) : Prop :=
  ∀ (r : Nat) (slave : Slave) (systemFinishRequest : Int) (io : LogIo), p.IsSlave r → slave.pc = .receiving →
    slave.nextBatchEpochId = n → io.Succeeds →
    ∃ next sent, slaveSequencer p systemFinishRequest [⟨.slaveSequencer r, msg, len⟩] r slave (.receive 0 io) =
        .returned (next, sent) ∧
      next.nextBatchEpochId = n + 1 ∧
      ∃ ack ∈ sent, ack.dst = .masterSequencerFromSlaveSequencer r ∧
        ∀ buf, getInfoFromAckBatchMsg (udpSvReceiveMsg buf batchLogSize ack).1 = ((r : Int), (n : Int))

-- What an iteration of the epoch loop owes to batch `n`, from the point where it
-- is about to write the batch it has swapped out.
structure EpochAgrees (p : Deployment) (m : Master) (rev : Batch) (n : Nat) : Prop where
  written : ∀ io : LogIo, io.Succeeds → ∃ file,
    appendLog m.batchLog (createBatchMsg rev m.batchMsg).1 (createBatchMsg rev m.batchMsg).2 rev.epochId.toInt io =
      .returned file ∧
    Recorded (some file) n (createBatchMsg rev m.batchMsg).2 (createBatchMsg rev m.batchMsg).1
  decoded : getEpochIdFromBatchMeg (createBatchMsg rev m.batchMsg).1 = n
  accepted : ∀ (io readIo : LogIo) (file : File) (old out : Buf) (len : Int),
    appendLog m.batchLog (createBatchMsg rev m.batchMsg).1 (createBatchMsg rev m.batchMsg).2 rev.epochId.toInt io =
      .returned file →
    readLog (some file) old n readIo = .returned (out, len) → AcceptedAs p n out len.toNat

theorem send_ack_decoded (p : Deployment) (r n : Nat) (peers : List Nat) (slave : Slave) (replica : p.IsSlave r)
    (small : n < 32768) :
    ∃ ack ∈ (sendAck r peers slave n).2, ack.dst = .masterSequencerFromSlaveSequencer r ∧
      ∀ buf, getInfoFromAckBatchMsg (udpSvReceiveMsg buf batchLogSize ack).1 = ((r : Int), (n : Int)) :=
  ⟨_, List.mem_cons_self, rfl, fun buf => (receive_ack_batch p buf slave.sendMsg _ r n replica small).2⟩

theorem receive_batch_accepts (p : Deployment) (r n : Nat) (peers : List Nat) (slave : Slave) (b : Batch) (len : Int)
    (io : LogIo) (replica : p.IsSlave r) (small : n < 32768) (content : CarriesBatch slave.recvMsg b.epochId b.wire)
    (numbered : b.epochId.toInt = n) (waits : slave.nextBatchEpochId = n) (succeeds : io.Succeeds) :
    ∃ next sent, receiveBatch r peers slave len io = .returned (next, sent) ∧ next.nextBatchEpochId = n + 1 ∧
      ∃ ack ∈ sent, ack.dst = .masterSequencerFromSlaveSequencer r ∧
        ∀ buf, getInfoFromAckBatchMsg (udpSvReceiveMsg buf batchLogSize ack).1 = ((r : Int), (n : Int)) := by
  have epoch := (carries_batch_epoch slave.recvMsg b.epochId b.wire content).trans numbered
  obtain ⟨file, wrote⟩ := append_log_progress slave.batchLog slave.recvMsg len n io succeeds
  simp only [receiveBatch, epoch, waits, if_true, acceptBatch, wrote]
  exact ⟨_, _, rfl, rfl, send_ack_decoded p r n peers _ replica small⟩

theorem accepted_as_of_carries (p : Deployment) (n : Nat) (b : Batch) (msg : Buf) (method : p.exp ≠ .tcpMethod)
    (small : n < 32768) (numbered : b.epochId.toInt = n) (content : CarriesBatch msg b.epochId b.wire) :
    AcceptedAs p n msg batchLogSize := by
  intro r slave flag io replica pc waits succeeds
  have arrived := receive_batch slave.recvMsg msg (.slaveSequencer r) b content
  simp only [slaveSequencer, pc, List.getElem?_cons_zero, if_true]
  cases exp : p.exp with
  | proposedMethod =>
      simp only [proposedMethodRecieveBatchConnection, arrived.type, if_true]
      exact receive_batch_accepts p r n (p.regionPeers r) _ b _ io replica small arrived numbered waits succeeds
  | conventionalMethod =>
      simp only [conventionalMethodRecieveBatchConnection, arrived.type, if_true]
      exact receive_batch_accepts p r n [] _ b _ io replica small arrived numbered waits succeeds
  | tcpMethod => exact absurd exp method

theorem rev_epoch (p : Deployment) (s : Sequencers) (cur : Int) (rev : Batch) (inv : SequencersInv p s)
    (pc : s.master.epochPc = .logging cur rev) :
    cur = s.master.confirmed.length ∧ rev.epochId = Int16.ofInt s.master.confirmed.length := by
  have position := inv.master.position
  simp only [EpochInv, pc] at position
  exact ⟨position.1, position.1 ▸ position.2.2.2⟩

-- Iteration 32768 hands append_log the epoch -32768, whose offset lseek refuses.
theorem epoch_agrees_small (p : Deployment) (s : Sequencers) (cur : Int) (rev : Batch) (inv : SequencersInv p s)
    (pc : s.master.epochPc = .logging cur rev) (agrees : EpochAgrees p s.master rev s.master.confirmed.length) :
    s.master.confirmed.length < 32768 := by
  have fits := inv.master.fits
  by_contra large
  have last : s.master.confirmed.length = 32768 := by omega
  obtain ⟨file, done, _⟩ := agrees.written fullIo full_io_succeeds
  rw [(rev_epoch p s cur rev inv pc).2, last, append_log_negative _ _ _ _ _ (by decide)] at done
  cases done

theorem epoch_agrees_iff (p : Deployment) (s : Sequencers) (cur : Int) (rev : Batch) (n : Nat)
    (method : p.exp ≠ .tcpMethod) (reachable : (sequencers p).Reachable s) (pc : s.master.epochPc = .logging cur rev)
    (iteration : s.master.confirmed.length = n) : EpochAgrees p s.master rev n ↔ n < 32768 := by
  have inv := sequencers_inv_reachable p s reachable
  subst iteration
  refine ⟨fun agrees => epoch_agrees_small p s cur rev inv pc agrees, fun small => ?_⟩
  have epoch : rev.epochId.toInt = s.master.confirmed.length := by
    rw [(rev_epoch p s cur rev inv pc).2]
    exact short_of_int _ (by omega) (by omega)
  have content := create_batch_carries rev s.master.batchMsg
  have length := create_batch_length rev s.master.batchMsg
  have room := batch_msg_fits rev
  refine ⟨?_, (carries_batch_epoch _ _ _ content).trans epoch, ?_⟩
  · intro io succeeds
    rw [epoch]
    obtain ⟨file, wrote⟩ := append_log_progress s.master.batchLog (createBatchMsg rev s.master.batchMsg).1
      (createBatchMsg rev s.master.batchMsg).2 s.master.confirmed.length io succeeds
    exact ⟨file, wrote, append_log_records _ _ _ _ io file (by omega) wrote⟩
  · intro io readIo file old out len wrote read
    rw [epoch] at wrote
    have carries := log_carries_append batchLogRoom _ _ _ _ rev io file (by decide) (Nat.le_of_eq length.symm)
      (by unfold batchLogRoom batchLogDataOffset batchLogDataSizeOffset batchLogSize; omega) content wrote
    obtain ⟨whole, relayed⟩ := log_carries_read batchLogRoom (some file) old _ rev readIo out len (by decide) carries
      read
    rw [whole, Int.toNat_natCast]
    exact accepted_as_of_carries p _ rev out method small epoch relayed

def firstIteration : List (Int × SequencersAct) :=
  [(0, .epoch .barrier), (0, .epoch .loop), (0, .epoch .check), (0, .epoch .swap)]

theorem epoch_agrees_iff_first_iteration :
    EpochAgrees (configuration .proposedMethod)
      { (Sequencers.initial (configuration .proposedMethod)).master with
        epochPc := .logging 0 (batchCreate 0), batch := batchCreate 1 } (batchCreate 0) 0 :=
  (epoch_agrees_iff (configuration .proposedMethod)
    { Sequencers.initial (configuration .proposedMethod) with
      master := { (Sequencers.initial (configuration .proposedMethod)).master with
        epochPc := .logging 0 (batchCreate 0), batch := batchCreate 1 } }
    0 (batchCreate 0) 0 (by decide) (Machine.reachable_exec _ firstIteration _ _ .init rfl) rfl rfl).mpr (by decide)

theorem loop_reaches_logging (p : Deployment) (s : Sequencers) (reachable : (sequencers p).Reachable s)
    (live : s.master.exited = false) (pc : s.master.epochPc = .loop) :
    ∃ t cur rev, (sequencers p).Reachable t ∧ t.master.exited = false ∧ t.master.epochPc = .logging cur rev ∧
      t.master.confirmed = s.master.confirmed := by
  have entered := epoch_moves p s 0 .loop { s.master with epochPc := .checking (s.master.determinedEpochId + 1) }
    reachable live (by simp only [masterSequencerStartup, pc, if_true])
  have checked := epoch_moves p _ 0 .check { s.master with epochPc := .filling (s.master.determinedEpochId + 1) }
    entered live rfl
  have swapped := epoch_moves p _ 0 .swap _ checked live rfl
  exact ⟨_, _, _, swapped, live, rfl, rfl⟩

theorem logging_reaches_loop (p : Deployment) (s : Sequencers) (cur : Int) (rev : Batch)
    (reachable : (sequencers p).Reachable s) (live : s.master.exited = false)
    (pc : s.master.epochPc = .logging cur rev) (small : s.master.confirmed.length < 32768) :
    ∃ t, (sequencers p).Reachable t ∧ t.master.exited = false ∧ t.master.epochPc = .loop ∧
      t.master.confirmed.length = s.master.confirmed.length + 1 := by
  have named := (rev_epoch p s cur rev (sequencers_inv_reachable p s reachable) pc).2
  obtain ⟨file, wrote⟩ := append_log_progress s.master.batchLog (createBatchMsg rev s.master.batchMsg).1
    (createBatchMsg rev s.master.batchMsg).2 s.master.confirmed.length fullIo full_io_succeeds
  have epoch : rev.epochId.toInt = s.master.confirmed.length := by
    rw [named]
    exact short_of_int _ (by omega) (by omega)
  rw [← epoch] at wrote
  have logged := epoch_moves p s 0 (.log fullIo)
    { s.master with
      epochPc := .counting cur rev
      batchLog := some file
      batchMsg := (createBatchMsg rev s.master.batchMsg).1 }
    reachable live (by simp only [masterSequencerStartup, pc, wrote])
  have counted := epoch_moves p _ 0 .count _ logged live rfl
  have enqueued := epoch_moves p _ 0 .enqueue _ counted live rfl
  exact ⟨_, enqueued, live, rfl, by simp⟩

theorem iteration_begins (p : Deployment) (n : Nat) (bound : n ≤ 32768) :
    ∃ s, (sequencers p).Reachable s ∧ s.master.exited = false ∧ s.master.epochPc = .loop ∧
      s.master.confirmed.length = n := by
  induction n with
  | zero =>
      have started := epoch_moves p (Sequencers.initial p) 0 .barrier _ .init rfl rfl
      exact ⟨_, started, rfl, rfl, rfl⟩
  | succ n ih =>
      obtain ⟨s, reachable, live, pc, count⟩ := ih (by omega)
      obtain ⟨t, cur, rev, reachable, live, pc, same⟩ := loop_reaches_logging p s reachable live pc
      obtain ⟨u, reachable, live, pc, more⟩ := logging_reaches_loop p t cur rev reachable live pc
        (by rw [same]; omega)
      exact ⟨u, reachable, live, pc, by rw [more, same, count]⟩

theorem iteration_32768_exits : batchLogSize * 32768 ≤ 2147483647 ∧
    ∃ s cur rev, (sequencers (configuration .proposedMethod)).Reachable s ∧ s.master.epochPc = .logging cur rev ∧
      s.master.confirmed.length = 32768 ∧ ¬ EpochAgrees (configuration .proposedMethod) s.master rev 32768 := by
  obtain ⟨s, reachable, live, pc, count⟩ := iteration_begins (configuration .proposedMethod) 32768 (Nat.le_refl _)
  obtain ⟨t, cur, rev, reachable, _, pc, same⟩ := loop_reaches_logging (configuration .proposedMethod) s reachable live pc
  have length : t.master.confirmed.length = 32768 := by rw [same, count]
  refine ⟨by decide, t, cur, rev, reachable, pc, length, fun agrees => ?_⟩
  rw [← length] at agrees
  have small := epoch_agrees_small (configuration .proposedMethod) t cur rev
    (sequencers_inv_reachable (configuration .proposedMethod) t reachable) pc agrees
  omega

end EpochReplication
