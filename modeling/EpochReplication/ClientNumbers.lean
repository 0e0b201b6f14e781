import EpochReplication.ExactlyOnce

set_option autoImplicit false

namespace EpochReplication

def Client.earlier (client : Client) : List WireTx :=
  if client.pc = .waiting ∧ client.sendTx.type = .writeOnly then client.submitted.dropLast else client.submitted

structure Numbered (client : Client) : Prop where
  count : 0 ≤ client.txId
  earlier : client.txId ≤ 65536 → ∀ w ∈ client.earlier, (w.id.toNat : Int) < client.txId
  number : client.pc = .waiting → client.txId < 65536 → (client.sendTx.id.toNat : Int) = client.txId

theorem request_number (writeRate r c : Nat) (txId : Int) (typeRand keyRand : Nat) (low : 0 ≤ txId) (high : txId < 65536) :
    ((ClientTime.requestTx writeRate r c txId typeRand keyRand).id.toNat : Int) = txId := by
  have id : ((Int16.ofInt txId).toUInt16.toNat : Int) = txId := by
    have bits : (Int16.ofInt txId).toUInt16.toNat = (BitVec.ofInt 16 txId).toNat := rfl
    rw [bits, BitVec.toNat_ofInt]
    omega
  unfold ClientTime.requestTx
  simp only
  split
  · exact id
  · exact id

theorem numbered_client (writeRate r c : Nat) (conn next : Connection) (act : ClientTime.Act) (numbered : Numbered conn.client)
    (current : conn.client.pc = .waiting → conn.client.sendTx.type = .writeOnly →
      ∃ earlier, conn.client.submitted = earlier ++ [conn.client.sendTx.wire])
    (step : ClientStep writeRate r c conn act next) : Numbered next.client := by
  obtain ⟨count, earlier, number⟩ := numbered
  have choosing : conn.client.pc = .choosing → conn.client.earlier = conn.client.submitted :=
    fun pc => if_neg (by simp [pc])
  cases step with
  | request typeRand keyRand sendTx pc chosen =>
      refine ⟨count, fun small w member => earlier small w ?_, fun _ small => ?_⟩
      · rw [choosing pc]
        by_cases write : sendTx.type = .writeOnly
        · simpa [Client.earlier, write] using member
        · simpa [Client.earlier, write] using member
      · exact chosen ▸ request_number writeRate r c conn.client.txId typeRand keyRand count small
  | receive data msg len rest recvTx pc took =>
      refine ⟨Int.le_add_one count, fun small w member => ?_, fun waiting => (by cases waiting)⟩
      have member : w ∈ conn.client.submitted := by simpa [Client.earlier] using member
      have small : conn.client.txId < 65536 := by
        simp only at small
        omega
      by_cases write : conn.client.sendTx.type = .writeOnly
      · have before : conn.client.earlier = conn.client.submitted.dropLast := if_pos ⟨pc, write⟩
        obtain ⟨others, last⟩ := current pc write
        rw [last, List.dropLast_concat] at before
        rw [last, List.mem_append, List.mem_singleton] at member
        rcases member with old | rfl
        · exact Int.lt_add_one_of_le (Int.le_of_lt (earlier (Int.le_of_lt small) w (before ▸ old)))
        · have id : (conn.client.sendTx.wire.id.toNat : Int) = conn.client.txId := number pc small
          exact Int.lt_add_one_of_le (Int.le_of_eq id)
      · have before : conn.client.earlier = conn.client.submitted := if_neg fun both => write both.2
        exact Int.lt_add_one_of_le (Int.le_of_lt (earlier (Int.le_of_lt small) w (before ▸ member)))
  | finish pc =>
      refine ⟨count, fun small w member => earlier small w ?_, fun waiting => (by cases waiting)⟩
      rw [choosing pc]
      simpa [Client.earlier] using member

theorem numbered_reachable (p : Deployment) (writeRate : Nat) (d : Database) (r c : Nat)
    (reachable : (database p writeRate).Reachable d) (connection : p.IsConnection r c) :
    Numbered (d.intake.conn (r, c)).client := by
  induction reachable with
  | init =>
      exact ⟨Int.le_refl _, by simp [database, Database.initial, Intake.initial, Client.earlier],
        fun waiting => (by cases waiting)⟩
  | step d next act before taken ih =>
      have current := (accounted_reachable p writeRate d r c before connection).current
      cases database_conn_step p writeRate d next act r c taken with
      | same act other quiet conn | recieve act inner recieve sent from_ step conn | touch act tx touches conn =>
          rw [conn]
          exact ih
      | client act after _ step conn =>
          rw [conn]
          exact numbered_client writeRate r c _ after act ih current step
      | thread act after sent _ step conn =>
          have same : after.client = (d.intake.conn (r, c)).client := by cases step <;> rfl
          rw [conn, same]
          exact ih

-- The test of the id is not passed by a write with the id of an earlier one, and
-- none is answered that has not passed it.
structure NumberFits (client : Client) : Prop where
  small : client.sendTx.id.toNat < 32768
  ascends : ∀ w ∈ client.submitted.dropLast, w.id.toNat < client.sendTx.id.toNat

theorem first_numbers_fit (p : Deployment) (writeRate : Nat) (d : Database) (r c : Nat)
    (reachable : (database p writeRate).Reachable d) (connection : p.IsConnection r c)
    (waiting : (d.intake.conn (r, c)).client.pc = .waiting)
    (write : (d.intake.conn (r, c)).client.sendTx.type = .writeOnly)
    (small : (d.intake.conn (r, c)).client.txId < 32768) : NumberFits (d.intake.conn (r, c)).client := by
  obtain ⟨_, earlier, number⟩ := numbered_reachable p writeRate d r c reachable connection
  have id := number waiting (by omega)
  have before : (d.intake.conn (r, c)).client.earlier = (d.intake.conn (r, c)).client.submitted.dropLast :=
    if_pos ⟨waiting, write⟩
  rw [before] at earlier
  refine ⟨by omega, fun w member => ?_⟩
  have less := earlier (by omega) w member
  omega

theorem answered_number_fits (p : Deployment) (writeRate : Nat) (d next : Database) (r c : Nat)
    (reachable : (database p writeRate).Reachable d)
    (received : Database.step p writeRate d (.client r c .receive) = some next)
    (write : (d.intake.conn (r, c)).client.sendTx.type = .writeOnly) : NumberFits (d.intake.conn (r, c)).client := by
  have connection : p.IsConnection r c := by
    cases database_step_cases p writeRate d next _ received with
    | client _ _ _ _ connection => exact connection
  have accounted := accounted_reachable p writeRate d r c reachable connection
  have acked := acked_reachable p writeRate d r c reachable connection
  have ordered := taken_ordered _ (ascending_reachable p writeRate d reachable r c connection)
  obtain ⟨waiting, up⟩ : (d.intake.conn (r, c)).client.pc = .waiting ∧
      (d.intake.conn (r, c)).toClient.pending ≠ [] := by
    cases database_step_cases p writeRate d next _ received with
    | client _ _ _ conn _ step =>
        cases step with
        | receive data msg len rest recvTx pc took => exact ⟨pc, by simp [Fifo.try_take_pending _ rest (data, len) took]⟩
  obtain ⟨earlier, last⟩ := accounted.current waiting write
  have taken := accounted.account.resolve_right fun untaken => up untaken.down
  have all := acked.account.resolve_right fun un => up un.down
  refine ⟨acked.small (d.intake.conn (r, c)).client.sendTx.wire ?_, ?_⟩
  · rw [all.all, last]
    exact List.mem_append_right _ (List.mem_singleton_self _)
  · rw [taken.all, last] at ordered
    rw [last, List.dropLast_concat]
    exact fun w member => (List.pairwise_append.mp ordered).2.2 w member _ (List.mem_singleton_self _)

theorem first_ids_new (p : Deployment) (writeRate : Nat) (d next : Database) (act : DatabaseAct) (r c : Nat)
    (reachable : (database p writeRate).Reachable d) (connection : p.IsConnection r c)
    (taken : Database.step p writeRate d act = some next) (small : (d.intake.conn (r, c)).client.txId < 65536) :
    d.acksOldId r c act = false := by
  rw [Bool.eq_false_iff]
  intro old
  obtain ⟨i, overtime, rfl⟩ := acks_old_id_thread r c d act old
  have kept := (database_inv_reachable p writeRate d reachable).conns r c connection
  have pc : (d.intake.conn (r, c)).thread.pc = .polling := by
    cases database_step_cases p writeRate d next _ taken with
    | thread _ _ _ _ _ _ _ step =>
        cases step with
        | acknowledge _ _ _ _ pc | poll _ _ _ pc => exact pc
  obtain ⟨waiting, write, _, wire⟩ := polling_current _ r c _ kept pc
  obtain ⟨_, earlier, number⟩ := numbered_reachable p writeRate d r c reachable connection
  have before : (d.intake.conn (r, c)).client.earlier = (d.intake.conn (r, c)).client.submitted.dropLast :=
    if_pos ⟨waiting, write⟩
  have id : (d.intake.conn (r, c)).thread.tx.id = (d.intake.conn (r, c)).client.sendTx.id := congrArg WireTx.id wire
  rw [before] at earlier
  cases found : d.intake.net[i]? with
  | none => simp [Database.acksOldId, found] at old
  | some packet =>
      obtain ⟨_, w, member, le⟩ := (acks_old_id_poll r c i overtime d packet found).mp old
      have less := earlier (Int.le_of_lt small) w member
      have same := number waiting small
      rw [id] at le
      omega

structure WriteOnly (client : Client) : Prop where
  write : client.pc = .waiting → client.sendTx.type = .writeOnly
  low : client.txId ≤ 32768

theorem always_writes (r c : Nat) (txId : Int) (typeRand keyRand : Nat) :
    (ClientTime.requestTx ClientTime.writeRate r c txId typeRand keyRand).type = .writeOnly := by
  have always : ClientTime.getRandom 0 99 typeRand < ClientTime.writeRate := by
    simp only [ClientTime.getRandom, ClientTime.writeRate]
    omega
  unfold ClientTime.requestTx
  simp only [if_pos always]
  rfl

theorem write_only_reachable (p : Deployment) (d : Database) (r c : Nat)
    (reachable : (database p ClientTime.writeRate).Reachable d) : WriteOnly (d.intake.conn (r, c)).client := by
  induction reachable with
  | init => exact ⟨fun waiting => (by cases waiting), by simp [database, Database.initial, Intake.initial]⟩
  | step d next act before taken ih =>
      cases database_conn_step p ClientTime.writeRate d next act r c taken with
      | same act other quiet conn | recieve act inner recieve sent from_ step conn | touch act tx touches conn =>
          rw [conn]
          exact ih
      | thread act after sent _ step conn =>
          have same : after.client = (d.intake.conn (r, c)).client := by cases step <;> rfl
          rw [conn, same]
          exact ih
      | client act after connection step conn =>
          rw [conn]
          cases step with
          | request typeRand keyRand sendTx pc chosen => exact ⟨fun _ => chosen ▸ always_writes r c _ typeRand keyRand, ih.low⟩
          | receive data msg len rest recvTx pc took =>
              have fits := answered_number_fits p ClientTime.writeRate d next r c before taken (ih.write pc)
              have low := ih.low
              have id := (numbered_reachable p ClientTime.writeRate d r c before connection).number pc (by omega)
              have small := fits.small
              exact ⟨fun waiting => (by cases waiting), by simp only; omega⟩
          | finish pc => exact ⟨fun waiting => (by cases waiting), ih.low⟩

theorem write_only_added_once (p : Deployment) (d : Database) (r c : Nat)
    (reachable : (database p ClientTime.writeRate).Reachable d) (connection : p.IsConnection r c) : AddedOnce d r c := by
  rw [added_once_of_open p ClientTime.writeRate d r c reachable connection]
  induction reachable with
  | init => simp [Connection.ShutOut, database, Database.initial, Intake.initial]
  | step d next act before taken ih =>
      have low := (write_only_reachable p d r c before).low
      have new := first_ids_new p ClientTime.writeRate d next act r c before connection taken (by omega)
      rw [shut_out_step p ClientTime.writeRate d next act r c before connection taken, new]
      exact not_or.mpr ⟨ih, by simp⟩

end EpochReplication
