import EpochReplication.BatchLog
import EpochReplication.Replication

set_option autoImplicit false

namespace EpochReplication

inductive EpochStep (systemFinishRequest : Int) (m : Master) : EpochAct → Master → Prop where
  | spin (pc : m.epochPc = .barrier) : EpochStep systemFinishRequest m .barrier m
  | start (pc : m.epochPc = .barrier) (flag : systemFinishRequest = 0) :
      EpochStep systemFinishRequest m .barrier { m with epochPc := .loop }
  | enter (pc : m.epochPc = .loop) (flag : systemFinishRequest = 0) :
      EpochStep systemFinishRequest m .loop { m with epochPc := .checking (m.determinedEpochId + 1) }
  | leave (pc : m.epochPc = .loop) (flag : systemFinishRequest ≠ 0) :
      EpochStep systemFinishRequest m .loop { m with epochPc := .returned }
  | stop (cur : Int) (pc : m.epochPc = .checking cur) (flag : systemFinishRequest = 1) :
      EpochStep systemFinishRequest m .check { m with epochPc := .returned }
  | check (cur : Int) (pc : m.epochPc = .checking cur) :
      EpochStep systemFinishRequest m .check { m with epochPc := .filling cur }
  | swap (cur : Int) (pc : m.epochPc = .filling cur) :
      EpochStep systemFinishRequest m .swap
        { m with epochPc := .logging cur m.batch, batch := batchCreate (Int16.ofInt (cur + 1)) }
  | log (cur : Int) (rev : Batch) (io : LogIo) (file : File) (pc : m.epochPc = .logging cur rev)
      (done : appendLog m.batchLog (createBatchMsg rev m.batchMsg).1 (createBatchMsg rev m.batchMsg).2
        rev.epochId.toInt io = .returned file) :
      EpochStep systemFinishRequest m (.log io)
        { m with epochPc := .counting cur rev, batchLog := some file, batchMsg := (createBatchMsg rev m.batchMsg).1 }
  | count (cur : Int) (rev : Batch) (pc : m.epochPc = .counting cur rev) :
      EpochStep systemFinishRequest m .count
        { m with
          epochPc := .enqueueing cur rev
          determinedEpochId := m.determinedEpochId + 1
          confirmed := m.confirmed ++ [rev] }
  | enqueue (cur : Int) (rev : Batch) (pc : m.epochPc = .enqueueing cur rev) :
      EpochStep systemFinishRequest m .enqueue { m with epochPc := .loop, writeTxBuffer := m.writeTxBuffer.add rev }

theorem epoch_step_of_returned (systemFinishRequest : Int) (m next : Master) (act : EpochAct)
    (done : masterSequencerStartup systemFinishRequest m act = .returned next) :
    EpochStep systemFinishRequest m act next := by
  unfold masterSequencerStartup at done
  split at done
  · rename_i pc
    split at done
    · cases done
      exact .spin pc
    · rename_i flag
      cases done
      exact .start pc (by omega)
  · rename_i pc
    split at done
    · rename_i flag
      cases done
      exact .enter pc flag
    · rename_i flag
      cases done
      exact .leave pc flag
  · rename_i cur pc
    split at done
    · rename_i flag
      cases done
      exact .stop cur pc flag
    · cases done
      exact .check cur pc
  · rename_i cur pc
    cases done
    exact .swap cur pc
  · rename_i cur rev io pc
    simp only at done
    split at done
    · rename_i file wrote
      cases done
      exact .log cur rev io file pc wrote
    · cases done
    · cases done
  · rename_i cur rev pc
    cases done
    exact .count cur rev pc
  · rename_i cur rev pc
    cases done
    exact .enqueue cur rev pc
  · cases done

def EpochInv (m : Master) : Prop :=
  match m.epochPc with
  | .barrier | .loop | .returned =>
      m.batch.epochId = Int16.ofInt m.confirmed.length ∧ m.writeTxBuffer.entered = m.confirmed
  | .checking cur | .filling cur =>
      cur = m.confirmed.length ∧ m.batch.epochId = Int16.ofInt cur ∧ m.writeTxBuffer.entered = m.confirmed
  | .logging cur rev =>
      cur = m.confirmed.length ∧ m.batch.epochId = Int16.ofInt (cur + 1) ∧ m.writeTxBuffer.entered = m.confirmed ∧
        rev.epochId = Int16.ofInt cur
  | .counting cur rev =>
      cur = m.confirmed.length ∧ m.batch.epochId = Int16.ofInt (cur + 1) ∧ m.writeTxBuffer.entered = m.confirmed ∧
        rev.epochId.toInt = cur ∧ cur < 32768 ∧ LogCarries batchLogRoom m.batchLog m.confirmed.length rev
  | .enqueueing cur rev =>
      cur + 1 = m.confirmed.length ∧ m.batch.epochId = Int16.ofInt (cur + 1) ∧
        m.writeTxBuffer.entered ++ [rev] = m.confirmed

structure MasterInv (m : Master) : Prop where
  determined : m.determinedEpochId + 1 = m.confirmed.length
  fits : m.confirmed.length ≤ 32768
  epochs : ∀ (k : Nat) (b : Batch), m.confirmed[k]? = some b → b.epochId.toInt = k
  logged : ∀ (k : Nat) (b : Batch), m.confirmed[k]? = some b → LogCarries batchLogRoom m.batchLog k b
  position : EpochInv m

theorem short_of_int (n : Int) (low : 0 ≤ n) (high : n < 32768) : (Int16.ofInt n).toInt = n := by
  rw [Int16.toInt_ofInt]
  exact bmod_short n (by omega) high

theorem append_log_epoch (log : Option File) (msg : Buf) (len : Int) (epoch : Nat) (io : LogIo) (file : File)
    (fits : epoch ≤ 32768) (done : appendLog log msg len (Int16.ofInt epoch).toInt io = .returned file) :
    epoch < 32768 ∧ (Int16.ofInt epoch).toInt = epoch := by
  by_cases small : epoch < 32768
  · exact ⟨small, short_of_int epoch (by omega) (by omega)⟩
  · have wrapped : epoch = 32768 := by omega
    subst wrapped
    rw [append_log_negative log msg len _ io (by decide)] at done
    cases done

theorem master_inv_initial (p : Deployment) : MasterInv (Sequencers.initial p).master := by
  refine ⟨rfl, Nat.zero_le _, ?_, ?_, rfl, rfl⟩ <;> simp [Sequencers.initial]

theorem master_inv_add (m : Master) (tx : Tx) (inv : MasterInv m) :
    MasterInv { m with batch := (sequencerAddWriteTxToBatch m.batch tx).1 } := by
  have same : (sequencerAddWriteTxToBatch m.batch tx).1.epochId = m.batch.epochId := by
    unfold sequencerAddWriteTxToBatch
    split
    · exact batch_add_epoch m.batch tx
    · rfl
  refine ⟨inv.determined, inv.fits, inv.epochs, inv.logged, ?_⟩
  have position := inv.position
  simp only [EpochInv, same] at position ⊢
  exact position

theorem confirmed_getElem (confirmed : List Batch) (rev b : Batch) (k : Nat)
    (found : (confirmed ++ [rev])[k]? = some b) :
    confirmed[k]? = some b ∨ k = confirmed.length ∧ b = rev := by
  rw [List.getElem?_append] at found
  split at found
  · exact .inl found
  · rename_i past
    rw [List.getElem?_singleton] at found
    split at found
    · cases found
      exact .inr ⟨by omega, rfl⟩
    · cases found

theorem master_inv_step (systemFinishRequest : Int) (m next : Master) (act : EpochAct) (inv : MasterInv m)
    (step : EpochStep systemFinishRequest m act next) : MasterInv next ∧ m.confirmed <+: next.confirmed := by
  obtain ⟨determined, fits, epochs, logged, position⟩ := inv
  cases step with
  | spin pc => exact ⟨⟨determined, fits, epochs, logged, position⟩, List.prefix_refl _⟩
  | start pc flag =>
      simp only [EpochInv, pc] at position
      exact ⟨⟨determined, fits, epochs, logged, position⟩, List.prefix_refl _⟩
  | enter pc flag =>
      simp only [EpochInv, pc] at position
      exact ⟨⟨determined, fits, epochs, logged, determined, by rw [determined]; exact position.1, position.2⟩,
        List.prefix_refl _⟩
  | leave pc flag =>
      simp only [EpochInv, pc] at position
      exact ⟨⟨determined, fits, epochs, logged, position⟩, List.prefix_refl _⟩
  | stop cur pc flag =>
      simp only [EpochInv, pc] at position
      obtain ⟨number, filling, queued⟩ := position
      exact ⟨⟨determined, fits, epochs, logged, number ▸ filling, queued⟩, List.prefix_refl _⟩
  | check cur pc =>
      simp only [EpochInv, pc] at position
      exact ⟨⟨determined, fits, epochs, logged, position⟩, List.prefix_refl _⟩
  | swap cur pc =>
      simp only [EpochInv, pc] at position
      obtain ⟨number, filling, queued⟩ := position
      exact ⟨⟨determined, fits, epochs, logged, number, rfl, queued, filling⟩, List.prefix_refl _⟩
  | log cur rev io file pc done =>
      simp only [EpochInv, pc] at position
      obtain ⟨number, filling, queued, named⟩ := position
      rw [named, number] at done
      obtain ⟨small, decoded⟩ := append_log_epoch _ _ _ _ io file fits done
      rw [decoded] at done
      refine ⟨⟨determined, fits, epochs, ?_, number, filling, queued, ?_, by omega, ?_⟩, List.prefix_refl _⟩
      · intro k b found
        have earlier : k < m.confirmed.length := (List.getElem?_eq_some_iff.mp found).1
        exact log_carries_kept _ _ _ _ _ k b io file (by omega) done (logged k b found)
      · rw [named, number, decoded]
      · refine log_carries_append _ _ _ _ _ rev io file (by decide) ?_ ?_ (create_batch_carries rev m.batchMsg) done
        · exact Nat.le_of_eq (create_batch_length rev m.batchMsg).symm
        · rw [create_batch_length]
          exact Nat.le_trans (batch_msg_fits rev) (by decide)
  | count cur rev pc =>
      simp only [EpochInv, pc] at position
      obtain ⟨number, filling, queued, named, small, carries⟩ := position
      refine ⟨⟨?_, ?_, ?_, ?_, ?_, filling, ?_⟩, List.prefix_append _ _⟩
      · simp only [List.length_append, List.length_singleton]
        omega
      · simp only [List.length_append, List.length_singleton]
        omega
      · intro k b found
        rcases confirmed_getElem m.confirmed rev b k found with earlier | ⟨rfl, rfl⟩
        · exact epochs k b earlier
        · exact named.trans number
      · intro k b found
        rcases confirmed_getElem m.confirmed rev b k found with earlier | ⟨rfl, rfl⟩
        · exact logged k b earlier
        · exact carries
      · simp only [List.length_append, List.length_singleton]
        omega
      · rw [queued]
  | enqueue cur rev pc =>
      simp only [EpochInv, pc] at position
      obtain ⟨number, filling, queued⟩ := position
      exact ⟨⟨determined, fits, epochs, logged, number ▸ filling, by simpa using queued⟩, List.prefix_refl _⟩

end EpochReplication
