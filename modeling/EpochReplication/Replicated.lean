import EpochReplication.SequencersInvariant

set_option autoImplicit false

namespace EpochReplication

structure Follows (s : Sequencers) (r : Nat) : Prop where
  count : ((s.slave r).writeTxBuffer.entered.length : Int) = (s.slave r).nextBatchEpochId
  numbered : ∀ (i : Nat) (b : Batch), (s.slave r).writeTxBuffer.entered[i]? = some b → b.epochId.toInt = i
  same : ∀ (i : Nat) (b : Batch), (s.slave r).writeTxBuffer.entered[i]? = some b →
    ∃ c, s.master.confirmed[i]? = some c ∧ b.wire = c.wire
  behind : (s.slave r).nextBatchEpochId ≤ s.master.determinedEpochId + 1

theorem delivered_content (confirmed entered : List Batch) (i : Nat) (b : Batch)
    (delivered : entered.map Batch.content <+: confirmed.map Batch.content) (found : entered[i]? = some b) :
    ∃ c, confirmed[i]? = some c ∧ b.epochId = c.epochId ∧ b.wire = c.wire := by
  obtain ⟨inside, rfl⟩ := List.getElem?_eq_some_iff.mp found
  have longer := delivered.length_le
  simp only [List.length_map] at longer
  have equal := delivered.getElem (i := i) (by simpa using inside)
  simp only [List.getElem_map, Batch.content, Prod.mk.injEq] at equal
  exact ⟨confirmed[i], List.getElem?_eq_getElem (by omega), equal.1, equal.2⟩

theorem follows_of_inv (p : Deployment) (s : Sequencers) (r : Nat) (inv : SequencersInv p s) (replica : p.IsSlave r) :
    Follows s r := by
  have slave := inv.slave r replica
  have behind := slave_behind _ _ slave
  have determined := inv.master.determined
  have count := slave.count
  refine ⟨slave.count.symm, ?_, ?_, by omega⟩
  · intro i b found
    obtain ⟨c, confirmed, number, _⟩ := delivered_content _ _ i b slave.delivered found
    rw [number, inv.master.epochs i c confirmed]
  · intro i b found
    obtain ⟨c, confirmed, _, txs⟩ := delivered_content _ _ i b slave.delivered found
    exact ⟨c, confirmed, txs⟩

theorem slaves_follow_master (p : Deployment) (s : Sequencers) (reachable : (sequencers p).Reachable s) :
    (∀ r, p.IsSlave r → Follows s r) ∧
      ∀ r q, p.IsSlave r → p.IsSlave q →
        (s.slave r).writeTxBuffer.entered.map Batch.content <+: (s.slave q).writeTxBuffer.entered.map Batch.content ∨
          (s.slave q).writeTxBuffer.entered.map Batch.content <+: (s.slave r).writeTxBuffer.entered.map Batch.content := by
  have inv := sequencers_inv_reachable p s reachable
  refine ⟨fun r replica => follows_of_inv p s r inv replica, ?_⟩
  intro r q first second
  exact List.prefix_or_prefix_of_prefix (inv.slave r first).delivered (inv.slave q second).delivered

def wholeIo : LogIo := ⟨fun _ => 0, true, [.upTo batchLogSize]⟩

def firstBatch : List (Int × SequencersAct) :=
  [(0, .epoch .barrier), (0, .epoch .loop), (0, .epoch .check), (0, .epoch .swap), (0, .epoch (.log wholeIo)),
    (0, .epoch .count), (0, .epoch .enqueue), (0, .send 1 .barrier), (0, .send 1 .loop), (0, .send 1 (.read wholeIo)),
    (0, .send 1 .send), (0, .slave 1 .loop), (0, .slave 1 (.receive 0 wholeIo))]

def afterFirstBatch (exp : ExpT) : Option Sequencers :=
  (sequencers (configuration exp)).exec (Sequencers.initial (configuration exp)) firstBatch

theorem after_first_batch_reachable (exp : ExpT) (s : Sequencers) (ran : afterFirstBatch exp = some s) :
    (sequencers (configuration exp)).Reachable s :=
  Machine.reachable_exec _ firstBatch _ s .init ran

theorem slaves_follow_master_first_batch : ∃ s, afterFirstBatch .proposedMethod = some s ∧ Follows s 1 := by
  have ran : (afterFirstBatch .proposedMethod).isSome = true := by decide +kernel
  obtain ⟨s, ran⟩ := Option.isSome_iff_exists.mp ran
  exact ⟨s, ran, (slaves_follow_master (configuration .proposedMethod) s
    (after_first_batch_reachable .proposedMethod s ran)).1 1 (by decide)⟩

structure Acknowledged (p : Deployment) (s : Sequencers) (r : Nat) (e : Int) : Prop where
  slave : p.IsSlave r
  low : 0 ≤ e
  below : e < (s.slave r).nextBatchEpochId
  logged : ∀ k : Nat, (k : Int) ≤ e → HoldsRecord (s.slave r).batchLog k
  enqueued : ∀ k : Nat, (k : Int) ≤ e → ∃ b, (s.slave r).writeTxBuffer.entered[k]? = some b ∧ b.epochId.toInt = k

theorem acknowledged_of_accepted (p : Deployment) (s : Sequencers) (r e : Nat) (inv : SequencersInv p s)
    (replica : p.IsSlave r) (below : e < s.accepted r) : Acknowledged p s r e := by
  have slave := inv.slave r replica
  have behind := slave_behind _ _ slave
  have follows := follows_of_inv p s r inv replica
  have count := slave.count
  have bound : e < (s.slave r).accepted := below
  refine ⟨replica, by omega, by omega, ?_, ?_⟩
  · intro k early
    have inside : k < s.master.confirmed.length := by omega
    exact log_carries_holds _ _ _ _ (slave.logged k _ (by omega) (List.getElem?_eq_getElem inside))
  · intro k early
    have inside : k < (s.slave r).writeTxBuffer.entered.length := by
      simp only [Slave.accepted] at bound
      omega
    exact ⟨_, List.getElem?_eq_getElem inside, follows.numbered k _ (List.getElem?_eq_getElem inside)⟩

theorem acks_sound (p : Deployment) (s : Sequencers) (reachable : (sequencers p).Reachable s) :
    (∀ d ∈ s.net, checkMsg d.data .ackBatchMessage = true →
      ∃ r : Nat, (getInfoFromAckBatchMsg d.data).1 = r ∧ Acknowledged p s r (getInfoFromAckBatchMsg d.data).2) ∧
    (∀ r, p.IsSlave r → (s.send r).nextEpochId ≤ (s.slave r).nextBatchEpochId ∧
      ∀ act t, (sequencers p).step s act = some t → (s.send r).nextEpochId ≤ (t.send r).nextEpochId) ∧
    (∀ d ∈ s.net, ∀ r, p.IsSlave r → d.dst = .slaveSequencer r → checkMsg d.data .batchMessage = true →
      getEpochIdFromBatchMeg d.data ≤ (s.slave r).nextBatchEpochId) ∧
    ∀ r, p.IsSlave r → (s.slave r).pc ≠ .aborted := by
  have inv := sequencers_inv_reachable p s reachable
  refine ⟨?_, ?_, ?_, fun r replica => (inv.slave r replica).running⟩
  · intro d member ack
    obtain ⟨r, e, replica, below, decoded⟩ := carried_ack p _ _ d (accepted_fits p s inv) (inv.net d member) ack
    rw [decoded]
    exact ⟨r, rfl, acknowledged_of_accepted p s r e inv replica below⟩
  · intro r replica
    have bound := (inv.send r replica).next.2
    have count := (inv.slave r replica).count
    refine ⟨?_, fun act t taken => next_epoch_forward p s t act r inv taken⟩
    simp only [Sequencers.accepted] at bound
    omega
  · intro d member r replica dst batch
    obtain ⟨_, k, b, reached, found, content⟩ := carried_batch p _ _ d r (inv.net d member) dst batch
    have count := (inv.slave r replica).count
    rw [carries_batch_epoch d.data b.epochId b.wire content, inv.master.epochs k b found, count]
    exact Int.ofNat_le.mpr reached

theorem acks_sound_first_batch : ∃ s, afterFirstBatch .conventionalMethod = some s ∧
    (s.send 1).nextEpochId ≤ (s.slave 1).nextBatchEpochId ∧ (s.slave 1).pc ≠ .aborted := by
  have ran : (afterFirstBatch .conventionalMethod).isSome = true := by decide +kernel
  obtain ⟨s, ran⟩ := Option.isSome_iff_exists.mp ran
  have sound := acks_sound (configuration .conventionalMethod) s
    (after_first_batch_reachable .conventionalMethod s ran)
  exact ⟨s, ran, (sound.2.1 1 (by decide)).1, sound.2.2.2 1 (by decide)⟩

end EpochReplication
