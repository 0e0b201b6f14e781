import EpochReplication.ExactlyOnce
import Mathlib.Data.Finset.Prod
import Mathlib.Order.Interval.Finset.Nat

set_option autoImplicit false

namespace EpochReplication

def EpochPc.revBatch : EpochPc → List Batch
  | .logging _ rev | .counting _ rev => [rev]
  | _ => []

def Master.batches (m : Master) : List Batch := m.confirmed ++ m.epochPc.revBatch ++ [m.batch]

def Tx.owner (tx : Tx) : Int16 × Int16 := (tx.replicaId, tx.clientId)

theorem placed_batches (m : Master) : m.placed = m.batches.flatMap Batch.wire := by
  cases pc : m.epochPc <;> simp [Master.placed, Master.batches, EpochPc.swapped, EpochPc.revBatch, pc]

theorem short_of_to_int (epochId : Int16) (n : Nat) (same : epochId.toInt = n) : epochId = Int16.ofInt n := by
  rw [← same, Int16.ofInt_toInt]

theorem batches_numbered (m : Master) (inv : MasterInv m) (i : Nat) (b : Batch) (found : m.batches[i]? = some b) :
    b.epochId = Int16.ofInt i := by
  have position := inv.position
  rcases confirmed_getElem (m.confirmed ++ m.epochPc.revBatch) m.batch b i found with sealed | ⟨index, filling⟩
  · by_cases inside : i < m.confirmed.length
    · rw [List.getElem?_append_left inside] at sealed
      exact short_of_to_int b.epochId i (inv.epochs i b sealed)
    · rw [List.getElem?_append_right (by omega)] at sealed
      cases pc : m.epochPc with
      | barrier | loop | checking | filling | enqueueing | returned => simp [pc, EpochPc.revBatch] at sealed
      | logging cur rev =>
          simp only [EpochInv, pc] at position
          simp only [pc, EpochPc.revBatch, List.getElem?_singleton] at sealed
          split at sealed
          · cases sealed
            rw [position.2.2.2, position.1, show i = m.confirmed.length by omega]
          · cases sealed
      | counting cur rev =>
          simp only [EpochInv, pc] at position
          simp only [pc, EpochPc.revBatch, List.getElem?_singleton] at sealed
          split at sealed
          · cases sealed
            exact short_of_to_int _ i (by rw [position.2.2.2.1, position.1, show i = m.confirmed.length by omega])
          · cases sealed
  · subst filling
    rw [index]
    cases pc : m.epochPc with
    | barrier | loop | returned =>
        simp only [EpochInv, pc] at position
        simp [EpochPc.revBatch, position.1]
    | checking cur | filling cur =>
        simp only [EpochInv, pc] at position
        simp [EpochPc.revBatch, position.2.1, position.1]
    | logging cur rev | counting cur rev =>
        simp only [EpochInv, pc] at position
        simp [EpochPc.revBatch, position.2.1, position.1]
    | enqueueing cur rev =>
        simp only [EpochInv, pc] at position
        simp [EpochPc.revBatch, position.2.1, position.1]

theorem stage_one (confirmed : List Batch) (done : Nat) (work : List WireTx) (slot : Option Nat) (c : Nat)
    (t : ClientThread) (m : RecieveThread) (stage : WriteStage confirmed done work slot c t m) : work.length ≤ 1 := by
  cases stage with
  | idle _ none | fresh _ none | sent _ _ _ _ none | raised _ _ _ _ _ _ none => simp [none]
  | placed _ _ _ _ _ one => simp [one]

-- Whatever of a client is in the batch being filled or on its way there is part
-- of the flow of its connection, since no replica executes before confirmation.
theorem filling_once (p : Deployment) (d : Database) (r c : Nat) (inv : DatabaseInv p d) (nodes : NodesInv p d.replicas)
    (connection : p.IsConnection r c) : (d.replicas.sequencers.master.batch.wire.filter (mine r c)).length +
      (d.intake.conn (r, c)).recieve.hands.length ≤ 1 := by
  have one := stage_one _ _ _ _ c _ _ (inv.stages r c connection)
  have behind := (executed_confirmed p d.replicas r nodes.sequencers nodes.replicas
    (connection_node p r c connection)).length_le
  have rest : d.replicas.sequencers.master.placed.drop (d.replicas.executedBy r).length =
      (d.replicas.sequencers.master.confirmed.flatMap Batch.wire).drop (d.replicas.executedBy r).length ++
        (d.replicas.sequencers.master.epochPc.swapped ++ d.replicas.sequencers.master.batch.wire) := by
    rw [Master.placed, List.append_assoc, List.drop_append_of_le_length behind]
  simp only [flow, Replicas.unfinished, rest, List.filter_append, List.length_append] at one
  omega

theorem owners_bound (p : Deployment) (owners : List (Int16 × Int16)) (once : owners.Nodup)
    (within : ∀ owner ∈ owners, ∃ r c, p.IsConnection r c ∧ owner.1.toInt = r ∧ owner.2.toInt = c) :
    owners.length ≤ p.clientNum * (p.replicaNum - 1) := by
  rw [← List.toFinset_card_of_nodup once]
  have places : owners.toFinset.card ≤ (Finset.Ico 1 p.replicaNum ×ˢ Finset.range p.clientNum).card := by
    refine Finset.card_le_card_of_injOn (fun owner => (owner.1.toInt.toNat, owner.2.toInt.toNat)) ?_ ?_
    · intro owner member
      obtain ⟨r, c, connection, replica, client⟩ := within owner (by simpa using member)
      simp only [Finset.coe_product, Set.mem_prod, Finset.mem_coe, Finset.mem_Ico, Finset.mem_range, replica, client,
        Int.toNat_natCast]
      exact connection
    · intro owner member other also same
      obtain ⟨r, c, _, replica, client⟩ := within owner (by simpa using member)
      obtain ⟨q, e, _, replica', client'⟩ := within other (by simpa using also)
      simp only [replica, client, replica', client', Int.toNat_natCast, Prod.mk.injEq] at same
      obtain ⟨rfl, rfl⟩ := same
      exact Prod.ext (Int16.toInt_inj.mp (replica.trans replica'.symm)) (Int16.toInt_inj.mp (client.trans client'.symm))
  rw [Finset.card_product, Nat.card_Ico, Finset.card_range, Nat.mul_comm] at places
  exact places

theorem owner_connection (p : Deployment) (tx : Tx) (of : FromClient p tx.wire) :
    ∃ r c, p.IsConnection r c ∧ tx.owner.1.toInt = r ∧ tx.owner.2.toInt = c := by
  obtain ⟨⟨r, c, connection, issued⟩, _⟩ := of
  exact ⟨r, c, connection, issued.replica, issued.client⟩

theorem owner_mine (r c : Nat) (owner : Int16 × Int16) (tx : Tx) (replica : owner.1.toInt = r)
    (client : owner.2.toInt = c) : (tx.owner == owner) = mine r c tx.wire := by
  rw [Bool.eq_iff_iff, beq_iff_eq, mine_iff]
  constructor
  · rintro rfl
    exact ⟨replica, client⟩
  · rintro ⟨same, also⟩
    exact Prod.ext (Int16.toInt_inj.mp (same.trans replica.symm)) (Int16.toInt_inj.mp (also.trans client.symm))

theorem owners_count (r c : Nat) (owner : Int16 × Int16) (b : Batch) (replica : owner.1.toInt = r)
    (client : owner.2.toInt = c) : (b.txSet.map Tx.owner).count owner = (b.wire.filter (mine r c)).length := by
  rw [List.count, List.countP_map, ← List.countP_eq_length_filter, Batch.wire, List.countP_map]
  refine List.countP_congr (fun tx _ => ?_)
  simp only [Function.comp_apply, owner_mine r c owner tx replica client]

theorem owners_nodup (p : Deployment) (b : Batch) (of : ∀ w ∈ b.wire, FromClient p w)
    (once : ∀ r c, p.IsConnection r c → (b.wire.filter (mine r c)).length ≤ 1) : (b.txSet.map Tx.owner).Nodup := by
  refine List.nodup_iff_count_le_one.mpr (fun owner => ?_)
  by_cases member : owner ∈ b.txSet.map Tx.owner
  · obtain ⟨tx, inside, rfl⟩ := List.mem_map.mp member
    obtain ⟨r, c, connection, replica, client⟩ := owner_connection p tx (of tx.wire (List.mem_map_of_mem inside))
    rw [owners_count r c tx.owner b replica client]
    exact once r c connection
  · rw [List.count_eq_zero_of_not_mem member]
    exact Nat.zero_le 1

theorem filling_from_clients (p : Deployment) (d : Database) (inv : DatabaseInv p d) (w : WireTx)
    (member : w ∈ d.replicas.sequencers.master.batch.wire) : FromClient p w := by
  refine inv.placed w ?_
  rw [Master.placed]
  exact List.mem_append_right _ member

theorem filling_nodup (p : Deployment) (d : Database) (inv : DatabaseInv p d) (nodes : NodesInv p d.replicas) :
    (d.replicas.sequencers.master.batch.txSet.map Tx.owner).Nodup := by
  refine owners_nodup p _ (filling_from_clients p d inv) (fun r c connection => ?_)
  have once := filling_once p d r c inv nodes connection
  omega

theorem filling_bound (p : Deployment) (d : Database) (inv : DatabaseInv p d) (nodes : NodesInv p d.replicas) :
    d.replicas.sequencers.master.batch.txSet.length ≤ p.clientNum * (p.replicaNum - 1) := by
  have bound := owners_bound p _ (filling_nodup p d inv nodes) ?_
  · simpa using bound
  · intro owner member
    obtain ⟨tx, inside, rfl⟩ := List.mem_map.mp member
    exact owner_connection p tx (filling_from_clients p d inv tx.wire (List.mem_map_of_mem inside))

theorem add_write_has_room (batch : Batch) (tx : Tx) (room : batch.txSet.length < maxBatchSize) :
    (sequencerAddWriteTxToBatch batch tx).2 = 1 := by
  rcases add_returns batch tx with ⟨_, full⟩ | ⟨one, _, _⟩
  · omega
  · exact one

theorem sequencers_batches (p : Deployment) (s t : Sequencers) (act : Int × SequencersAct)
    (taken : Sequencers.step p s act = some t) (b : Batch) (member : b ∈ t.master.batches) :
    b ∈ s.master.batches ∨ b = t.master.batch := by
  have old : t.master.batches = s.master.batches → b ∈ s.master.batches ∨ b = t.master.batch :=
    fun same => .inl (same ▸ member)
  cases sequencers_step_cases p s t act taken with
  | epochExit | send | sendExit | slave | slaveExit | takeMaster | takeSlave => exact old rfl
  | addWriteTx flag tx live =>
      simp only [Master.batches, List.mem_append, List.mem_singleton] at member ⊢
      exact member.imp_left .inl
  | epoch flag act master live step =>
      cases step with
      | spin => exact old rfl
      | start pc | enter pc | leave pc | stop _ pc | check _ pc | log _ _ _ _ pc | enqueue _ _ pc =>
          exact old (by simp [Master.batches, EpochPc.revBatch, pc])
      | count cur rev pc => exact old (by simp [Master.batches, EpochPc.revBatch, pc])
      | swap cur pc =>
          simp only [Master.batches, EpochPc.revBatch, pc, List.append_nil, List.mem_append, List.mem_singleton]
            at member ⊢
          exact member

theorem database_batches (p : Deployment) (writeRate : Nat) (d next : Database) (act : DatabaseAct)
    (taken : Database.step p writeRate d act = some next) (b : Batch)
    (member : b ∈ next.replicas.sequencers.master.batches) :
    b ∈ d.replicas.sequencers.master.batches ∨ b = next.replicas.sequencers.master.batch := by
  rcases (database_projects p writeRate).step d act next taken with same | ⟨label, moved⟩
  · exact .inl (same ▸ member)
  · rcases (replicas_projects p).step _ label _ moved with same | ⟨inner, stepped⟩
    · exact .inl (same ▸ member)
    · exact sequencers_batches p _ _ inner stepped b member

theorem batches_once (p : Deployment) (writeRate : Nat) (d : Database) (reachable : (database p writeRate).Reachable d)
    (b : Batch) (member : b ∈ d.replicas.sequencers.master.batches) (r c : Nat) (connection : p.IsConnection r c) :
    (b.wire.filter (mine r c)).length ≤ 1 := by
  induction reachable with
  | init =>
      have fresh : b = batchCreate 0 := by
        simpa [database, Database.initial, Replicas.initial, Sequencers.initial, Master.batches, EpochPc.revBatch]
          using member
      simp [fresh, Batch.wire]
  | step d next act before taken ih =>
      rcases database_batches p writeRate d next act taken b member with old | rfl
      · exact ih old
      · have reached := Machine.Reachable.step d next act before taken
        have once := filling_once p next r c (database_inv_reachable p writeRate next reached)
          (database_nodes_inv p writeRate next reached) connection
        omega

theorem later_batch (before after : List WireTx) (x y : WireTx) (own : WireTx → Bool)
    (ordered : ((before ++ after).filter own).Pairwise (fun a b => a.id.toNat < b.id.toNat)) (member : x ∈ before)
    (also : y ∈ after) (first : own x = true) (second : own y = true) : x.id.toNat < y.id.toNat := by
  rw [List.filter_append] at ordered
  exact (List.pairwise_append.mp ordered).2.2 x (List.mem_filter.mpr ⟨member, first⟩) y
    (List.mem_filter.mpr ⟨also, second⟩)

theorem flat_parts (batches : List Batch) (i : Nat) (b : Batch) (w : WireTx) (found : batches[i]? = some b)
    (member : w ∈ b.wire) (n : Nat) : (n ≤ i → w ∈ (batches.drop n).flatMap Batch.wire) ∧
      (i < n → w ∈ (batches.take n).flatMap Batch.wire) := by
  refine ⟨fun le => List.mem_flatMap.mpr ⟨b, ?_, member⟩, fun lt => List.mem_flatMap.mpr ⟨b, ?_, member⟩⟩
  · have dropped : (batches.drop n)[i - n]? = some b := by rw [List.getElem?_drop, Nat.add_sub_cancel' le, found]
    exact List.mem_of_getElem? dropped
  · have taken : (batches.take n)[i]? = some b := by rw [List.getElem?_take_of_lt lt, found]
    exact List.mem_of_getElem? taken

theorem epochs_increase (batches : List Batch) (own : WireTx → Bool) (i j : Nat) (a b : Batch) (x y : WireTx)
    (ordered : ((batches.flatMap Batch.wire).filter own).Pairwise (fun a b => a.id.toNat < b.id.toNat))
    (once : ∀ b ∈ batches, (b.wire.filter own).length ≤ 1) (found : batches[i]? = some a)
    (there : batches[j]? = some b) (member : x ∈ a.wire) (also : y ∈ b.wire) (first : own x = true) (second : own y = true)
    (less : x.id.toNat < y.id.toNat) : i < j := by
  by_contra later
  by_cases same : i = j
  · subst same
    cases found.symm.trans there
    have one := once a (List.mem_of_getElem? found)
    have inside := List.mem_filter.mpr ⟨member, first⟩
    have beside := List.mem_filter.mpr ⟨also, second⟩
    obtain ⟨w, single⟩ := List.length_eq_one_iff.mp (Nat.le_antisymm one (List.length_pos_of_mem inside))
    rw [single, List.mem_singleton] at inside beside
    rw [inside, beside] at less
    exact Nat.lt_irrefl _ less
  · have split := List.take_append_drop (j + 1) batches
    rw [← split, List.flatMap_append] at ordered
    have opposite := later_batch _ _ y x own ordered ((flat_parts batches j b y there also (j + 1)).2 (by omega))
      ((flat_parts batches i a x found member (j + 1)).1 (by omega)) second first
    omega

-- `filling` is about the batch the master fills, `leaves` about the spin loop
-- around sequencer_add_write_tx_to_batch: a pass of it always ends the loop.
structure OneWritePerClient (p : Deployment) (writeRate : Nat) (d : Database) : Prop where
  filling : (d.replicas.sequencers.master.batch.txSet.map Tx.owner).Nodup
  bounded : d.replicas.sequencers.master.batch.txNum.toInt ≤ p.clientNum * (p.replicaNum - 1)
  room : ∀ tx, (sequencerAddWriteTxToBatch d.replicas.sequencers.master.batch tx).2 ≠ 0
  leaves : ∀ r c next, Database.step p writeRate d (.addWriteTx r c) = some next →
    (next.intake.conn (r, c)).recieve.pc = .loop
  numbered : ∀ (i : Nat) (b : Batch), d.replicas.sequencers.master.batches[i]? = some b → b.epochId = Int16.ofInt i
  increasing : ∀ (r c i j : Nat) (a b : Batch) (x y : WireTx), p.IsConnection r c →
    d.replicas.sequencers.master.batches[i]? = some a → d.replicas.sequencers.master.batches[j]? = some b →
    x ∈ a.wire → y ∈ b.wire → mine r c x = true → mine r c y = true → x.id.toNat < y.id.toNat → i < j

theorem one_write_of_room (p : Deployment) (writeRate : Nat) (d : Database) (slaves : 1 ≤ p.replicaNum)
    (room : p.clientNum * (p.replicaNum - 1) < maxBatchSize) (reachable : (database p writeRate).Reachable d) :
    OneWritePerClient p writeRate d := by
  have inv := database_inv_reachable p writeRate d reachable
  have nodes := database_nodes_inv p writeRate d reachable
  have bound := filling_bound p d inv nodes
  have short : d.replicas.sequencers.master.batch.txSet.length < maxBatchSize := Nat.lt_of_le_of_lt bound room
  have full : ∀ tx, (sequencerAddWriteTxToBatch d.replicas.sequencers.master.batch tx).2 ≠ 0 := by
    intro tx
    rw [add_write_has_room _ tx short]
    decide
  refine ⟨filling_nodup p d inv nodes, ?_, full, ?_, batches_numbered _ nodes.sequencers.master, ?_⟩
  · rw [batch_tx_num]
    have cast : ((p.clientNum * (p.replicaNum - 1) : Nat) : Int) = p.clientNum * (p.replicaNum - 1) := by
      rw [Int.natCast_mul, Int.natCast_sub slaves]
      rfl
    omega
  · intro r c next taken
    cases database_step_cases p writeRate d next _ taken with
    | addWriteTx _ _ tx recieve sent replicas connection running pc step moved =>
        simp only [Function.update_self]
        cases step with
        | retry tx batch pc none => exact absurd none (full tx)
        | add tx batch pc taken => rfl
  · intro r c i j a b x y connection found there member also first second less
    have ordered := (ascending_reachable p writeRate d reachable r c connection).ordered
    have added := (List.pairwise_append.mp ordered).1
    rw [← placed_of_client p writeRate d reachable r c, placed_batches] at added
    exact epochs_increase _ (mine r c) i j a b x y added
      (fun b inside => batches_once p writeRate d reachable b inside r c connection) found there member also first second
      less

theorem one_write_per_client (p : Deployment) (writeRate : Nat) (d : Database) (replicas : p.replicaNum = replicaNum)
    (clients : p.clientNum = clientNum) (reachable : (database p writeRate).Reachable d) :
    OneWritePerClient p writeRate d := by
  refine one_write_of_room p writeRate d ?_ ?_ reachable <;>
    simp [replicas, clients, replicaNum, clientNum, maxBatchSize]

def firstAdded : List DatabaseAct := firstAcknowledged ++ [.recieve 1 0 .test, .addWriteTx 1 0]

def afterFirstAdded : Option Database :=
  (database (configuration .proposedMethod) ClientTime.writeRate).exec (Database.initial (configuration .proposedMethod))
    firstAdded

theorem one_write_per_client_first_write : ∃ d, afterFirstAdded = some d ∧
    d.replicas.sequencers.master.batch.txSet.length = 1 ∧
    OneWritePerClient (configuration .proposedMethod) ClientTime.writeRate d := by
  have ends : afterFirstAdded.map (fun d => d.replicas.sequencers.master.batch.txSet.length) = some 1 := by
    decide +kernel
  obtain ⟨d, ran, count⟩ := Option.map_eq_some_iff.mp ends
  exact ⟨d, ran, count, one_write_per_client (configuration .proposedMethod) ClientTime.writeRate d rfl rfl
    (Machine.reachable_exec _ firstAdded _ d .init ran)⟩

end EpochReplication
