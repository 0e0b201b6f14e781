import EpochReplication.EpochNumbers
import EpochReplication.Lib.Progress
import EpochReplication.Placed

set_option autoImplicit false

namespace EpochReplication

-- The epoch loop by itself, as long as nobody has asked it to finish and the
-- file system does what it is told.
def epochLoop (p : Deployment) : Machine Master EpochAct where
  init := (Sequencers.initial p).master
  step m act :=
    match masterSequencerStartup 0 m act with
    | .returned next => some next
    | .exited | .blocked => none

def EpochLeads (p : Deployment) (m next : Master) : Prop := (epochLoop p).Leads (fun _ => True) m next

theorem epoch_leads_step (p : Deployment) (m next last : Master) (act : EpochAct)
    (done : masterSequencerStartup 0 m act = .returned next) (rest : EpochLeads p next last) : EpochLeads p m last := by
  refine Machine.leads_step _ _ m next last act trivial ?_ rest
  simp only [epochLoop, done]

theorem epoch_leads_refl (p : Deployment) (m : Master) : EpochLeads p m m := Machine.leads_refl _ _ m

theorem epoch_leads_trans (p : Deployment) (m next last : Master) (first : EpochLeads p m next)
    (rest : EpochLeads p next last) : EpochLeads p m last := Machine.leads_trans _ _ m next last first rest

theorem epoch_leads_inv (p : Deployment) (m next : Master) (inv : MasterInv m) (leads : EpochLeads p m next) :
    MasterInv next := by
  refine Machine.leads_invariant (epochLoop p) _ MasterInv (fun s act t inv taken => ?_) m next inv leads
  simp only [epochLoop] at taken
  split at taken
  · rename_i done
    cases taken
    exact (master_inv_step 0 s t act inv (epoch_step_of_returned 0 s t act done)).1
  · cases taken
  · cases taken

structure Fills (m next : Master) : Prop where
  filling : ∃ cur, next.epochPc = .filling cur
  batch : next.batch = m.batch
  confirmed : next.confirmed.length ≤ m.confirmed.length + 1
  exited : next.exited = m.exited

theorem checking_fills (p : Deployment) (m : Master) (cur : Int) (pc : m.epochPc = .checking cur) :
    EpochLeads p m { m with epochPc := .filling cur } :=
  epoch_leads_step p m _ _ .check (by simp [masterSequencerStartup, pc]) (epoch_leads_refl p _)

theorem loop_fills (p : Deployment) (m : Master) (pc : m.epochPc = .loop) :
    EpochLeads p m { m with epochPc := .filling (m.determinedEpochId + 1) } :=
  epoch_leads_step p m { m with epochPc := .checking (m.determinedEpochId + 1) } _ .loop
    (by simp [masterSequencerStartup, pc]) (checking_fills p _ _ rfl)

theorem counting_loops (p : Deployment) (m : Master) (cur : Int) (rev : Batch) (pc : m.epochPc = .counting cur rev) :
    EpochLeads p m { m with
      epochPc := .loop
      determinedEpochId := m.determinedEpochId + 1
      confirmed := m.confirmed ++ [rev]
      writeTxBuffer := m.writeTxBuffer.add rev } := by
  refine epoch_leads_step p m { m with
    epochPc := .enqueueing cur rev
    determinedEpochId := m.determinedEpochId + 1
    confirmed := m.confirmed ++ [rev] } _ .count (by simp [masterSequencerStartup, pc]) ?_
  exact epoch_leads_step p _ _ _ .enqueue (by simp [masterSequencerStartup]) (epoch_leads_refl p _)

theorem batch_logged (m : Master) (cur : Int) (rev : Batch) (inv : MasterInv m) (pc : m.epochPc = .logging cur rev)
    (room : m.confirmed.length < 32768) :
    ∃ file, appendLog m.batchLog (createBatchMsg rev m.batchMsg).1 (createBatchMsg rev m.batchMsg).2 rev.epochId.toInt
      fullIo = .returned file := by
  have position := inv.position
  simp only [EpochInv, pc] at position
  obtain ⟨number, _, _, named⟩ := position
  have epoch : rev.epochId.toInt = m.confirmed.length := by
    rw [named, number]
    exact short_of_int _ (Int.natCast_nonneg _) (by omega)
  rw [epoch]
  exact append_log_progress m.batchLog _ _ m.confirmed.length fullIo full_io_succeeds

theorem logging_loops (p : Deployment) (m : Master) (cur : Int) (rev : Batch) (inv : MasterInv m)
    (pc : m.epochPc = .logging cur rev) (room : m.confirmed.length < 32768) :
    ∃ next, EpochLeads p m next ∧ next.epochPc = .loop ∧ next.batch = m.batch ∧ next.confirmed = m.confirmed ++ [rev] ∧
      next.exited = m.exited := by
  obtain ⟨file, wrote⟩ := batch_logged m cur rev inv pc room
  refine ⟨_, epoch_leads_step p m { m with
    epochPc := .counting cur rev
    batchLog := some file
    batchMsg := (createBatchMsg rev m.batchMsg).1 } _ (.log fullIo) ?_ (counting_loops p _ cur rev rfl), rfl, rfl, rfl, rfl⟩
  simp only [masterSequencerStartup, pc, wrote]

theorem reaches_filling (p : Deployment) (m : Master) (inv : MasterInv m) (stays : m.epochPc ≠ .returned)
    (room : m.confirmed.length < 32768) : ∃ next, EpochLeads p m next ∧ Fills m next := by
  have short : m.confirmed.length ≤ m.confirmed.length + 1 := Nat.le_succ _
  cases pc : m.epochPc with
  | filling cur => exact ⟨m, epoch_leads_refl p m, ⟨cur, pc⟩, rfl, short, rfl⟩
  | checking cur => exact ⟨_, checking_fills p m cur pc, ⟨cur, rfl⟩, rfl, short, rfl⟩
  | loop => exact ⟨_, loop_fills p m pc, ⟨_, rfl⟩, rfl, short, rfl⟩
  | barrier =>
      refine ⟨_, epoch_leads_step p m { m with epochPc := .loop } _ .barrier (by simp [masterSequencerStartup, pc])
        (loop_fills p _ rfl), ⟨_, rfl⟩, rfl, short, rfl⟩
  | logging cur rev =>
      obtain ⟨next, leads, loops, batch, confirmed, exited⟩ := logging_loops p m cur rev inv pc room
      refine ⟨_, epoch_leads_trans p m next _ leads (loop_fills p next loops), ⟨_, rfl⟩, batch, ?_, exited⟩
      rw [confirmed, List.length_append, List.length_singleton]
  | counting cur rev =>
      refine ⟨_, epoch_leads_trans p m _ _ (counting_loops p m cur rev pc) (loop_fills p _ rfl), ⟨_, rfl⟩, rfl, ?_, rfl⟩
      rw [List.length_append, List.length_singleton]
  | enqueueing cur rev =>
      refine ⟨_, epoch_leads_step p m { m with epochPc := .loop, writeTxBuffer := m.writeTxBuffer.add rev } _ .enqueue
        (by simp [masterSequencerStartup, pc]) (loop_fills p _ rfl), ⟨_, rfl⟩, rfl, short, rfl⟩
  | returned => exact absurd pc stays

theorem reaches_room (p : Deployment) (m : Master) (inv : MasterInv m) (stays : m.epochPc ≠ .returned)
    (room : m.confirmed.length < 32768) :
    ∃ next, EpochLeads p m next ∧ (∃ cur rev, next.epochPc = .logging cur rev) ∧ next.batch.txSet = [] ∧
      next.confirmed.length ≤ m.confirmed.length + 1 ∧ next.exited = m.exited := by
  obtain ⟨next, leads, fills⟩ := reaches_filling p m inv stays room
  obtain ⟨cur, pc⟩ := fills.filling
  refine ⟨_, epoch_leads_trans p m next _ leads
    (epoch_leads_step p next { next with epochPc := .logging cur next.batch, batch := batchCreate (Int16.ofInt (cur + 1)) } _
      .swap (by simp [masterSequencerStartup, pc]) (epoch_leads_refl p _)), ⟨cur, next.batch, rfl⟩, rfl, fills.confirmed,
    fills.exited⟩

theorem epoch_pass (p : Deployment) (m : Master) (inv : MasterInv m) (stays : m.epochPc ≠ .returned)
    (room : m.confirmed.length + 1 < 32768) :
    ∃ next, EpochLeads p m next ∧ next.epochPc = .loop ∧ next.placed = next.confirmed.flatMap Batch.wire ∧
      next.placed = m.placed ∧ next.confirmed.length ≤ m.confirmed.length + 2 ∧ next.exited = m.exited := by
  obtain ⟨next, leads, ⟨cur, rev, pc⟩, empty, count, exited⟩ := reaches_room p m inv stays (Nat.lt_of_succ_lt room)
  obtain ⟨last, later, loops, batch, confirmed, still⟩ := logging_loops p next cur rev
    (epoch_leads_inv p m next inv leads) pc (by omega)
  have whole := epoch_leads_trans p m next last leads later
  refine ⟨last, whole, loops, ?_, ?_, ?_, still.trans exited⟩
  · simp only [Master.placed, loops, EpochPc.swapped, batch, Batch.wire, empty, List.map_nil, List.append_nil]
  · refine Machine.leads_relates (epochLoop p) (fun _ => True) (fun s t => t.placed = s.placed) (fun _ => rfl)
      (fun _ _ _ first rest => rest.trans first) (fun s act t _ taken => ?_) m last whole
    simp only [epochLoop] at taken
    split at taken
    · rename_i done
      cases taken
      exact epoch_step_placed 0 s t act (epoch_step_of_returned 0 s t act done)
    · cases taken
    · cases taken
  · rw [confirmed, List.length_append, List.length_singleton]
    exact Nat.succ_le_succ count

end EpochReplication
