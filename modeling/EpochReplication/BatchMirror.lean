import EpochReplication.BatchSwap

set_option autoImplicit false

namespace EpochReplication

def MasterMemory.epochPc (s : MasterMemory) : EpochPc :=
  match s.pc with
  | .barrier => .barrier
  | .loop => .loop
  | .checking cur => .checking cur
  | .filling cur => .filling cur
  | .encoding cur rev | .appending cur rev _ => .logging cur (s.memory rev)
  | .counting cur rev => .counting cur (s.memory rev)
  | .enqueueing cur rev => .enqueueing cur (s.memory rev)
  | .returned => .returned

def SameMsg (s : MasterMemory) (m : Master) : Prop :=
  match s.pc with
  | .appending _ rev len => createBatchMsg (s.memory rev) m.batchMsg = (s.batchMsg, len)
  | _ => m.batchMsg = s.batchMsg

structure Mirrors (s : MasterMemory) (m : Master) : Prop where
  live : m.exited = false
  pc : m.epochPc = s.epochPc
  batch : m.batch = s.memory s.batch
  determined : m.determinedEpochId = s.determinedEpochId
  log : m.batchLog = s.batchLog
  list : m.writeTxBuffer.entered = s.writeTxBuffer.map s.memory
  msg : SameMsg s m

theorem rev_below (s : MasterMemory) (logged : Nat) (position : SwapPosition s logged) :
    match s.pc with
    | .encoding _ rev | .appending _ rev _ | .counting _ rev | .enqueueing _ rev => rev < s.batch
    | _ => True := by
  unfold SwapPosition at position
  split at position
  all_goals simp only [*]
  all_goals omega

theorem map_memory (memory other : Nat → Batch) (list : List Nat) (n bound : Nat) (range : list = List.range n)
    (below : n ≤ bound) (same : ∀ e, e < bound → other e = memory e) : list.map other = list.map memory := by
  subst range
  apply List.map_congr_left
  intro e member
  have inside := List.mem_range.mp member
  exact same e (by omega)

theorem epoch_pc_kept (s t : MasterMemory) (logged : Nat) (position : SwapPosition s logged) (pc : t.pc = s.pc)
    (memory : ∀ e, e < s.batch → t.memory e = s.memory e) : t.epochPc = s.epochPc := by
  have below := rev_below s logged position
  unfold MasterMemory.epochPc
  rw [pc]
  cases at_pc : s.pc <;> simp only [at_pc] at below ⊢
  all_goals rw [memory _ below]

theorem same_msg_kept (s t : MasterMemory) (m n : Master) (logged : Nat) (position : SwapPosition s logged)
    (pc : t.pc = s.pc) (memory : ∀ e, e < s.batch → t.memory e = s.memory e) (own : t.batchMsg = s.batchMsg)
    (msg : n.batchMsg = m.batchMsg) (same : SameMsg s m) : SameMsg t n := by
  have below := rev_below s logged position
  unfold SameMsg at same ⊢
  rw [pc, own, msg]
  cases at_pc : s.pc with
  | appending cur rev len =>
      simp only [at_pc] at below same ⊢
      rw [memory rev below]
      exact same
  | barrier | loop | checking | filling | encoding | counting | enqueueing | returned => simpa only [at_pc] using same

theorem mirrors_add (s : MasterMemory) (m : Master) (logged : Nat) (tx : Tx) (position : SwapPosition s logged)
    (mirrors : Mirrors s m) :
    Mirrors (s.addWriteTx tx).1 { m with batch := (sequencerAddWriteTxToBatch m.batch tx).1 } := by
  have kept : ∀ e, e < s.batch → (s.addWriteTx tx).1.memory e = s.memory e :=
    fun e below => Function.update_of_ne (by omega) _ _
  obtain ⟨n, bound, range⟩ := queued_range s logged position
  refine ⟨mirrors.live, ?_, ?_, mirrors.determined, mirrors.log, ?_,
    same_msg_kept s _ m _ logged position rfl kept rfl rfl mirrors.msg⟩
  · exact mirrors.pc.trans (epoch_pc_kept s (s.addWriteTx tx).1 logged position rfl kept).symm
  · simp only [MasterMemory.addWriteTx, Function.update_self, mirrors.batch]
  · rw [mirrors.list]
    exact (map_memory s.memory (s.addWriteTx tx).1.memory s.writeTxBuffer n s.batch range bound kept).symm

theorem mirrors_swap (s : MasterMemory) (m : Master) (logged : Nat) (cur : Int) (fresh : s.allocated = s.batch + 1)
    (position : SwapPosition s logged) (pc : s.pc = .filling cur) (mirrors : Mirrors s m) :
    Mirrors
      { s with
        pc := .encoding cur s.batch
        memory := Function.update s.memory s.allocated (batchCreate (Int16.ofInt (cur + 1)))
        allocated := s.allocated + 1
        batch := s.allocated }
      { m with epochPc := .logging cur m.batch, batch := batchCreate (Int16.ofInt (cur + 1)) } := by
  have kept : ∀ e, e < s.allocated →
      Function.update s.memory s.allocated (batchCreate (Int16.ofInt (cur + 1))) e = s.memory e :=
    fun e below => Function.update_of_ne (by omega) _ _
  obtain ⟨n, bound, range⟩ := queued_range s logged position
  have msg := mirrors.msg
  simp only [SameMsg, pc] at msg
  refine ⟨mirrors.live, ?_, ?_, mirrors.determined, mirrors.log, ?_, msg⟩
  · simp only [MasterMemory.epochPc, mirrors.batch, kept s.batch (by omega)]
  · simp only [Function.update_self]
  · rw [mirrors.list]
    exact (map_memory s.memory _ s.writeTxBuffer n s.allocated range (by omega) kept).symm

theorem mirrored_step (p : Deployment) (swapped : List (Nat × Batch)) (accepted : List Tx) (logged : Nat)
    (s next : MasterMemory) (act : Int × MemoryAct) (t : Sequencers) (reachable : (sequencers p).Reachable t)
    (inv : SwapInv swapped accepted logged s) (mirrors : Mirrors s t.master) (taken : s.step act = some next) :
    ∃ t, (sequencers p).Reachable t ∧ Mirrors next t.master := by
  have position := inv.position
  obtain ⟨live, epochPc, batch, determined, log, list, msg⟩ := mirrors
  cases memory_step_of_some s next act taken with
  | addWriteTx flag tx =>
      refine ⟨{ t with master := { t.master with batch := (sequencerAddWriteTxToBatch t.master.batch tx).1 } },
        .step t _ (flag, .addWriteTx tx) reachable ?_,
        mirrors_add s t.master _ tx position ⟨live, epochPc, batch, determined, log, list, msg⟩⟩
      simp only [sequencers, Sequencers.step, live, Bool.false_eq_true, if_false]
  | spin flag pc => exact ⟨t, reachable, live, epochPc, batch, determined, log, list, msg⟩
  | start flag pc zero =>
      simp only [MasterMemory.epochPc, pc] at epochPc
      simp only [SameMsg, pc] at msg
      exact ⟨_, epoch_moves p t flag .barrier { t.master with epochPc := .loop } reachable live
        (by simp [masterSequencerStartup, epochPc, zero]), live, rfl, batch, determined, log, list, msg⟩
  | enter flag pc zero =>
      simp only [MasterMemory.epochPc, pc] at epochPc
      simp only [SameMsg, pc] at msg
      refine ⟨_, epoch_moves p t flag .loop { t.master with epochPc := .checking (t.master.determinedEpochId + 1) }
        reachable live (by simp [masterSequencerStartup, epochPc, zero]), live, ?_, batch, determined, log, list, msg⟩
      simp only [MasterMemory.epochPc, determined]
  | leave flag pc stopped =>
      simp only [MasterMemory.epochPc, pc] at epochPc
      simp only [SameMsg, pc] at msg
      exact ⟨_, epoch_moves p t flag .loop { t.master with epochPc := .returned } reachable live
        (by simp [masterSequencerStartup, epochPc, stopped]), live, rfl, batch, determined, log, list, msg⟩
  | stop flag cur pc one =>
      simp only [MasterMemory.epochPc, pc] at epochPc
      simp only [SameMsg, pc] at msg
      exact ⟨_, epoch_moves p t flag .check { t.master with epochPc := .returned } reachable live
        (by simp [masterSequencerStartup, epochPc, one]), live, rfl, batch, determined, log, list, msg⟩
  | check flag cur pc running =>
      simp only [MasterMemory.epochPc, pc] at epochPc
      simp only [SameMsg, pc] at msg
      exact ⟨_, epoch_moves p t flag .check { t.master with epochPc := .filling cur } reachable live
        (by simp [masterSequencerStartup, epochPc, running]), live, rfl, batch, determined, log, list, msg⟩
  | swap flag cur pc =>
      have swapped := mirrors_swap s t.master _ cur inv.fresh position pc
        ⟨live, epochPc, batch, determined, log, list, msg⟩
      simp only [MasterMemory.epochPc, pc] at epochPc
      exact ⟨_, epoch_moves p t flag .swap _ reachable live (by simp only [masterSequencerStartup, epochPc]), swapped⟩
  | encode flag cur rev pc =>
      simp only [MasterMemory.epochPc, pc] at epochPc
      simp only [SameMsg, pc] at msg
      refine ⟨t, reachable, live, epochPc, batch, determined, log, list, ?_⟩
      simp only [SameMsg, msg]
  | append flag cur rev len io file pc done =>
      simp only [MasterMemory.epochPc, pc] at epochPc
      simp only [SameMsg, pc] at msg
      refine ⟨_, epoch_moves p t flag (.log io)
        { t.master with epochPc := .counting cur (s.memory rev), batchLog := some file, batchMsg := s.batchMsg }
        reachable live ?_, live, rfl, batch, determined, rfl, list, rfl⟩
      simp only [masterSequencerStartup, epochPc, msg, log, done]
  | count flag cur rev pc =>
      simp only [MasterMemory.epochPc, pc] at epochPc
      simp only [SameMsg, pc] at msg
      refine ⟨_, epoch_moves p t flag .count
        { t.master with
          epochPc := .enqueueing cur (s.memory rev)
          determinedEpochId := t.master.determinedEpochId + 1
          confirmed := t.master.confirmed ++ [s.memory rev] }
        reachable live (by simp only [masterSequencerStartup, epochPc]), live, rfl, batch, ?_, log, list, msg⟩
      simp only [determined]
  | enqueue flag cur rev pc =>
      simp only [MasterMemory.epochPc, pc] at epochPc
      simp only [SameMsg, pc] at msg
      refine ⟨_, epoch_moves p t flag .enqueue
        { t.master with epochPc := .loop, writeTxBuffer := t.master.writeTxBuffer.add (s.memory rev) }
        reachable live (by simp only [masterSequencerStartup, epochPc]), live, rfl, batch, determined, log, ?_, msg⟩
      simp only [Fifo.entered_add, list, List.map_append, List.map_singleton]

theorem master_memory_mirrored (p : Deployment) (run : List (MasterMemory × (Int × MemoryAct))) (s : MasterMemory)
    (trace : (masterMemory p.uninitialised).Trace run s) :
    ∃ t, (sequencers p).Reachable t ∧ Mirrors s t.master := by
  induction trace with
  | init => exact ⟨_, .init, ⟨rfl, rfl, rfl, rfl, rfl, rfl, rfl⟩⟩
  | step run s next act before taken ih =>
      obtain ⟨t, reachable, mirrors⟩ := ih
      exact mirrored_step p _ _ _ s next act t reachable (swap_inv_trace p.uninitialised run s before) mirrors taken

end EpochReplication
