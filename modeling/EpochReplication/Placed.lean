import EpochReplication.Database

set_option autoImplicit false

namespace EpochReplication

def EpochPc.swapped : EpochPc → List WireTx
  | .logging _ rev | .counting _ rev => rev.wire
  | _ => []

def Master.placed (m : Master) : List WireTx := m.confirmed.flatMap Batch.wire ++ m.epochPc.swapped ++ m.batch.wire

def WritePc.reporting : WritePc → List WireTx
  | .fetching batch i | .assigning batch i _ | .raising batch i _ => (batch.txSet[i]?.map Tx.wire).toList
  | _ => []

def Replicas.unfinished (s : Replicas) (r : Nat) : List WireTx :=
  (s.exec r).writePc.reporting ++ s.sequencers.master.placed.drop (s.executedBy r).length

theorem epoch_step_placed (flag : Int) (m next : Master) (act : EpochAct) (step : EpochStep flag m act next) :
    next.placed = m.placed := by
  cases step with
  | spin => rfl
  | start pc | enter pc | leave pc | stop _ pc | check _ pc | enqueue _ _ pc =>
      simp [Master.placed, EpochPc.swapped, pc]
  | swap cur pc => simp [Master.placed, EpochPc.swapped, pc, Batch.wire, batchCreate]
  | log cur rev io file pc done => simp [Master.placed, EpochPc.swapped, pc]
  | count cur rev pc => simp [Master.placed, EpochPc.swapped, pc]

theorem add_write_tx_wire (batch : Batch) (tx : Tx) :
    ((sequencerAddWriteTxToBatch batch tx).2 = 0 ∧ (sequencerAddWriteTxToBatch batch tx).1 = batch) ∨
      ((sequencerAddWriteTxToBatch batch tx).2 ≠ 0 ∧
        (sequencerAddWriteTxToBatch batch tx).1.wire = batch.wire ++ [tx.wire]) := by
  rcases add_returns batch tx with ⟨full, _⟩ | ⟨one, txs, _⟩
  · exact .inl (by rw [full]; exact ⟨rfl, rfl⟩)
  · exact .inr ⟨by rw [one]; decide, by simp [Batch.wire, txs]⟩

theorem placed_kept (p : Deployment) (s t : Sequencers) (flag : Int) (act : SequencersAct)
    (kind : ∀ tx, act ≠ .addWriteTx tx) (taken : Sequencers.step p s (flag, act) = some t) :
    t.master.placed = s.master.placed := by
  cases sequencers_step_cases p s t (flag, act) taken with
  | epoch flag act master live step => exact epoch_step_placed flag s.master master act step
  | addWriteTx flag tx live => exact absurd rfl (kind tx)
  | epochExit | send | sendExit | slave | slaveExit | takeMaster | takeSlave => rfl

theorem placed_added (p : Deployment) (s t : Replicas) (flag : Int) (tx : Tx)
    (taken : Replicas.step p s (flag, .sequencers (.addWriteTx tx)) = some t) :
    t.exec = s.exec ∧ t.sequencers.master.confirmed = s.sequencers.master.confirmed ∧
      (∀ r, t.sequencers.queue r = s.sequencers.queue r) ∧
      (((sequencerAddWriteTxToBatch s.sequencers.master.batch tx).2 = 0 ∧
          t.sequencers.master.placed = s.sequencers.master.placed) ∨
        ((sequencerAddWriteTxToBatch s.sequencers.master.batch tx).2 ≠ 0 ∧
          t.sequencers.master.placed = s.sequencers.master.placed ++ [tx.wire])) := by
  cases replicas_step_cases p s t (flag, .sequencers (.addWriteTx tx)) taken with
  | sequencers flag act next kind moved =>
      cases sequencers_step_cases p s.sequencers next (flag, .addWriteTx tx) moved with
      | addWriteTx flag tx live =>
          refine ⟨rfl, rfl, fun _ => rfl, ?_⟩
          rcases add_write_tx_wire s.sequencers.master.batch tx with ⟨none, same⟩ | ⟨one, more⟩
          · exact .inl ⟨none, by simp [Master.placed, same]⟩
          · exact .inr ⟨one, by simp [Master.placed, more]⟩

theorem content_flat_grows (short long : List Batch) (copy : short.map Batch.content <+: long.map Batch.content) :
    short.flatMap Batch.wire <+: long.flatMap Batch.wire := by
  obtain ⟨rest, equal⟩ := copy
  rw [content_wires, content_wires, ← equal, List.flatMap_append]
  exact List.prefix_append _ _

theorem executed_queue (q : Fifo Batch) (e : Exec) (inv : ExecInv q e) : executed q e <+: q.entered.flatMap Batch.wire := by
  have whole : ∀ k, (q.entered.take k).flatMap Batch.wire <+: q.entered.flatMap Batch.wire := by
    intro k
    obtain ⟨rest, equal⟩ := List.take_prefix k q.entered
    refine ⟨rest.flatMap Batch.wire, ?_⟩
    rw [← List.flatMap_append, equal]
  cases current : e.writePc.current with
  | none =>
      simp only [executed, current]
      exact whole q.left
  | some pair =>
      obtain ⟨batch, n⟩ := pair
      obtain ⟨k, _, left, found, _⟩ := inv.inside batch n current
      simp only [executed, current, left, Nat.add_sub_cancel]
      refine List.IsPrefix.trans ?_ (whole (k + 1))
      rw [flat_take_succ q.entered k batch found]
      exact (List.prefix_append_right_inj _).mpr (List.take_prefix n batch.wire)

theorem executed_confirmed (p : Deployment) (s : Replicas) (r : Nat) (seq : SequencersInv p s.sequencers)
    (inv : ReplicasInv p s) (node : p.IsNode r) :
    s.executedBy r <+: s.sequencers.master.confirmed.flatMap Batch.wire :=
  (executed_queue _ _ (inv r node)).trans (content_flat_grows _ _ (queue_content p s.sequencers r seq node))

theorem executed_position (p : Deployment) (s : Replicas) (r k i : Nat) (batch : Batch) (tx : Tx)
    (seq : SequencersInv p s.sequencers) (inv : ReplicasInv p s) (node : p.IsNode r)
    (found : s.sequencers.master.confirmed[k]? = some batch) (there : batch.txSet[i]? = some tx)
    (executed : ((s.sequencers.master.confirmed.take k).flatMap Batch.wire).length + i < (s.executedBy r).length) :
    (s.executedBy r)[((s.sequencers.master.confirmed.take k).flatMap Batch.wire).length + i]? = some tx.wire := by
  have confirmed := executed_confirmed p s r seq inv node
  have logged := flat_get s.sequencers.master.confirmed k i batch tx.wire found (by simp [Batch.wire, there])
  rw [← logged, List.prefix_iff_getElem?.mp confirmed _ executed, List.getElem?_eq_getElem executed]

theorem executed_placed (p : Deployment) (s : Replicas) (r : Nat) (seq : SequencersInv p s.sequencers)
    (inv : ReplicasInv p s) (node : p.IsNode r) : s.executedBy r <+: s.sequencers.master.placed := by
  refine (executed_confirmed p s r seq inv node).trans ?_
  unfold Master.placed
  rw [List.append_assoc]
  exact List.prefix_append _ _

theorem drop_next {α : Type} (before whole : List α) (a : α) (inside : before ++ [a] <+: whole) :
    whole.drop before.length = a :: whole.drop (before ++ [a]).length := by
  obtain ⟨rest, rfl⟩ := inside
  simp

inductive WorkStep (s t : Replicas) (r : Nat) : ReplicasAct → Prop where
  | same (act : ReplicasAct) (work : t.unfinished r = s.unfinished r) : WorkStep s t r act
  | foreign (batch : Batch) (i : Nat) (tx : Tx) (pc : (s.exec r).writePc = .writing batch i)
      (found : batch.txSet[i]? = some tx) (other : tx.replicaId.toInt ≠ r)
      (work : s.unfinished r = tx.wire :: t.unfinished r) : WorkStep s t r (.write r .write)
  | report (batch : Batch) (i c : Nat) (pc : (s.exec r).writePc = .raising batch i c)
      (work : s.unfinished r = (s.exec r).writePc.reporting ++ t.unfinished r) : WorkStep s t r (.write r .raise)

theorem write_step_work (flag : Int) (s : Replicas) (r : Nat) (act : WriteAct) (exec : Exec)
    (kind : ∀ batch, act ≠ .take batch) (inv : ExecInv (s.sequencers.queue r) (s.exec r))
    (behind : executed (s.sequencers.queue r) exec <+: s.sequencers.master.placed)
    (live : exec.writePc ≠ .crashed) (step : WriteStep flag r (s.exec r) act exec) :
    s.executedBy r <+: executed (s.sequencers.queue r) exec ∧
      WorkStep s { s with exec := Function.update s.exec r exec } r (.write r act) := by
  have after : Replicas.unfinished { s with exec := Function.update s.exec r exec } r =
      exec.writePc.reporting ++ s.sequencers.master.placed.drop (executed (s.sequencers.queue r) exec).length := by
    simp [Replicas.unfinished, Replicas.executedBy]
  have unmoved : executed (s.sequencers.queue r) exec = s.executedBy r →
      exec.writePc.reporting = (s.exec r).writePc.reporting →
      s.executedBy r <+: executed (s.sequencers.queue r) exec ∧
        WorkStep s { s with exec := Function.update s.exec r exec } r (.write r act) := by
    intro same report
    refine ⟨same ▸ List.prefix_refl _, .same _ ?_⟩
    rw [after, same, report]
    rfl
  rcases executed_step flag r _ (s.exec r) exec act kind inv step live with ⟨same, _⟩ |
    ⟨batch, i, tx, pc, found, more, _⟩
  · cases step with
    | enter pc | leave pc | complete _ _ pc => exact unmoved same (by rw [pc]; rfl)
    | fetch _ _ _ pc | assign _ _ _ pc => exact unmoved same (by rw [pc]; rfl)
    | takeNone => exact absurd rfl (kind none)
    | take batch => exact absurd rfl (kind (some batch))
    | crash | fetchNone => exact absurd rfl live
    | writeOwn batch i tx storage pc found | writeOther batch i tx storage pc found =>
        have more := congrArg List.length same
        simp only [executed, pc, WritePc.current, batch_wire_take batch i tx found, List.length_append,
          List.length_singleton] at more
        omega
    | raise batch i c pc =>
        refine ⟨same ▸ List.prefix_refl _, .report batch i c pc ?_⟩
        rw [after, same]
        rfl
  · have next := drop_next _ _ tx.wire (more ▸ behind)
    cases step with
    | writeOwn other j found_tx storage here there wrote own =>
        rw [pc] at here
        cases here
        rw [found] at there
        cases there
        refine ⟨more ▸ List.prefix_append _ _, .same _ ?_⟩
        rw [after, more]
        simp only [Replicas.unfinished, WritePc.reporting, pc, found, Option.map_some, Option.toList_some]
        exact next.symm
    | writeOther other j found_tx storage here there wrote foreign =>
        rw [pc] at here
        cases here
        rw [found] at there
        cases there
        refine ⟨more ▸ List.prefix_append _ _, .foreign batch i tx pc found foreign ?_⟩
        rw [after, more]
        simp only [Replicas.unfinished, WritePc.reporting, pc]
        exact next
    | crash => exact absurd rfl live
    | fetchNone => exact absurd rfl live
    | takeNone => exact absurd rfl (kind none)
    | take batch => exact absurd rfl (kind (some batch))
    | complete other j here last =>
        rw [pc] at here
        cases here
        rw [found] at last
        cases last
    | enter here | leave here | fetch _ _ _ here | assign _ _ _ here | raise _ _ _ here =>
        rw [pc] at here
        cases here

theorem unfinished_of_parts (s t : Replicas) (r : Nat) (executed : t.executedBy r = s.executedBy r)
    (reporting : (t.exec r).writePc.reporting = (s.exec r).writePc.reporting)
    (placed : t.sequencers.master.placed = s.sequencers.master.placed) : t.unfinished r = s.unfinished r := by
  rw [Replicas.unfinished, Replicas.unfinished, executed, reporting, placed]

theorem work_step (p : Deployment) (s t : Replicas) (flag : Int) (act : ReplicasAct) (r : Nat)
    (seq : SequencersInv p t.sequencers) (inv : ReplicasInv p s) (after : ReplicasInv p t) (node : p.IsNode r)
    (live : (t.exec r).writePc ≠ .crashed) (kind : ∀ tx, act ≠ .sequencers (.addWriteTx tx))
    (taken : Replicas.step p s (flag, act) = some t) : s.executedBy r <+: t.executedBy r ∧ WorkStep s t r act := by
  have same : ∀ act, t.executedBy r = s.executedBy r → (t.exec r).writePc.reporting = (s.exec r).writePc.reporting →
      t.sequencers.master.placed = s.sequencers.master.placed → s.executedBy r <+: t.executedBy r ∧ WorkStep s t r act := by
    intro act executed reporting placed
    exact ⟨executed ▸ List.prefix_refl _, .same act (unfinished_of_parts s t r executed reporting placed)⟩
  cases replicas_step_cases p s t (flag, act) taken with
  | sequencers flag act next other moved =>
      obtain ⟨more, unmoved⟩ := queue_grows p s.sequencers next flag act r other moved
      exact same _ (executed_grown _ _ _ more unmoved) rfl
        (placed_kept p s.sequencers next flag act (fun tx add => kind tx (congrArg _ add)) moved)
  | takeNone flag q exec other running done =>
      by_cases here : r = q
      · subst here
        obtain ⟨_, unmoved⟩ := exec_inv_take_none flag r _ (s.exec r) exec (inv r node) done
        refine same _ ?_ ?_ rfl
        · simpa [Replicas.executedBy] using unmoved
        · cases done with
          | takeNone pc => simp [WritePc.reporting, pc]
      · exact same _ (by simp [Replicas.executedBy, here]) (by simp [here]) rfl
  | take flag q batch rest next exec other running took moved done =>
      have list := queue_taken p s.sequencers next flag q r batch rest took moved
      have placed := placed_kept p s.sequencers next flag (.takeBatch q) (by simp) moved
      by_cases here : r = q
      · subst here
        rw [if_pos rfl] at list
        obtain ⟨_, unmoved⟩ := exec_inv_take flag r _ rest (s.exec r) exec batch (inv r node) took done
        refine same _ ?_ ?_ placed
        · simpa [Replicas.executedBy, list] using unmoved
        · cases done with
          | take _ pc => simp [WritePc.reporting, pc]
      · rw [if_neg here] at list
        exact same _ (by simp [Replicas.executedBy, here, list]) (by simp [here]) placed
  | write flag q act exec other running_node running done =>
      by_cases here : r = q
      · subst here
        have behind := executed_placed p _ r seq after node
        simp only [Replicas.executedBy, Function.update_self] at behind live
        have moved := write_step_work flag s r act exec other (inv r node) behind live done
        simpa [Replicas.executedBy] using moved
      · exact same _ (by simp [Replicas.executedBy, here]) (by simp [here]) rfl
  | read flag q act exec other running done =>
      by_cases here : r = q
      · subst here
        obtain ⟨_, unmoved⟩ := exec_inv_read flag _ (s.exec r) exec act (inv r node) done
        obtain ⟨pc, _⟩ := read_step_keeps flag (s.exec r) exec act done
        exact same _ (by simpa [Replicas.executedBy] using unmoved) (by simp [pc]) rfl
      · exact same _ (by simp [Replicas.executedBy, here]) (by simp [here]) rfl

end EpochReplication
