import EpochReplication.Lib.Replay
import EpochReplication.Replicas

set_option autoImplicit false

namespace EpochReplication

def WritePc.current : WritePc → Option (Batch × Nat)
  | .writing batch i => some (batch, i)
  | .fetching batch i | .assigning batch i _ | .raising batch i _ => some (batch, i + 1)
  | .loop | .taking | .returned | .crashed => none

def executed (q : Fifo Batch) (e : Exec) : List WireTx :=
  match e.writePc.current with
  | none => (q.entered.take q.left).flatMap Batch.wire
  | some (batch, n) => (q.entered.take (q.left - 1)).flatMap Batch.wire ++ batch.wire.take n

def applyTx (storage : Storage) (tx : WireTx) : Option Storage := writeToStorage storage tx.key tx.value

structure ExecInv (q : Fifo Batch) (e : Exec) : Prop where
  between : e.writePc ≠ .crashed → e.writePc.current = none → e.epoch = q.left
  inside : ∀ batch n, e.writePc.current = some (batch, n) →
    ∃ k : Nat, e.epoch = k ∧ q.left = k + 1 ∧ q.entered[k]? = some batch ∧ n ≤ batch.txSet.length
  store : e.writePc ≠ .crashed → replay applyTx (newStorage storageSize) (executed q e) = some e.storage

theorem exec_inv_initial (q : Fifo Batch) (fresh : q.left = 0) : ExecInv q .initial := by
  refine ⟨fun _ _ => ?_, ?_, fun _ => ?_⟩
  · simp [Exec.initial, fresh]
  · simp [Exec.initial, WritePc.current]
  · simp [Exec.initial, executed, WritePc.current, fresh]

theorem exec_storage_length (q : Fifo Batch) (e : Exec) (inv : ExecInv q e) (live : e.writePc ≠ .crashed) :
    e.storage.records.length = storageSize := by
  apply replay_preserves applyTx (fun storage => storage.records.length = storageSize) ?_ _ _ _ ?_ (inv.store live)
  · intro storage tx next same applied
    rw [write_to_storage_length storage next tx.key tx.value applied, same]
  · exact List.length_replicate

theorem executed_grown (q grown : Fifo Batch) (e : Exec) (more : q.entered <+: grown.entered)
    (same : grown.left = q.left) : executed grown e = executed q e := by
  have bound := q.le
  have taken : ∀ n ≤ q.left, grown.entered.take n = q.entered.take n := by
    intro n small
    obtain ⟨rest, equal⟩ := more
    rw [← equal, List.take_append_of_le_length (by omega)]
  unfold executed
  rw [same, taken q.left (Nat.le_refl _), taken (q.left - 1) (by omega)]

theorem exec_inv_grown (q grown : Fifo Batch) (e : Exec) (more : q.entered <+: grown.entered)
    (same : grown.left = q.left) (inv : ExecInv q e) : ExecInv grown e := by
  refine ⟨?_, ?_, ?_⟩
  · rw [same]
    exact inv.between
  · intro batch n current
    obtain ⟨k, count, left, found, inside⟩ := inv.inside batch n current
    exact ⟨k, count, same.trans left, found_grown q.entered grown.entered k batch more found, inside⟩
  · rw [executed_grown q grown e more same]
    exact inv.store

theorem batch_wire_take (batch : Batch) (i : Nat) (tx : Tx) (found : batch.txSet[i]? = some tx) :
    batch.wire.take (i + 1) = batch.wire.take i ++ [tx.wire] := by
  simp [Batch.wire, List.take_add_one, found]

theorem batch_wire_all (batch : Batch) (i : Nat) (last : batch.txSet[i]? = none) : batch.wire.take i = batch.wire := by
  rw [List.getElem?_eq_none_iff] at last
  exact List.take_of_length_le (by simpa [Batch.wire] using last)

theorem flat_take_succ (batches : List Batch) (k : Nat) (b : Batch) (found : batches[k]? = some b) :
    (batches.take (k + 1)).flatMap Batch.wire = (batches.take k).flatMap Batch.wire ++ b.wire := by
  simp [List.take_add_one, found]

theorem flat_get (batches : List Batch) (k i : Nat) (b : Batch) (w : WireTx) (found : batches[k]? = some b)
    (there : b.wire[i]? = some w) :
    (batches.flatMap Batch.wire)[((batches.take k).flatMap Batch.wire).length + i]? = some w := by
  obtain ⟨inside, same⟩ := List.getElem?_eq_some_iff.mp found
  have short := (List.getElem?_eq_some_iff.mp there).1
  have split : batches.flatMap Batch.wire =
      (batches.take k).flatMap Batch.wire ++ (b.wire ++ (batches.drop (k + 1)).flatMap Batch.wire) := by
    rw [← List.flatMap_cons, ← List.flatMap_append, ← same, ← List.drop_eq_getElem_cons inside, List.take_append_drop]
  rw [split, List.getElem?_append_right (Nat.le_add_right _ i), Nat.add_sub_cancel_left,
    List.getElem?_append_left short, there]

theorem content_wires (batches : List Batch) : batches.flatMap Batch.wire = (batches.map Batch.content).flatMap Prod.snd := by
  rw [List.flatMap_map]
  rfl

theorem executed_step (flag : Int) (r : Nat) (q : Fifo Batch) (e next : Exec) (act : WriteAct)
    (kind : ∀ batch, act ≠ .take batch) (inv : ExecInv q e) (step : WriteStep flag r e act next) (live : next.writePc ≠ .crashed) :
    (executed q next = executed q e ∧ next.storage = e.storage) ∨
      ∃ batch i tx, e.writePc = .writing batch i ∧ batch.txSet[i]? = some tx ∧
        executed q next = executed q e ++ [tx.wire] ∧ applyTx e.storage tx.wire = some next.storage := by
  cases step with
  | enter pc _ | leave pc _ => exact .inl ⟨by simp [executed, pc, WritePc.current], rfl⟩
  | takeNone => exact absurd rfl (kind none)
  | take batch => exact absurd rfl (kind (some batch))
  | crash => exact absurd rfl live
  | fetchNone => exact absurd rfl live
  | complete batch i pc last =>
      obtain ⟨k, count, left, found, _⟩ := inv.inside batch i (by rw [pc]; rfl)
      refine .inl ⟨?_, rfl⟩
      simp only [executed, pc, WritePc.current, left, flat_take_succ q.entered k batch found, batch_wire_all batch i last,
        Nat.add_sub_cancel]
  | writeOwn batch i tx storage pc found wrote own =>
      refine .inr ⟨batch, i, tx, pc, found, ?_, wrote⟩
      simp only [executed, pc, WritePc.current, batch_wire_take batch i tx found, List.append_assoc]
  | writeOther batch i tx storage pc found wrote other =>
      refine .inr ⟨batch, i, tx, pc, found, ?_, wrote⟩
      simp only [executed, pc, WritePc.current, batch_wire_take batch i tx found, List.append_assoc]
  | fetch batch i waitForTx pc => exact .inl ⟨by simp only [executed, pc, WritePc.current], rfl⟩
  | assign batch i waitForTx pc => exact .inl ⟨by simp only [executed, pc, WritePc.current], rfl⟩
  | raise batch i waitForTx pc => exact .inl ⟨by simp only [executed, pc, WritePc.current], rfl⟩

theorem exec_inv_write (flag : Int) (r : Nat) (q : Fifo Batch) (e next : Exec) (act : WriteAct)
    (kind : ∀ batch, act ≠ .take batch) (inv : ExecInv q e) (step : WriteStep flag r e act next) : ExecInv q next := by
  have live : e.writePc ≠ .crashed := by
    intro crashed
    cases step <;> simp_all
  have store : next.writePc ≠ .crashed → replay applyTx (newStorage storageSize) (executed q next) = some next.storage := by
    intro running
    rcases executed_step flag r q e next act kind inv step running with ⟨same, stored⟩ | ⟨_, _, tx, _, _, more, applied⟩
    · rw [same, stored]
      exact inv.store live
    · rw [more]
      exact replay_snoc applyTx _ e.storage next.storage (executed q e) tx.wire (inv.store live) applied
  refine ⟨?_, ?_, store⟩
  · intro running idle
    cases step with
    | enter pc | leave pc => exact inv.between live (by rw [pc]; rfl)
    | takeNone => exact absurd rfl (kind none)
    | take batch => exact absurd rfl (kind (some batch))
    | complete batch i pc last =>
        obtain ⟨k, count, left, _⟩ := inv.inside batch i (by rw [pc]; rfl)
        simp only [count, left]
        omega
    | crash | fetchNone => exact absurd rfl running
    | writeOwn | writeOther | fetch | assign | raise => cases idle
  · intro batch n current
    cases step with
    | enter | leave | complete | crash | fetchNone => cases current
    | takeNone => exact absurd rfl (kind none)
    | take batch => exact absurd rfl (kind (some batch))
    | writeOwn batch i tx storage pc found | writeOther batch i tx storage pc found =>
        obtain ⟨k, count, left, there, _⟩ := inv.inside batch i (by rw [pc]; rfl)
        obtain ⟨inside, _⟩ := List.getElem?_eq_some_iff.mp found
        cases current
        exact ⟨k, count, left, there, inside⟩
    | fetch batch i waitForTx pc | assign batch i waitForTx pc | raise batch i waitForTx pc =>
        cases current
        exact inv.inside batch (i + 1) (by rw [pc]; rfl)

theorem exec_inv_take_none (flag : Int) (r : Nat) (q : Fifo Batch) (e next : Exec) (inv : ExecInv q e)
    (step : WriteStep flag r e (.take none) next) : ExecInv q next ∧ executed q next = executed q e := by
  cases step with
  | takeNone pc =>
      have same : executed q { e with writePc := .loop } = executed q e := by simp only [executed, pc, WritePc.current]
      refine ⟨⟨fun _ _ => inv.between (by simp [pc]) (by rw [pc]; rfl), fun _ _ current => (by cases current),
        fun _ => ?_⟩, same⟩
      rw [same]
      exact inv.store (by simp [pc])

theorem exec_inv_take (flag : Int) (r : Nat) (q rest : Fifo Batch) (e next : Exec) (batch : Batch) (inv : ExecInv q e)
    (took : q.tryTake = some (batch, rest)) (step : WriteStep flag r e (.take (some batch)) next) :
    ExecInv rest next ∧ executed rest next = executed q e := by
  obtain ⟨found, entered, left⟩ := Fifo.try_take_some q rest batch took
  cases step with
  | take _ pc =>
      have same : executed rest { e with writePc := .writing batch 0 } = executed q e := by
        simp [executed, pc, WritePc.current, entered, left]
      have count := inv.between (by simp [pc]) (by rw [pc]; rfl)
      refine ⟨⟨fun _ idle => (by cases idle), ?_, fun _ => ?_⟩, same⟩
      · intro other n current
        cases current
        exact ⟨q.left, count, left, entered.symm ▸ found, Nat.zero_le _⟩
      · rw [same]
        exact inv.store (by simp [pc])

theorem read_step_keeps (flag : Int) (e next : Exec) (act : ReadAct) (step : ReadStep flag e act next) :
    next.writePc = e.writePc ∧ next.epoch = e.epoch ∧ next.storage = e.storage := by
  cases step <;> exact ⟨rfl, rfl, rfl⟩

theorem exec_inv_read (flag : Int) (q : Fifo Batch) (e next : Exec) (act : ReadAct) (inv : ExecInv q e)
    (step : ReadStep flag e act next) : ExecInv q next ∧ executed q next = executed q e := by
  obtain ⟨pc, epoch, storage⟩ := read_step_keeps flag e next act step
  have same : executed q next = executed q e := by simp only [executed, pc]
  refine ⟨⟨?_, ?_, ?_⟩, same⟩
  · rw [pc, epoch]
    exact inv.between
  · rw [pc, epoch]
    exact inv.inside
  · rw [pc, storage, same]
    exact inv.store

end EpochReplication
