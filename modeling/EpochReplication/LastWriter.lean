import EpochReplication.Executed

set_option autoImplicit false

namespace EpochReplication

def writeScheduler (r : Nat) : Machine Exec (Int × WriteAct) :=
  ⟨Exec.initial, fun e act => writeSchedulerStartup act.1 r e act.2⟩

def WriteAct.batch : WriteAct → Option Batch
  | .take batch => batch
  | _ => none

def batchesTaken (run : List (Exec × (Int × WriteAct))) : List Batch := run.filterMap (fun x => x.2.2.batch)

def lastWrite (batches : List Batch) (key : Int16) : Option Tx :=
  (batches.flatMap Batch.txSet).reverse.find? (fun tx => tx.key == key)

def writesTo (batches : List Batch) (key : Int16) : Nat := (batches.flatMap Batch.txSet).countP (fun tx => tx.key == key)

theorem batches_taken_snoc (run : List (Exec × (Int × WriteAct))) (e : Exec) (flag : Int) (act : WriteAct) :
    batchesTaken (run ++ [(e, (flag, act))]) = batchesTaken run ++ act.batch.toList := by
  simp only [batchesTaken, List.filterMap_append, List.filterMap_cons, List.filterMap_nil]
  cases act.batch <;> rfl

def handedOver (batches : List Batch) : Fifo Batch := ⟨batches, batches.length, Nat.le_refl _⟩

theorem exec_inv_handed (batches : List Batch) (e next : Exec) (flag : Int) (r : Nat) (batch : Batch)
    (inv : ExecInv (handedOver batches) e) (step : WriteStep flag r e (.take (some batch)) next) :
    ExecInv (handedOver (batches ++ [batch])) next := by
  have more : batches.length + 1 ≤ (batches ++ [batch]).length := by simp
  have waiting : ExecInv ⟨batches ++ [batch], batches.length, by omega⟩ e :=
    exec_inv_grown (handedOver batches) _ e (List.prefix_append _ _) rfl inv
  have took : (⟨batches ++ [batch], batches.length, by omega⟩ : Fifo Batch).tryTake =
      some (batch, ⟨batches ++ [batch], batches.length + 1, more⟩) := by
    simp [Fifo.tryTake]
  have kept := (exec_inv_take flag r _ _ e next batch waiting took step).1
  simpa [handedOver] using kept

theorem exec_inv_trace (r : Nat) (run : List (Exec × (Int × WriteAct))) (e : Exec) (trace : (writeScheduler r).Trace run e) :
    ExecInv (handedOver (batchesTaken run)) e := by
  induction trace with
  | init => exact exec_inv_initial _ rfl
  | step run s t act before taken ih =>
      obtain ⟨flag, act⟩ := act
      have step := write_step_of_some flag r s t act taken
      rw [batches_taken_snoc]
      by_cases handed : ∃ batch, act = .take batch
      · obtain ⟨batch, rfl⟩ := handed
        cases batch with
        | none => simpa [WriteAct.batch] using (exec_inv_take_none flag r _ s t ih step).1
        | some batch => exact exec_inv_handed (batchesTaken run) s t flag r batch ih step
      · have nothing : act.batch = none := by
          cases act with
          | take batch => exact absurd ⟨batch, rfl⟩ handed
          | loop | write | fetch | assign | raise => rfl
        rw [nothing, Option.toList_none, List.append_nil]
        exact exec_inv_write flag r _ s t act (fun batch same => handed ⟨batch, same⟩) ih step

def storeAfter (batches : List Batch) : Option Storage :=
  replay applyTx (newStorage storageSize) (batches.flatMap Batch.wire)

theorem store_after_trace (r : Nat) (run : List (Exec × (Int × WriteAct))) (e : Exec)
    (trace : (writeScheduler r).Trace run e) (pc : e.writePc = .loop) : storeAfter (batchesTaken run) = some e.storage := by
  have stored := (exec_inv_trace r run e trace).store (by simp [pc])
  simpa [storeAfter, executed, pc, WritePc.current, handedOver] using stored

theorem write_moves (r : Nat) (run : List (Exec × (Int × WriteAct))) (e next : Exec) (act : WriteAct)
    (trace : (writeScheduler r).Trace run e) (own : act.batch = none)
    (done : writeSchedulerStartup 0 r e act = some next) :
    ∃ longer, (writeScheduler r).Trace longer next ∧ batchesTaken longer = batchesTaken run :=
  ⟨_, .step run e next (0, act) trace done, by rw [batches_taken_snoc, own, Option.toList_none, List.append_nil]⟩

theorem executes_write (r : Nat) (batch : Batch) (i : Nat) (run : List (Exec × (Int × WriteAct))) (e : Exec)
    (trace : (writeScheduler r).Trace run e) (pc : e.writePc = .writing batch i) (inside : i < batch.txSet.length)
    (key : StorageKey batch.txSet[i].key) :
    ∃ longer next, (writeScheduler r).Trace longer next ∧ batchesTaken longer = batchesTaken run ∧
      next.writePc = if batch.txSet[i].replicaId.toInt = r then .fetching batch i else .writing batch (i + 1) := by
  have found := List.getElem?_eq_getElem inside
  obtain ⟨low, high⟩ := key
  have size := exec_storage_length _ e (exec_inv_trace r run e trace) (by simp [pc])
  obtain ⟨storage, wrote⟩ := write_to_storage_some e.storage batch.txSet[i].key batch.txSet[i].value low
    (by rw [size]; exact high)
  by_cases own : batch.txSet[i].replicaId.toInt = r
  · obtain ⟨longer, written, taken⟩ := write_moves r run e { e with writePc := .fetching batch i, storage := storage }
      .write trace rfl (by simp only [writeSchedulerStartup, pc, found, wrote, if_pos own])
    exact ⟨longer, _, written, taken, by rw [if_pos own]⟩
  · obtain ⟨longer, written, taken⟩ := write_moves r run e
      { e with writePc := .writing batch (i + 1), storage := storage } .write trace rfl
      (by simp only [writeSchedulerStartup, pc, found, wrote, if_neg own])
    exact ⟨longer, _, written, taken, by rw [if_neg own]⟩

theorem executes_own (r : Nat) (batch : Batch) (i : Nat) (run : List (Exec × (Int × WriteAct))) (e : Exec)
    (trace : (writeScheduler r).Trace run e) (pc : e.writePc = .fetching batch i) :
    ∃ longer next, (writeScheduler r).Trace longer next ∧ batchesTaken longer = batchesTaken run ∧
      next.writePc = .writing batch (i + 1) := by
  obtain ⟨first, fetched, same⟩ := write_moves r run e { e with writePc := .assigning batch i 0 } (.fetch (some 0)) trace rfl
    (by simp only [writeSchedulerStartup, pc])
  obtain ⟨second, assigned, kept⟩ := write_moves r first _ { e with writePc := .raising batch i 0 } .assign fetched rfl rfl
  obtain ⟨third, raised, left⟩ := write_moves r second _ { e with writePc := .writing batch (i + 1) } .raise assigned rfl rfl
  exact ⟨third, _, raised, by rw [left, kept, same], rfl⟩

theorem executes_next (r : Nat) (batch : Batch) (i : Nat) (run : List (Exec × (Int × WriteAct))) (e : Exec)
    (trace : (writeScheduler r).Trace run e) (pc : e.writePc = .writing batch i) (inside : i < batch.txSet.length)
    (key : StorageKey batch.txSet[i].key) :
    ∃ longer next, (writeScheduler r).Trace longer next ∧ batchesTaken longer = batchesTaken run ∧
      next.writePc = .writing batch (i + 1) := by
  obtain ⟨first, middle, written, taken, at_tx⟩ := executes_write r batch i run e trace pc inside key
  by_cases own : batch.txSet[i].replicaId.toInt = r
  · rw [if_pos own] at at_tx
    obtain ⟨longer, next, raised, same, done⟩ := executes_own r batch i first middle written at_tx
    exact ⟨longer, next, raised, same.trans taken, done⟩
  · rw [if_neg own] at at_tx
    exact ⟨first, middle, written, taken, at_tx⟩

theorem executes_rest (r : Nat) (batch : Batch) (keys : ∀ tx ∈ batch.txSet, StorageKey tx.key) (n i : Nat)
    (run : List (Exec × (Int × WriteAct))) (e : Exec) (remaining : batch.txSet.length = i + n)
    (trace : (writeScheduler r).Trace run e) (pc : e.writePc = .writing batch i) :
    ∃ longer next, (writeScheduler r).Trace longer next ∧ next.writePc = .loop ∧ batchesTaken longer = batchesTaken run := by
  induction n generalizing i run e with
  | zero =>
      have last : batch.txSet[i]? = none := by
        rw [List.getElem?_eq_none_iff]
        omega
      obtain ⟨longer, moved, same⟩ := write_moves r run e { e with writePc := .loop, epoch := e.epoch + 1 } .write trace
        rfl (by simp only [writeSchedulerStartup, pc, last])
      exact ⟨longer, _, moved, rfl, same⟩
  | succ n ih =>
      have inside : i < batch.txSet.length := by omega
      obtain ⟨first, middle, written, taken, after⟩ :=
        executes_next r batch i run e trace pc inside (keys batch.txSet[i] (List.getElem_mem inside))
      obtain ⟨longer, next, done, loop, rest⟩ := ih (i + 1) first middle (by omega) written after
      exact ⟨longer, next, done, loop, rest.trans taken⟩

theorem executes_taken (r : Nat) (batch : Batch) (run : List (Exec × (Int × WriteAct))) (e : Exec)
    (trace : (writeScheduler r).Trace run e) (pc : e.writePc = .loop) :
    ∃ longer next, (writeScheduler r).Trace longer next ∧ batchesTaken longer = batchesTaken run ++ [batch] ∧
      next.writePc = .writing batch 0 := by
  obtain ⟨first, entered, same⟩ := write_moves r run e { e with writePc := .taking } .loop trace rfl
    (by simp only [writeSchedulerStartup, pc, if_true])
  have taking : (writeScheduler r).Trace (first ++ [({ e with writePc := .taking }, (0, .take (some batch)))])
      { e with writePc := .writing batch 0 } := .step first _ _ (0, .take (some batch)) entered rfl
  refine ⟨_, _, taking, ?_, rfl⟩
  rw [batches_taken_snoc, same]
  rfl

theorem executes_batches (r : Nat) (batches : List Batch) (keys : ∀ batch ∈ batches, ∀ tx ∈ batch.txSet, StorageKey tx.key)
    (run : List (Exec × (Int × WriteAct))) (e : Exec) (trace : (writeScheduler r).Trace run e) (pc : e.writePc = .loop) :
    ∃ longer next, (writeScheduler r).Trace longer next ∧ next.writePc = .loop ∧
      batchesTaken longer = batchesTaken run ++ batches := by
  induction batches generalizing run e with
  | nil => exact ⟨run, e, trace, pc, by simp⟩
  | cons batch rest ih =>
      obtain ⟨first, middle, taking, same, start⟩ := executes_taken r batch run e trace pc
      obtain ⟨second, next, done, loop, kept⟩ := executes_rest r batch (keys batch (by simp)) batch.txSet.length 0 first middle
        (by omega) taking start
      obtain ⟨longer, last, ended, finished, all⟩ := ih (fun later member => keys later (List.mem_cons_of_mem _ member))
        second next done loop
      refine ⟨longer, last, ended, finished, ?_⟩
      rw [all, kept, same, List.append_assoc]
      rfl

def Storage.record (storage : Storage) (key : Int16) : Option Int16 := storage.records[key.toInt.toNat]?

theorem read_record (storage : Storage) (key : Int16) (valid : StorageKey key)
    (size : storage.records.length = storageSize) : readFromStorage storage key = (storage.record key).map Int16.toInt := by
  obtain ⟨low, high⟩ := valid
  have inside : 0 ≤ key.toInt ∧ key.toInt.toNat < storage.records.length := ⟨low, by omega⟩
  rw [readFromStorage, recordIndex, if_pos inside]
  rfl

theorem record_written (storage next : Storage) (key value other : Int16) (low : 0 ≤ other.toInt)
    (done : writeToStorage storage key value = some next) :
    next.record other = if key = other then (storage.record other).map (· + 1) else storage.record other := by
  obtain ⟨i, index, rfl⟩ := Option.map_eq_some_iff.mp done
  unfold recordIndex at index
  split at index
  · rename_i inside
    cases index
    rw [Storage.record, Storage.record, List.getElem?_modify]
    by_cases same : key = other
    · subst same
      simp
    · have apart : key.toInt.toNat ≠ other.toInt.toNat := by
        intro equal
        exact same (Int16.toInt_inj.mp (by omega))
      simp only [if_neg same, if_neg apart, Option.map_eq_map, Option.map_id']
  · cases index

theorem record_counts (txs : List WireTx) (storage next : Storage) (key : Int16) (low : 0 ≤ key.toInt)
    (replayed : replay applyTx storage txs = some next) :
    next.record key = (storage.record key).map (· + Int16.ofNat (txs.countP (fun tx => tx.key == key))) := by
  induction txs generalizing storage with
  | nil =>
      cases replayed
      simp
  | cons tx rest ih =>
      obtain ⟨middle, applied, replayed⟩ := Option.bind_eq_some_iff.mp replayed
      rw [ih middle replayed, record_written storage middle tx.key tx.value key low applied, List.countP_cons]
      by_cases same : tx.key = key
      · simp only [same, if_true, beq_self_eq_true, Option.map_map]
        congr 1
        funext value
        simp only [Function.comp_apply, Int16.ofNat_add, Int16.add_assoc]
        rw [Int16.add_comm 1]
        rfl
      · simp [same]

theorem writes_to_wire (batches : List Batch) (key : Int16) :
    writesTo batches key = (batches.flatMap Batch.wire).countP (fun tx => tx.key == key) := by
  have flat : batches.flatMap Batch.wire = (batches.flatMap Batch.txSet).map Tx.wire := by
    simp only [List.map_flatMap]
    rfl
  rw [flat, List.countP_map]
  rfl

theorem read_after_batches (batches : List Batch) (storage : Storage) (key : Int16) (valid : StorageKey key)
    (stored : storeAfter batches = some storage) :
    readFromStorage storage key = some (Int16.ofNat (writesTo batches key)).toInt := by
  have size : storage.records.length = storageSize :=
    replay_preserves applyTx (fun store => store.records.length = storageSize)
      (fun store tx next same applied => (write_to_storage_length store next tx.key tx.value applied).trans same)
      _ _ _ List.length_replicate stored
  have fresh : (newStorage storageSize).record key = some 0 := by
    obtain ⟨low, high⟩ := valid
    exact List.getElem?_replicate_of_lt (by omega)
  rw [read_record storage key valid size, record_counts _ _ storage key valid.1 stored, fresh, writes_to_wire]
  simp

theorem last_write_none (batches : List Batch) (key : Int16) (untouched : lastWrite batches key = none) :
    writesTo batches key = 0 := by
  rw [writesTo, List.countP_eq_zero]
  intro tx member
  exact List.find?_eq_none.mp untouched tx (List.mem_reverse.mpr member)

theorem last_write_some (batches : List Batch) (key : Int16) (tx : Tx) (last : lastWrite batches key = some tx) :
    tx.key = key ∧ ∃ batch ∈ batches, tx ∈ batch.txSet := by
  refine ⟨by simpa using List.find?_some last, ?_⟩
  simpa using List.mem_of_find?_eq_some last

def LastWriterWins (batches : List Batch) (storage : Storage) : Prop :=
  ∀ key, StorageKey key →
    readFromStorage storage key = some (((lastWrite batches key).map (fun tx => tx.value.toInt)).getD 0)

-- The value of a record is the number of writes to it, so it is the last value
-- written just when that value happens to be this number.
theorem last_writer_wins_iff (r : Nat) (batches : List Batch)
    (keys : ∀ batch ∈ batches, ∀ tx ∈ batch.txSet, StorageKey tx.key) :
    ∃ storage,
      (∃ run e, (writeScheduler r).Trace run e ∧ e.writePc = .loop ∧ batchesTaken run = batches) ∧
      (∀ run e, (writeScheduler r).Trace run e → e.writePc = .loop → batchesTaken run = batches → e.storage = storage) ∧
      (LastWriterWins batches storage ↔
        ∀ key tx, lastWrite batches key = some tx → tx.value = Int16.ofNat (writesTo batches key)) := by
  obtain ⟨run, e, trace, pc, taken⟩ := executes_batches r batches keys [] Exec.initial .init rfl
  replace taken : batchesTaken run = batches := taken
  have stored := store_after_trace r run e trace pc
  rw [taken] at stored
  refine ⟨e.storage, ⟨run, e, trace, pc, taken⟩, ?_, ?_, ?_⟩
  · intro other last also loop same
    have equal := store_after_trace r other last also loop
    rw [same, stored] at equal
    exact (Option.some.inj equal).symm
  · intro wins key tx last
    obtain ⟨same, batch, there, member⟩ := last_write_some batches key tx last
    have valid : StorageKey key := same ▸ keys batch there tx member
    have read := wins key valid
    rw [read_after_batches batches e.storage key valid stored, last] at read
    exact (Int16.toInt_inj.mp (Option.some.inj read)).symm
  · intro counted key valid
    rw [read_after_batches batches e.storage key valid stored]
    cases last : lastWrite batches key with
    | none => rw [last_write_none batches key last]; rfl
    | some tx => rw [← counted key tx last]; rfl

def oneWrite : Batch := (batchAddTx (batchCreate 0) (setClientInfoToTx (modifyToWriteTx createTx 10 20) 1 2 0)).1

def oneWriteRun : List (Int × WriteAct) :=
  [(0, .loop), (0, .take (some oneWrite)), (0, .write), (0, .write)]

theorem last_writer_loses : ∃ e, (writeScheduler 0).exec Exec.initial oneWriteRun = some e ∧ e.epoch = 1 ∧
    readFromStorage e.storage 10 = some 1 ∧ (lastWrite [oneWrite] 10).map (fun tx => tx.value.toInt) = some 20 ∧
    ¬ LastWriterWins [oneWrite] e.storage := by
  have ran : ((writeScheduler 0).exec Exec.initial oneWriteRun).map (fun e => (e.epoch, readFromStorage e.storage 10)) =
      some (1, some 1) := by decide +kernel
  obtain ⟨e, ran, result⟩ := Option.map_eq_some_iff.mp ran
  obtain ⟨epoch, read⟩ := Prod.mk.inj result
  have last : (lastWrite [oneWrite] 10).map (fun tx => tx.value.toInt) = some 20 := by decide
  refine ⟨e, ran, epoch, read, last, fun wins => ?_⟩
  have expected := wins 10 ⟨by decide, by decide⟩
  rw [read, last] at expected
  cases expected

theorem last_writer_wins_iff_one_write : ∃ run e, (writeScheduler 0).Trace run e ∧ e.writePc = .loop ∧
    batchesTaken run = [oneWrite] ∧ (LastWriterWins [oneWrite] e.storage ↔
      ∀ key tx, lastWrite [oneWrite] key = some tx → tx.value = Int16.ofNat (writesTo [oneWrite] key)) := by
  obtain ⟨storage, ⟨run, e, trace, pc, taken⟩, unique, exact⟩ := last_writer_wins_iff 0 [oneWrite] (by decide)
  refine ⟨run, e, trace, pc, taken, ?_⟩
  rw [unique run e trace pc taken]
  exact exact

end EpochReplication
