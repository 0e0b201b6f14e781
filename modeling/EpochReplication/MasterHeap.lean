import EpochReplication.BatchSwap
import EpochReplication.Lib.Reads

set_option autoImplicit false

namespace EpochReplication

-- A batch as the program has it: tx_set is an array of pointers.
structure BatchCell where
  epochId : Int16
  txSet : List Nat

-- The epoch loop; `printing` is the printf that follows add_node_batch_list.
inductive HeapPc where
  | barrier
  | loop
  | checking (currentEpochId : Int)
  | filling (currentEpochId : Int)
  | encoding (currentEpochId : Int) (revBatch : Nat)
  | appending (currentEpochId : Int) (revBatch len : Nat)
  | counting (currentEpochId : Int) (revBatch : Nat)
  | enqueueing (currentEpochId : Int) (revBatch : Nat)
  | printing (currentEpochId : Int) (revBatch : Nat)
  | returned

-- write_scheduler_startup of the master with the body of execute_batch: in front
-- of the i-th transaction, and in front of its free_tx.
inductive ExecutePc where
  | loop
  | taking
  | executing (batch i : Nat)
  | freeing (batch i tx : Nat)
  | returned

-- The memory of the master with everything in it that is reached by a pointer: an
-- address that has not been allocated, or has been freed, holds neither a batch
-- nor a transaction. `held` are the transactions that recieve_tx_connection has
-- created and not yet handed over, by replica and client. `accepted`, the
-- transactions for which sequencer_add_write_tx_to_batch has returned 1, and
-- `written`, those given to write_to_storage, are history.
structure MasterHeap where
  batches : Nat → Option BatchCell
  txs : Nat → Option Tx
  batch : Nat
  pc : HeapPc
  determinedEpochId : Int
  batchLog : Option File
  batchMsg : Buf
  writeTxBuffer : List Nat
  held : Nat × Nat → Option Nat
  scheduler : ExecutePc
  epoch : Int
  faulted : Bool
  accepted : List Tx
  written : List Tx

inductive EpochLoopAct where
  | barrier
  | loop
  | check
  | swap (address : Nat)
  | encode
  | append (io : LogIo)
  | count
  | enqueue
  | print

inductive ConnectionAct where
  | create (address : Nat) (tx : Tx)
  | discard
  | add

inductive ExecuteAct where
  | loop
  | take
  | execute
  | freeTx
  | freeBatch

inductive HeapAct where
  | epochLoop (act : EpochLoopAct)
  | connection (thread : Nat × Nat) (act : ConnectionAct)
  | scheduler (act : ExecuteAct)

def BatchCell.load (txs : Nat → Option Tx) (cell : BatchCell) : Option Batch :=
  (cell.txSet.mapM txs).bind fun txSet =>
    if fits : txSet.length ≤ maxBatchSize then some ⟨cell.epochId, txSet, fits⟩ else none

namespace MasterHeap

def Unallocated (s : MasterHeap) (address : Nat) : Prop := s.batches address = none ∧ s.txs address = none

instance (s : MasterHeap) (address : Nat) : Decidable (s.Unallocated address) :=
  decidable_of_iff ((s.batches address).isNone = true ∧ (s.txs address).isNone = true) (by
    simp only [Option.isNone_iff_eq_none, Unallocated])

-- A use of memory that is not allocated leaves the program without a meaning.
def fault (s : MasterHeap) : MasterHeap := { s with faulted := true }

def epochLoop (s : MasterHeap) (systemFinishRequest : Int) (act : EpochLoopAct) : Option MasterHeap :=
  match s.pc, act with
  | .barrier, .barrier => if systemFinishRequest ≠ 0 then some s else some { s with pc := .loop }
  | .loop, .loop =>
      if systemFinishRequest = 0 then some { s with pc := .checking (s.determinedEpochId + 1) }
      else some { s with pc := .returned }
  | .checking cur, .check =>
      if systemFinishRequest = 1 then some { s with pc := .returned } else some { s with pc := .filling cur }
  | .filling cur, .swap address =>
      if s.Unallocated address then
        some { s with
          pc := .encoding cur s.batch
          batches := Function.update s.batches address (some ⟨Int16.ofInt (cur + 1), []⟩)
          batch := address }
      else none
  | .encoding cur rev, .encode =>
      match (s.batches rev).bind (BatchCell.load s.txs) with
      | none => some s.fault
      | some batch =>
          let (batchMsg, len) := createBatchMsg batch s.batchMsg
          some { s with pc := .appending cur rev len, batchMsg := batchMsg }
  | .appending cur rev len, .append io =>
      match s.batches rev with
      | none => some s.fault
      | some cell =>
          match appendLog s.batchLog s.batchMsg len cell.epochId.toInt io with
          | .returned file => some { s with pc := .counting cur rev, batchLog := some file }
          | _ => none
  | .counting cur rev, .count =>
      some { s with pc := .enqueueing cur rev, determinedEpochId := s.determinedEpochId + 1 }
  | .enqueueing cur rev, .enqueue => some { s with pc := .printing cur rev, writeTxBuffer := s.writeTxBuffer ++ [rev] }
  | .printing _ rev, .print =>
      match s.batches rev with
      | none => some s.fault
      | some _ => some { s with pc := .loop }
  | _, _ => none

-- `discard` reads the id and the type, and goes on without the transaction.
def connection (s : MasterHeap) (thread : Nat × Nat) (act : ConnectionAct) : Option MasterHeap :=
  match s.held thread, act with
  | none, .create address tx =>
      if s.Unallocated address then
        some { s with
          txs := Function.update s.txs address (some tx)
          held := Function.update s.held thread (some address) }
      else none
  | some address, .discard =>
      match s.txs address with
      | none => some s.fault
      | some _ => some { s with held := Function.update s.held thread none }
  | some address, .add =>
      match s.batches s.batch with
      | none => some s.fault
      | some cell =>
          if cell.txSet.length < maxBatchSize then
            some { s with
              batches := Function.update s.batches s.batch (some { cell with txSet := cell.txSet ++ [address] })
              held := Function.update s.held thread none
              accepted := s.accepted ++ (s.txs address).toList }
          else some s
  | _, _ => none

def schedule (s : MasterHeap) (systemFinishRequest : Int) (act : ExecuteAct) : Option MasterHeap :=
  match s.scheduler, act with
  | .loop, .loop =>
      if systemFinishRequest = 0 then some { s with scheduler := .taking } else some { s with scheduler := .returned }
  | .taking, .take =>
      match s.writeTxBuffer with
      | [] => some { s with scheduler := .loop }
      | batch :: rest => some { s with scheduler := .executing batch 0, writeTxBuffer := rest }
  | .executing batch i, .execute =>
      match s.batches batch with
      | none => some s.fault
      | some cell =>
          match cell.txSet[i]? with
          | none => none
          | some address =>
              match s.txs address with
              | none => some s.fault
              | some tx =>
                  some { s with
                    txs := Function.update s.txs address (some (setAssignedEpochIdToTx tx (Int16.ofInt s.epoch)))
                    scheduler := .freeing batch i address
                    written := s.written ++ [setAssignedEpochIdToTx tx (Int16.ofInt s.epoch)] }
  | .freeing batch i address, .freeTx =>
      match s.txs address with
      | none => some s.fault
      | some _ =>
          some { s with
            txs := Function.update s.txs address none
            scheduler := .executing batch (i + 1) }
  | .executing batch i, .freeBatch =>
      match s.batches batch with
      | none => some s.fault
      | some cell =>
          if i < cell.txSet.length then none
          else
            some { s with
              batches := Function.update s.batches batch none
              scheduler := .loop
              epoch := s.epoch + 1 }
  | _, _ => none

def step (s : MasterHeap) (act : Int × HeapAct) : Option MasterHeap :=
  if s.faulted then none
  else match act with
    | (systemFinishRequest, .epochLoop act) => s.epochLoop systemFinishRequest act
    | (_, .connection thread act) => s.connection thread act
    | (systemFinishRequest, .scheduler act) => s.schedule systemFinishRequest act

def initial (uninitialised : Buf) : MasterHeap where
  batches := fun address => if address = 0 then some ⟨0, []⟩ else none
  txs := fun _ => none
  batch := 0
  pc := .barrier
  determinedEpochId := -1
  batchLog := none
  batchMsg := uninitialised
  writeTxBuffer := []
  held := fun _ => none
  scheduler := .loop
  epoch := 0
  faulted := false
  accepted := []
  written := []

end MasterHeap

def masterHeap (uninitialised : Buf) : Machine MasterHeap (Int × HeapAct) :=
  ⟨.initial uninitialised, MasterHeap.step⟩

inductive EpochLoopStep (s : MasterHeap) (systemFinishRequest : Int) : EpochLoopAct → MasterHeap → Prop where
  | spin (pc : s.pc = .barrier) : EpochLoopStep s systemFinishRequest .barrier s
  | start (pc : s.pc = .barrier) (zero : systemFinishRequest = 0) :
      EpochLoopStep s systemFinishRequest .barrier { s with pc := .loop }
  | enter (pc : s.pc = .loop) (zero : systemFinishRequest = 0) :
      EpochLoopStep s systemFinishRequest .loop { s with pc := .checking (s.determinedEpochId + 1) }
  | leave (pc : s.pc = .loop) (stopped : systemFinishRequest ≠ 0) :
      EpochLoopStep s systemFinishRequest .loop { s with pc := .returned }
  | stop (cur : Int) (pc : s.pc = .checking cur) (one : systemFinishRequest = 1) :
      EpochLoopStep s systemFinishRequest .check { s with pc := .returned }
  | check (cur : Int) (pc : s.pc = .checking cur) (running : systemFinishRequest ≠ 1) :
      EpochLoopStep s systemFinishRequest .check { s with pc := .filling cur }
  | swap (cur : Int) (address : Nat) (pc : s.pc = .filling cur) (room : s.Unallocated address) :
      EpochLoopStep s systemFinishRequest (.swap address)
        { s with
          pc := .encoding cur s.batch
          batches := Function.update s.batches address (some ⟨Int16.ofInt (cur + 1), []⟩)
          batch := address }
  | encode (cur : Int) (rev : Nat) (batch : Batch) (pc : s.pc = .encoding cur rev)
      (loaded : (s.batches rev).bind (BatchCell.load s.txs) = some batch) :
      EpochLoopStep s systemFinishRequest .encode
        { s with
          pc := .appending cur rev (createBatchMsg batch s.batchMsg).2
          batchMsg := (createBatchMsg batch s.batchMsg).1 }
  | encodeFault (cur : Int) (rev : Nat) (pc : s.pc = .encoding cur rev)
      (lost : (s.batches rev).bind (BatchCell.load s.txs) = none) : EpochLoopStep s systemFinishRequest .encode s.fault
  | append (cur : Int) (rev len : Nat) (cell : BatchCell) (io : LogIo) (file : File) (pc : s.pc = .appending cur rev len)
      (read : s.batches rev = some cell)
      (done : appendLog s.batchLog s.batchMsg len cell.epochId.toInt io = .returned file) :
      EpochLoopStep s systemFinishRequest (.append io) { s with pc := .counting cur rev, batchLog := some file }
  | appendFault (cur : Int) (rev len : Nat) (io : LogIo) (pc : s.pc = .appending cur rev len) (lost : s.batches rev = none) :
      EpochLoopStep s systemFinishRequest (.append io) s.fault
  | count (cur : Int) (rev : Nat) (pc : s.pc = .counting cur rev) :
      EpochLoopStep s systemFinishRequest .count
        { s with pc := .enqueueing cur rev, determinedEpochId := s.determinedEpochId + 1 }
  | enqueue (cur : Int) (rev : Nat) (pc : s.pc = .enqueueing cur rev) :
      EpochLoopStep s systemFinishRequest .enqueue
        { s with pc := .printing cur rev, writeTxBuffer := s.writeTxBuffer ++ [rev] }
  | print (cur : Int) (rev : Nat) (cell : BatchCell) (pc : s.pc = .printing cur rev) (read : s.batches rev = some cell) :
      EpochLoopStep s systemFinishRequest .print { s with pc := .loop }
  | printFault (cur : Int) (rev : Nat) (pc : s.pc = .printing cur rev) (lost : s.batches rev = none) :
      EpochLoopStep s systemFinishRequest .print s.fault

theorem epoch_loop_of_some (s t : MasterHeap) (flag : Int) (act : EpochLoopAct) (taken : s.epochLoop flag act = some t) :
    EpochLoopStep s flag act t := by
  unfold MasterHeap.epochLoop at taken
  split at taken
  · rename_i pc
    split at taken
    · cases taken
      exact .spin pc
    · rename_i zero
      cases taken
      exact .start pc (by omega)
  · rename_i pc
    split at taken
    · rename_i zero
      cases taken
      exact .enter pc zero
    · rename_i stopped
      cases taken
      exact .leave pc stopped
  · rename_i cur pc
    split at taken
    · rename_i one
      cases taken
      exact .stop cur pc one
    · rename_i running
      cases taken
      exact .check cur pc running
  · rename_i cur address pc
    split at taken
    · rename_i room
      cases taken
      exact .swap cur address pc room
    · cases taken
  · rename_i cur rev pc
    split at taken
    · rename_i lost
      cases taken
      exact .encodeFault cur rev pc lost
    · rename_i batch loaded
      cases taken
      exact .encode cur rev batch pc loaded
  · rename_i cur rev len io pc
    split at taken
    · rename_i lost
      cases taken
      exact .appendFault cur rev len io pc lost
    · rename_i cell read
      split at taken
      · rename_i file done
        cases taken
        exact .append cur rev len cell io file pc read done
      · cases taken
  · rename_i cur rev pc
    cases taken
    exact .count cur rev pc
  · rename_i cur rev pc
    cases taken
    exact .enqueue cur rev pc
  · rename_i cur rev pc
    split at taken
    · rename_i lost
      cases taken
      exact .printFault cur rev pc lost
    · rename_i cell read
      cases taken
      exact .print cur rev cell pc read
  · cases taken

inductive ConnectionStep (s : MasterHeap) (thread : Nat × Nat) : ConnectionAct → MasterHeap → Prop where
  | create (address : Nat) (tx : Tx) (free : s.held thread = none) (room : s.Unallocated address) :
      ConnectionStep s thread (.create address tx)
        { s with
          txs := Function.update s.txs address (some tx)
          held := Function.update s.held thread (some address) }
  | discard (address : Nat) (tx : Tx) (holds : s.held thread = some address) (read : s.txs address = some tx) :
      ConnectionStep s thread .discard { s with held := Function.update s.held thread none }
  | discardFault (address : Nat) (holds : s.held thread = some address) (lost : s.txs address = none) :
      ConnectionStep s thread .discard s.fault
  | add (address : Nat) (cell : BatchCell) (holds : s.held thread = some address) (read : s.batches s.batch = some cell)
      (room : cell.txSet.length < maxBatchSize) :
      ConnectionStep s thread .add
        { s with
          batches := Function.update s.batches s.batch (some { cell with txSet := cell.txSet ++ [address] })
          held := Function.update s.held thread none
          accepted := s.accepted ++ (s.txs address).toList }
  | full (address : Nat) (cell : BatchCell) (holds : s.held thread = some address) (read : s.batches s.batch = some cell)
      (full : ¬ cell.txSet.length < maxBatchSize) : ConnectionStep s thread .add s
  | addFault (address : Nat) (holds : s.held thread = some address) (lost : s.batches s.batch = none) :
      ConnectionStep s thread .add s.fault

theorem connection_of_some (s t : MasterHeap) (thread : Nat × Nat) (act : ConnectionAct)
    (taken : s.connection thread act = some t) : ConnectionStep s thread act t := by
  unfold MasterHeap.connection at taken
  split at taken
  · rename_i address tx free
    split at taken
    · rename_i room
      cases taken
      exact .create address tx free room
    · cases taken
  · rename_i address holds
    split at taken
    · rename_i lost
      cases taken
      exact .discardFault address holds lost
    · rename_i tx read
      cases taken
      exact .discard address tx holds read
  · rename_i address holds
    split at taken
    · rename_i lost
      cases taken
      exact .addFault address holds lost
    · rename_i cell read
      split at taken
      · rename_i room
        cases taken
        exact .add address cell holds read room
      · rename_i full
        cases taken
        exact .full address cell holds read full
  · cases taken

inductive ExecuteStep (s : MasterHeap) (systemFinishRequest : Int) : ExecuteAct → MasterHeap → Prop where
  | enter (pc : s.scheduler = .loop) (zero : systemFinishRequest = 0) :
      ExecuteStep s systemFinishRequest .loop { s with scheduler := .taking }
  | leave (pc : s.scheduler = .loop) (stopped : systemFinishRequest ≠ 0) :
      ExecuteStep s systemFinishRequest .loop { s with scheduler := .returned }
  | takeNone (pc : s.scheduler = .taking) (empty : s.writeTxBuffer = []) :
      ExecuteStep s systemFinishRequest .take { s with scheduler := .loop }
  | take (batch : Nat) (rest : List Nat) (pc : s.scheduler = .taking) (list : s.writeTxBuffer = batch :: rest) :
      ExecuteStep s systemFinishRequest .take { s with scheduler := .executing batch 0, writeTxBuffer := rest }
  | execute (batch i address : Nat) (cell : BatchCell) (tx : Tx) (pc : s.scheduler = .executing batch i)
      (read : s.batches batch = some cell) (found : cell.txSet[i]? = some address) (load : s.txs address = some tx) :
      ExecuteStep s systemFinishRequest .execute
        { s with
          txs := Function.update s.txs address (some (setAssignedEpochIdToTx tx (Int16.ofInt s.epoch)))
          scheduler := .freeing batch i address
          written := s.written ++ [setAssignedEpochIdToTx tx (Int16.ofInt s.epoch)] }
  | executeFault (batch i address : Nat) (cell : BatchCell) (pc : s.scheduler = .executing batch i)
      (read : s.batches batch = some cell) (found : cell.txSet[i]? = some address) (lost : s.txs address = none) :
      ExecuteStep s systemFinishRequest .execute s.fault
  | batchFault (batch i : Nat) (act : ExecuteAct) (pc : s.scheduler = .executing batch i) (lost : s.batches batch = none) :
      ExecuteStep s systemFinishRequest act s.fault
  | freeTx (batch i address : Nat) (tx : Tx) (pc : s.scheduler = .freeing batch i address) (load : s.txs address = some tx) :
      ExecuteStep s systemFinishRequest .freeTx
        { s with txs := Function.update s.txs address none, scheduler := .executing batch (i + 1) }
  | freeTxFault (batch i address : Nat) (pc : s.scheduler = .freeing batch i address) (lost : s.txs address = none) :
      ExecuteStep s systemFinishRequest .freeTx s.fault
  | freeBatch (batch i : Nat) (cell : BatchCell) (pc : s.scheduler = .executing batch i) (read : s.batches batch = some cell)
      (done : cell.txSet.length ≤ i) :
      ExecuteStep s systemFinishRequest .freeBatch
        { s with
          batches := Function.update s.batches batch none
          scheduler := .loop
          epoch := s.epoch + 1 }

theorem schedule_of_some (s t : MasterHeap) (flag : Int) (act : ExecuteAct) (taken : s.schedule flag act = some t) :
    ExecuteStep s flag act t := by
  unfold MasterHeap.schedule at taken
  split at taken
  · rename_i pc
    split at taken
    · rename_i zero
      cases taken
      exact .enter pc zero
    · rename_i stopped
      cases taken
      exact .leave pc stopped
  · rename_i pc
    split at taken
    · rename_i empty
      cases taken
      exact .takeNone pc empty
    · rename_i batch rest list
      cases taken
      exact .take batch rest pc list
  · rename_i batch i pc
    split at taken
    · rename_i lost
      cases taken
      exact .batchFault batch i _ pc lost
    · rename_i cell read
      split at taken
      · cases taken
      · rename_i address found
        split at taken
        · rename_i lost
          cases taken
          exact .executeFault batch i address cell pc read found lost
        · rename_i tx load
          cases taken
          exact .execute batch i address cell tx pc read found load
  · rename_i batch i address pc
    split at taken
    · rename_i lost
      cases taken
      exact .freeTxFault batch i address pc lost
    · rename_i tx load
      cases taken
      exact .freeTx batch i address tx pc load
  · rename_i batch i pc
    split at taken
    · rename_i lost
      cases taken
      exact .batchFault batch i _ pc lost
    · rename_i cell read
      split at taken
      · cases taken
      · rename_i more
        cases taken
        exact .freeBatch batch i cell pc read (by omega)
  · cases taken

end EpochReplication
