import EpochReplication.Batch
import EpochReplication.Storage

set_option autoImplicit false

namespace EpochReplication

-- Where write_scheduler_startup stands, the body of execute_batch included. For
-- a transaction of the own replica `fetching` reads wait_for_exe, whose value is
-- the connection whose transaction it points to.
inductive WritePc where
  | loop
  | taking
  | writing (batch : Batch) (i : Nat)
  | fetching (batch : Batch) (i : Nat)
  | assigning (batch : Batch) (i waitForTx : Nat)
  | raising (batch : Batch) (i waitForTx : Nat)
  | returned
  | crashed

inductive ReadPc where
  | loop
  | taking
  | reading (tx : Nat)
  | raising (tx : Nat)
  | returned
  | crashed
deriving DecidableEq, Repr

structure Exec where
  writePc : WritePc
  epoch : Int
  readPc : ReadPc
  storage : Storage

def Exec.initial : Exec := ⟨.loop, 0, .loop, newStorage storageSize⟩

inductive WriteAct where
  | loop
  | take (batch : Option Batch)
  | write
  | fetch (waitForExe : Option Nat)
  | assign
  | raise

-- The transaction that is executed is freed at once, so that its own copy of the
-- epoch id is never seen. assign and raise act on the waiting transaction.
def writeSchedulerStartup (systemFinishRequest : Int) (myReplicaId : Nat) (e : Exec) (act : WriteAct) : Option Exec :=
  match e.writePc, act with
  | .loop, .loop =>
      if systemFinishRequest = 0 then some { e with writePc := .taking } else some { e with writePc := .returned }
  | .taking, .take none => some { e with writePc := .loop }
  | .taking, .take (some batch) => some { e with writePc := .writing batch 0 }
  | .writing batch i, .write =>
      match batch.txSet[i]? with
      | none => some { e with writePc := .loop, epoch := e.epoch + 1 }
      | some tx =>
          match writeToStorage e.storage tx.key tx.value with
          | none => some { e with writePc := .crashed }
          | some storage =>
              if tx.replicaId.toInt = myReplicaId then some { e with writePc := .fetching batch i, storage := storage }
              else some { e with writePc := .writing batch (i + 1), storage := storage }
  | .fetching _ _, .fetch none => some { e with writePc := .crashed }
  | .fetching batch i, .fetch (some waitForTx) => some { e with writePc := .assigning batch i waitForTx }
  | .assigning batch i waitForTx, .assign => some { e with writePc := .raising batch i waitForTx }
  | .raising batch i _, .raise => some { e with writePc := .writing batch (i + 1) }
  | _, _ => none

inductive ReadAct where
  | loop
  | take (tx : Option Nat)
  | read (key : Int16)
  | raise

def readSchedulerStartup (systemFinishRequest : Int) (e : Exec) (act : ReadAct) : Option Exec :=
  match e.readPc, act with
  | .loop, .loop =>
      if systemFinishRequest = 0 then some { e with readPc := .taking } else some { e with readPc := .returned }
  | .taking, .take none => some { e with readPc := .loop }
  | .taking, .take (some tx) => some { e with readPc := .reading tx }
  | .reading tx, .read key =>
      match readFromStorage e.storage key with
      | none => some { e with readPc := .crashed }
      | some _ => some { e with readPc := .raising tx }
  | .raising _, .raise => some { e with readPc := .loop }
  | _, _ => none

inductive WriteStep (systemFinishRequest : Int) (myReplicaId : Nat) (e : Exec) : WriteAct → Exec → Prop where
  | enter (pc : e.writePc = .loop) (flag : systemFinishRequest = 0) :
      WriteStep systemFinishRequest myReplicaId e .loop { e with writePc := .taking }
  | leave (pc : e.writePc = .loop) (flag : systemFinishRequest ≠ 0) :
      WriteStep systemFinishRequest myReplicaId e .loop { e with writePc := .returned }
  | takeNone (pc : e.writePc = .taking) :
      WriteStep systemFinishRequest myReplicaId e (.take none) { e with writePc := .loop }
  | take (batch : Batch) (pc : e.writePc = .taking) :
      WriteStep systemFinishRequest myReplicaId e (.take (some batch)) { e with writePc := .writing batch 0 }
  | complete (batch : Batch) (i : Nat) (pc : e.writePc = .writing batch i) (last : batch.txSet[i]? = none) :
      WriteStep systemFinishRequest myReplicaId e .write { e with writePc := .loop, epoch := e.epoch + 1 }
  | crash (batch : Batch) (i : Nat) (tx : Tx) (pc : e.writePc = .writing batch i) (found : batch.txSet[i]? = some tx)
      (out : writeToStorage e.storage tx.key tx.value = none) :
      WriteStep systemFinishRequest myReplicaId e .write { e with writePc := .crashed }
  | writeOwn (batch : Batch) (i : Nat) (tx : Tx) (storage : Storage) (pc : e.writePc = .writing batch i)
      (found : batch.txSet[i]? = some tx) (wrote : writeToStorage e.storage tx.key tx.value = some storage)
      (own : tx.replicaId.toInt = myReplicaId) :
      WriteStep systemFinishRequest myReplicaId e .write { e with writePc := .fetching batch i, storage := storage }
  | writeOther (batch : Batch) (i : Nat) (tx : Tx) (storage : Storage) (pc : e.writePc = .writing batch i)
      (found : batch.txSet[i]? = some tx) (wrote : writeToStorage e.storage tx.key tx.value = some storage)
      (other : tx.replicaId.toInt ≠ myReplicaId) :
      WriteStep systemFinishRequest myReplicaId e .write { e with writePc := .writing batch (i + 1), storage := storage }
  | fetchNone (batch : Batch) (i : Nat) (pc : e.writePc = .fetching batch i) :
      WriteStep systemFinishRequest myReplicaId e (.fetch none) { e with writePc := .crashed }
  | fetch (batch : Batch) (i waitForTx : Nat) (pc : e.writePc = .fetching batch i) :
      WriteStep systemFinishRequest myReplicaId e (.fetch (some waitForTx))
        { e with writePc := .assigning batch i waitForTx }
  | assign (batch : Batch) (i waitForTx : Nat) (pc : e.writePc = .assigning batch i waitForTx) :
      WriteStep systemFinishRequest myReplicaId e .assign { e with writePc := .raising batch i waitForTx }
  | raise (batch : Batch) (i waitForTx : Nat) (pc : e.writePc = .raising batch i waitForTx) :
      WriteStep systemFinishRequest myReplicaId e .raise { e with writePc := .writing batch (i + 1) }

theorem write_step_of_some (systemFinishRequest : Int) (myReplicaId : Nat) (e next : Exec) (act : WriteAct)
    (done : writeSchedulerStartup systemFinishRequest myReplicaId e act = some next) :
    WriteStep systemFinishRequest myReplicaId e act next := by
  unfold writeSchedulerStartup at done
  split at done
  · rename_i pc
    split at done
    · rename_i flag
      cases done
      exact .enter pc flag
    · rename_i flag
      cases done
      exact .leave pc flag
  · rename_i pc
    cases done
    exact .takeNone pc
  · rename_i batch pc
    cases done
    exact .take batch pc
  · rename_i batch i pc
    split at done
    · rename_i last
      cases done
      exact .complete batch i pc last
    · rename_i tx found
      split at done
      · rename_i out
        cases done
        exact .crash batch i tx pc found out
      · rename_i storage wrote
        split at done
        · rename_i own
          cases done
          exact .writeOwn batch i tx storage pc found wrote own
        · rename_i other
          cases done
          exact .writeOther batch i tx storage pc found wrote other
  · rename_i batch i pc
    cases done
    exact .fetchNone batch i pc
  · rename_i batch i waitForTx pc
    cases done
    exact .fetch batch i waitForTx pc
  · rename_i batch i waitForTx pc
    cases done
    exact .assign batch i waitForTx pc
  · rename_i batch i waitForTx pc
    cases done
    exact .raise batch i waitForTx pc
  · cases done

inductive ReadStep (systemFinishRequest : Int) (e : Exec) : ReadAct → Exec → Prop where
  | enter (pc : e.readPc = .loop) (flag : systemFinishRequest = 0) :
      ReadStep systemFinishRequest e .loop { e with readPc := .taking }
  | leave (pc : e.readPc = .loop) (flag : systemFinishRequest ≠ 0) :
      ReadStep systemFinishRequest e .loop { e with readPc := .returned }
  | takeNone (pc : e.readPc = .taking) : ReadStep systemFinishRequest e (.take none) { e with readPc := .loop }
  | take (tx : Nat) (pc : e.readPc = .taking) :
      ReadStep systemFinishRequest e (.take (some tx)) { e with readPc := .reading tx }
  | crash (tx : Nat) (key : Int16) (pc : e.readPc = .reading tx) (out : readFromStorage e.storage key = none) :
      ReadStep systemFinishRequest e (.read key) { e with readPc := .crashed }
  | read (tx : Nat) (key : Int16) (value : Int) (pc : e.readPc = .reading tx)
      (found : readFromStorage e.storage key = some value) :
      ReadStep systemFinishRequest e (.read key) { e with readPc := .raising tx }
  | raise (tx : Nat) (pc : e.readPc = .raising tx) : ReadStep systemFinishRequest e .raise { e with readPc := .loop }

theorem read_step_of_some (systemFinishRequest : Int) (e next : Exec) (act : ReadAct)
    (done : readSchedulerStartup systemFinishRequest e act = some next) : ReadStep systemFinishRequest e act next := by
  unfold readSchedulerStartup at done
  split at done
  · rename_i pc
    split at done
    · rename_i flag
      cases done
      exact .enter pc flag
    · rename_i flag
      cases done
      exact .leave pc flag
  · rename_i pc
    cases done
    exact .takeNone pc
  · rename_i tx pc
    cases done
    exact .take tx pc
  · rename_i tx key pc
    split at done
    · rename_i out
      cases done
      exact .crash tx key pc out
    · rename_i value found
      cases done
      exact .read tx key value pc found
  · rename_i tx pc
    cases done
    exact .raise tx pc
  · cases done

end EpochReplication
