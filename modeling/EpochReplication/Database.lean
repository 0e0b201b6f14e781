import EpochReplication.Convergence
import EpochReplication.IntakeSteps

set_option autoImplicit false

namespace EpochReplication

structure Database where
  replicas : Replicas
  intake : Intake

inductive DatabaseAct where
  | start
  | finish (r : Nat)
  | client (r c : Nat) (act : ClientTime.Act)
  | thread (r c : Nat) (act : ClientInterface.Act)
  | recieve (r c : Nat) (act : RecieveAct)
  | addWriteTx (r c : Nat)
  | sequencers (act : SequencersAct)
  | takeBatch (r : Nat)
  | writeLoop (r : Nat)
  | write (r : Nat)
  | fetch (r : Nat)
  | assign (r : Nat)
  | raise (r : Nat)
  | readLoop (r : Nat)
  | takeRead (r : Nat)
  | read (r : Nat)
  | raiseRead (r : Nat)

def SequencersAct.node : SequencersAct → Nat
  | .epoch _ | .addWriteTx _ | .send _ _ => 0
  | .slave r _ | .takeBatch r => r

namespace Database

def initial (p : Deployment) : Database := ⟨.initial p, .initial p⟩

def running (d : Database) (r : Nat) : Bool := d.replicas.sequencers.running r

def inside (p : Deployment) (d : Database) (r : Nat) (act : ReplicasAct) : Option Database :=
  (Replicas.step p d.replicas (d.intake.flag r, act)).map (fun replicas => { d with replicas := replicas })

def touching (p : Deployment) (d : Database) (r c : Nat) (act : ReplicasAct) (tx : TxAct) : Option Database :=
  (Replicas.step p d.replicas (d.intake.flag r, act)).map (fun replicas => ⟨replicas, d.intake.touchTx r c tx⟩)

def addWriteTx (p : Deployment) (d : Database) (r c : Nat) : Option Database :=
  match (d.intake.conn (r, c)).recieve.pc with
  | .adding tx =>
      (d.intake.recieveStep r c (.add d.replicas.sequencers.master.batch)).bind (fun intake =>
        (Replicas.step p d.replicas (d.intake.flag 0, .sequencers (.addWriteTx tx))).map
          (fun replicas => ⟨replicas, intake⟩))
  | _ => none

-- db_client_info_set[tx_c_id].wait_for_exe, with the client id of the transaction.
def fetch (p : Deployment) (d : Database) (r : Nat) : Option Database :=
  match (d.replicas.exec r).writePc with
  | .fetching batch i =>
      batch.txSet[i]?.bind (fun tx => d.inside p r (.write r (.fetch (d.intake.waitForExe r tx.clientId.toInt))))
  | _ => none

-- set_assigned_epoch_id_to_tx with the parameter of execute_batch, a short.
def assign (p : Deployment) (d : Database) (r : Nat) : Option Database :=
  match (d.replicas.exec r).writePc with
  | .assigning _ _ c => d.touching p r c (.write r .assign) (.assign (Int16.ofInt (d.replicas.exec r).epoch))
  | _ => none

def raise (p : Deployment) (d : Database) (r : Nat) : Option Database :=
  match (d.replicas.exec r).writePc with
  | .raising _ i c => d.touching p r c (.write r .raise) (.raise (some ((d.replicas.exec r).epoch.toNat, i)))
  | _ => none

def takeRead (p : Deployment) (d : Database) (r : Nat) : Option Database :=
  (Replicas.step p d.replicas (d.intake.flag r, .read r (.take (d.intake.takeRead r).1))).map
    (fun replicas => ⟨replicas, (d.intake.takeRead r).2⟩)

def read (p : Deployment) (d : Database) (r : Nat) : Option Database :=
  match (d.replicas.exec r).readPc with
  | .reading c =>
      let key := (d.intake.conn (r, c)).thread.tx.key
      match readFromStorage (d.replicas.exec r).storage key with
      | none => d.inside p r (.read r (.read key))
      | some value => d.touching p r c (.read r (.read key)) (.value value)
  | _ => none

def raiseRead (p : Deployment) (d : Database) (r : Nat) : Option Database :=
  match (d.replicas.exec r).readPc with
  | .raising c => d.touching p r c (.read r .raise) (.raise none)
  | _ => none

def step (p : Deployment) (writeRate : Nat) (d : Database) : DatabaseAct → Option Database
  | .start => d.intake.start.map (fun intake => { d with intake := intake })
  | .finish r => some { d with intake := d.intake.finish r }
  | .client r c act =>
      if p.IsConnection r c then
        (d.intake.clientStep writeRate r c act).map (fun intake => { d with intake := intake })
      else none
  | .thread r c act =>
      if p.IsConnection r c ∧ d.running r = true then
        (d.intake.threadStep r c act).map (fun intake => { d with intake := intake })
      else none
  | .recieve _ _ (.add _) => none
  | .recieve r c act =>
      if p.IsConnection r c ∧ d.running 0 = true then
        (d.intake.recieveStep r c act).map (fun intake => { d with intake := intake })
      else none
  | .addWriteTx r c => if p.IsConnection r c ∧ d.running 0 = true then d.addWriteTx p r c else none
  | .sequencers (.addWriteTx _) => none
  | .sequencers act => d.inside p act.node (.sequencers act)
  | .takeBatch r => d.inside p r (.takeBatch r)
  | .writeLoop r => d.inside p r (.write r .loop)
  | .write r => d.inside p r (.write r .write)
  | .fetch r => d.fetch p r
  | .assign r => d.assign p r
  | .raise r => d.raise p r
  | .readLoop r => d.inside p r (.read r .loop)
  | .takeRead r => d.takeRead p r
  | .read r => d.read p r
  | .raiseRead r => d.raiseRead p r

end Database

def database (p : Deployment) (writeRate : Nat) : Machine Database DatabaseAct :=
  ⟨.initial p, Database.step p writeRate⟩

inductive DatabaseStep (p : Deployment) (writeRate : Nat) (d : Database) : DatabaseAct → Database → Prop where
  | start (live : d.intake.flag 0 ≠ 1) :
      DatabaseStep p writeRate d .start
        { d with intake := { d.intake with flag := Function.update d.intake.flag 0 0 } }
  | finish (r : Nat) : DatabaseStep p writeRate d (.finish r) { d with intake := d.intake.finish r }
  | client (r c : Nat) (act : ClientTime.Act) (conn : Connection) (connection : p.IsConnection r c)
      (step : ClientStep writeRate r c (d.intake.conn (r, c)) act conn) :
      DatabaseStep p writeRate d (.client r c act)
        { d with intake := { d.intake with conn := Function.update d.intake.conn (r, c) conn } }
  | thread (r c : Nat) (act : ClientInterface.Act) (conn : Connection) (sent : List Packet)
      (connection : p.IsConnection r c) (running : d.running r = true)
      (step : ThreadStep (d.intake.flag r) d.intake.net r c (d.intake.conn (r, c)) act conn sent) :
      DatabaseStep p writeRate d (.thread r c act)
        { d with
          intake :=
            { flag := d.intake.flag
              conn := Function.update d.intake.conn (r, c) conn
              waitForExe := d.intake.registered r c act
              readTxBuffer := d.intake.requestedReads r c act
              net := d.intake.net ++ sent } }
  | recieve (r c : Nat) (act : RecieveAct) (recieve : RecieveThread) (sent : List Packet)
      (kind : ∀ batch, act ≠ .add batch) (connection : p.IsConnection r c) (running : d.running 0 = true)
      (step : RecieveStep (d.intake.flag 0) d.intake.net r c (d.intake.conn (r, c)).recieve act recieve sent) :
      DatabaseStep p writeRate d (.recieve r c act)
        { d with
          intake := { d.intake with
            conn := Function.update d.intake.conn (r, c) { d.intake.conn (r, c) with recieve := recieve }
            net := d.intake.net ++ sent } }
  | addWriteTx (r c : Nat) (tx : Tx) (recieve : RecieveThread) (sent : List Packet) (replicas : Replicas)
      (connection : p.IsConnection r c) (running : d.running 0 = true)
      (pc : (d.intake.conn (r, c)).recieve.pc = .adding tx)
      (step : RecieveStep (d.intake.flag 0) d.intake.net r c (d.intake.conn (r, c)).recieve
        (.add d.replicas.sequencers.master.batch) recieve sent)
      (moved : Replicas.step p d.replicas (d.intake.flag 0, .sequencers (.addWriteTx tx)) = some replicas) :
      DatabaseStep p writeRate d (.addWriteTx r c)
        ⟨replicas,
          { d.intake with
            conn := Function.update d.intake.conn (r, c) { d.intake.conn (r, c) with recieve := recieve }
            net := d.intake.net ++ sent }⟩
  | sequencers (act : SequencersAct) (replicas : Replicas) (kind : ∀ tx, act ≠ .addWriteTx tx)
      (moved : Replicas.step p d.replicas (d.intake.flag act.node, .sequencers act) = some replicas) :
      DatabaseStep p writeRate d (.sequencers act) { d with replicas := replicas }
  | takeBatch (r : Nat) (replicas : Replicas)
      (moved : Replicas.step p d.replicas (d.intake.flag r, .takeBatch r) = some replicas) :
      DatabaseStep p writeRate d (.takeBatch r) { d with replicas := replicas }
  | writeLoop (r : Nat) (replicas : Replicas)
      (moved : Replicas.step p d.replicas (d.intake.flag r, .write r .loop) = some replicas) :
      DatabaseStep p writeRate d (.writeLoop r) { d with replicas := replicas }
  | write (r : Nat) (replicas : Replicas)
      (moved : Replicas.step p d.replicas (d.intake.flag r, .write r .write) = some replicas) :
      DatabaseStep p writeRate d (.write r) { d with replicas := replicas }
  | fetch (r i : Nat) (batch : Batch) (tx : Tx) (replicas : Replicas)
      (pc : (d.replicas.exec r).writePc = .fetching batch i) (found : batch.txSet[i]? = some tx)
      (moved : Replicas.step p d.replicas
        (d.intake.flag r, .write r (.fetch (d.intake.waitForExe r tx.clientId.toInt))) = some replicas) :
      DatabaseStep p writeRate d (.fetch r) { d with replicas := replicas }
  | assign (r i c : Nat) (batch : Batch) (replicas : Replicas)
      (pc : (d.replicas.exec r).writePc = .assigning batch i c)
      (moved : Replicas.step p d.replicas (d.intake.flag r, .write r .assign) = some replicas) :
      DatabaseStep p writeRate d (.assign r)
        ⟨replicas, d.intake.touchTx r c (.assign (Int16.ofInt (d.replicas.exec r).epoch))⟩
  | raise (r i c : Nat) (batch : Batch) (replicas : Replicas)
      (pc : (d.replicas.exec r).writePc = .raising batch i c)
      (moved : Replicas.step p d.replicas (d.intake.flag r, .write r .raise) = some replicas) :
      DatabaseStep p writeRate d (.raise r)
        ⟨replicas, d.intake.touchTx r c (.raise (some ((d.replicas.exec r).epoch.toNat, i)))⟩
  | readLoop (r : Nat) (replicas : Replicas)
      (moved : Replicas.step p d.replicas (d.intake.flag r, .read r .loop) = some replicas) :
      DatabaseStep p writeRate d (.readLoop r) { d with replicas := replicas }
  | takeRead (r : Nat) (replicas : Replicas)
      (moved : Replicas.step p d.replicas (d.intake.flag r, .read r (.take (d.intake.takeRead r).1)) = some replicas) :
      DatabaseStep p writeRate d (.takeRead r) ⟨replicas, (d.intake.takeRead r).2⟩
  | readOut (r c : Nat) (replicas : Replicas) (pc : (d.replicas.exec r).readPc = .reading c)
      (out : readFromStorage (d.replicas.exec r).storage (d.intake.conn (r, c)).thread.tx.key = none)
      (moved : Replicas.step p d.replicas
        (d.intake.flag r, .read r (.read (d.intake.conn (r, c)).thread.tx.key)) = some replicas) :
      DatabaseStep p writeRate d (.read r) { d with replicas := replicas }
  | read (r c : Nat) (value : Int) (replicas : Replicas) (pc : (d.replicas.exec r).readPc = .reading c)
      (found : readFromStorage (d.replicas.exec r).storage (d.intake.conn (r, c)).thread.tx.key = some value)
      (moved : Replicas.step p d.replicas
        (d.intake.flag r, .read r (.read (d.intake.conn (r, c)).thread.tx.key)) = some replicas) :
      DatabaseStep p writeRate d (.read r) ⟨replicas, d.intake.touchTx r c (.value value)⟩
  | raiseRead (r c : Nat) (replicas : Replicas) (pc : (d.replicas.exec r).readPc = .raising c)
      (moved : Replicas.step p d.replicas (d.intake.flag r, .read r .raise) = some replicas) :
      DatabaseStep p writeRate d (.raiseRead r) ⟨replicas, d.intake.touchTx r c (.raise none)⟩

theorem database_step_cases (p : Deployment) (writeRate : Nat) (d next : Database) (act : DatabaseAct)
    (taken : Database.step p writeRate d act = some next) : DatabaseStep p writeRate d act next := by
  unfold Database.step at taken
  split at taken
  · obtain ⟨intake, moved, rfl⟩ := Option.map_eq_some_iff.mp taken
    unfold Intake.start at moved
    split at moved
    · cases moved
    · rename_i live
      cases moved
      exact .start live
  · cases taken
    exact .finish _
  · rename_i r c act
    split at taken
    · rename_i connection
      obtain ⟨intake, moved, rfl⟩ := Option.map_eq_some_iff.mp taken
      obtain ⟨conn, done, rfl⟩ := Option.map_eq_some_iff.mp moved
      exact .client r c act conn connection (client_step_of_some writeRate r c _ conn act done)
    · cases taken
  · rename_i r c act
    split at taken
    · rename_i ready
      obtain ⟨intake, moved, rfl⟩ := Option.map_eq_some_iff.mp taken
      obtain ⟨⟨conn, sent⟩, done, rfl⟩ := Option.map_eq_some_iff.mp moved
      exact .thread r c act conn sent ready.1 ready.2 (thread_step_of_some _ _ sent r c _ conn act done)
    · cases taken
  · cases taken
  · rename_i r c act kind
    split at taken
    · rename_i ready
      obtain ⟨intake, moved, rfl⟩ := Option.map_eq_some_iff.mp taken
      obtain ⟨⟨recieve, sent⟩, done, rfl⟩ := Option.map_eq_some_iff.mp moved
      exact .recieve r c act recieve sent kind ready.1 ready.2 (recieve_step_of_some _ _ sent r c _ recieve act done)
    · cases taken
  · rename_i r c
    split at taken
    · rename_i ready
      unfold Database.addWriteTx at taken
      split at taken
      · rename_i tx pc
        obtain ⟨intake, stepped, taken⟩ := Option.bind_eq_some_iff.mp taken
        obtain ⟨replicas, moved, rfl⟩ := Option.map_eq_some_iff.mp taken
        obtain ⟨⟨recieve, sent⟩, done, rfl⟩ := Option.map_eq_some_iff.mp stepped
        exact .addWriteTx r c tx recieve sent replicas ready.1 ready.2 pc
          (recieve_step_of_some _ _ sent r c _ recieve _ done) moved
      · cases taken
    · cases taken
  · cases taken
  · rename_i act kind
    obtain ⟨replicas, moved, rfl⟩ := Option.map_eq_some_iff.mp taken
    exact .sequencers act replicas kind moved
  · rename_i r
    obtain ⟨replicas, moved, rfl⟩ := Option.map_eq_some_iff.mp taken
    exact .takeBatch r replicas moved
  · rename_i r
    obtain ⟨replicas, moved, rfl⟩ := Option.map_eq_some_iff.mp taken
    exact .writeLoop r replicas moved
  · rename_i r
    obtain ⟨replicas, moved, rfl⟩ := Option.map_eq_some_iff.mp taken
    exact .write r replicas moved
  · rename_i r
    unfold Database.fetch at taken
    split at taken
    · rename_i batch i pc
      obtain ⟨tx, found, taken⟩ := Option.bind_eq_some_iff.mp taken
      obtain ⟨replicas, moved, rfl⟩ := Option.map_eq_some_iff.mp taken
      exact .fetch r i batch tx replicas pc found moved
    · cases taken
  · rename_i r
    unfold Database.assign at taken
    split at taken
    · rename_i batch i c pc
      obtain ⟨replicas, moved, rfl⟩ := Option.map_eq_some_iff.mp taken
      exact .assign r i c batch replicas pc moved
    · cases taken
  · rename_i r
    unfold Database.raise at taken
    split at taken
    · rename_i batch i c pc
      obtain ⟨replicas, moved, rfl⟩ := Option.map_eq_some_iff.mp taken
      exact .raise r i c batch replicas pc moved
    · cases taken
  · rename_i r
    obtain ⟨replicas, moved, rfl⟩ := Option.map_eq_some_iff.mp taken
    exact .readLoop r replicas moved
  · rename_i r
    obtain ⟨replicas, moved, rfl⟩ := Option.map_eq_some_iff.mp taken
    exact .takeRead r replicas moved
  · rename_i r
    unfold Database.read at taken
    split at taken
    · rename_i c pc
      simp only at taken
      split at taken
      · rename_i out
        obtain ⟨replicas, moved, rfl⟩ := Option.map_eq_some_iff.mp taken
        exact .readOut r c replicas pc out moved
      · rename_i value found
        obtain ⟨replicas, moved, rfl⟩ := Option.map_eq_some_iff.mp taken
        exact .read r c value replicas pc found moved
    · cases taken
  · rename_i r
    unfold Database.raiseRead at taken
    split at taken
    · rename_i c pc
      obtain ⟨replicas, moved, rfl⟩ := Option.map_eq_some_iff.mp taken
      exact .raiseRead r c replicas pc moved
    · cases taken

theorem database_projects (p : Deployment) (writeRate : Nat) :
    Machine.Projects (database p writeRate) (replicas p) Database.replicas where
  init := rfl
  step := by
    intro d act next taken
    have visible : ∀ (label : Int × ReplicasAct) (after : Replicas), Replicas.step p d.replicas label = some after →
        ∃ label, (replicas p).step d.replicas label = some after := fun label _ moved => ⟨label, moved⟩
    cases database_step_cases p writeRate d next act taken with
    | start | finish | client | thread | recieve => exact .inl rfl
    | addWriteTx r c tx recieve sent replicas connection running pc step moved => exact .inr (visible _ _ moved)
    | sequencers act replicas kind moved => exact .inr (visible _ _ moved)
    | takeBatch r replicas moved | writeLoop r replicas moved | write r replicas moved | readLoop r replicas moved
    | takeRead r replicas moved => exact .inr (visible _ _ moved)
    | fetch r i batch tx replicas pc found moved => exact .inr (visible _ _ moved)
    | assign r i c batch replicas pc moved | raise r i c batch replicas pc moved => exact .inr (visible _ _ moved)
    | readOut r c replicas pc out moved => exact .inr (visible _ _ moved)
    | read r c value replicas pc found moved => exact .inr (visible _ _ moved)
    | raiseRead r c replicas pc moved => exact .inr (visible _ _ moved)

theorem database_replicas_reachable (p : Deployment) (writeRate : Nat) (d : Database)
    (reachable : (database p writeRate).Reachable d) : (replicas p).Reachable d.replicas :=
  Machine.projects_reachable _ _ _ (database_projects p writeRate) d reachable

end EpochReplication
