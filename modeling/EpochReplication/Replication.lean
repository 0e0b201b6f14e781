import EpochReplication.Lib.Fifo
import EpochReplication.Lib.Machine
import EpochReplication.Message
import EpochReplication.Log
import Mathlib.Logic.Function.Basic

set_option autoImplicit false

namespace EpochReplication

inductive ExpT where
  | proposedMethod
  | conventionalMethod
  | tcpMethod
deriving DecidableEq, Repr

-- Replica 0 is the master. Replica ids and client ids travel as shorts.
-- `uninitialised` is what the local message buffers of the threads start with.
structure Deployment where
  exp : ExpT
  replicaNum : Nat
  clientNum : Nat
  region : Nat → Int
  uninitialised : Buf
  replicasFit : replicaNum ≤ 32768
  clientsFit : clientNum ≤ 32768

def Deployment.IsSlave (p : Deployment) (r : Nat) : Prop := 1 ≤ r ∧ r < p.replicaNum

instance (p : Deployment) (r : Nat) : Decidable (p.IsSlave r) := inferInstanceAs (Decidable (_ ∧ _))

def replicaNum : Nat := 7
def clientNum : Nat := 10

-- get_region gives every slave of configuration.h the region 0.
def configuration (exp : ExpT) : Deployment where
  exp := exp
  replicaNum := replicaNum
  clientNum := clientNum
  region := fun _ => 0
  uninitialised := fun _ => 0
  replicasFit := by decide
  clientsFit := by decide

inductive Endpoint where
  | masterSequencerFromSlaveSequencer (replicaId : Int)
  | slaveSequencer (replicaId : Int)
deriving DecidableEq, Repr

structure Datagram where
  dst : Endpoint
  data : Buf
  len : Nat

-- recvfrom into a buffer that keeps its old bytes past the datagram.
def udpSvReceiveMsg (msg : Buf) (msgSize : Nat) (datagram : Datagram) : Buf × Nat :=
  (memcpy msg 0 datagram.data (min datagram.len msgSize), min datagram.len msgSize)

def sequencerAddWriteTxToBatch (batch : Batch) (tx : Tx) : Batch × Int :=
  if batch.txSet.length < maxBatchSize then batchAddTx batch tx else (batch, 0)

theorem add_returns (batch : Batch) (tx : Tx) :
    (sequencerAddWriteTxToBatch batch tx = (batch, 0) ∧ batch.txSet.length = maxBatchSize) ∨
      (sequencerAddWriteTxToBatch batch tx).2 = 1 ∧
        (sequencerAddWriteTxToBatch batch tx).1.txSet = batch.txSet ++ [tx] ∧
        (sequencerAddWriteTxToBatch batch tx).1.epochId = batch.epochId := by
  unfold sequencerAddWriteTxToBatch
  by_cases room : batch.txSet.length < maxBatchSize
  · rw [if_pos room]
    obtain ⟨added, ret⟩ := batch_add_room batch tx room
    exact .inr ⟨ret, added, batch_add_epoch batch tx⟩
  · rw [if_neg room]
    have fits := batch.fits
    exact .inl ⟨rfl, by omega⟩

-- Where the epoch loop of master_sequencer_startup stands. `loop` is the head of
-- the while, `logging` comes after the swap under the mutex, `counting` after
-- append_log has returned and `enqueueing` after determined_epoch_id++.
inductive EpochPc where
  | barrier
  | loop
  | checking (currentEpochId : Int)
  | filling (currentEpochId : Int)
  | logging (currentEpochId : Int) (revBatch : Batch)
  | counting (currentEpochId : Int) (revBatch : Batch)
  | enqueueing (currentEpochId : Int) (revBatch : Batch)
  | returned

-- `confirmed` is history: the batches for which determined_epoch_id was advanced.
structure Master where
  epochPc : EpochPc
  batch : Batch
  determinedEpochId : Int
  batchLog : Option File
  batchMsg : Buf
  writeTxBuffer : Fifo Batch
  confirmed : List Batch
  exited : Bool

inductive EpochAct where
  | barrier
  | loop
  | check
  | swap
  | log (io : LogIo)
  | count
  | enqueue

def masterSequencerStartup (systemFinishRequest : Int) (m : Master) (act : EpochAct) : Outcome Master :=
  match m.epochPc, act with
  | .barrier, .barrier =>
      if systemFinishRequest ≠ 0 then .returned m else .returned { m with epochPc := .loop }
  | .loop, .loop =>
      if systemFinishRequest = 0 then .returned { m with epochPc := .checking (m.determinedEpochId + 1) }
      else .returned { m with epochPc := .returned }
  | .checking cur, .check =>
      if systemFinishRequest = 1 then .returned { m with epochPc := .returned }
      else .returned { m with epochPc := .filling cur }
  | .filling cur, .swap =>
      .returned { m with epochPc := .logging cur m.batch, batch := batchCreate (Int16.ofInt (cur + 1)) }
  | .logging cur rev, .log io =>
      let (batchMsg, len) := createBatchMsg rev m.batchMsg
      match appendLog m.batchLog batchMsg len rev.epochId.toInt io with
      | .returned file => .returned { m with epochPc := .counting cur rev, batchLog := some file, batchMsg := batchMsg }
      | .exited => .exited
      | .blocked => .blocked
  | .counting cur rev, .count =>
      .returned { m with
        epochPc := .enqueueing cur rev
        determinedEpochId := m.determinedEpochId + 1
        confirmed := m.confirmed ++ [rev] }
  | .enqueueing _ rev, .enqueue =>
      .returned { m with epochPc := .loop, writeTxBuffer := m.writeTxBuffer.add rev }
  | _, _ => .blocked

-- `reading` is about to call read_log, `sending` heads the while (flag == 0)
-- loop, `waiting` is the loop that polls for an ACK.
inductive SendPc where
  | barrier
  | loop
  | reading
  | sending
  | waiting
  | returned
deriving DecidableEq, Repr

structure SendThread where
  pc : SendPc
  nextEpochId : Int
  sendEpochId : Int
  sendMsg : Buf
  sendMsgLen : Int
  recvMsg : Buf

inductive SendAct where
  | barrier
  | loop
  | read (io : LogIo)
  | send
  | receive (i : Nat)
  | timeout

-- One pass of the polling loop over a datagram: the two methods' send threads
-- differ only in the test an ACK has to pass.
def receiveAck (accepts : Int → Int → Bool) (t : SendThread) (datagram : Datagram) : SendThread :=
  let (recvMsg, _) := udpSvReceiveMsg t.recvMsg batchLogSize datagram
  let t := { t with recvMsg := recvMsg }
  if checkMsg recvMsg .ackBatchMessage then
    let (_, getMsgBatchEpochId) := getInfoFromAckBatchMsg recvMsg
    if accepts getMsgBatchEpochId t.sendEpochId then { t with pc := .loop, nextEpochId := getMsgBatchEpochId + 1 }
    else t
  else t

def sendBatchConnection (accepts : Int → Int → Bool) (systemFinishRequest : Int) (m : Master) (net : List Datagram)
    (r : Nat) (t : SendThread) (act : SendAct) : Outcome (SendThread × List Datagram) :=
  match t.pc, act with
  | .barrier, .barrier =>
      if systemFinishRequest ≠ 0 then .returned (t, []) else .returned ({ t with pc := .loop }, [])
  | .loop, .loop =>
      if systemFinishRequest = 0 then
        if m.determinedEpochId ≥ t.nextEpochId then
          .returned ({ t with pc := .reading, sendEpochId := t.nextEpochId }, [])
        else .returned (t, [])
      else .returned ({ t with pc := .returned }, [])
  | .reading, .read io =>
      match readLog m.batchLog t.sendMsg t.sendEpochId io with
      | .returned (sendMsg, len) => .returned ({ t with pc := .sending, sendMsg := sendMsg, sendMsgLen := len }, [])
      | .exited => .exited
      | .blocked => .blocked
  | .sending, .send =>
      if systemFinishRequest = 1 then .returned ({ t with pc := .loop }, [])
      else .returned ({ t with pc := .waiting }, [⟨.slaveSequencer r, t.sendMsg, t.sendMsgLen.toNat⟩])
  | .waiting, .receive i =>
      match net[i]? with
      | none => .blocked
      | some datagram =>
          if datagram.dst = .masterSequencerFromSlaveSequencer r then .returned (receiveAck accepts t datagram, [])
          else .blocked
  | .waiting, .timeout => .returned ({ t with pc := .sending }, [])
  | _, _ => .blocked

def proposedMethodSendBatchConnection :=
  sendBatchConnection (fun getMsgBatchEpochId sendEpochId => getMsgBatchEpochId ≥ sendEpochId)

def conventionalMethodSendBatchConnection :=
  sendBatchConnection (fun getMsgBatchEpochId sendEpochId => getMsgBatchEpochId == sendEpochId)

inductive SlavePc where
  | loop
  | receiving
  | returned
  | aborted
  | exited
deriving DecidableEq, Repr

structure Slave where
  pc : SlavePc
  nextBatchEpochId : Int
  batchLog : Option File
  writeTxBuffer : Fifo Batch
  recvMsg : Buf
  sendMsg : Buf

-- The branch get_msg_batch_epoch_id == next_batch_epoch_id up to the enqueue.
def acceptBatch (slave : Slave) (recvMsgLen getMsgBatchEpochId : Int) (io : LogIo) : Outcome Slave :=
  match appendLog slave.batchLog slave.recvMsg recvMsgLen getMsgBatchEpochId io with
  | .exited => .exited
  | .blocked => .blocked
  | .returned file =>
      let batch := getInfoFromBatchMsg slave.recvMsg (batchCreate (Int16.ofInt getMsgBatchEpochId))
      .returned { slave with
        nextBatchEpochId := slave.nextBatchEpochId + 1
        batchLog := some file
        writeTxBuffer := slave.writeTxBuffer.add batch }

def sendAck (myReplicaId : Nat) (peers : List Nat) (slave : Slave) (getMsgBatchEpochId : Int) : Slave × List Datagram :=
  let (sendMsg, sendMsgLen) := createAckBatchMsg myReplicaId getMsgBatchEpochId slave.sendMsg
  ({ slave with sendMsg := sendMsg },
    ⟨.masterSequencerFromSlaveSequencer myReplicaId, sendMsg, sendMsgLen⟩ ::
      peers.map (fun id : Nat => ⟨.slaveSequencer id, sendMsg, sendMsgLen⟩))

-- The BATCH branch of both methods; they differ in who else gets the ACK of a
-- batch that was accepted.
def receiveBatch (myReplicaId : Nat) (peers : List Nat) (slave : Slave) (recvMsgLen : Int) (io : LogIo) :
    Outcome (Slave × List Datagram) :=
  let getMsgBatchEpochId := getEpochIdFromBatchMeg slave.recvMsg
  if getMsgBatchEpochId = slave.nextBatchEpochId then
    match acceptBatch slave recvMsgLen getMsgBatchEpochId io with
    | .exited => .exited
    | .blocked => .blocked
    | .returned slave => .returned (sendAck myReplicaId peers slave getMsgBatchEpochId)
  else if getMsgBatchEpochId < slave.nextBatchEpochId then
    .returned (sendAck myReplicaId [] slave getMsgBatchEpochId)
  else .returned ({ slave with pc := .aborted }, [])

def Deployment.regionPeers (p : Deployment) (myReplicaId : Nat) : List Nat :=
  (List.range p.replicaNum).filter
    (fun id => decide (1 ≤ id ∧ id ≠ myReplicaId ∧ p.region id = p.region myReplicaId))

-- One pass of the while loop, from the datagram recvfrom has put into recv_msg.
-- The counter is local to the thread and the log file is used by no other, so
-- that the steps of a pass cannot be told apart from outside.
def proposedMethodRecieveBatchConnection (p : Deployment) (myReplicaId : Nat) (slave : Slave) (recvMsgLen : Int)
    (io : LogIo) : Outcome (Slave × List Datagram) :=
  if checkMsg slave.recvMsg .batchMessage then
    receiveBatch myReplicaId (p.regionPeers myReplicaId) slave recvMsgLen io
  else if checkMsg slave.recvMsg .ackBatchMessage then
    let (getMsgReplicaId, getMsgBatchEpochId) := getInfoFromAckBatchMsg slave.recvMsg
    if getMsgBatchEpochId ≥ slave.nextBatchEpochId then
      let (sendMsg, sendMsgLen) := createRequestBatchMsg myReplicaId slave.nextBatchEpochId slave.sendMsg
      .returned ({ slave with sendMsg := sendMsg }, [⟨.slaveSequencer getMsgReplicaId, sendMsg, sendMsgLen⟩])
    else .returned (slave, [])
  else if checkMsg slave.recvMsg .requestBatchMessage then
    let (getMsgReplicaId, getMsgBatchEpochId) := getInfoFromRequestBatchMessage slave.recvMsg
    match readLog slave.batchLog slave.sendMsg getMsgBatchEpochId io with
    | .exited => .exited
    | .blocked => .blocked
    | .returned (sendMsg, sendMsgLen) =>
        .returned ({ slave with sendMsg := sendMsg },
          [⟨.slaveSequencer getMsgReplicaId, sendMsg, sendMsgLen.toNat⟩])
  else .returned (slave, [])

def conventionalMethodRecieveBatchConnection (myReplicaId : Nat) (slave : Slave) (recvMsgLen : Int) (io : LogIo) :
    Outcome (Slave × List Datagram) :=
  if checkMsg slave.recvMsg .batchMessage then receiveBatch myReplicaId [] slave recvMsgLen io
  else .returned (slave, [])

theorem proposed_recieve_cases (p : Deployment) (r : Nat) (slave next : Slave) (recvMsgLen : Int) (io : LogIo)
    (sent : List Datagram)
    (done : proposedMethodRecieveBatchConnection p r slave recvMsgLen io = .returned (next, sent)) :
    (checkMsg slave.recvMsg .batchMessage = true ∧
        receiveBatch r (p.regionPeers r) slave recvMsgLen io = .returned (next, sent)) ∨
      ∃ sendMsg, next = { slave with sendMsg := sendMsg } := by
  unfold proposedMethodRecieveBatchConnection at done
  split at done
  · rename_i batch
    exact .inl ⟨batch, done⟩
  · right
    split at done
    · simp only at done
      split at done <;> cases done <;> exact ⟨_, rfl⟩
    · split at done
      · simp only at done
        split at done
        · cases done
        · cases done
        · cases done
          exact ⟨_, rfl⟩
      · cases done
        exact ⟨_, rfl⟩

theorem conventional_recieve_cases (r : Nat) (slave next : Slave) (recvMsgLen : Int) (io : LogIo) (sent : List Datagram)
    (done : conventionalMethodRecieveBatchConnection r slave recvMsgLen io = .returned (next, sent)) :
    (checkMsg slave.recvMsg .batchMessage = true ∧
        receiveBatch r [] slave recvMsgLen io = .returned (next, sent)) ∨ next = slave := by
  unfold conventionalMethodRecieveBatchConnection at done
  split at done
  · rename_i batch
    exact .inl ⟨batch, done⟩
  · cases done
    exact .inr rfl

inductive SlaveAct where
  | loop
  | receive (i : Nat) (io : LogIo)

def slaveSequencer (p : Deployment) (systemFinishRequest : Int) (net : List Datagram) (r : Nat) (slave : Slave)
    (act : SlaveAct) : Outcome (Slave × List Datagram) :=
  match slave.pc, act with
  | .loop, .loop =>
      if systemFinishRequest = 0 then .returned ({ slave with pc := .receiving }, [])
      else .returned ({ slave with pc := .returned }, [])
  | .receiving, .receive i io =>
      match net[i]? with
      | none => .blocked
      | some datagram =>
          if datagram.dst = .slaveSequencer r then
            let (recvMsg, recvMsgLen) := udpSvReceiveMsg slave.recvMsg batchLogSize datagram
            let slave := { slave with pc := .loop, recvMsg := recvMsg }
            match p.exp with
            | .proposedMethod => proposedMethodRecieveBatchConnection p r slave recvMsgLen io
            | .conventionalMethod => conventionalMethodRecieveBatchConnection r slave recvMsgLen io
            | .tcpMethod => .blocked
          else .blocked
  | _, _ => .blocked

-- The master's sequencer with its send threads, the sequencers of the slaves,
-- and every datagram ever sent between them. A datagram stays in `net` when it
-- is received: it may be lost, duplicated, delayed and overtaken at will.
structure Sequencers where
  master : Master
  send : Nat → SendThread
  slave : Nat → Slave
  net : List Datagram

inductive SequencersAct where
  | epoch (act : EpochAct)
  | addWriteTx (tx : Tx)
  | send (r : Nat) (act : SendAct)
  | slave (r : Nat) (act : SlaveAct)
  | takeBatch (r : Nat)

def SequencersAct.delivered : SequencersAct → Option Nat
  | .send _ (.receive i) | .slave _ (.receive i _) => some i
  | _ => none

def sendThread (p : Deployment) :
    Int → Master → List Datagram → Nat → SendThread → SendAct → Outcome (SendThread × List Datagram) :=
  match p.exp with
  | .proposedMethod => proposedMethodSendBatchConnection
  | .conventionalMethod => conventionalMethodSendBatchConnection
  | .tcpMethod => fun _ _ _ _ _ _ => .blocked

namespace Sequencers

def initial (p : Deployment) : Sequencers where
  master :=
    { epochPc := .barrier, batch := batchCreate 0, determinedEpochId := -1, batchLog := none,
      batchMsg := p.uninitialised, writeTxBuffer := .empty, confirmed := [], exited := false }
  send := fun _ => ⟨.barrier, 0, 0, p.uninitialised, 0, p.uninitialised⟩
  slave := fun _ => ⟨.loop, 0, none, .empty, p.uninitialised, p.uninitialised⟩
  net := []

-- A step of one thread, with the value of system_finish_request it reads on
-- its node. The batch list of a node is emptied by that node's scheduler.
def step (p : Deployment) (s : Sequencers) : Int × SequencersAct → Option Sequencers
  | (systemFinishRequest, .epoch act) =>
      if s.master.exited then none
      else match masterSequencerStartup systemFinishRequest s.master act with
        | .returned master => some { s with master := master }
        | .exited => some { s with master := { s.master with exited := true } }
        | .blocked => none
  | (_, .addWriteTx tx) =>
      if s.master.exited then none
      else some { s with master := { s.master with batch := (sequencerAddWriteTxToBatch s.master.batch tx).1 } }
  | (systemFinishRequest, .send r act) =>
      if s.master.exited ∨ ¬ p.IsSlave r then none
      else match sendThread p systemFinishRequest s.master s.net r (s.send r) act with
        | .returned (thread, sent) => some { s with send := Function.update s.send r thread, net := s.net ++ sent }
        | .exited => some { s with master := { s.master with exited := true } }
        | .blocked => none
  | (systemFinishRequest, .slave r act) =>
      if ¬ p.IsSlave r then none
      else match slaveSequencer p systemFinishRequest s.net r (s.slave r) act with
        | .returned (slave, sent) => some { s with slave := Function.update s.slave r slave, net := s.net ++ sent }
        | .exited => some { s with slave := Function.update s.slave r { s.slave r with pc := .exited } }
        | .blocked => none
  | (_, .takeBatch r) =>
      if r = 0 then
        if s.master.exited then none
        else s.master.writeTxBuffer.tryTake.map
          (fun taken => { s with master := { s.master with writeTxBuffer := taken.2 } })
      else if ¬ p.IsSlave r ∨ (s.slave r).pc = .aborted ∨ (s.slave r).pc = .exited then none
      else (s.slave r).writeTxBuffer.tryTake.map
        (fun taken => { s with slave := Function.update s.slave r { s.slave r with writeTxBuffer := taken.2 } })

end Sequencers

def sequencers (p : Deployment) : Machine Sequencers (Int × SequencersAct) := ⟨.initial p, Sequencers.step p⟩

end EpochReplication
