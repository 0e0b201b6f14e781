import EpochReplication.AckAdd
import EpochReplication.Replication
import EpochReplication.Storage
import Mathlib.Data.List.ProdSigma

set_option autoImplicit false

namespace EpochReplication

-- The UDP sockets between the client interfaces and the master: every
-- client_thread sends from one of its own, and every recieve_tx_connection
-- listens on the port of its replica and client.
inductive Socket where
  | clientThread (r c : Nat)
  | recieveTx (replicaId clientId : Int)
deriving DecidableEq, Repr

structure Packet where
  src : Socket
  dst : Socket
  data : Buf
  len : Nat

def Deployment.IsConnection (p : Deployment) (r c : Nat) : Prop := p.IsSlave r ∧ c < p.clientNum

instance (p : Deployment) (r c : Nat) : Decidable (p.IsConnection r c) := inferInstanceAs (Decidable (_ ∧ _))

def Deployment.slaves (p : Deployment) : List Nat := (List.range (p.replicaNum - 1)).map (· + 1)

def Deployment.connections (p : Deployment) : List (Nat × Nat) := p.slaves ×ˢ List.range p.clientNum

theorem mem_slaves (p : Deployment) (r : Nat) : r ∈ p.slaves ↔ p.IsSlave r := by
  simp only [Deployment.slaves, List.mem_map, List.mem_range]
  constructor
  · rintro ⟨i, inside, rfl⟩
    exact ⟨Nat.succ_pos i, by omega⟩
  · rintro ⟨positive, inside⟩
    exact ⟨r - 1, by omega, by omega⟩

theorem mem_connections (p : Deployment) (r c : Nat) : (r, c) ∈ p.connections ↔ p.IsConnection r c := by
  rw [Deployment.connections, List.mem_product, mem_slaves, List.mem_range]
  rfl

inductive ClientPc where
  | choosing
  | waiting
  | returned
deriving DecidableEq, Repr

-- `submitted` is history: the writes requested so far.
structure Client where
  pc : ClientPc
  txId : Int
  sendTx : Tx
  recvTx : Tx
  msg : Buf
  submitted : List WireTx

-- `reading` and `registering` come before the calls of request_read_tx and
-- request_write_tx. In the latter `sending` heads the outer while, `waitingAck`
-- the inner one, and `polling` is inside it.
inductive ClientThreadPc where
  | loop
  | receiving
  | reading
  | registering
  | sending
  | waitingAck
  | polling
  | completing
  | responding
  | returned
deriving DecidableEq, Repr

-- `acknowledged` and `raised` are history: the writes whose ACK ended a
-- retransmission, and where in which batch execute_batch was when it raised the
-- complete flag, since init_tx.
structure ClientThread where
  pc : ClientThreadPc
  tx : Tx
  recvMsg : Buf
  sendMsg : Buf
  addMsg : Buf
  addMsgLen : Nat
  ackMsg : Buf
  acknowledged : List WireTx
  raised : List (Nat × Nat)

-- `acked` comes after the ACK has been sent and before the test of the id.
inductive RecievePc where
  | barrier
  | loop
  | receiving
  | acked (tx : Tx)
  | adding (tx : Tx)
  | returned
deriving DecidableEq, Repr

-- `added` is history: the transactions sequencer_add_write_tx_to_batch took.
structure RecieveThread where
  pc : RecievePc
  recievedTxId : Int
  recvMsg : Buf
  sendMsg : Buf
  added : List WireTx

-- The threads that serve client `c` of replica `r`, and the TCP connection
-- between the first two, on which messages arrive whole and in order.
structure Connection where
  client : Client
  toServer : Fifo (Buf × Nat)
  toClient : Fifo (Buf × Nat)
  thread : ClientThread
  recieve : RecieveThread

structure Intake where
  flag : Nat → Int
  conn : Nat × Nat → Connection
  waitForExe : Nat → Int → Option Nat
  readTxBuffer : Nat → Fifo Nat
  net : List Packet

namespace ClientTime

-- The clients of both programs only ever write.
def writeRate : Nat := 100

-- rand_r is never negative.
def getRandom (min max : Int) (rand : Nat) : Int := min + rand % (max - min + 1)

def requestTx (writeRate replicaId clientId : Nat) (txId : Int) (typeRand keyRand : Nat) : Tx :=
  let sendTx := setClientInfoToTx initTx (Int16.ofNat replicaId) (Int16.ofNat clientId) (Int16.ofInt txId)
  let type := getRandom 0 99 typeRand
  let key := getRandom 0 (storageSize - 1) keyRand
  if type < writeRate then modifyToWriteTx sendTx (Int16.ofInt key) (-1) else modifyToReadTx sendTx (Int16.ofInt key)

inductive Act where
  | request (typeRand keyRand : Nat)
  | receive
  | finish

-- client_time.c leaves its loop when the time is up, client_txnum.c after a
-- number of transactions; what follows is the same.
def clientThread (writeRate r c : Nat) (conn : Connection) (act : Act) : Option Connection :=
  let client := conn.client
  match client.pc, act with
  | .choosing, .request typeRand keyRand =>
      let sendTx := requestTx writeRate r c client.txId typeRand keyRand
      let (msg, len) := createRequestTxMsg sendTx client.msg
      some { conn with
        client := { client with
          pc := .waiting
          sendTx := sendTx
          recvTx := initTx
          msg := msg
          submitted := if sendTx.type = .writeOnly then client.submitted ++ [sendTx.wire] else client.submitted }
        toServer := conn.toServer.add (msg, len) }
  | .waiting, .receive =>
      match conn.toClient.tryTake with
      | none => none
      | some ((data, len), rest) =>
          let msg := receiveMsg client.msg data len
          some { conn with
            client := { client with
              pc := .choosing
              txId := client.txId + 1
              recvTx := getInfoFromResponseTxMsg msg client.recvTx
              msg := msg }
            toClient := rest }
  | .choosing, .finish =>
      let (msg, len) := createRequestTxMsg modifyFinishRequest client.msg
      some { conn with
        client := { client with pc := .returned, sendTx := modifyFinishRequest, msg := msg }
        toServer := conn.toServer.add (msg, len) }
  | _, _ => none

end ClientTime

namespace ClientInterface

-- The buffers of request_write_tx are on the stack and start with anything.
inductive Act where
  | loop
  | receive
  | requestRead
  | requestWrite (sendMsg recvMsg : Buf)
  | send
  | check
  | poll (i : Nat) (overtime : Bool)
  | pollNothing (overtime : Bool)
  | spin
  | respond

def afterPoll (overtime : Bool) : ClientThreadPc := if overtime then .sending else .waitingAck

-- Where a decoded request goes. The types without a branch of their own end up
-- waiting for a complete flag that nobody raises.
def afterRequest : TransactionType → ClientThreadPc
  | .writeOnly => .registering
  | .readOnly => .reading
  | .finishRequest => .returned
  | .error | .other _ => .completing

def clientThread (systemFinishRequest : Int) (net : List Packet) (r c : Nat) (conn : Connection) (act : Act) :
    Option (Connection × List Packet) :=
  let t := conn.thread
  match t.pc, act with
  | .loop, .loop =>
      if systemFinishRequest ≠ 1 then some ({ conn with thread := { t with pc := .receiving } }, [])
      else some ({ conn with thread := { t with pc := .returned } }, [])
  | .receiving, .receive =>
      match conn.toServer.tryTake with
      | none => none
      | some ((data, len), rest) =>
          let recvMsg := receiveMsg t.recvMsg data len
          if checkMsg recvMsg .requestTxMessage then
            let tx := getInfoFromRequestTxMsg recvMsg initTx
            some ({ conn with
              toServer := rest
              thread := { t with pc := afterRequest tx.type, tx := tx, recvMsg := recvMsg, raised := [] } }, [])
          else some ({ conn with toServer := rest, thread := { t with pc := .loop, recvMsg := recvMsg } }, [])
  | .reading, .requestRead => some ({ conn with thread := { t with pc := .completing } }, [])
  | .registering, .requestWrite sendMsg recvMsg =>
      let (addMsg, addMsgLen) := createAddToBatchMsg t.tx sendMsg
      some ({ conn with
        thread := { t with pc := .sending, addMsg := addMsg, addMsgLen := addMsgLen, ackMsg := recvMsg } }, [])
  | .sending, .send =>
      if systemFinishRequest = 1 then some ({ conn with thread := { t with pc := .completing } }, [])
      else some ({ conn with thread := { t with pc := .waitingAck } },
        [⟨.clientThread r c, .recieveTx t.tx.replicaId.toInt t.tx.clientId.toInt, t.addMsg, t.addMsgLen⟩])
  | .waitingAck, .check =>
      if systemFinishRequest = 0 then some ({ conn with thread := { t with pc := .polling } }, [])
      else some ({ conn with thread := { t with pc := .sending } }, [])
  | .polling, .poll i overtime =>
      match net[i]? with
      | none => none
      | some packet =>
          if packet.dst = .clientThread r c then
            let ackMsg := receiveMsg t.ackMsg packet.data packet.len
            if endsRetransmission t.tx ackMsg then
              some ({ conn with
                thread := { t with
                  pc := .completing, ackMsg := ackMsg, acknowledged := t.acknowledged ++ [t.tx.wire] } }, [])
            else some ({ conn with thread := { t with pc := afterPoll overtime, ackMsg := ackMsg } }, [])
          else none
  | .polling, .pollNothing overtime => some ({ conn with thread := { t with pc := afterPoll overtime } }, [])
  | .completing, .spin =>
      if t.tx.completeFlag = 0 ∧ systemFinishRequest = 0 then some (conn, [])
      else some ({ conn with thread := { t with pc := .responding } }, [])
  | .responding, .respond =>
      if systemFinishRequest = 1 then some ({ conn with thread := { t with pc := .returned } }, [])
      else
        let (sendMsg, sendMsgLen) := createResponseTxMsg t.tx t.sendMsg
        some ({ conn with
          toClient := conn.toClient.add (sendMsg, sendMsgLen)
          thread := { t with pc := .loop, sendMsg := sendMsg } }, [])
  | _, _ => none

end ClientInterface

inductive RecieveAct where
  | barrier
  | loop
  | receive (i : Nat)
  | test
  | add (batch : Batch)

-- `add` is one call of sequencer_add_write_tx_to_batch; the batch is the one it
-- finds under the mutex.
def recieveTxConnection (systemFinishRequest : Int) (net : List Packet) (r c : Nat) (t : RecieveThread)
    (act : RecieveAct) : Option (RecieveThread × List Packet) :=
  match t.pc, act with
  | .barrier, .barrier =>
      if systemFinishRequest ≠ 0 then some (t, []) else some ({ t with pc := .loop }, [])
  | .loop, .loop =>
      if systemFinishRequest = 0 then some ({ t with pc := .receiving }, []) else some ({ t with pc := .returned }, [])
  | .receiving, .receive i =>
      match net[i]? with
      | none => none
      | some packet =>
          if packet.dst = .recieveTx r c then
            let recvMsg := receiveMsg t.recvMsg packet.data packet.len
            if checkMsg recvMsg .addToBatchMessage then
              let tx := getInfoFromAddToBatchMsg recvMsg createTx
              let (sendMsg, sendMsgLen) := answerAddToBatch tx t.sendMsg
              some ({ t with pc := .acked tx, recvMsg := recvMsg, sendMsg := sendMsg },
                [⟨.recieveTx r c, packet.src, sendMsg, sendMsgLen⟩])
            else some ({ t with pc := .loop, recvMsg := recvMsg }, [])
          else none
  | .acked tx, .test =>
      if (tx.id.toNat : Int) ≤ t.recievedTxId then some ({ t with pc := .loop }, [])
      else
        let t := { t with recievedTxId := tx.id.toNat }
        match tx.type with
        | .writeOnly => some ({ t with pc := .adding tx }, [])
        | _ => some ({ t with pc := .returned }, [])
  | .adding tx, .add batch =>
      if (sequencerAddWriteTxToBatch batch tx).2 = 0 then some (t, [])
      else some ({ t with pc := .loop, added := t.added ++ [tx.wire] }, [])
  | _, _ => none

-- What the schedulers of a replica do to the transaction a client_thread waits
-- for. `position` is where execute_batch is, for the write scheduler.
inductive TxAct where
  | assign (epochId : Int16)
  | value (value : Int)
  | raise (position : Option (Nat × Nat))

def waitForTx (t : ClientThread) : TxAct → ClientThread
  | .assign epochId => { t with tx := setAssignedEpochIdToTx t.tx epochId }
  | .value value => { t with tx := { t.tx with value := Int16.ofInt value } }
  | .raise position => { t with tx := raiseTxCompleteFlag t.tx, raised := t.raised ++ position.toList }

namespace Intake

def initial (p : Deployment) : Intake where
  flag := fun r => if r = 0 then -1 else 0
  conn := fun _ =>
    { client := ⟨.choosing, 0, createTx, createTx, p.uninitialised, []⟩
      toServer := .empty
      toClient := .empty
      thread := ⟨.loop, createTx, p.uninitialised, p.uninitialised, p.uninitialised, 0, p.uninitialised, [], []⟩
      recieve := ⟨.barrier, -1, p.uninitialised, p.uninitialised, []⟩ }
  waitForExe := fun _ _ => none
  readTxBuffer := fun _ => .empty
  net := []

-- A start datagram is only looked at before the finish datagram.
def start (s : Intake) : Option Intake :=
  if s.flag 0 = 1 then none else some { s with flag := Function.update s.flag 0 0 }

def finish (s : Intake) (r : Nat) : Intake := { s with flag := Function.update s.flag r 1 }

def clientStep (writeRate : Nat) (s : Intake) (r c : Nat) (act : ClientTime.Act) : Option Intake :=
  (ClientTime.clientThread writeRate r c (s.conn (r, c)) act).map
    (fun conn => { s with conn := Function.update s.conn (r, c) conn })

def registered (s : Intake) (r c : Nat) : ClientInterface.Act → Nat → Int → Option Nat
  | .requestWrite _ _ =>
      Function.update s.waitForExe r
        (Function.update (s.waitForExe r) (s.conn (r, c)).thread.tx.clientId.toInt (some c))
  | _ => s.waitForExe

def requestedReads (s : Intake) (r c : Nat) : ClientInterface.Act → Nat → Fifo Nat
  | .requestRead => Function.update s.readTxBuffer r ((s.readTxBuffer r).add c)
  | _ => s.readTxBuffer

def threadStep (s : Intake) (r c : Nat) (act : ClientInterface.Act) : Option Intake :=
  (ClientInterface.clientThread (s.flag r) s.net r c (s.conn (r, c)) act).map (fun (conn, sent) =>
    { flag := s.flag
      conn := Function.update s.conn (r, c) conn
      waitForExe := s.registered r c act
      readTxBuffer := s.requestedReads r c act
      net := s.net ++ sent })

def recieveStep (s : Intake) (r c : Nat) (act : RecieveAct) : Option Intake :=
  (recieveTxConnection (s.flag 0) s.net r c (s.conn (r, c)).recieve act).map (fun (recieve, sent) =>
    { s with
      conn := Function.update s.conn (r, c) { s.conn (r, c) with recieve := recieve }
      net := s.net ++ sent })

def touchTx (s : Intake) (r c : Nat) (act : TxAct) : Intake :=
  { s with
    conn := Function.update s.conn (r, c) { s.conn (r, c) with thread := waitForTx (s.conn (r, c)).thread act } }

-- try_delete_node_tx_list; an entry is the connection whose transaction it points to.
def takeRead (s : Intake) (r : Nat) : Option Nat × Intake :=
  match (s.readTxBuffer r).tryTake with
  | none => (none, s)
  | some (c, rest) => (some c, { s with readTxBuffer := Function.update s.readTxBuffer r rest })

end Intake

end EpochReplication
