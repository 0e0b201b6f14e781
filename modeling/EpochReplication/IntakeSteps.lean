import EpochReplication.Intake

set_option autoImplicit false

namespace EpochReplication

inductive ClientStep (writeRate r c : Nat) (conn : Connection) : ClientTime.Act → Connection → Prop where
  | request (typeRand keyRand : Nat) (sendTx : Tx) (pc : conn.client.pc = .choosing)
      (chosen : sendTx = ClientTime.requestTx writeRate r c conn.client.txId typeRand keyRand) :
      ClientStep writeRate r c conn (.request typeRand keyRand)
        { conn with
          client := { conn.client with
            pc := .waiting
            sendTx := sendTx
            recvTx := initTx
            msg := (createRequestTxMsg sendTx conn.client.msg).1
            submitted :=
              if sendTx.type = .writeOnly then conn.client.submitted ++ [sendTx.wire] else conn.client.submitted }
          toServer := conn.toServer.add ((createRequestTxMsg sendTx conn.client.msg).1, requestTxMessageSize) }
  | receive (data msg : Buf) (len : Nat) (rest : Fifo (Buf × Nat)) (recvTx : Tx) (pc : conn.client.pc = .waiting)
      (took : conn.toClient.tryTake = some ((data, len), rest)) :
      ClientStep writeRate r c conn .receive
        { conn with
          client := { conn.client with
            pc := .choosing, txId := conn.client.txId + 1, recvTx := recvTx, msg := msg }
          toClient := rest }
  | finish (pc : conn.client.pc = .choosing) :
      ClientStep writeRate r c conn .finish
        { conn with
          client := { conn.client with
            pc := .returned
            sendTx := modifyFinishRequest
            msg := (createRequestTxMsg modifyFinishRequest conn.client.msg).1 }
          toServer := conn.toServer.add ((createRequestTxMsg modifyFinishRequest conn.client.msg).1, requestTxMessageSize) }

theorem client_step_of_some (writeRate r c : Nat) (conn next : Connection) (act : ClientTime.Act)
    (done : ClientTime.clientThread writeRate r c conn act = some next) : ClientStep writeRate r c conn act next := by
  unfold ClientTime.clientThread at done
  simp only at done
  split at done
  · rename_i typeRand keyRand pc
    cases done
    exact .request typeRand keyRand _ pc rfl
  · rename_i pc
    split at done
    · cases done
    · rename_i data len rest took
      cases done
      exact .receive data _ len rest _ pc took
  · rename_i pc
    cases done
    exact .finish pc
  · cases done

inductive ThreadStep (systemFinishRequest : Int) (net : List Packet) (r c : Nat) (conn : Connection) :
    ClientInterface.Act → Connection → List Packet → Prop where
  | enter (pc : conn.thread.pc = .loop) (flag : systemFinishRequest ≠ 1) :
      ThreadStep systemFinishRequest net r c conn .loop
        { conn with thread := { conn.thread with pc := .receiving } } []
  | leave (pc : conn.thread.pc = .loop) (flag : systemFinishRequest = 1) :
      ThreadStep systemFinishRequest net r c conn .loop
        { conn with thread := { conn.thread with pc := .returned } } []
  | receive (data recvMsg : Buf) (len : Nat) (rest : Fifo (Buf × Nat)) (tx : Tx) (pc : conn.thread.pc = .receiving)
      (took : conn.toServer.tryTake = some ((data, len), rest)) (filled : recvMsg = receiveMsg conn.thread.recvMsg data len)
      (request : checkMsg recvMsg .requestTxMessage = true) (decoded : tx = getInfoFromRequestTxMsg recvMsg initTx) :
      ThreadStep systemFinishRequest net r c conn .receive
        { conn with
          toServer := rest
          thread := { conn.thread with
            pc := ClientInterface.afterRequest tx.type, tx := tx, recvMsg := recvMsg, raised := [] } } []
  | ignore (data recvMsg : Buf) (len : Nat) (rest : Fifo (Buf × Nat)) (pc : conn.thread.pc = .receiving)
      (took : conn.toServer.tryTake = some ((data, len), rest)) (filled : recvMsg = receiveMsg conn.thread.recvMsg data len)
      (other : checkMsg recvMsg .requestTxMessage = false) :
      ThreadStep systemFinishRequest net r c conn .receive
        { conn with toServer := rest, thread := { conn.thread with pc := .loop, recvMsg := recvMsg } } []
  | requestRead (pc : conn.thread.pc = .reading) :
      ThreadStep systemFinishRequest net r c conn .requestRead
        { conn with thread := { conn.thread with pc := .completing } } []
  | requestWrite (sendMsg recvMsg : Buf) (pc : conn.thread.pc = .registering) :
      ThreadStep systemFinishRequest net r c conn (.requestWrite sendMsg recvMsg)
        { conn with
          thread := { conn.thread with
            pc := .sending
            addMsg := (createAddToBatchMsg conn.thread.tx sendMsg).1
            addMsgLen := addToBatchMessageSize
            ackMsg := recvMsg } } []
  | giveUp (pc : conn.thread.pc = .sending) (flag : systemFinishRequest = 1) :
      ThreadStep systemFinishRequest net r c conn .send
        { conn with thread := { conn.thread with pc := .completing } } []
  | send (pc : conn.thread.pc = .sending) (flag : systemFinishRequest ≠ 1) :
      ThreadStep systemFinishRequest net r c conn .send
        { conn with thread := { conn.thread with pc := .waitingAck } }
        [⟨.clientThread r c, .recieveTx conn.thread.tx.replicaId.toInt conn.thread.tx.clientId.toInt,
          conn.thread.addMsg, conn.thread.addMsgLen⟩]
  | check (pc : conn.thread.pc = .waitingAck) :
      ThreadStep systemFinishRequest net r c conn .check
        { conn with thread := { conn.thread with pc := .polling } } []
  | checkFinish (pc : conn.thread.pc = .waitingAck) (flag : systemFinishRequest ≠ 0) :
      ThreadStep systemFinishRequest net r c conn .check
        { conn with thread := { conn.thread with pc := .sending } } []
  | acknowledge (i : Nat) (overtime : Bool) (packet : Packet) (ackMsg : Buf) (pc : conn.thread.pc = .polling)
      (found : net[i]? = some packet) (dst : packet.dst = .clientThread r c)
      (filled : ackMsg = receiveMsg conn.thread.ackMsg packet.data packet.len)
      (ends : endsRetransmission conn.thread.tx ackMsg = true) :
      ThreadStep systemFinishRequest net r c conn (.poll i overtime)
        { conn with
          thread := { conn.thread with
            pc := .completing, ackMsg := ackMsg, acknowledged := conn.thread.acknowledged ++ [conn.thread.tx.wire] } } []
  | poll (i : Nat) (overtime : Bool) (ackMsg : Buf) (pc : conn.thread.pc = .polling) (packet : Packet)
      (found : net[i]? = some packet) (filled : ackMsg = receiveMsg conn.thread.ackMsg packet.data packet.len)
      (other : endsRetransmission conn.thread.tx ackMsg = false) :
      ThreadStep systemFinishRequest net r c conn (.poll i overtime)
        { conn with
          thread := { conn.thread with pc := ClientInterface.afterPoll overtime, ackMsg := ackMsg } } []
  | pollNothing (overtime : Bool) (pc : conn.thread.pc = .polling) :
      ThreadStep systemFinishRequest net r c conn (.pollNothing overtime)
        { conn with thread := { conn.thread with pc := ClientInterface.afterPoll overtime } } []
  | spin (pc : conn.thread.pc = .completing) : ThreadStep systemFinishRequest net r c conn .spin conn []
  | complete (pc : conn.thread.pc = .completing) (free : conn.thread.tx.completeFlag ≠ 0 ∨ systemFinishRequest ≠ 0) :
      ThreadStep systemFinishRequest net r c conn .spin
        { conn with thread := { conn.thread with pc := .responding } } []
  | abandon (pc : conn.thread.pc = .responding) (flag : systemFinishRequest = 1) :
      ThreadStep systemFinishRequest net r c conn .respond
        { conn with thread := { conn.thread with pc := .returned } } []
  | respond (pc : conn.thread.pc = .responding) (flag : systemFinishRequest ≠ 1) :
      ThreadStep systemFinishRequest net r c conn .respond
        { conn with
          toClient := conn.toClient.add
            ((createResponseTxMsg conn.thread.tx conn.thread.sendMsg).1, responseTxMessageSize)
          thread := { conn.thread with
            pc := .loop, sendMsg := (createResponseTxMsg conn.thread.tx conn.thread.sendMsg).1 } } []

theorem thread_step_of_some (systemFinishRequest : Int) (net sent : List Packet) (r c : Nat) (conn next : Connection)
    (act : ClientInterface.Act)
    (done : ClientInterface.clientThread systemFinishRequest net r c conn act = some (next, sent)) :
    ThreadStep systemFinishRequest net r c conn act next sent := by
  unfold ClientInterface.clientThread at done
  simp only at done
  split at done
  · rename_i pc
    split at done
    · rename_i flag
      cases done
      exact .enter pc flag
    · rename_i flag
      cases done
      exact .leave pc (not_not.mp flag)
  · rename_i pc
    split at done
    · cases done
    · rename_i data len rest took
      split at done
      · rename_i request
        cases done
        exact .receive data _ len rest _ pc took rfl request rfl
      · rename_i other
        cases done
        exact .ignore data _ len rest pc took rfl (Bool.eq_false_iff.mpr other)
  · rename_i pc
    cases done
    exact .requestRead pc
  · rename_i sendMsg recvMsg pc
    cases done
    exact .requestWrite sendMsg recvMsg pc
  · rename_i pc
    split at done
    · rename_i flag
      cases done
      exact .giveUp pc flag
    · rename_i flag
      cases done
      exact .send pc flag
  · rename_i pc
    split at done
    · cases done
      exact .check pc
    · rename_i flag
      cases done
      exact .checkFinish pc flag
  · rename_i i overtime pc
    split at done
    · cases done
    · rename_i packet found
      split at done
      · rename_i dst
        split at done
        · rename_i ends
          cases done
          exact .acknowledge i overtime packet _ pc found dst rfl ends
        · rename_i other
          cases done
          exact .poll i overtime _ pc packet found rfl (Bool.eq_false_iff.mpr other)
      · cases done
  · rename_i overtime pc
    cases done
    exact .pollNothing overtime pc
  · rename_i pc
    split at done
    · cases done
      exact .spin pc
    · rename_i busy
      cases done
      exact .complete pc (not_and_or.mp busy)
  · rename_i pc
    split at done
    · rename_i flag
      cases done
      exact .abandon pc flag
    · rename_i flag
      cases done
      exact .respond pc flag
  · cases done

inductive RecieveStep (systemFinishRequest : Int) (net : List Packet) (r c : Nat) (t : RecieveThread) :
    RecieveAct → RecieveThread → List Packet → Prop where
  | wait (pc : t.pc = .barrier) : RecieveStep systemFinishRequest net r c t .barrier t []
  | start (pc : t.pc = .barrier) (flag : systemFinishRequest = 0) :
      RecieveStep systemFinishRequest net r c t .barrier { t with pc := .loop } []
  | enter (pc : t.pc = .loop) (flag : systemFinishRequest = 0) :
      RecieveStep systemFinishRequest net r c t .loop { t with pc := .receiving } []
  | leave (pc : t.pc = .loop) (flag : systemFinishRequest ≠ 0) :
      RecieveStep systemFinishRequest net r c t .loop { t with pc := .returned } []
  | receive (i : Nat) (packet : Packet) (recvMsg : Buf) (tx : Tx) (pc : t.pc = .receiving)
      (found : net[i]? = some packet) (dst : packet.dst = .recieveTx r c)
      (filled : recvMsg = receiveMsg t.recvMsg packet.data packet.len)
      (add : checkMsg recvMsg .addToBatchMessage = true) (decoded : tx = getInfoFromAddToBatchMsg recvMsg createTx) :
      RecieveStep systemFinishRequest net r c t (.receive i)
        { t with pc := .acked tx, recvMsg := recvMsg, sendMsg := (answerAddToBatch tx t.sendMsg).1 }
        [⟨.recieveTx r c, packet.src, (answerAddToBatch tx t.sendMsg).1, ackAddMessageSize⟩]
  | ignore (i : Nat) (packet : Packet) (recvMsg : Buf) (pc : t.pc = .receiving) (found : net[i]? = some packet)
      (dst : packet.dst = .recieveTx r c) (filled : recvMsg = receiveMsg t.recvMsg packet.data packet.len)
      (other : checkMsg recvMsg .addToBatchMessage = false) :
      RecieveStep systemFinishRequest net r c t (.receive i) { t with pc := .loop, recvMsg := recvMsg } []
  | discard (tx : Tx) (pc : t.pc = .acked tx) (old : (tx.id.toNat : Int) ≤ t.recievedTxId) :
      RecieveStep systemFinishRequest net r c t .test { t with pc := .loop } []
  | accept (tx : Tx) (pc : t.pc = .acked tx) (fresh : t.recievedTxId < tx.id.toNat) (write : tx.type = .writeOnly) :
      RecieveStep systemFinishRequest net r c t .test { t with pc := .adding tx, recievedTxId := tx.id.toNat } []
  | quit (tx : Tx) (pc : t.pc = .acked tx) (fresh : t.recievedTxId < tx.id.toNat) (other : tx.type ≠ .writeOnly) :
      RecieveStep systemFinishRequest net r c t .test { t with pc := .returned, recievedTxId := tx.id.toNat } []
  | retry (tx : Tx) (batch : Batch) (pc : t.pc = .adding tx) (full : (sequencerAddWriteTxToBatch batch tx).2 = 0) :
      RecieveStep systemFinishRequest net r c t (.add batch) t []
  | add (tx : Tx) (batch : Batch) (pc : t.pc = .adding tx) (room : (sequencerAddWriteTxToBatch batch tx).2 ≠ 0) :
      RecieveStep systemFinishRequest net r c t (.add batch) { t with pc := .loop, added := t.added ++ [tx.wire] } []

theorem recieve_step_of_some (systemFinishRequest : Int) (net sent : List Packet) (r c : Nat) (t next : RecieveThread)
    (act : RecieveAct) (done : recieveTxConnection systemFinishRequest net r c t act = some (next, sent)) :
    RecieveStep systemFinishRequest net r c t act next sent := by
  unfold recieveTxConnection at done
  split at done
  · rename_i pc
    split at done
    · cases done
      exact .wait pc
    · rename_i flag
      cases done
      exact .start pc (not_not.mp flag)
  · rename_i pc
    split at done
    · rename_i flag
      cases done
      exact .enter pc flag
    · rename_i flag
      cases done
      exact .leave pc flag
  · rename_i i pc
    split at done
    · cases done
    · rename_i packet found
      split at done
      · rename_i dst
        simp only at done
        split at done
        · rename_i add
          cases done
          exact .receive i packet _ _ pc found dst rfl add rfl
        · rename_i other
          cases done
          exact .ignore i packet _ pc found dst rfl (Bool.eq_false_iff.mpr other)
      · cases done
  · rename_i tx pc
    split at done
    · rename_i old
      cases done
      exact .discard tx pc old
    · rename_i fresh
      simp only at done
      split at done
      · rename_i write
        cases done
        exact .accept tx pc (by omega) write
      · rename_i other
        cases done
        exact .quit tx pc (by omega) other
  · rename_i tx batch pc
    split at done
    · rename_i full
      cases done
      exact .retry tx batch pc full
    · rename_i room
      cases done
      exact .add tx batch pc room
  · cases done

end EpochReplication
