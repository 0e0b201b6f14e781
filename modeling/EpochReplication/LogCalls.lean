import EpochReplication.Replicated

set_option autoImplicit false

namespace EpochReplication

inductive LogCall where
  | append (node : Nat) (msg : Buf) (len epochId : Int)
  | read (node : Nat) (epochId : Int)

namespace Sequencers

def log (s : Sequencers) (node : Nat) : Option File :=
  if node = 0 then s.master.batchLog else (s.slave node).batchLog

-- Slave `r` is in recvfrom and datagram `i` is one it can be given: what it then
-- has in recv_msg, and the length.
def received (p : Deployment) (s : Sequencers) (r i : Nat) : Option (Buf × Nat) :=
  match s.net[i]? with
  | none => none
  | some datagram =>
      if p.IsSlave r ∧ (s.slave r).pc = .receiving ∧ datagram.dst = .slaveSequencer r then
        some (udpSvReceiveMsg (s.slave r).recvMsg batchLogSize datagram)
      else none

def slaveAccepts (p : Deployment) (s : Sequencers) : Int × SequencersAct → Bool
  | (_, .slave r (.receive i _)) =>
      match s.received p r i with
      | none => false
      | some (recvMsg, _) =>
          checkMsg recvMsg .batchMessage && getEpochIdFromBatchMeg recvMsg == (s.slave r).nextBatchEpochId
  | _ => false

def logCall (p : Deployment) (s : Sequencers) : Int × SequencersAct → Option LogCall
  | (_, .epoch (.log _)) =>
      match s.master.epochPc with
      | .logging _ rev =>
          some (.append 0 (createBatchMsg rev s.master.batchMsg).1 (createBatchMsg rev s.master.batchMsg).2
            rev.epochId.toInt)
      | _ => none
  | (_, .send r (.read _)) =>
      if p.IsSlave r ∧ (s.send r).pc = .reading then some (.read 0 (s.send r).sendEpochId) else none
  | (_, .slave r (.receive i _)) =>
      match s.received p r i with
      | none => none
      | some (recvMsg, recvMsgLen) =>
          if checkMsg recvMsg .batchMessage then
            if getEpochIdFromBatchMeg recvMsg = (s.slave r).nextBatchEpochId then
              some (.append r recvMsg recvMsgLen (getEpochIdFromBatchMeg recvMsg))
            else none
          else if p.exp = .proposedMethod ∧ checkMsg recvMsg .ackBatchMessage = false ∧
              checkMsg recvMsg .requestBatchMessage = true then
            some (.read r (getInfoFromRequestBatchMessage recvMsg).2)
          else none
  | _ => none

end Sequencers

def LogCall.readOf : LogCall → Option (Nat × Int)
  | .append _ _ _ _ => none
  | .read node epochId => some (node, epochId)

inductive CallOf (p : Deployment) (s : Sequencers) : Int × SequencersAct → LogCall → Prop where
  | masterAppend (flag cur : Int) (io : LogIo) (rev : Batch) (pc : s.master.epochPc = .logging cur rev) :
      CallOf p s (flag, .epoch (.log io))
        (.append 0 (createBatchMsg rev s.master.batchMsg).1 (createBatchMsg rev s.master.batchMsg).2 rev.epochId.toInt)
  | sendRead (flag : Int) (r : Nat) (io : LogIo) (replica : p.IsSlave r) (pc : (s.send r).pc = .reading) :
      CallOf p s (flag, .send r (.read io)) (.read 0 (s.send r).sendEpochId)
  | slaveAppend (flag : Int) (r i : Nat) (io : LogIo) (msg : Buf) (len : Nat) (got : s.received p r i = some (msg, len))
      (batch : checkMsg msg .batchMessage = true)
      (expected : getEpochIdFromBatchMeg msg = (s.slave r).nextBatchEpochId) :
      CallOf p s (flag, .slave r (.receive i io)) (.append r msg len (getEpochIdFromBatchMeg msg))
  | slaveRead (flag : Int) (r i : Nat) (io : LogIo) (msg : Buf) (len : Nat) (got : s.received p r i = some (msg, len))
      (proposed : p.exp = .proposedMethod) (not_batch : checkMsg msg .batchMessage = false)
      (not_ack : checkMsg msg .ackBatchMessage = false) (request : checkMsg msg .requestBatchMessage = true) :
      CallOf p s (flag, .slave r (.receive i io)) (.read r (getInfoFromRequestBatchMessage msg).2)

theorem call_of_log_call (p : Deployment) (s : Sequencers) (act : Int × SequencersAct) (call : LogCall)
    (called : s.logCall p act = some call) : CallOf p s act call := by
  unfold Sequencers.logCall at called
  split at called
  · rename_i flag io
    split at called
    · rename_i cur rev pc
      cases called
      exact .masterAppend flag cur io rev pc
    · cases called
  · rename_i flag r io
    split at called
    · rename_i ready
      cases called
      exact .sendRead flag r io ready.1 ready.2
    · cases called
  · rename_i flag r i io
    split at called
    · cases called
    · rename_i msg len got
      split at called
      · rename_i batch
        split at called
        · rename_i expected
          cases called
          exact .slaveAppend flag r i io msg len got batch expected
        · cases called
      · rename_i not_batch
        split at called
        · rename_i proposed
          cases called
          exact .slaveRead flag r i io msg len got proposed.1 (by simpa using not_batch) proposed.2.1 proposed.2.2
        · cases called
  · cases called

def Outcome.ends {α : Type} : Outcome α → Outcome Unit
  | .returned _ => .returned ()
  | .exited => .exited
  | .blocked => .blocked

def SequencersAct.io : SequencersAct → Option LogIo
  | .epoch (.log io) | .send _ (.read io) | .slave _ (.receive _ io) => some io
  | _ => none

def Sequencers.ends (p : Deployment) (s : Sequencers) : Int × SequencersAct → Outcome Unit
  | (systemFinishRequest, .epoch act) => (masterSequencerStartup systemFinishRequest s.master act).ends
  | (systemFinishRequest, .send r act) =>
      if p.IsSlave r then (sendThread p systemFinishRequest s.master s.net r (s.send r) act).ends else .blocked
  | (systemFinishRequest, .slave r act) =>
      if p.IsSlave r then (slaveSequencer p systemFinishRequest s.net r (s.slave r) act).ends else .blocked
  | (_, .addWriteTx _) | (_, .takeBatch _) => .returned ()

-- `msg` is the buffer read_log is given.
def LogCall.ends (s : Sequencers) (io : LogIo) (msg : Buf) : LogCall → Outcome Unit
  | .append node data len epochId => (appendLog (s.log node) data len epochId io).ends
  | .read node epochId => (readLog (s.log node) msg epochId io).ends

def LogCall.Fits (s : Sequencers) : LogCall → Prop
  | .append _ _ len _ => 0 ≤ len ∧ batchLogDataOffset + len ≤ batchLogSize
  | .read node epochId =>
      ∀ len, readLogLength (s.log node) epochId.toNat = some len → 0 ≤ len ∧ batchLogDataOffset + len ≤ batchLogSize

structure RecordWritten (s : Sequencers) (node : Nat) (e : Int) : Prop where
  low : 0 ≤ e
  master : node = 0 → e ≤ s.master.determinedEpochId
  slave : node ≠ 0 → e < (s.slave node).nextBatchEpochId
  holds : ∃ file, s.log node = some file ∧ batchLogSize * (e + 1) ≤ file.size
  content : ∃ b, s.master.confirmed[e.toNat]? = some b ∧ LogCarries batchLogSize (s.log node) e.toNat b

theorem log_carries_mono (small large : Nat) (log : Option File) (epoch : Nat) (batch : Batch) (le : small ≤ large)
    (carries : LogCarries small log epoch batch) : LogCarries large log epoch batch := by
  obtain ⟨len, msg, recorded, long, bound, content⟩ := carries
  exact ⟨len, msg, recorded, long, Nat.le_trans bound le, content⟩

theorem holds_record_bytes (log : Option File) (e : Nat) (holds : HoldsRecord log e) :
    ∃ file, log = some file ∧ batchLogSize * ((e : Int) + 1) ≤ file.size := by
  obtain ⟨file, same, inside⟩ := holds
  refine ⟨file, same, ?_⟩
  unfold recordOffset batchLogSize at inside
  unfold batchLogSize
  omega

theorem master_record_written (p : Deployment) (s : Sequencers) (e : Nat) (inv : SequencersInv p s)
    (inside : e < s.master.confirmed.length) : RecordWritten s 0 e := by
  have found := List.getElem?_eq_getElem inside
  have determined := inv.master.determined
  have carries := inv.master.logged e _ found
  refine ⟨by omega, fun _ => by omega, fun other => absurd rfl other, ?_, s.master.confirmed[e], ?_, ?_⟩
  · exact holds_record_bytes _ e (log_carries_holds _ _ e _ carries)
  · simp
  · exact log_carries_mono _ _ _ _ _ (by decide) carries

theorem slave_record_written (p : Deployment) (s : Sequencers) (r e : Nat) (inv : SequencersInv p s)
    (replica : p.IsSlave r) (below : e < s.accepted r) : RecordWritten s r e := by
  have slave := inv.slave r replica
  have behind := slave_behind _ _ slave
  have count := slave.count
  have bound : e < (s.slave r).accepted := below
  have not_master : r ≠ 0 := Nat.ne_of_gt replica.1
  have own : s.log r = (s.slave r).batchLog := if_neg not_master
  have found := List.getElem?_eq_getElem (show e < s.master.confirmed.length by omega)
  have carries := slave.logged e _ bound found
  refine ⟨by omega, fun same => absurd same not_master, fun _ => by omega, ?_, s.master.confirmed[e], ?_, ?_⟩
  · rw [own]
    exact holds_record_bytes _ e (log_carries_holds _ _ e _ carries)
  · simp
  · rw [own]
    exact carries

theorem received_some (p : Deployment) (s : Sequencers) (r i : Nat) (msg : Buf) (len : Nat)
    (got : s.received p r i = some (msg, len)) :
    ∃ d, s.net[i]? = some d ∧ p.IsSlave r ∧ (s.slave r).pc = .receiving ∧ d.dst = .slaveSequencer r ∧
      udpSvReceiveMsg (s.slave r).recvMsg batchLogSize d = (msg, len) := by
  unfold Sequencers.received at got
  split at got
  · cases got
  · rename_i d found
    split at got
    · rename_i ready
      exact ⟨d, found, ready.1, ready.2.1, ready.2.2, by simpa using got⟩
    · cases got

theorem ends_exited {α : Type} (outcome : Outcome α) (ended : outcome.ends = .exited) : outcome = .exited := by
  cases outcome with
  | exited => rfl
  | returned | blocked => cases ended

theorem ends_blocked {α : Type} (outcome : Outcome α) (ended : outcome.ends = .blocked) : outcome = .blocked := by
  cases outcome with
  | blocked => rfl
  | returned | exited => cases ended

theorem called_ends (p : Deployment) (s : Sequencers) (act : Int × SequencersAct) (call : LogCall)
    (method : p.exp ≠ .tcpMethod) (called : s.logCall p act = some call) :
    ∃ io msg, act.2.io = some io ∧ s.ends p act = call.ends s io msg := by
  cases call_of_log_call p s act call called with
  | masterAppend flag cur io rev pc =>
      refine ⟨io, s.master.batchMsg, rfl, ?_⟩
      simp only [Sequencers.ends, masterSequencerStartup, pc, LogCall.ends, Sequencers.log, if_true]
      cases appendLog s.master.batchLog (createBatchMsg rev s.master.batchMsg).1 (createBatchMsg rev s.master.batchMsg).2
        rev.epochId.toInt io <;> rfl
  | sendRead flag r io replica pc =>
      refine ⟨io, (s.send r).sendMsg, rfl, ?_⟩
      have same : ∀ accepts, (sendBatchConnection accepts flag s.master s.net r (s.send r) (.read io)).ends =
          (readLog s.master.batchLog (s.send r).sendMsg (s.send r).sendEpochId io).ends := by
        intro accepts
        simp only [sendBatchConnection, pc]
        cases readLog s.master.batchLog (s.send r).sendMsg (s.send r).sendEpochId io <;> rfl
      simp only [Sequencers.ends, if_pos replica, sendThread]
      cases exp : p.exp with
      | proposedMethod | conventionalMethod => exact same _
      | tcpMethod => exact absurd exp method
  | slaveAppend flag r i io msg len got batch expected =>
      obtain ⟨d, found, replica, pc, dst, filled⟩ := received_some p s r i msg len got
      have not_master : ¬ r = 0 := Nat.ne_of_gt replica.1
      refine ⟨io, (s.slave r).sendMsg, rfl, ?_⟩
      have same : ∀ peers, (receiveBatch r peers { s.slave r with pc := .loop, recvMsg := msg } len io).ends =
          (appendLog (s.slave r).batchLog msg len (getEpochIdFromBatchMeg msg) io).ends := by
        intro peers
        simp only [receiveBatch, acceptBatch, expected, if_true]
        cases appendLog (s.slave r).batchLog msg len (s.slave r).nextBatchEpochId io <;> rfl
      simp only [Sequencers.ends, if_pos replica, slaveSequencer, pc, found, dst, if_true, filled, LogCall.ends, Sequencers.log,
        if_neg not_master]
      cases exp : p.exp with
      | proposedMethod =>
          simp only [proposedMethodRecieveBatchConnection, batch, if_true]
          exact same _
      | conventionalMethod =>
          simp only [conventionalMethodRecieveBatchConnection, batch, if_true]
          exact same _
      | tcpMethod => exact absurd exp method
  | slaveRead flag r i io msg len got proposed not_batch not_ack request =>
      obtain ⟨d, found, replica, pc, dst, filled⟩ := received_some p s r i msg len got
      have not_master : ¬ r = 0 := Nat.ne_of_gt replica.1
      refine ⟨io, (s.slave r).sendMsg, rfl, ?_⟩
      simp only [Sequencers.ends, if_pos replica, slaveSequencer, pc, found, dst, if_true, filled, LogCall.ends, Sequencers.log,
        if_neg not_master, proposed, proposedMethodRecieveBatchConnection, not_batch, not_ack, request, Bool.false_eq_true,
        if_false]
      cases readLog (s.slave r).batchLog (s.slave r).sendMsg (getInfoFromRequestBatchMessage msg).2 io <;> rfl

theorem master_exit_called (p : Deployment) (s : Sequencers) (flag : Int) (act : EpochAct)
    (exits : masterSequencerStartup flag s.master act = .exited) :
    ∃ call, s.logCall p (flag, .epoch act) = some call := by
  unfold masterSequencerStartup at exits
  split at exits
  · split at exits <;> cases exits
  · split at exits <;> cases exits
  · split at exits <;> cases exits
  · cases exits
  · rename_i pc
    exact ⟨_, by simp only [Sequencers.logCall, pc]; rfl⟩
  · cases exits
  · cases exits
  · cases exits

theorem send_exit_called (p : Deployment) (s : Sequencers) (accepts : Int → Int → Bool) (flag : Int) (r : Nat) (act : SendAct)
    (replica : p.IsSlave r) (exits : sendBatchConnection accepts flag s.master s.net r (s.send r) act = .exited) :
    ∃ call, s.logCall p (flag, .send r act) = some call := by
  unfold sendBatchConnection at exits
  split at exits
  · split at exits <;> cases exits
  · split at exits
    · split at exits <;> cases exits
    · cases exits
  · rename_i pc
    exact ⟨_, by simp only [Sequencers.logCall, if_pos (And.intro replica pc)]; rfl⟩
  · split at exits <;> cases exits
  · split at exits
    · cases exits
    · split at exits <;> cases exits
  · cases exits
  · cases exits

theorem receive_batch_exits (p : Deployment) (s : Sequencers) (flag : Int) (r i : Nat) (io : LogIo) (msg : Buf) (len : Nat)
    (peers : List Nat) (got : s.received p r i = some (msg, len)) (batch : checkMsg msg .batchMessage = true)
    (exits : receiveBatch r peers { s.slave r with pc := .loop, recvMsg := msg } len io = .exited) :
    ∃ call, s.logCall p (flag, .slave r (.receive i io)) = some call := by
  simp only [receiveBatch] at exits
  split at exits
  · rename_i expected
    exact ⟨_, by simp only [Sequencers.logCall, got, batch, if_true, if_pos expected]; rfl⟩
  · split at exits <;> cases exits

theorem recieve_exits (p : Deployment) (s : Sequencers) (flag : Int) (r i : Nat) (io : LogIo) (msg : Buf) (len : Nat)
    (got : s.received p r i = some (msg, len)) (exp : p.exp = .proposedMethod)
    (exits : proposedMethodRecieveBatchConnection p r { s.slave r with pc := .loop, recvMsg := msg } len io = .exited) :
    ∃ call, s.logCall p (flag, .slave r (.receive i io)) = some call := by
  unfold proposedMethodRecieveBatchConnection at exits
  split at exits
  · rename_i batch
    exact receive_batch_exits p s flag r i io msg len _ got batch exits
  · rename_i not_batch
    split at exits
    · simp only at exits
      split at exits <;> cases exits
    · rename_i not_ack
      split at exits
      · rename_i request
        have asks : p.exp = .proposedMethod ∧ checkMsg msg .ackBatchMessage = false ∧
            checkMsg msg .requestBatchMessage = true := ⟨exp, by simpa using not_ack, request⟩
        exact ⟨_, by simp only [Sequencers.logCall, got, if_neg not_batch, if_pos asks]; rfl⟩
      · cases exits

theorem slave_exit_called (p : Deployment) (s : Sequencers) (flag : Int) (r : Nat) (act : SlaveAct) (replica : p.IsSlave r)
    (exits : slaveSequencer p flag s.net r (s.slave r) act = .exited) :
    ∃ call, s.logCall p (flag, .slave r act) = some call := by
  unfold slaveSequencer at exits
  split at exits
  · split at exits <;> cases exits
  · rename_i i io pc
    split at exits
    · cases exits
    · rename_i d found
      split at exits
      · rename_i dst
        have got : s.received p r i = some (udpSvReceiveMsg (s.slave r).recvMsg batchLogSize d) := by
          simp only [Sequencers.received, found, if_pos (And.intro replica (And.intro pc dst))]
        simp only at exits
        split at exits
        · rename_i exp
          exact recieve_exits p s flag r i io _ _ got exp exits
        · unfold conventionalMethodRecieveBatchConnection at exits
          split at exits
          · rename_i batch
            exact receive_batch_exits p s flag r i io _ _ _ got batch exits
          · cases exits
        · cases exits
      · cases exits
  · cases exits

theorem exit_called (p : Deployment) (s : Sequencers) (act : Int × SequencersAct) (ended : s.ends p act = .exited) :
    ∃ call, s.logCall p act = some call := by
  unfold Sequencers.ends at ended
  split at ended
  · exact master_exit_called p s _ _ (ends_exited _ ended)
  · rename_i flag r act
    split at ended
    · rename_i replica
      have exits := ends_exited _ ended
      cases exp : p.exp with
      | proposedMethod | conventionalMethod =>
          simp only [sendThread, exp] at exits
          exact send_exit_called p s _ flag r act replica exits
      | tcpMethod =>
          simp only [sendThread, exp] at exits
          cases exits
    · cases ended
  · split at ended
    · rename_i replica
      exact slave_exit_called p s _ _ _ replica (ends_exited _ ended)
    · cases ended
  · cases ended
  · cases ended

theorem received_request (p : Deployment) (s : Sequencers) (r i : Nat) (msg : Buf) (len : Nat) (inv : SequencersInv p s)
    (got : s.received p r i = some (msg, len)) (not_batch : checkMsg msg .batchMessage = false)
    (not_ack : checkMsg msg .ackBatchMessage = false) :
    p.IsSlave r ∧ ∃ e : Nat, (getInfoFromRequestBatchMessage msg).2 = e ∧ e < s.accepted r := by
  obtain ⟨d, found, replica, _, dst, filled⟩ := received_some p s r i msg len got
  have carried := inv.net d (List.mem_of_getElem? found)
  have content : (udpSvReceiveMsg (s.slave r).recvMsg batchLogSize d).1 = msg := congrArg Prod.fst filled
  cases carried with
  | batch q k b data reached there carries =>
      have type := (receive_batch (s.slave r).recvMsg data (.slaveSequencer q) b carries).type
      rw [content, not_batch] at type
      cases type
  | ackMaster q e old slave logged => cases dst
  | ackPeer q t e old slave logged =>
      have small := accepted_fits p s inv q slave
      have type := (receive_ack_batch p (s.slave r).recvMsg old (.slaveSequencer t) q e slave (by omega)).1
      rw [content, not_ack] at type
      cases type
  | request q t e old slave asked logged =>
      obtain rfl : q = r := by
        injection dst with same
        omega
      have small := accepted_fits p s inv q replica
      have info := (receive_request_batch p (s.slave q).recvMsg old (.slaveSequencer q) t e slave (by omega)).2
      rw [content] at info
      exact ⟨replica, e, congrArg Prod.snd info, logged⟩

theorem send_read_written (p : Deployment) (s : Sequencers) (r : Nat) (inv : SequencersInv p s) (replica : p.IsSlave r)
    (pc : (s.send r).pc = .reading) : RecordWritten s 0 (s.send r).sendEpochId := by
  obtain ⟨low, high⟩ := (inv.send r replica).next
  have current := (inv.send r replica).current
  simp only [SendCurrent, pc] at current
  obtain ⟨number, same⟩ := Int.eq_ofNat_of_zero_le (show 0 ≤ (s.send r).sendEpochId by omega)
  rw [same]
  exact master_record_written p s number inv (by omega)

theorem read_call_written (p : Deployment) (s : Sequencers) (act : Int × SequencersAct) (node : Nat) (e : Int)
    (inv : SequencersInv p s) (called : s.logCall p act = some (.read node e)) : RecordWritten s node e := by
  cases call_of_log_call p s act (.read node e) called with
  | sendRead flag r io replica pc => exact send_read_written p s r inv replica pc
  | slaveRead flag r i io msg len got proposed not_batch not_ack =>
      obtain ⟨replica, number, same, below⟩ := received_request p s node i msg len inv got not_batch not_ack
      rw [same]
      exact slave_record_written p s node number inv replica below

theorem record_written_not_blocked (s : Sequencers) (node : Nat) (e : Int) (msg : Buf) (io : LogIo)
    (written : RecordWritten s node e) (enough : batchLogSize ≤ io.answers.length) :
    readLog (s.log node) msg e io ≠ .blocked := by
  obtain ⟨number, rfl⟩ := Int.eq_ofNat_of_zero_le written.low
  obtain ⟨b, _, carries⟩ := written.content
  exact read_log_not_blocked (s.log node) msg number io (log_carries_holds _ _ number b carries) enough

theorem log_reads_find_record (p : Deployment) (s : Sequencers) (reachable : (sequencers p).Reachable s)
    (act : Int × SequencersAct) (node : Nat) (e : Int) (call : s.logCall p act = some (.read node e)) :
    RecordWritten s node e ∧
      (∀ msg io, batchLogSize ≤ io.answers.length → readLog (s.log node) msg e io ≠ .blocked) ∧
      (p.exp ≠ .tcpMethod → ∀ io, act.2.io = some io → batchLogSize ≤ io.answers.length → s.ends p act ≠ .blocked) := by
  have written := read_call_written p s act node e (sequencers_inv_reachable p s reachable) call
  have ends : ∀ msg io, batchLogSize ≤ io.answers.length → readLog (s.log node) msg e io ≠ .blocked :=
    fun msg io enough => record_written_not_blocked s node e msg io written enough
  refine ⟨written, ends, fun method io given enough => ?_⟩
  obtain ⟨own, msg, found, same⟩ := called_ends p s act _ method call
  obtain rfl : own = io := Option.some.inj (found.symm.trans given)
  rw [same]
  exact fun blocked => ends msg own enough (ends_blocked _ blocked)

-- Slave 1 tells slave 2, which has nothing yet and asks slave 1 for batch 0.
def firstRequest : List (Int × SequencersAct) :=
  firstBatch ++ [(0, .slave 2 .loop), (0, .slave 2 (.receive 2 wholeIo)), (0, .slave 1 .loop)]

theorem log_reads_find_record_first_request : ∃ s,
    (sequencers (configuration .proposedMethod)).exec (Sequencers.initial (configuration .proposedMethod)) firstRequest =
      some s ∧ RecordWritten s 1 0 := by
  have asked : (((sequencers (configuration .proposedMethod)).exec (Sequencers.initial (configuration .proposedMethod))
      firstRequest).bind (fun s => s.logCall (configuration .proposedMethod) (0, .slave 1 (.receive 7 wholeIo)))).bind
        LogCall.readOf = some (1, 0) := by
    decide +kernel
  obtain ⟨call, called, asked⟩ := Option.bind_eq_some_iff.mp asked
  obtain ⟨s, ran, called⟩ := Option.bind_eq_some_iff.mp called
  cases call with
  | append node msg len epochId => cases asked
  | read node epochId =>
      cases asked
      exact ⟨s, ran, (log_reads_find_record (configuration .proposedMethod) s
        (Machine.reachable_exec _ firstRequest _ s .init ran) _ 1 0 called).1⟩

inductive SlaveChange (slave next : Slave) (recvMsg : Buf) (recvMsgLen : Int) (io : LogIo) : Prop where
  | kept (log : next.batchLog = slave.batchLog) (list : next.writeTxBuffer = slave.writeTxBuffer) :
      SlaveChange slave next recvMsg recvMsgLen io
  | appended (file : File) (batch : checkMsg recvMsg .batchMessage = true)
      (expected : getEpochIdFromBatchMeg recvMsg = slave.nextBatchEpochId)
      (done : appendLog slave.batchLog recvMsg recvMsgLen (getEpochIdFromBatchMeg recvMsg) io = .returned file)
      (log : next.batchLog = some file) (batchAdded : Batch)
      (list : next.writeTxBuffer = slave.writeTxBuffer.add batchAdded) : SlaveChange slave next recvMsg recvMsgLen io

theorem receive_batch_change (r : Nat) (peers : List Nat) (slave next : Slave) (recvMsgLen : Int) (io : LogIo)
    (sent : List Datagram) (batch : checkMsg slave.recvMsg .batchMessage = true)
    (done : receiveBatch r peers slave recvMsgLen io = .returned (next, sent)) :
    SlaveChange slave next slave.recvMsg recvMsgLen io := by
  simp only [receiveBatch] at done
  split at done
  · rename_i expected
    unfold acceptBatch at done
    cases wrote : appendLog slave.batchLog slave.recvMsg recvMsgLen (getEpochIdFromBatchMeg slave.recvMsg) io with
    | exited => simp [wrote] at done
    | blocked => simp [wrote] at done
    | returned file =>
        simp only [wrote] at done
        cases done
        exact .appended file batch expected wrote rfl _ rfl
  · split at done
    · cases done
      exact .kept rfl rfl
    · cases done
      exact .kept rfl rfl

theorem proposed_recieve_change (p : Deployment) (r : Nat) (slave next : Slave) (recvMsgLen : Int) (io : LogIo)
    (sent : List Datagram)
    (done : proposedMethodRecieveBatchConnection p r slave recvMsgLen io = .returned (next, sent)) :
    SlaveChange slave next slave.recvMsg recvMsgLen io := by
  rcases proposed_recieve_cases p r slave next recvMsgLen io sent done with ⟨batch, done⟩ | ⟨sendMsg, rfl⟩
  · exact receive_batch_change r _ slave next recvMsgLen io sent batch done
  · exact .kept rfl rfl

theorem conventional_recieve_change (r : Nat) (slave next : Slave) (recvMsgLen : Int) (io : LogIo)
    (sent : List Datagram)
    (done : conventionalMethodRecieveBatchConnection r slave recvMsgLen io = .returned (next, sent)) :
    SlaveChange slave next slave.recvMsg recvMsgLen io := by
  rcases conventional_recieve_cases r slave next recvMsgLen io sent done with ⟨batch, done⟩ | rfl
  · exact receive_batch_change r _ slave next recvMsgLen io sent batch done
  · exact .kept rfl rfl

theorem slave_step_change (p : Deployment) (s : Sequencers) (systemFinishRequest : Int) (r : Nat) (act : SlaveAct)
    (next : Slave) (sent : List Datagram) (replica : p.IsSlave r)
    (done : slaveSequencer p systemFinishRequest s.net r (s.slave r) act = .returned (next, sent)) :
    (next.batchLog = (s.slave r).batchLog ∧ next.writeTxBuffer = (s.slave r).writeTxBuffer) ∨
      ∃ i io recvMsg recvMsgLen file, act = .receive i io ∧ s.received p r i = some (recvMsg, recvMsgLen) ∧
        checkMsg recvMsg .batchMessage = true ∧ getEpochIdFromBatchMeg recvMsg = (s.slave r).nextBatchEpochId ∧
        appendLog (s.slave r).batchLog recvMsg recvMsgLen (getEpochIdFromBatchMeg recvMsg) io = .returned file ∧
        next.batchLog = some file ∧ ∃ batch, next.writeTxBuffer = (s.slave r).writeTxBuffer.add batch := by
  unfold slaveSequencer at done
  split at done
  · split at done
    · cases done
      exact .inl ⟨rfl, rfl⟩
    · cases done
      exact .inl ⟨rfl, rfl⟩
  · rename_i i io pc
    split at done
    · cases done
    · rename_i d found
      split at done
      · rename_i mine
        have got : s.received p r i = some (udpSvReceiveMsg (s.slave r).recvMsg batchLogSize d) := by
          simp only [Sequencers.received, found, if_pos (And.intro replica (And.intro pc mine))]
        have change : SlaveChange (s.slave r) next (udpSvReceiveMsg (s.slave r).recvMsg batchLogSize d).1
            (udpSvReceiveMsg (s.slave r).recvMsg batchLogSize d).2 io := by
          cases method : p.exp with
          | proposedMethod =>
              simp only [method] at done
              cases proposed_recieve_change p r _ next _ io sent done with
              | kept log list => exact .kept log list
              | appended file batch expected wrote log added list => exact .appended file batch expected wrote log added list
          | conventionalMethod =>
              simp only [method] at done
              cases conventional_recieve_change r _ next _ io sent done with
              | kept log list => exact .kept log list
              | appended file batch expected wrote log added list => exact .appended file batch expected wrote log added list
          | tcpMethod =>
              simp only [method] at done
              cases done
        cases change with
        | kept log list => exact .inl ⟨log, list⟩
        | appended file batch expected wrote log added list =>
            exact .inr ⟨i, io, _, _, file, rfl, got, batch, expected, wrote, log, added, list⟩
      · cases done
  · cases done

theorem slave_accepts_of_received (p : Deployment) (s : Sequencers) (flag : Int) (r i : Nat) (io : LogIo) (msg : Buf)
    (len : Nat) (got : s.received p r i = some (msg, len)) (batch : checkMsg msg .batchMessage = true)
    (expected : getEpochIdFromBatchMeg msg = (s.slave r).nextBatchEpochId) :
    s.slaveAccepts p (flag, .slave r (.receive i io)) = true := by
  simp [Sequencers.slaveAccepts, got, batch, expected]

theorem log_changes_by_append (p : Deployment) (s t : Sequencers) (act : Int × SequencersAct) (node : Nat)
    (taken : (sequencers p).step s act = some t) :
    (t.log node = s.log node ∧ t.accepted node = s.accepted node) ∨
      ∃ msg len e io file, s.logCall p act = some (.append node msg len e) ∧
        appendLog (s.log node) msg len e io = .returned file ∧ t.log node = some file := by
  have elsewhere : ∀ (r : Nat) (slave : Slave) (net : List Datagram), slave.batchLog = (s.slave r).batchLog →
      slave.accepted = (s.slave r).accepted →
      Sequencers.log { s with slave := Function.update s.slave r slave, net := net } node = s.log node ∧
        Sequencers.accepted { s with slave := Function.update s.slave r slave, net := net } node = s.accepted node := by
    intro r slave net log accepted
    by_cases same : node = r
    · subst same
      exact ⟨by simp [Sequencers.log, log], by simpa [Sequencers.accepted] using accepted⟩
    · exact ⟨by simp [Sequencers.log, Function.update_of_ne same], by simp [Sequencers.accepted, Function.update_of_ne same]⟩
  cases sequencers_step_cases p s t act taken with
  | epoch flag act master live step =>
      cases step with
      | log cur rev io file pc done =>
          by_cases same : node = 0
          · subst same
            exact .inr ⟨_, _, _, io, file, by simp only [Sequencers.logCall, pc], done, rfl⟩
          · exact .inl ⟨by simp only [Sequencers.log, if_neg same], rfl⟩
      | spin | start | enter | leave | stop | check | swap | count | enqueue => exact .inl ⟨rfl, rfl⟩
  | epochExit | addWriteTx | send | sendExit | takeMaster => exact .inl ⟨rfl, rfl⟩
  | slave flag r act slave sent replica done =>
      rcases slave_step_change p s flag r act slave sent replica done with ⟨log, list⟩ |
        ⟨i, io, msg, len, file, rfl, got, batch, expected, wrote, log, _⟩
      · exact .inl (elsewhere r slave _ log (congrArg (fun list => list.entered.length) list))
      · by_cases same : node = r
        · subst same
          have own : ∀ s : Sequencers, s.log node = (s.slave node).batchLog := fun s => if_neg (Nat.ne_of_gt replica.1)
          refine .inr ⟨msg, len, getEpochIdFromBatchMeg msg, io, file, ?_, ?_, ?_⟩
          · simp only [Sequencers.logCall, got, batch, if_true, if_pos expected]
          · rw [own]
            exact wrote
          · rw [own]
            simpa using log
        · exact .inl ⟨by simp [Sequencers.log, Function.update_of_ne same],
            by simp [Sequencers.accepted, Function.update_of_ne same]⟩
  | slaveExit flag r act replica done => exact .inl (elsewhere r _ _ rfl rfl)
  | takeSlave flag r batch rest replica took =>
      obtain ⟨_, same, _⟩ := Fifo.try_take_some _ _ _ took
      exact .inl (elsewhere r _ _ rfl (congrArg List.length same))

end EpochReplication
