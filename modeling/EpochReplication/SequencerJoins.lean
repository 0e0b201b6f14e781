import EpochReplication.OnePerClient
import EpochReplication.WriteProgress
import Mathlib.Algebra.Order.BigOperators.Group.List
import Mathlib.Algebra.Order.Ring.Nat

set_option autoImplicit false

namespace EpochReplication

inductive SequencerThread where
  | epoch
  | send (r : Nat)
  | recieve (r c : Nat)
deriving DecidableEq, Repr

namespace Deployment

def Starts (p : Deployment) : SequencerThread → Prop
  | .epoch => True
  | .send r => p.IsSlave r
  | .recieve r c => p.IsConnection r c

def threads (p : Deployment) : List SequencerThread :=
  .epoch :: (p.slaves.map .send ++ p.connections.map (fun x => .recieve x.1 x.2))

theorem mem_threads (p : Deployment) (t : SequencerThread) : t ∈ p.threads ↔ p.Starts t := by
  cases t with
  | epoch => simp [threads, Starts]
  | send r => simp [threads, Starts, mem_slaves]
  | recieve r c => simp [threads, Starts, mem_connections]

end Deployment

namespace Database

def returned (d : Database) : SequencerThread → Prop
  | .epoch => d.replicas.sequencers.master.epochPc = .returned
  | .send r => (d.replicas.sequencers.send r).pc = .returned
  | .recieve r c => (d.intake.conn (r, c)).recieve.pc = .returned

-- Once the flag is 1, a thread before its start barrier does not get past it,
-- and one that waits in recvfrom looks at the flag after the next datagram.
def canReturn (d : Database) : SequencerThread → Prop
  | .epoch => d.replicas.sequencers.master.epochPc ≠ .barrier
  | .send r => (d.replicas.sequencers.send r).pc ≠ .barrier
  | .recieve r c => (d.intake.conn (r, c)).recieve.pc ≠ .barrier ∧
      ((d.intake.conn (r, c)).recieve.pc = .receiving → ∃ packet ∈ d.intake.net, packet.dst = .recieveTx r c)

end Database

def EpochPc.weight : EpochPc → Nat
  | .barrier | .returned => 0
  | .loop | .checking _ => 1
  | .enqueueing _ _ => 2
  | .counting _ _ => 3
  | .logging _ _ => 4
  | .filling _ => 5

def SendPc.weight : SendPc → Nat
  | .barrier | .returned => 0
  | .loop => 1
  | .sending => 2
  | .reading | .waiting => 3

def RecievePc.weight : RecievePc → Nat
  | .barrier | .returned => 0
  | .loop => 1
  | .adding _ => 2
  | .acked _ => 3
  | .receiving => 4

def Database.remaining (d : Database) : SequencerThread → Nat
  | .epoch => d.replicas.sequencers.master.epochPc.weight
  | .send r => (d.replicas.sequencers.send r).pc.weight
  | .recieve r c => (d.intake.conn (r, c)).recieve.pc.weight

def DatabaseAct.ofSequencer : DatabaseAct → Prop
  | .sequencers (.epoch _) | .sequencers (.send _ _) | .recieve _ _ _ | .addWriteTx _ _ => True
  | _ => False

-- The master has been asked to finish. A batch that has been swapped away, or is
-- about to be, can still be numbered.
structure Closing (p : Deployment) (writeRate : Nat) (d : Database) : Prop where
  reachable : (database p writeRate).Reachable d
  asked : d.intake.flag 0 = 1
  live : d.replicas.sequencers.master.exited = false
  room : 4 ≤ d.replicas.sequencers.master.epochPc.weight → d.replicas.sequencers.master.confirmed.length < 32768
  able : ∀ t, p.Starts t → d.canReturn t

structure Nearer (p : Deployment) (writeRate : Nat) (t : SequencerThread) (d next : Database) : Prop where
  closing : Closing p writeRate next
  less : next.remaining t < d.remaining t
  others : ∀ u, u ≠ t → next.remaining u = d.remaining u

section

variable (p : Deployment) (writeRate : Nat)

theorem epoch_nearer (d : Database) (closing : Closing p writeRate d) (stays : ¬ d.returned .epoch) :
    ∃ act next, DatabaseAct.ofSequencer act ∧ Database.step p writeRate d act = some next ∧
      Nearer p writeRate .epoch d next := by
  have moves : ∀ act m, masterSequencerStartup 1 d.replicas.sequencers.master act = .returned m →
      m.exited = d.replicas.sequencers.master.exited → m.epochPc ≠ .barrier →
      m.epochPc.weight < d.replicas.sequencers.master.epochPc.weight →
      (4 ≤ m.epochPc.weight → m.confirmed.length < 32768) →
      ∃ act next, DatabaseAct.ofSequencer act ∧ Database.step p writeRate d act = some next ∧
        Nearer p writeRate .epoch d next := by
    intro act m done exited past less room
    have taken := epoch_taken p writeRate d d.replicas.sequencers.master m act closing.live (by rw [closing.asked]; exact done)
    refine ⟨.sequencers (.epoch act), d.withMaster m, trivial, taken, ⟨?_, closing.asked, exited.trans closing.live, room,
      fun t starts => ?_⟩, less, fun u other => ?_⟩
    · exact .step d _ (.sequencers (.epoch act)) closing.reachable taken
    · cases t with
      | epoch => exact past
      | send r => exact closing.able (.send r) starts
      | recieve r c => exact closing.able (.recieve r c) starts
    · cases u with
      | epoch => exact absurd rfl other
      | send r => rfl
      | recieve r c => rfl
  have inv := (database_nodes_inv p writeRate d closing.reachable).sequencers.master
  have room := closing.room
  cases pc : d.replicas.sequencers.master.epochPc with
  | barrier => exact absurd pc (closing.able .epoch trivial)
  | returned => exact absurd pc stays
  | loop =>
      exact moves .loop { d.replicas.sequencers.master with epochPc := .returned } (by simp [masterSequencerStartup, pc]) rfl
        (by simp) (by simp [pc, EpochPc.weight]) (by simp [EpochPc.weight])
  | checking cur =>
      exact moves .check { d.replicas.sequencers.master with epochPc := .returned } (by simp [masterSequencerStartup, pc]) rfl
        (by simp) (by simp [pc, EpochPc.weight]) (by simp [EpochPc.weight])
  | filling cur =>
      rw [pc] at room
      exact moves .swap { d.replicas.sequencers.master with
          epochPc := .logging cur d.replicas.sequencers.master.batch, batch := batchCreate (Int16.ofInt (cur + 1)) }
        (by simp [masterSequencerStartup, pc]) rfl (by simp) (by simp [pc, EpochPc.weight])
        (fun _ => room (by simp [EpochPc.weight]))
  | logging cur rev =>
      rw [pc] at room
      obtain ⟨file, wrote⟩ := batch_logged d.replicas.sequencers.master cur rev inv pc (room (Nat.le_refl 4))
      exact moves (.log fullIo) { d.replicas.sequencers.master with
          epochPc := .counting cur rev
          batchLog := some file
          batchMsg := (createBatchMsg rev d.replicas.sequencers.master.batchMsg).1 }
        (by simp only [masterSequencerStartup, pc, wrote]) rfl (by simp) (by simp [pc, EpochPc.weight])
        (by simp [EpochPc.weight])
  | counting cur rev =>
      exact moves .count { d.replicas.sequencers.master with
          epochPc := .enqueueing cur rev
          determinedEpochId := d.replicas.sequencers.master.determinedEpochId + 1
          confirmed := d.replicas.sequencers.master.confirmed ++ [rev] }
        (by simp [masterSequencerStartup, pc]) rfl (by simp) (by simp [pc, EpochPc.weight]) (by simp [EpochPc.weight])
  | enqueueing cur rev =>
      exact moves .enqueue { d.replicas.sequencers.master with
          epochPc := .loop, writeTxBuffer := d.replicas.sequencers.master.writeTxBuffer.add rev }
        (by simp [masterSequencerStartup, pc]) rfl (by simp) (by simp [pc, EpochPc.weight]) (by simp [EpochPc.weight])

theorem send_nearer (d : Database) (r : Nat) (method : p.exp ≠ .tcpMethod) (replica : p.IsSlave r)
    (closing : Closing p writeRate d) (stays : ¬ d.returned (.send r)) :
    ∃ act next, DatabaseAct.ofSequencer act ∧ Database.step p writeRate d act = some next ∧
      Nearer p writeRate (.send r) d next := by
  obtain ⟨accepts, _, same⟩ := send_thread_accepts p method
  have moves : ∀ act thread, sendThread p 1 d.replicas.sequencers.master d.replicas.sequencers.net r
        (d.replicas.sequencers.send r) act = .returned (thread, []) → thread.pc ≠ .barrier →
      thread.pc.weight < (d.replicas.sequencers.send r).pc.weight →
      ∃ act next, DatabaseAct.ofSequencer act ∧ Database.step p writeRate d act = some next ∧
        Nearer p writeRate (.send r) d next := by
    intro act thread done past less
    have moved := send_moves p d.replicas.sequencers 1 r act thread [] closing.live replica done
    have taken : Database.step p writeRate d (.sequencers (.send r act)) = some { d with
        replicas := { d.replicas with
          sequencers := { d.replicas.sequencers with
            send := Function.update d.replicas.sequencers.send r thread, net := d.replicas.sequencers.net ++ [] } } } := by
      simp only [Database.step, Database.inside, SequencersAct.node, closing.asked, Replicas.step, moved, Option.map_some]
    refine ⟨.sequencers (.send r act), _, trivial, taken, ⟨?_, closing.asked, closing.live, closing.room,
      fun t starts => ?_⟩, ?_, fun u other => ?_⟩
    · exact .step d _ (.sequencers (.send r act)) closing.reachable taken
    · cases t with
      | epoch => exact closing.able .epoch trivial
      | recieve q c => exact closing.able (.recieve q c) starts
      | send q =>
          by_cases here : q = r
          · subst here
            simpa only [Database.canReturn, Function.update_self] using past
          · simpa only [Database.canReturn, Function.update_of_ne here] using closing.able (.send q) starts
    · simpa only [Database.remaining, Function.update_self] using less
    · cases u with
      | epoch => rfl
      | recieve q c => rfl
      | send q =>
          have different : q ≠ r := fun here => other (by rw [here])
          simp only [Database.remaining, Function.update_of_ne different]
  cases pc : (d.replicas.sequencers.send r).pc with
  | barrier => exact absurd pc (closing.able (.send r) replica)
  | returned => exact absurd pc stays
  | loop =>
      exact moves .loop { d.replicas.sequencers.send r with pc := .returned } (by simp [same, sendBatchConnection, pc])
        (by simp) (by simp [pc, SendPc.weight])
  | sending =>
      exact moves .send { d.replicas.sequencers.send r with pc := .loop } (by simp [same, sendBatchConnection, pc])
        (by simp) (by simp [pc, SendPc.weight])
  | waiting =>
      exact moves .timeout { d.replicas.sequencers.send r with pc := .sending } (by simp [same, sendBatchConnection, pc])
        (by simp) (by simp [pc, SendPc.weight])
  | reading =>
      have inv := (database_nodes_inv p writeRate d closing.reachable).sequencers
      have written := send_read_written p d.replicas.sequencers r inv replica pc
      obtain ⟨e, number⟩ := Int.eq_ofNat_of_zero_le written.low
      obtain ⟨b, _, carries⟩ := written.content
      rw [number, Int.toNat_natCast] at carries
      obtain ⟨out, read⟩ := read_log_progress d.replicas.sequencers.master.batchLog (d.replicas.sequencers.send r).sendMsg e
        fullIo (log_carries_holds _ _ _ _ carries) full_io_succeeds
      exact moves (.read fullIo)
        { d.replicas.sequencers.send r with pc := .sending, sendMsg := out, sendMsgLen := batchLogSize }
        (by simp only [same, sendBatchConnection, pc, number, read]) (by simp) (by simp [pc, SendPc.weight])

theorem recieve_nearer (d : Database) (r c : Nat) (clients : p.clientNum * (p.replicaNum - 1) < maxBatchSize)
    (connection : p.IsConnection r c) (closing : Closing p writeRate d) (stays : ¬ d.returned (.recieve r c)) :
    ∃ act next, DatabaseAct.ofSequencer act ∧ Database.step p writeRate d act = some next ∧
      Nearer p writeRate (.recieve r c) d next := by
  have inv := database_inv_reachable p writeRate d closing.reachable
  have nodes := database_nodes_inv p writeRate d closing.reachable
  have able := closing.able (.recieve r c) connection
  have nearer : ∀ (master : Master) (recieve : RecieveThread) (sent : List Packet),
      (database p writeRate).Reachable ⟨(d.withMaster master).replicas, { d.intake with
        conn := Function.update d.intake.conn (r, c) { d.intake.conn (r, c) with recieve := recieve }
        net := d.intake.net ++ sent }⟩ →
      master.epochPc = d.replicas.sequencers.master.epochPc → master.confirmed = d.replicas.sequencers.master.confirmed →
      master.exited = d.replicas.sequencers.master.exited → recieve.pc ≠ .barrier → recieve.pc ≠ .receiving →
      recieve.pc.weight < (d.intake.conn (r, c)).recieve.pc.weight →
      Nearer p writeRate (.recieve r c) d ⟨(d.withMaster master).replicas, { d.intake with
        conn := Function.update d.intake.conn (r, c) { d.intake.conn (r, c) with recieve := recieve }
        net := d.intake.net ++ sent }⟩ := by
    intro master recieve sent reachable epoch confirmed exited past leaves less
    refine ⟨⟨reachable, closing.asked, exited.trans closing.live, fun four => ?_, fun t starts => ?_⟩, ?_, fun u other => ?_⟩
    · simp only [Database.withMaster, epoch, confirmed] at four ⊢
      exact closing.room four
    · cases t with
      | epoch =>
          simp only [Database.canReturn, Database.withMaster, epoch]
          exact closing.able .epoch trivial
      | send q => exact closing.able (.send q) starts
      | recieve q e =>
          by_cases here : (q, e) = (r, c)
          · cases here
            simp only [Database.canReturn, Function.update_self]
            exact ⟨past, fun waits => absurd waits leaves⟩
          · simp only [Database.canReturn, Function.update_of_ne here]
            refine (closing.able (.recieve q e) starts).imp_right fun waits pc => ?_
            obtain ⟨packet, member, dst⟩ := waits pc
            exact ⟨packet, List.mem_append_left _ member, dst⟩
    · simpa only [Database.remaining, Function.update_self] using less
    · cases u with
      | epoch => simp only [Database.remaining, Database.withMaster, epoch]
      | send q => rfl
      | recieve q e =>
          have different : (q, e) ≠ (r, c) := fun here => other (by cases here; rfl)
          simp only [Database.remaining, Function.update_of_ne different]
  have moves : ∀ act recieve sent, (∀ batch, act ≠ .add batch) →
      recieveTxConnection 1 d.intake.net r c (d.intake.conn (r, c)).recieve act = some (recieve, sent) →
      recieve.pc ≠ .barrier → recieve.pc ≠ .receiving →
      recieve.pc.weight < (d.intake.conn (r, c)).recieve.pc.weight →
      ∃ act next, DatabaseAct.ofSequencer act ∧ Database.step p writeRate d act = some next ∧
        Nearer p writeRate (.recieve r c) d next := by
    intro act recieve sent kind done past leaves less
    have taken := recieve_taken p writeRate r c d act recieve sent kind connection (running_of_live d closing.live)
      (by rw [closing.asked]; exact done)
    exact ⟨.recieve r c act, _, trivial, taken, nearer d.replicas.sequencers.master recieve sent
      (.step d _ (.recieve r c act) closing.reachable taken) rfl rfl rfl past leaves less⟩
  cases pc : (d.intake.conn (r, c)).recieve.pc with
  | barrier => exact absurd pc able.1
  | returned => exact absurd pc stays
  | loop =>
      exact moves .loop { (d.intake.conn (r, c)).recieve with pc := .returned } [] (by simp) (by simp [recieveTxConnection, pc])
        (by simp) (by simp) (by simp [pc, RecievePc.weight])
  | receiving =>
      obtain ⟨packet, member, dst⟩ := able.2 pc
      obtain ⟨i, found⟩ := List.mem_iff_getElem?.mp member
      generalize filled : receiveMsg (d.intake.conn (r, c)).recieve.recvMsg packet.data packet.len = recvMsg
      cases add : checkMsg recvMsg .addToBatchMessage with
      | true =>
          exact moves (.receive i)
            { (d.intake.conn (r, c)).recieve with
              pc := .acked (getInfoFromAddToBatchMsg recvMsg createTx)
              recvMsg := recvMsg
              sendMsg := (answerAddToBatch (getInfoFromAddToBatchMsg recvMsg createTx)
                (d.intake.conn (r, c)).recieve.sendMsg).1 } _ (by simp)
            (by simp only [recieveTxConnection, pc, found, dst, if_true, filled, add]; rfl)
            (by simp) (by simp) (by simp [pc, RecievePc.weight])
      | false =>
          exact moves (.receive i) { (d.intake.conn (r, c)).recieve with pc := .loop, recvMsg := recvMsg } [] (by simp)
            (by simp [recieveTxConnection, pc, found, dst, filled, add]) (by simp) (by simp) (by simp [pc, RecievePc.weight])
  | acked tx =>
      have write : tx.type = .writeOnly := ((inv.conns r c connection).hands tx (.inl pc)).write
      by_cases old : (tx.id.toNat : Int) ≤ (d.intake.conn (r, c)).recieve.recievedTxId
      · exact moves .test { (d.intake.conn (r, c)).recieve with pc := .loop } [] (by simp)
          (by simp [recieveTxConnection, pc, old]) (by simp) (by simp) (by simp [pc, RecievePc.weight])
      · exact moves .test { (d.intake.conn (r, c)).recieve with pc := .adding tx, recievedTxId := tx.id.toNat } [] (by simp)
          (by simp [recieveTxConnection, pc, old, write]) (by simp) (by simp) (by simp [pc, RecievePc.weight])
  | adding tx =>
      have taken := add_taken p writeRate r c d tx connection closing.live pc
        (Nat.lt_of_le_of_lt (filling_bound p d inv nodes) clients)
      exact ⟨.addWriteTx r c, _, trivial, taken, nearer _ _ [] (.step d _ (.addWriteTx r c) closing.reachable taken) rfl rfl rfl
        (by simp) (by simp) (by simp [pc, RecievePc.weight])⟩

theorem thread_nearer (d : Database) (t : SequencerThread) (method : p.exp ≠ .tcpMethod)
    (clients : p.clientNum * (p.replicaNum - 1) < maxBatchSize) (starts : p.Starts t) (closing : Closing p writeRate d)
    (stays : ¬ d.returned t) :
    ∃ act next, DatabaseAct.ofSequencer act ∧ Database.step p writeRate d act = some next ∧ Nearer p writeRate t d next := by
  cases t with
  | epoch => exact epoch_nearer p writeRate d closing stays
  | send r => exact send_nearer p writeRate d r method starts closing stays
  | recieve r c => exact recieve_nearer p writeRate d r c clients starts closing stays

theorem threads_return (d : Database) (method : p.exp ≠ .tcpMethod)
    (clients : p.clientNum * (p.replicaNum - 1) < maxBatchSize) (closing : Closing p writeRate d) :
    ∃ next, (database p writeRate).Leads DatabaseAct.ofSequencer d next ∧ ∀ t, p.Starts t → next.returned t := by
  have closer : ∀ e, Closing p writeRate e → ¬ (∀ t, p.Starts t → e.returned t) →
      ∃ next, (database p writeRate).Leads DatabaseAct.ofSequencer e next ∧ Closing p writeRate next ∧
        (p.threads.map next.remaining).sum < (p.threads.map e.remaining).sum := by
    intro e closing unfinished
    obtain ⟨t, left⟩ := Classical.not_forall.mp unfinished
    obtain ⟨starts, stays⟩ := Classical.not_imp.mp left
    obtain ⟨act, next, kind, taken, nearer⟩ := thread_nearer p writeRate e t method clients starts closing stays
    refine ⟨next, Machine.leads_one _ _ e next act kind taken, nearer.closing, ?_⟩
    refine List.sum_lt_sum _ _ (fun u _ => ?_) ⟨t, (p.mem_threads t).mpr starts, nearer.less⟩
    by_cases own : u = t
    · rw [own]
      exact Nat.le_of_lt nearer.less
    · exact Nat.le_of_eq (nearer.others u own)
  obtain ⟨next, leads, _, done⟩ := Machine.leads_until (database p writeRate) DatabaseAct.ofSequencer (Closing p writeRate)
    (fun e => ∀ t, p.Starts t → e.returned t) (fun e => (p.threads.map e.remaining).sum) closer d closing
  exact ⟨next, leads, done⟩

end

theorem returned_could (d : Database) (t : SequencerThread) (returned : d.returned t) : d.canReturn t := by
  cases t with
  | epoch =>
      rw [Database.returned] at returned
      simp [Database.canReturn, returned]
  | send r =>
      rw [Database.returned] at returned
      simp [Database.canReturn, returned]
  | recieve r c =>
      rw [Database.returned] at returned
      simp [Database.canReturn, returned]

theorem no_add_sent (p : Deployment) (writeRate : Nat) (d next : Database) (act : DatabaseAct) (inv : DatabaseInv p d)
    (asked : ∀ r, p.IsNode r → d.intake.flag r = 1) (taken : Database.step p writeRate d act = some next)
    (packet : Packet) (member : packet ∈ next.intake.net) :
    packet ∈ d.intake.net ∨ ∃ q e, packet.dst = .clientThread q e := by
  cases database_step_cases p writeRate d next act taken with
  | thread r c act conn sent connection running step =>
      have one := asked r (connection_node p r c connection)
      rcases List.mem_append.mp member with old | new
      · exact .inl old
      · cases step with
        | send pc flag => exact absurd one flag
        | _ => cases new
  | recieve r c act recieve sent kind connection running step =>
      rcases List.mem_append.mp member with old | new
      · exact .inl old
      · cases step with
        | receive i other recvMsg tx pc found dst filled add decoded =>
            right
            rw [List.mem_singleton.mp new]
            have of := packets_of_recieve p d r c inv other (List.mem_of_getElem? found) dst
            cases of with
            | add => exact ⟨r, c, rfl⟩
            | ack => cases dst
        | _ => cases new
  | addWriteTx r c tx recieve sent replicas connection running pc step moved =>
      rcases List.mem_append.mp member with old | new
      · exact .inl old
      · cases step <;> cases new
  | takeRead r replicas moved =>
      left
      unfold Intake.takeRead at member
      split at member <;> exact member
  | start | finish | client | sequencers | takeBatch | writeLoop | write | fetch | assign | raise | readLoop | readOut | read
  | raiseRead => exact .inl member

theorem asked_step (p : Deployment) (writeRate : Nat) (d next : Database) (act : DatabaseAct) (r : Nat)
    (asked : d.intake.flag r = 1) (taken : Database.step p writeRate d act = some next) : next.intake.flag r = 1 := by
  rcases database_flag_step p writeRate d next act r taken with same | one | ⟨_, live, _⟩
  · rw [same]
    exact asked
  · exact one
  · exact absurd asked live

theorem sequencers_asked (p : Deployment) (writeRate : Nat) (d next : Database) (act : DatabaseAct)
    (asked : d.intake.flag 0 = 1) (taken : Database.step p writeRate d act = some next) :
    next.replicas.sequencers = d.replicas.sequencers ∨
      ∃ flag seqAct, Sequencers.step p d.replicas.sequencers (flag, seqAct) = some next.replicas.sequencers ∧
        ((∀ q, seqAct ≠ .takeBatch q) → seqAct.node = 0 → flag = 1) := by
  rcases database_nodes_step p writeRate d next act taken with same | ⟨q, repAct, moved, from_⟩
  · exact .inl (congrArg Replicas.sequencers same)
  · generalize next.replicas = s at moved
    cases replicas_step_cases p d.replicas s _ moved with
    | sequencers flag a inner kind stepped =>
        refine .inr ⟨_, a, stepped, fun _ zero => ?_⟩
        rw [(from_ a rfl).1, zero]
        exact asked
    | take flag q batch rest inner exec node running took stepped done =>
        exact .inr ⟨_, .takeBatch q, stepped, fun kind => absurd rfl (kind q)⟩
    | takeNone | write | read => exact .inl rfl

theorem barrier_kept (p : Deployment) (writeRate : Nat) (d next : Database) (act : DatabaseAct)
    (asked : d.intake.flag 0 = 1) (taken : Database.step p writeRate d act = some next) :
    (d.replicas.sequencers.master.epochPc = .barrier → next.replicas.sequencers.master.epochPc = .barrier) ∧
      ∀ r, (d.replicas.sequencers.send r).pc = .barrier → (next.replicas.sequencers.send r).pc = .barrier := by
  rcases sequencers_asked p writeRate d next act asked taken with same | ⟨flag, seqAct, stepped, zero⟩
  · rw [same]
    exact ⟨id, fun _ => id⟩
  · generalize next.replicas.sequencers = s at stepped
    cases sequencers_step_cases p d.replicas.sequencers s _ stepped with
    | epoch flag a m live step =>
        refine ⟨fun stuck => ?_, fun _ => id⟩
        cases step with
        | spin => exact stuck
        | start pc go =>
            rw [zero (by simp) rfl] at go
            cases go
        | enter pc | leave pc | stop _ pc | check _ pc | swap _ pc | log _ _ _ _ pc | count _ _ pc | enqueue _ _ pc =>
            rw [stuck] at pc
            cases pc
    | send flag q a thread sent live replica done =>
        refine ⟨id, fun r stuck => ?_⟩
        by_cases here : r = q
        · subst here
          simp only [Function.update_self]
          obtain ⟨accepts, _, step⟩ := send_thread_sound p flag _ _ sent r _ thread a done
          cases step with
          | spin => exact stuck
          | start pc go =>
              rw [zero (by simp) rfl] at go
              cases go
          | idle pc | pick pc | leave pc | read _ _ _ pc | abandon pc | send pc | receive _ _ pc | timeout pc =>
              rw [stuck] at pc
              cases pc
        · simp only [Function.update_of_ne here]
          exact stuck
    | epochExit | addWriteTx | sendExit | slave | slaveExit | takeMaster | takeSlave => exact ⟨id, fun _ => id⟩

theorem recieve_could (p : Deployment) (writeRate : Nat) (d next : Database) (act : DatabaseAct) (r c : Nat)
    (inv : DatabaseInv p d) (asked : ∀ r, p.IsNode r → d.intake.flag r = 1)
    (taken : Database.step p writeRate d act = some next) (able : next.canReturn (.recieve r c)) :
    d.canReturn (.recieve r c) := by
  have same : (next.intake.conn (r, c)).recieve = (d.intake.conn (r, c)).recieve → d.canReturn (.recieve r c) := by
    intro kept
    rw [Database.canReturn, kept] at able
    refine able.imp_right fun waits pc => ?_
    obtain ⟨packet, member, dst⟩ := waits pc
    rcases no_add_sent p writeRate d next act inv asked taken packet member with old | ⟨q, e, other⟩
    · exact ⟨packet, old, dst⟩
    · rw [dst] at other
      cases other
  have free : ∀ pc, (d.intake.conn (r, c)).recieve.pc = pc → pc ≠ .barrier → pc ≠ .receiving →
      d.canReturn (.recieve r c) := by
    rintro pc rfl past leaves
    exact ⟨past, fun waits => absurd waits leaves⟩
  cases database_conn_step p writeRate d next act r c taken with
  | same act other quiet conn | touch act tx touches conn => exact same (by rw [conn])
  | client act after _ step conn => exact same (by rw [conn]; cases step <;> rfl)
  | thread act after sent _ step conn => exact same (by rw [conn]; cases step <;> rfl)
  | recieve act inner recieve sent from_ step conn =>
      cases step with
      | wait pc => exact same (by rw [conn])
      | start pc go =>
          rw [asked 0 (.inl rfl)] at go
          cases go
      | receive i packet _ _ pc found dst | ignore i packet _ pc found dst =>
          exact ⟨by rw [pc]; simp, fun _ => ⟨packet, List.mem_of_getElem? found, dst⟩⟩
      | enter pc | leave pc => exact free _ pc (by simp) (by simp)
      | discard tx pc | accept tx pc | quit tx pc => exact free _ pc (by simp) (by simp)
      | retry tx batch pc | add tx batch pc => exact free _ pc (by simp) (by simp)

theorem stuck_step (p : Deployment) (writeRate : Nat) (d next : Database) (act : DatabaseAct) (t : SequencerThread)
    (reachable : (database p writeRate).Reachable d) (asked : ∀ r, p.IsNode r → d.intake.flag r = 1)
    (taken : Database.step p writeRate d act = some next) (able : next.canReturn t) : d.canReturn t := by
  obtain ⟨epoch, send⟩ := barrier_kept p writeRate d next act (asked 0 (.inl rfl)) taken
  cases t with
  | epoch => exact fun stuck => able (epoch stuck)
  | send r => exact fun stuck => able (send r stuck)
  | recieve r c =>
      exact recieve_could p writeRate d next act r c (database_inv_reachable p writeRate d reachable) asked taken able

theorem sequencer_joins_iff (p : Deployment) (writeRate : Nat) (d : Database) (kind : DatabaseAct → Prop)
    (own : ∀ act, DatabaseAct.ofSequencer act → kind act) (method : p.exp ≠ .tcpMethod)
    (clients : p.clientNum * (p.replicaNum - 1) < maxBatchSize) (reachable : (database p writeRate).Reachable d)
    (asked : ∀ r, p.IsNode r → d.intake.flag r = 1) (running : d.running 0 = true)
    (room : d.replicas.sequencers.master.confirmed.length < 32768) :
    (∃ e, (database p writeRate).Leads kind d e ∧ ∀ t, p.Starts t → e.returned t) ↔ ∀ t, p.Starts t → d.canReturn t := by
  constructor
  · rintro ⟨e, leads, done⟩ t starts
    have back := Machine.leads_relates (database p writeRate) kind
      (fun s u => (database p writeRate).Reachable s ∧ (∀ r, p.IsNode r → s.intake.flag r = 1) →
        ((database p writeRate).Reachable u ∧ ∀ r, p.IsNode r → u.intake.flag r = 1) ∧ (u.canReturn t → s.canReturn t))
      (fun s here => ⟨here, id⟩)
      (fun s u v first rest here => ⟨(rest (first here).1).1, (first here).2 ∘ (rest (first here).1).2⟩)
      (fun s act u _ taken here => ⟨⟨.step s u act here.1 taken, fun r node => asked_step p writeRate s u act r (here.2 r node) taken⟩,
        stuck_step p writeRate s u act t here.1 here.2 taken⟩) d e leads
    exact (back ⟨reachable, asked⟩).2 (returned_could e t (done t starts))
  · intro able
    have live : d.replicas.sequencers.master.exited = false := by
      simpa [Database.running, Sequencers.running] using running
    obtain ⟨e, leads, done⟩ := threads_return p writeRate d method clients
      ⟨reachable, asked 0 (.inl rfl), live, fun _ => room, able⟩
    exact ⟨e, Machine.leads_weaken _ _ _ d e own leads, done⟩

def startedAndAsked : List DatabaseAct :=
  [.start, .sequencers (.epoch .barrier)] ++
    (configuration .proposedMethod).slaves.map (fun r => .sequencers (.send r .barrier)) ++
    (configuration .proposedMethod).connections.map (fun x => .recieve x.1 x.2 .barrier) ++
    (List.range (configuration .proposedMethod).replicaNum).map .finish

theorem sequencer_joins_iff_started : ∃ d e,
    (database (configuration .proposedMethod) ClientTime.writeRate).exec (Database.initial (configuration .proposedMethod))
      startedAndAsked = some d ∧
    (database (configuration .proposedMethod) ClientTime.writeRate).Leads DatabaseAct.ofSequencer d e ∧
      ∀ t, (configuration .proposedMethod).Starts t → e.returned t := by
  have ends : ((database (configuration .proposedMethod) ClientTime.writeRate).exec
      (Database.initial (configuration .proposedMethod)) startedAndAsked).map (fun d =>
        ((List.range 7).all fun r => d.intake.flag r == 1) && d.running 0 &&
        d.replicas.sequencers.master.epochPc.weight == 1 && d.replicas.sequencers.master.confirmed.length == 0 &&
        ((configuration .proposedMethod).slaves.all fun r => (d.replicas.sequencers.send r).pc == .loop) &&
        (configuration .proposedMethod).connections.all fun x => (d.intake.conn x).recieve.pc.weight == 1) = some true := by
    decide +kernel
  obtain ⟨d, ran, ends⟩ := Option.map_eq_some_iff.mp ends
  simp only [Bool.and_eq_true, List.all_eq_true, List.mem_range, beq_iff_eq] at ends
  obtain ⟨⟨⟨⟨⟨flags, running⟩, epoch⟩, confirmed⟩, sends⟩, recieves⟩ := ends
  have reachable := Machine.reachable_exec (database (configuration .proposedMethod) ClientTime.writeRate) startedAndAsked
    _ d .init ran
  have able : ∀ t, (configuration .proposedMethod).Starts t → d.canReturn t := by
    intro t starts
    cases t with
    | epoch =>
        intro pc
        rw [pc] at epoch
        cases epoch
    | send r =>
        intro pc
        rw [sends r ((mem_slaves _ r).mpr starts)] at pc
        cases pc
    | recieve r c =>
        have weight := recieves (r, c) ((mem_connections _ r c).mpr starts)
        refine ⟨fun pc => ?_, fun pc => ?_⟩ <;> rw [pc] at weight <;> cases weight
  obtain ⟨e, leads, done⟩ := (sequencer_joins_iff (configuration .proposedMethod) ClientTime.writeRate d
    DatabaseAct.ofSequencer (fun _ own => own) (by decide) (by decide) reachable
    (fun r node => flags r (node_below _ r (by decide) node)) running
    (by rw [confirmed]; decide)).mpr able
  exact ⟨d, e, ran, leads, done⟩

end EpochReplication
