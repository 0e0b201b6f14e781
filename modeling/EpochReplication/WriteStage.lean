import EpochReplication.Placed
import EpochReplication.ThreadInvariant

set_option autoImplicit false

namespace EpochReplication

def mine (r c : Nat) (w : WireTx) : Bool := w.replicaId.toInt == r && w.clientId.toInt == c

def RecieveThread.hands (t : RecieveThread) : List WireTx :=
  match t.pc with
  | .adding tx => [tx.wire]
  | .acked tx => if t.recievedTxId < tx.id.toNat then [tx.wire] else []
  | _ => []

-- The writes of a connection between the ACK of the master and the report of the
-- own replica.
def flow (r c : Nat) (unfinished : List WireTx) (t : RecieveThread) : List WireTx :=
  unfinished.filter (mine r c) ++ t.hands

structure Unraised (t : ClientThread) : Prop where
  complete : t.tx.completeFlag = 0
  raised : t.raised = []

structure RaisedAt (confirmed : List Batch) (done : Nat) (t : ClientThread) (k i : Nat) : Prop where
  contained : ∃ batch tx, confirmed[k]? = some batch ∧ batch.txSet[i]? = some tx ∧ tx.wire = t.tx.wire
  executed : ((confirmed.take k).flatMap Batch.wire).length + i < done
  assigned : t.tx.assignedEpochId = Int16.ofInt k
  raised : t.raised = [(k, i)]

-- `work` is the flow of the connection.
inductive WriteStage (confirmed : List Batch) (done : Nat) (work : List WireTx) (slot : Option Nat) (c : Nat)
    (t : ClientThread) (m : RecieveThread) : Prop where
  | idle (kind : t.tx.type ≠ .writeOnly) (none : work = []) : WriteStage confirmed done work slot c t m
  | fresh (pc : t.pc = .registering) (none : work = []) (unraised : Unraised t) :
      WriteStage confirmed done work slot c t m
  | sent (write : t.tx.type = .writeOnly) (busy : t.pc ≠ .loop ∧ t.pc ≠ .receiving) (past : t.pc ≠ .registering)
      (parked : slot = some c) (none : work = []) (unraised : Unraised t) : WriteStage confirmed done work slot c t m
  | placed (write : t.tx.type = .writeOnly) (busy : t.pc ≠ .loop ∧ t.pc ≠ .receiving) (past : t.pc ≠ .registering)
      (parked : slot = some c) (settled : Settled m t.tx.id.toNat) (one : work = [t.tx.wire]) (unraised : Unraised t) :
      WriteStage confirmed done work slot c t m
  | raised (k i : Nat) (write : t.tx.type = .writeOnly) (past : t.pc ≠ .registering) (parked : slot = some c)
      (settled : Settled m t.tx.id.toNat) (none : work = []) (position : RaisedAt confirmed done t k i) :
      WriteStage confirmed done work slot c t m

theorem raised_at_mono (before after : List Batch) (done more k i : Nat) (t : ClientThread) (grown : before <+: after)
    (le : done ≤ more) (position : RaisedAt before done t k i) : RaisedAt after more t k i := by
  obtain ⟨⟨batch, tx, found, there, same⟩, executed, assigned, raised⟩ := position
  have inside := (List.getElem?_eq_some_iff.mp found).1
  have taken : after.take k = before.take k := by
    obtain ⟨rest, equal⟩ := grown
    rw [← equal, List.take_append_of_le_length (by omega)]
  exact ⟨⟨batch, tx, found_grown before after k batch grown found, there, same⟩,
    by rw [taken]; exact Nat.lt_of_lt_of_le executed le, assigned, raised⟩

theorem stage_mono (before after : List Batch) (done more : Nat) (work : List WireTx) (slot : Option Nat) (c : Nat)
    (t : ClientThread) (m n : RecieveThread) (grown : before <+: after) (le : done ≤ more)
    (settled : ∀ id, Settled m id → Settled n id) (stage : WriteStage before done work slot c t m) :
    WriteStage after more work slot c t n := by
  cases stage with
  | idle kind none => exact .idle kind none
  | fresh pc none unraised => exact .fresh pc none unraised
  | sent write busy past slot none unraised => exact .sent write busy past slot none unraised
  | placed write busy past slot held one unraised => exact .placed write busy past slot (settled _ held) one unraised
  | raised k i write past slot held none position =>
      exact .raised k i write past slot (settled _ held) none
        (raised_at_mono before after done more k i t grown le position)

theorem stage_moves (confirmed : List Batch) (done : Nat) (work : List WireTx) (slot : Option Nat) (c : Nat)
    (t next : ClientThread) (m : RecieveThread) (tx : next.tx = t.tx) (raised : next.raised = t.raised)
    (before : t.pc ≠ .registering) (after : next.pc ≠ .registering)
    (busy : t.pc ≠ .loop ∧ t.pc ≠ .receiving → next.pc ≠ .loop ∧ next.pc ≠ .receiving)
    (stage : WriteStage confirmed done work slot c t m) : WriteStage confirmed done work slot c next m := by
  have unraised : Unraised t → Unraised next := fun fresh => ⟨tx ▸ fresh.complete, raised ▸ fresh.raised⟩
  cases stage with
  | idle kind none => exact .idle (tx ▸ kind) none
  | fresh pc => exact absurd pc before
  | sent write hold past slot none fresh => exact .sent (tx ▸ write) (busy hold) after slot none (unraised fresh)
  | placed write hold past slot held one fresh =>
      exact .placed (tx ▸ write) (busy hold) after slot (tx ▸ held) (tx ▸ one) (unraised fresh)
  | raised k i write past slot held none position =>
      exact .raised k i (tx ▸ write) after slot (tx ▸ held) none
        ⟨tx ▸ position.contained, position.executed, tx ▸ position.assigned, raised ▸ position.raised⟩

theorem stage_between (confirmed : List Batch) (done : Nat) (work : List WireTx) (slot : Option Nat) (c : Nat)
    (t : ClientThread) (m : RecieveThread) (between : t.pc = .loop ∨ t.pc = .receiving)
    (stage : WriteStage confirmed done work slot c t m) : work = [] := by
  cases stage with
  | idle _ none | raised _ _ _ _ _ _ none => exact none
  | fresh pc =>
      rw [pc] at between
      rcases between with other | other <;> cases other
  | sent _ busy | placed _ busy => exact absurd between (not_or.mpr busy)

structure Answers (systemFinishRequest : Int) (t : ClientThread) : Prop where
  respond : t.pc = .responding → systemFinishRequest ≠ 1 → t.tx.completeFlag ≠ 0
  read : t.pc = .reading → t.tx.completeFlag = 0

theorem decoded_complete (layout : TxLayout) (msg : Buf) : (getTxFromBytes layout msg initTx).completeFlag = 0 := rfl

theorem answers_step (flag : Int) (net sent : List Packet) (r c : Nat) (conn next : Connection)
    (act : ClientInterface.Act) (values : flag = 0 ∨ flag = 1) (answers : Answers flag conn.thread)
    (step : ThreadStep flag net r c conn act next sent) : Answers flag next.thread := by
  cases step with
  | enter | leave | ignore | requestRead | requestWrite | giveUp | send | check | checkFinish | acknowledge | abandon
  | respond => exact ⟨by simp, by simp⟩
  | receive data recvMsg len rest tx pc took filled request decoded =>
      refine ⟨?_, fun _ => decoded ▸ decoded_complete requestTxLayout recvMsg⟩
      intro responding
      exfalso
      simp only at responding
      cases type : tx.type <;> simp [type, ClientInterface.afterRequest] at responding
  | poll i overtime ackMsg pc | pollNothing overtime pc =>
      refine ⟨?_, ?_⟩ <;> cases overtime <;> simp [ClientInterface.afterPoll]
  | spin pc => exact answers
  | complete pc free =>
      refine ⟨fun _ running => ?_, by simp⟩
      rcases free with done | stopped
      · exact done
      · rcases values with zero | one
        · exact absurd zero stopped
        · exact absurd one running

theorem stage_thread_step (confirmed : List Batch) (done : Nat) (work : List WireTx) (slot after : Option Nat)
    (flag : Int) (net sent : List Packet) (r c : Nat) (conn next : Connection) (act : ClientInterface.Act)
    (inv : ConnectionInv flag r c conn) (answers : Answers flag conn.thread)
    (kept : conn.thread.pc ≠ .registering → after = slot) (registered : conn.thread.pc = .registering → after = some c)
    (step : ThreadStep flag net r c conn act next sent)
    (stage : WriteStage confirmed done work slot c conn.thread conn.recieve) :
    WriteStage confirmed done work after c next.thread next.recieve := by
  cases step with
  | enter pc running | leave pc finish =>
      rw [kept (by simp [pc])]
      exact stage_moves confirmed done work slot c conn.thread _ conn.recieve rfl rfl (by simp [pc]) (by simp)
        (fun busy => absurd pc busy.1) stage
  | ignore data recvMsg len rest pc =>
      rw [kept (by simp [pc])]
      exact stage_moves confirmed done work slot c conn.thread _ conn.recieve rfl rfl (by simp [pc]) (by simp)
        (fun busy => absurd pc busy.2) stage
  | receive data recvMsg len rest tx pc took filled request decoded =>
      have none := stage_between confirmed done work slot c conn.thread conn.recieve (.inr pc) stage
      by_cases write : tx.type = .writeOnly
      · exact .fresh (by simp [write, ClientInterface.afterRequest]) none
          ⟨decoded ▸ decoded_complete requestTxLayout recvMsg, rfl⟩
      · exact .idle write none
  | requestRead pc =>
      rw [kept (by simp [pc])]
      exact stage_moves confirmed done work slot c conn.thread _ conn.recieve rfl rfl (by simp [pc]) (by simp)
        (fun _ => by simp) stage
  | requestWrite sendMsg recvMsg pc =>
      rw [registered pc]
      have write := inv.writes (.inl pc)
      cases stage with
      | fresh _ none unraised => exact .sent write (by simp) (by simp) rfl none ⟨unraised.complete, unraised.raised⟩
      | idle kind => exact absurd write kind
      | sent _ _ past | placed _ _ past | raised _ _ _ past => exact absurd pc past
  | giveUp pc | send pc | check pc | checkFinish pc | acknowledge _ _ _ _ pc | complete pc | abandon pc =>
      rw [kept (by simp [pc])]
      exact stage_moves confirmed done work slot c conn.thread _ conn.recieve rfl rfl (by simp [pc]) (by simp)
        (fun _ => by simp) stage
  | poll i overtime ackMsg pc | pollNothing overtime pc =>
      rw [kept (by simp [pc])]
      refine stage_moves confirmed done work slot c conn.thread _ conn.recieve rfl rfl (by simp [pc]) ?_ (fun _ => ?_) stage
      · cases overtime <;> simp [ClientInterface.afterPoll]
      · cases overtime <;> simp [ClientInterface.afterPoll]
  | spin pc =>
      rw [kept (by simp [pc])]
      exact stage
  | respond pc running =>
      rw [kept (by simp [pc])]
      have complete := answers.respond pc running
      cases stage with
      | idle kind none => exact .idle kind none
      | fresh _ _ unraised | sent _ _ _ _ _ unraised | placed _ _ _ _ _ _ unraised => exact absurd unraised.complete complete
      | raised k i write past slot held none position =>
          exact .raised k i write (by simp) slot held none
            ⟨position.contained, position.executed, position.assigned, position.raised⟩

theorem hands_of_idle (t : RecieveThread) (acked : ∀ tx, t.pc ≠ .acked tx) (adding : ∀ tx, t.pc ≠ .adding tx) :
    t.hands = [] := by
  unfold RecieveThread.hands
  split
  · rename_i tx pc
    exact absurd pc (adding tx)
  · rename_i tx pc
    exact absurd pc (acked tx)
  · rfl

theorem stage_receive_add (confirmed : List Batch) (done : Nat) (rest : List WireTx) (slot : Option Nat) (flag : Int)
    (c : Nat) (conn : Connection) (next : RecieveThread) (tx : Tx) (receiving : conn.recieve.pc = .receiving)
    (acked : next.pc = .acked tx) (same : next.recievedTxId = conn.recieve.recievedTxId)
    (current : Settled conn.recieve tx.id.toNat ∨ Outstanding flag conn.thread tx.wire)
    (stage : WriteStage confirmed done (rest ++ conn.recieve.hands) slot c conn.thread conn.recieve) :
    WriteStage confirmed done (rest ++ next.hands) slot c conn.thread next := by
  have settled := settled_same conn.recieve next same (by simp [receiving])
  have before : conn.recieve.hands = [] := hands_of_idle conn.recieve (by simp [receiving]) (by simp [receiving])
  by_cases fresh : conn.recieve.recievedTxId < tx.id.toNat
  · have after : next.hands = [tx.wire] := by
      simp only [RecieveThread.hands, acked, same, if_pos fresh]
    have unsettled : ¬ Settled conn.recieve tx.id.toNat := by
      rintro (old | ⟨other, pc, _⟩)
      · omega
      · rw [receiving] at pc
        cases pc
    obtain ⟨wire, write, still⟩ := current.resolve_left unsettled
    have id : conn.thread.tx.id = tx.id := congrArg WireTx.id wire
    have type : conn.thread.tx.type = .writeOnly := (congrArg WireTx.type wire).trans write
    rw [before, List.append_nil] at stage
    cases stage with
    | idle kind => exact absurd type kind
    | fresh pc =>
        rw [pc] at still
        simp [ClientThreadPc.retransmits, ClientThreadPc.completes] at still
    | sent _ busy past parked none unraised =>
        exact .placed type busy past parked (.inr ⟨tx, acked, by rw [id]⟩) (by rw [none, after, wire]; rfl) unraised
    | placed _ _ _ _ held => exact absurd (id ▸ held) unsettled
    | raised _ _ _ _ _ held => exact absurd (id ▸ held) unsettled
  · have after : next.hands = [] := by
      simp only [RecieveThread.hands, acked, same, if_neg fresh]
    rw [after, ← before]
    exact stage_mono confirmed confirmed done done _ slot c conn.thread conn.recieve next (List.prefix_refl _)
      (Nat.le_refl _) settled stage

theorem stage_recieve_step (confirmed : List Batch) (done : Nat) (rest : List WireTx) (slot : Option Nat)
    (masterFlag flag : Int) (net sent : List Packet) (r c : Nat) (conn : Connection) (t : RecieveThread)
    (act : RecieveAct) (kind : ∀ batch, act ≠ .add batch) (inv : ConnectionInv flag r c conn)
    (packets : ∀ packet ∈ net, packet.dst = .recieveTx r c → PacketOf flag r c conn packet)
    (step : RecieveStep masterFlag net r c conn.recieve act t sent)
    (stage : WriteStage confirmed done (rest ++ conn.recieve.hands) slot c conn.thread conn.recieve) :
    WriteStage confirmed done (rest ++ t.hands) slot c conn.thread t := by
  have settled := (recieve_inv_step masterFlag flag net sent r c conn t act inv packets step).2.1.settled
  have moves : t.hands = conn.recieve.hands → WriteStage confirmed done (rest ++ t.hands) slot c conn.thread t := by
    intro same
    rw [same]
    exact stage_mono confirmed confirmed done done _ slot c conn.thread conn.recieve t (List.prefix_refl _)
      (Nat.le_refl _) settled stage
  cases step with
  | wait => exact stage
  | start pc | enter pc | leave pc | ignore _ _ _ pc =>
      exact moves (by rw [hands_of_idle conn.recieve (by simp [pc]) (by simp [pc])]; rfl)
  | receive i packet recvMsg tx pc found dst filled add decoded =>
      obtain ⟨_, _, current⟩ := delivered_add flag r c conn packet _ recvMsg tx
        (packets packet (List.mem_of_getElem? found) dst) dst filled decoded
      exact stage_receive_add confirmed done rest slot flag c conn _ tx pc rfl rfl current stage
  | discard tx pc old =>
      refine moves ?_
      have none : conn.recieve.hands = [] := by
        simp only [RecieveThread.hands, pc]
        rw [if_neg (by omega)]
      rw [none]
      rfl
  | accept tx pc fresh write =>
      refine moves ?_
      simp only [RecieveThread.hands, pc]
      rw [if_pos fresh]
  | quit tx pc fresh other => exact absurd (inv.hands tx (.inl pc)).write other
  | retry _ batch | add _ batch => exact absurd rfl (kind batch)

theorem stage_touch_other (confirmed : List Batch) (done : Nat) (work : List WireTx) (slot : Option Nat) (c : Nat)
    (t : ClientThread) (m : RecieveThread) (act : TxAct) (kind : t.tx.type ≠ .writeOnly)
    (stage : WriteStage confirmed done work slot c t m) :
    WriteStage confirmed done work slot c (waitForTx t act) m := by
  have same : (waitForTx t act).tx.type = t.tx.type := by cases act <;> rfl
  cases stage with
  | idle _ none => exact .idle (same ▸ kind) none
  | fresh pc none unraised => exact .idle (same ▸ kind) none
  | sent write | placed write | raised _ _ write => exact absurd write kind

theorem stage_carries (confirmed : List Batch) (done : Nat) (work : List WireTx) (slot : Option Nat) (c : Nat)
    (t : ClientThread) (m : RecieveThread) (w : WireTx) (rest : List WireTx) (some_work : work = w :: rest)
    (stage : WriteStage confirmed done work slot c t m) :
    w = t.tx.wire ∧ rest = [] ∧ t.tx.type = .writeOnly ∧ slot = some c ∧ t.pc ≠ .registering ∧ t.pc ≠ .loop ∧
      t.pc ≠ .receiving ∧ Unraised t ∧ Settled m t.tx.id.toNat := by
  subst some_work
  cases stage with
  | idle _ none | fresh _ none | sent _ _ _ _ none | raised _ _ _ _ _ _ none => cases none
  | placed write busy past parked settled one unraised =>
      obtain ⟨same, empty⟩ := List.cons.inj one
      exact ⟨same, empty, write, parked, past, busy.1, busy.2, unraised, settled⟩

theorem stage_touch_assign (confirmed : List Batch) (done : Nat) (slot : Option Nat) (c : Nat) (t : ClientThread)
    (m : RecieveThread) (epochId : Int16) (w : WireTx) (rest : List WireTx)
    (stage : WriteStage confirmed done (w :: rest) slot c t m) :
    WriteStage confirmed done (w :: rest) slot c (waitForTx t (.assign epochId)) m := by
  obtain ⟨rfl, rfl, write, parked, past, loop, receiving, unraised, settled⟩ :=
    stage_carries confirmed done (w :: rest) slot c t m w rest rfl stage
  exact .placed write ⟨loop, receiving⟩ past parked settled rfl ⟨unraised.complete, unraised.raised⟩

theorem stage_touch_raise (confirmed : List Batch) (done k i : Nat) (slot : Option Nat) (c : Nat) (t : ClientThread)
    (m : RecieveThread) (w : WireTx) (rest : List WireTx) (batch : Batch) (tx : Tx) (found : confirmed[k]? = some batch)
    (there : batch.txSet[i]? = some tx) (same : tx.wire = w)
    (executed : ((confirmed.take k).flatMap Batch.wire).length + i < done) (assigned : t.tx.assignedEpochId = Int16.ofInt k)
    (stage : WriteStage confirmed done (w :: rest) slot c t m) :
    WriteStage confirmed done rest slot c (waitForTx t (.raise (some (k, i)))) m := by
  obtain ⟨rfl, rfl, write, parked, past, loop, receiving, unraised, settled⟩ :=
    stage_carries confirmed done (w :: rest) slot c t m w rest rfl stage
  refine .raised k i write past parked settled rfl ⟨⟨batch, tx, found, there, same⟩, executed, assigned, ?_⟩
  simp only [waitForTx, unraised.raised]
  rfl

end EpochReplication
