import EpochReplication.WriteStage

set_option autoImplicit false

namespace EpochReplication

def ReadPc.pointer : ReadPc → Option Nat
  | .reading c | .raising c => some c
  | _ => none

def Database.readers (d : Database) (r : Nat) : List Nat :=
  (d.replicas.exec r).readPc.pointer.toList ++ (d.intake.readTxBuffer r).pending

structure ReadWaits (t : ClientThread) : Prop where
  kind : t.tx.type = .readOnly
  complete : t.tx.completeFlag = 0
  waits : t.pc.completes = true ∨ t.pc = .returned

structure ReadsInv (p : Deployment) (r : Nat) (readers : List Nat) (conn : Nat × Nat → Connection) : Prop where
  once : readers.Nodup
  waits : ∀ c ∈ readers, p.IsConnection r c ∧ ReadWaits (conn (r, c)).thread

structure FromClient (p : Deployment) (w : WireTx) : Prop where
  issued : ∃ r c, p.IsConnection r c ∧ IssuedBy r c w
  write : w.type = .writeOnly

def Reports (s : Replicas) (conn : Nat × Nat → Connection) (r : Nat) : Prop :=
  match (s.exec r).writePc with
  | .fetching batch i => ∃ tx, batch.txSet[i]? = some tx ∧ tx.replicaId.toInt = r
  | .assigning batch i c => ∃ tx, batch.txSet[i]? = some tx ∧ tx.replicaId.toInt = r ∧ tx.clientId.toInt = c
  | .raising batch i c =>
      (∃ tx, batch.txSet[i]? = some tx ∧ tx.replicaId.toInt = r ∧ tx.clientId.toInt = c) ∧
        (conn (r, c)).thread.tx.assignedEpochId = Int16.ofInt (s.exec r).epoch
  | .crashed => False
  | _ => True

def Database.stage (d : Database) (r c : Nat) : Prop :=
  WriteStage d.replicas.sequencers.master.confirmed (d.replicas.executedBy r).length
    (flow r c (d.replicas.unfinished r) (d.intake.conn (r, c)).recieve) (d.intake.waitForExe r c) c
    (d.intake.conn (r, c)).thread (d.intake.conn (r, c)).recieve

structure DatabaseInv (p : Deployment) (d : Database) : Prop where
  flags : ∀ r, r ≠ 0 → d.intake.flag r = 0 ∨ d.intake.flag r = 1
  conns : ∀ r c, p.IsConnection r c → ConnectionInv (d.intake.flag r) r c (d.intake.conn (r, c))
  net : ∀ packet ∈ d.intake.net,
    ∃ r c, p.IsConnection r c ∧ PacketOf (d.intake.flag r) r c (d.intake.conn (r, c)) packet
  answers : ∀ r c, p.IsConnection r c → Answers (d.intake.flag r) (d.intake.conn (r, c)).thread
  stages : ∀ r c, p.IsConnection r c → d.stage r c
  reports : ∀ r, p.IsNode r → Reports d.replicas d.intake.conn r
  reads : ∀ r, ReadsInv p r (d.readers r) d.intake.conn
  placed : ∀ w ∈ d.replicas.sequencers.master.placed, FromClient p w

theorem connection_node (p : Deployment) (r c : Nat) (connection : p.IsConnection r c) : p.IsNode r := .inr connection.1

theorem connection_not_master (p : Deployment) (r c : Nat) (connection : p.IsConnection r c) : r ≠ 0 :=
  Nat.ne_of_gt connection.1.1

theorem connection_inv_initial (p : Deployment) (flag : Int) (r c : Nat) :
    ConnectionInv flag r c ((Intake.initial p).conn (r, c)) := by
  refine ⟨.choosing rfl rfl rfl rfl, ?_, ?_, ?_, ?_, ?_, ?_, ?_, ?_, Int.le_refl _⟩ <;>
    simp [Intake.initial, ClientThreadPc.retransmits, ClientThreadPc.completes]

theorem stage_initial (p : Deployment) (r c : Nat) : (Database.initial p).stage r c := by
  have none : (Replicas.initial p).unfinished r = [] := by
    simp [Replicas.unfinished, Replicas.initial, Exec.initial, WritePc.reporting, Master.placed, Sequencers.initial,
      EpochPc.swapped, Batch.wire]
  refine .idle (by simp [Database.initial, Intake.initial, createTx, initTx]) ?_
  simp [Database.initial, flow, none, Intake.initial, RecieveThread.hands]

theorem database_inv_initial (p : Deployment) : DatabaseInv p (Database.initial p) where
  flags := fun _ not_master => .inl (if_neg not_master)
  conns := fun r c _ => connection_inv_initial p _ r c
  net := by simp [Database.initial, Intake.initial]
  answers := fun r c _ => ⟨by simp [Database.initial, Intake.initial], by simp [Database.initial, Intake.initial]⟩
  stages := fun r c _ => stage_initial p r c
  reports := fun _ _ => trivial
  reads := by
    intro r
    refine ⟨?_, ?_⟩ <;> simp [Database.initial, Database.readers, Replicas.initial, Exec.initial, ReadPc.pointer,
      Intake.initial]
  placed := by simp [Database.initial, Replicas.initial, Master.placed, Sequencers.initial, EpochPc.swapped, Batch.wire]

theorem update_conn (p : Deployment) (conns : Nat × Nat → Connection) (r c : Nat) (conn : Connection)
    (property : Nat → Nat → Connection → Prop) (here : property r c conn)
    (elsewhere : ∀ q e, p.IsConnection q e → (q, e) ≠ (r, c) → property q e (conns (q, e))) (q e : Nat)
    (connection : p.IsConnection q e) : property q e (Function.update conns (r, c) conn (q, e)) := by
  by_cases same : (q, e) = (r, c)
  · cases same
    rw [Function.update_self]
    exact here
  · rw [Function.update_of_ne same]
    exact elsewhere q e connection same

theorem update_view {β : Type} (view : Connection → β) (conns : Nat × Nat → Connection) (r c q e : Nat) (conn : Connection)
    (same : view conn = view (conns (r, c))) :
    view (Function.update conns (r, c) conn (q, e)) = view (conns (q, e)) := by
  by_cases here : (q, e) = (r, c)
  · rw [here, Function.update_self, same]
  · rw [Function.update_of_ne here]

theorem net_update (p : Deployment) (d : Database) (r c : Nat) (conn : Connection) (inv : DatabaseInv p d)
    (kept : PacketsKept (d.intake.flag r) (d.intake.flag r) (d.intake.conn (r, c)) conn) (packet : Packet)
    (member : packet ∈ d.intake.net) :
    ∃ q e, p.IsConnection q e ∧
      PacketOf (d.intake.flag q) q e (Function.update d.intake.conn (r, c) conn (q, e)) packet := by
  obtain ⟨q, e, connection, of⟩ := inv.net packet member
  refine ⟨q, e, connection, ?_⟩
  by_cases same : (q, e) = (r, c)
  · cases same
    rw [Function.update_self]
    exact packet_kept _ _ r c _ conn packet kept of
  · rw [Function.update_of_ne same]
    exact of

theorem packets_of_thread (p : Deployment) (d : Database) (r c : Nat) (inv : DatabaseInv p d) (packet : Packet)
    (member : packet ∈ d.intake.net) (dst : packet.dst = .clientThread r c) :
    PacketOf (d.intake.flag r) r c (d.intake.conn (r, c)) packet := by
  obtain ⟨q, e, _, of⟩ := inv.net packet member
  cases of with
  | add => cases dst
  | ack id buf settled =>
      injection dst with replica client
      subst replica
      subst client
      exact .ack id buf settled

theorem packets_of_recieve (p : Deployment) (d : Database) (r c : Nat) (inv : DatabaseInv p d) (packet : Packet)
    (member : packet ∈ d.intake.net) (dst : packet.dst = .recieveTx r c) :
    PacketOf (d.intake.flag r) r c (d.intake.conn (r, c)) packet := by
  obtain ⟨q, e, _, of⟩ := inv.net packet member
  cases of with
  | ack => cases dst
  | add tx buf submitted current =>
      injection dst with replica client
      obtain rfl : q = r := by omega
      obtain rfl : e = c := by omega
      exact .add tx buf submitted current

theorem reads_update (p : Deployment) (q r c : Nat) (readers : List Nat) (conns : Nat × Nat → Connection)
    (conn : Connection) (kept : q = r → c ∈ readers → ReadWaits (conns (r, c)).thread → ReadWaits conn.thread)
    (inv : ReadsInv p q readers conns) :
    ReadsInv p q readers (Function.update conns (r, c) conn) := by
  refine ⟨inv.once, ?_⟩
  intro e member
  obtain ⟨connection, waits⟩ := inv.waits e member
  refine ⟨connection, ?_⟩
  by_cases same : (q, e) = (r, c)
  · cases same
    rw [Function.update_self]
    exact kept rfl member waits
  · rw [Function.update_of_ne same]
    exact waits

theorem reports_update (s : Replicas) (q r c : Nat) (conns : Nat × Nat → Connection) (conn : Connection)
    (assigned : ∀ batch i, (s.exec r).writePc = .raising batch i c →
      conn.thread.tx.assignedEpochId = (conns (r, c)).thread.tx.assignedEpochId)
    (inv : Reports s conns q) : Reports s (Function.update conns (r, c) conn) q := by
  unfold Reports at inv ⊢
  split
  · rename_i batch i pc
    rw [pc] at inv
    exact inv
  · rename_i batch i e pc
    rw [pc] at inv
    exact inv
  · rename_i batch i e pc
    rw [pc] at inv
    obtain ⟨own, epoch⟩ := inv
    refine ⟨own, ?_⟩
    by_cases same : (q, e) = (r, c)
    · cases same
      rw [Function.update_self, assigned batch i pc]
      exact epoch
    · rw [Function.update_of_ne same]
      exact epoch
  · rename_i pc
    rw [pc] at inv
    exact inv
  · trivial

theorem database_nodes_step (p : Deployment) (writeRate : Nat) (d next : Database) (act : DatabaseAct)
    (taken : Database.step p writeRate d act = some next) : next.replicas = d.replicas ∨
      ∃ q inner, Replicas.step p d.replicas (d.intake.flag q, inner) = some next.replicas ∧
        ∀ a, inner = .sequencers a → q = a.node ∧ (act = .sequencers a ∨ ∃ tx, a = .addWriteTx tx) := by
  cases database_step_cases p writeRate d next act taken with
  | start | finish | client | thread | recieve => exact .inl rfl
  | addWriteTx r c tx recieve sent replicas connection running pc step moved =>
      exact .inr ⟨0, _, moved, fun a same => (by cases same; exact ⟨rfl, .inr ⟨tx, rfl⟩⟩)⟩
  | sequencers act replicas kind moved =>
      exact .inr ⟨_, _, moved, fun a same => (by cases same; exact ⟨rfl, .inl rfl⟩)⟩
  | takeBatch r replicas moved | writeLoop r replicas moved | write r replicas moved | readLoop r replicas moved
  | takeRead r replicas moved => exact .inr ⟨r, _, moved, fun a same => (by cases same)⟩
  | fetch r i batch tx replicas pc found moved => exact .inr ⟨r, _, moved, fun a same => (by cases same)⟩
  | assign r i c batch replicas pc moved | raise r i c batch replicas pc moved =>
      exact .inr ⟨r, _, moved, fun a same => (by cases same)⟩
  | readOut r c replicas pc out moved => exact .inr ⟨r, _, moved, fun a same => (by cases same)⟩
  | read r c value replicas pc found moved => exact .inr ⟨r, _, moved, fun a same => (by cases same)⟩
  | raiseRead r c replicas pc moved => exact .inr ⟨r, _, moved, fun a same => (by cases same)⟩

theorem database_flag_step (p : Deployment) (writeRate : Nat) (d next : Database) (act : DatabaseAct) (q : Nat)
    (taken : Database.step p writeRate d act = some next) : next.intake.flag q = d.intake.flag q ∨
      next.intake.flag q = 1 ∨ (q = 0 ∧ d.intake.flag q ≠ 1 ∧ next.intake.flag q = 0 ∧ next.replicas = d.replicas) := by
  cases database_step_cases p writeRate d next act taken with
  | start live =>
      by_cases here : q = 0
      · subst here
        exact .inr (.inr ⟨rfl, live, by simp, rfl⟩)
      · exact .inl (by simp [here])
  | finish r =>
      by_cases here : q = r
      · exact .inr (.inl (by simp [Intake.finish, here]))
      · exact .inl (by simp [Intake.finish, here])
  | takeRead =>
      unfold Intake.takeRead
      split <;> exact .inl rfl
  | client | thread | recieve | addWriteTx | sequencers | takeBatch | writeLoop | write | fetch | assign | raise
  | readLoop | readOut | read | raiseRead => exact .inl rfl

inductive Touches (d : Database) (r c : Nat) : DatabaseAct → TxAct → Prop where
  | assign (batch : Batch) (i : Nat) (pc : (d.replicas.exec r).writePc = .assigning batch i c) :
      Touches d r c (.assign r) (.assign (Int16.ofInt (d.replicas.exec r).epoch))
  | raise (batch : Batch) (i : Nat) (pc : (d.replicas.exec r).writePc = .raising batch i c) :
      Touches d r c (.raise r) (.raise (some ((d.replicas.exec r).epoch.toNat, i)))
  | value (value : Int) (pc : (d.replicas.exec r).readPc = .reading c)
      (found : readFromStorage (d.replicas.exec r).storage (d.intake.conn (r, c)).thread.tx.key = some value) :
      Touches d r c (.read r) (.value value)
  | raiseRead (pc : (d.replicas.exec r).readPc = .raising c) : Touches d r c (.raiseRead r) (.raise none)

inductive ConnStep (p : Deployment) (writeRate : Nat) (d next : Database) (r c : Nat) : DatabaseAct → Prop where
  | same (act : DatabaseAct) (other : ∀ own, act ≠ .client r c own) (quiet : ∀ tx, ¬ Touches d r c act tx)
      (conn : next.intake.conn (r, c) = d.intake.conn (r, c)) (still : ∀ own, act ≠ .thread r c own) :
      ConnStep p writeRate d next r c act
  | client (act : ClientTime.Act) (after : Connection) (connection : p.IsConnection r c)
      (step : ClientStep writeRate r c (d.intake.conn (r, c)) act after) (conn : next.intake.conn (r, c) = after) :
      ConnStep p writeRate d next r c (.client r c act)
  | thread (act : ClientInterface.Act) (after : Connection) (sent : List Packet) (connection : p.IsConnection r c)
      (step : ThreadStep (d.intake.flag r) d.intake.net r c (d.intake.conn (r, c)) act after sent)
      (conn : next.intake.conn (r, c) = after) : ConnStep p writeRate d next r c (.thread r c act)
  | recieve (act : DatabaseAct) (inner : RecieveAct) (recieve : RecieveThread) (sent : List Packet)
      (from_ : act = .recieve r c inner ∨ act = .addWriteTx r c ∧ ∃ batch, inner = .add batch)
      (step : RecieveStep (d.intake.flag 0) d.intake.net r c (d.intake.conn (r, c)).recieve inner recieve sent)
      (conn : next.intake.conn (r, c) = { d.intake.conn (r, c) with recieve := recieve }) :
      ConnStep p writeRate d next r c act
  | touch (act : DatabaseAct) (tx : TxAct) (touches : Touches d r c act tx)
      (conn : next.intake.conn (r, c) =
        { d.intake.conn (r, c) with thread := waitForTx (d.intake.conn (r, c)).thread tx }) :
      ConnStep p writeRate d next r c act

theorem touches_one (d : Database) (act : DatabaseAct) (r c q e : Nat) (tx other : TxAct) (one : Touches d q e act tx)
    (also : Touches d r c act other) : (q, e) = (r, c) := by
  cases one with
  | assign batch i pc =>
      cases also with
      | assign _ _ same => cases pc.symm.trans same; rfl
  | raise batch i pc =>
      cases also with
      | raise _ _ same => cases pc.symm.trans same; rfl
  | value value pc =>
      cases also with
      | value _ same => cases pc.symm.trans same; rfl
  | raiseRead pc =>
      cases also with
      | raiseRead same => cases pc.symm.trans same; rfl

theorem touch_conn_step (p : Deployment) (writeRate : Nat) (d next : Database) (act : DatabaseAct) (r c q e : Nat)
    (tx : TxAct) (touches : Touches d q e act tx)
    (conn : next.intake.conn = Function.update d.intake.conn (q, e)
      { d.intake.conn (q, e) with thread := waitForTx (d.intake.conn (q, e)).thread tx }) :
    ConnStep p writeRate d next r c act := by
  by_cases here : (q, e) = (r, c)
  · cases here
    exact .touch act tx touches (by rw [conn, Function.update_self])
  · refine .same act ?_ (fun other also => here (touches_one d act r c q e tx other touches also)) ?_ ?_
    · cases touches <;> simp
    · rw [conn, Function.update_of_ne (Ne.symm here)]
    · cases touches <;> simp

theorem database_conn_step (p : Deployment) (writeRate : Nat) (d next : Database) (act : DatabaseAct) (r c : Nat)
    (taken : Database.step p writeRate d act = some next) : ConnStep p writeRate d next r c act := by
  have away : ∀ (q e : Nat) (conn : Connection), (q, e) ≠ (r, c) →
      Function.update d.intake.conn (q, e) conn (r, c) = d.intake.conn (r, c) :=
    fun q e conn different => Function.update_of_ne (Ne.symm different) conn d.intake.conn
  cases database_step_cases p writeRate d next act taken with
  | start | finish | sequencers | takeBatch | writeLoop | write | fetch | readLoop =>
      exact .same _ (by simp) (fun tx touches => (by cases touches)) rfl (by simp)
  | takeRead =>
      refine .same _ (by simp) (fun tx touches => (by cases touches)) ?_ (by simp)
      unfold Intake.takeRead
      split <;> rfl
  | client q e act conn connection step =>
      by_cases here : (q, e) = (r, c)
      · cases here
        exact .client act conn connection step (Function.update_self _ _ _)
      · exact .same _ (fun own equal => here (by cases equal; rfl)) (fun tx touches => (by cases touches))
          (away q e conn here) (by simp)
  | thread q e act conn sent connection running step =>
      by_cases here : (q, e) = (r, c)
      · cases here
        exact .thread act conn sent connection step (Function.update_self _ _ _)
      · exact .same _ (by simp) (fun tx touches => (by cases touches)) (away q e conn here)
          (fun own equal => here (by cases equal; rfl))
  | recieve q e act recieve sent kind connection running step =>
      by_cases here : (q, e) = (r, c)
      · cases here
        exact .recieve _ act recieve sent (.inl rfl) step (Function.update_self _ _ _)
      · exact .same _ (by simp) (fun tx touches => (by cases touches)) (away q e _ here) (by simp)
  | addWriteTx q e tx recieve sent replicas connection running pc step moved =>
      by_cases here : (q, e) = (r, c)
      · cases here
        exact .recieve _ _ recieve sent (.inr ⟨rfl, _, rfl⟩) step (Function.update_self _ _ _)
      · exact .same _ (by simp) (fun tx touches => (by cases touches)) (away q e _ here) (by simp)
  | assign q i e batch replicas pc moved =>
      exact touch_conn_step p writeRate d _ _ r c q e _ (.assign batch i pc) rfl
  | raise q i e batch replicas pc moved =>
      exact touch_conn_step p writeRate d _ _ r c q e _ (.raise batch i pc) rfl
  | readOut q e replicas pc out moved =>
      refine .same _ (by simp) (fun tx touches => ?_) rfl (by simp)
      cases touches with
      | value value at_pc found =>
          rw [pc] at at_pc
          cases at_pc
          rw [out] at found
          cases found
  | read q e value replicas pc found moved =>
      exact touch_conn_step p writeRate d _ _ r c q e _ (.value value pc found) rfl
  | raiseRead q e replicas pc moved =>
      exact touch_conn_step p writeRate d _ _ r c q e _ (.raiseRead pc) rfl

theorem database_recieve_step (p : Deployment) (writeRate : Nat) (d next : Database) (act : DatabaseAct) (r c : Nat)
    (taken : Database.step p writeRate d act = some next) :
    (next.intake.conn (r, c)).recieve = (d.intake.conn (r, c)).recieve ∨
      ∃ inner sent, RecieveStep (d.intake.flag 0) d.intake.net r c (d.intake.conn (r, c)).recieve inner
          (next.intake.conn (r, c)).recieve sent ∧
        (act = .recieve r c inner ∨ ∃ batch, inner = .add batch) := by
  cases database_conn_step p writeRate d next act r c taken with
  | same act other quiet conn => exact .inl (by rw [conn])
  | client act after connection step conn =>
      rw [conn]
      exact .inl (by cases step <;> rfl)
  | thread act after sent connection step conn =>
      rw [conn]
      exact .inl (by cases step <;> rfl)
  | recieve act inner recieve sent from_ step conn =>
      exact .inr ⟨inner, sent, by rw [conn]; exact step, from_.imp_right And.right⟩
  | touch act tx touches conn => exact .inl (by rw [conn])

end EpochReplication
