import EpochReplication.Lib.Progress
import EpochReplication.ThreadsStay

set_option autoImplicit false

namespace EpochReplication

def ClientInterface.Act.packet : ClientInterface.Act → Option Nat
  | .poll i _ => some i
  | _ => none

structure NetsGrow (d next : Database) : Prop where
  packets : d.intake.net <+: next.intake.net
  datagrams : d.replicas.sequencers.net <+: next.replicas.sequencers.net

theorem nets_grow_trans (d next last : Database) (first : NetsGrow d next) (rest : NetsGrow next last) : NetsGrow d last :=
  ⟨first.packets.trans rest.packets, first.datagrams.trans rest.datagrams⟩

theorem sequencers_net_grows (p : Deployment) (s t : Sequencers) (act : Int × SequencersAct)
    (taken : Sequencers.step p s act = some t) : s.net <+: t.net := by
  cases sequencers_step_cases p s t act taken with
  | epoch | epochExit | addWriteTx | sendExit | slaveExit | takeMaster | takeSlave => exact List.prefix_refl _
  | send | slave => exact List.prefix_append _ _

theorem nets_grow_step (p : Deployment) (writeRate : Nat) (d next : Database) (act : DatabaseAct)
    (taken : Database.step p writeRate d act = some next) : NetsGrow d next := by
  refine ⟨?_, ?_⟩
  · cases database_step_cases p writeRate d next act taken with
    | thread | recieve | addWriteTx => exact List.prefix_append _ _
    | takeRead =>
        unfold Intake.takeRead
        split <;> exact List.prefix_refl _
    | start | finish | client | sequencers | takeBatch | writeLoop | write | fetch | assign | raise | readLoop | readOut
    | read | raiseRead => exact List.prefix_refl _
  · rcases (database_projects p writeRate).step d act next taken with same | ⟨label, moved⟩
    · exact same ▸ List.prefix_refl _
    · rcases (replicas_projects p).step _ label _ moved with same | ⟨inner, stepped⟩
      · exact same ▸ List.prefix_refl _
      · exact sequencers_net_grows p _ _ inner stepped

theorem nets_grow_leads (p : Deployment) (writeRate : Nat) (allowed : DatabaseAct → Prop) (d next : Database)
    (leads : (database p writeRate).Leads allowed d next) : NetsGrow d next :=
  Machine.leads_relates (database p writeRate) allowed NetsGrow (fun _ => ⟨List.prefix_refl _, List.prefix_refl _⟩)
    nets_grow_trans (fun s act t _ taken => nets_grow_step p writeRate s t act taken) d next leads

theorem node_below (p : Deployment) (r : Nat) (some : 0 < p.replicaNum) (node : p.IsNode r) : r < p.replicaNum := by
  rcases node with rfl | replica
  · exact some
  · exact replica.2

structure Alive (p : Deployment) (writeRate r c : Nat) (client : Client) (d : Database) : Prop where
  reachable : (database p writeRate).Reachable d
  connection : p.IsConnection r c
  flag : d.intake.flag r = 0
  works : (d.replicas.sequencers.slave r).pc = .loop ∨ (d.replicas.sequencers.slave r).pc = .receiving
  client : (d.intake.conn (r, c)).client = client

theorem alive_running (p : Deployment) (writeRate r c : Nat) (client : Client) (d : Database)
    (alive : Alive p writeRate r c client d) : d.running r = true := by
  simp only [Database.running, Sequencers.running, if_neg (connection_not_master p r c alive.connection)]
  rcases alive.works with pc | pc <;> rw [pc] <;> rfl

theorem alive_of_running (p : Deployment) (writeRate r c : Nat) (d : Database) (reachable : (database p writeRate).Reachable d)
    (connection : p.IsConnection r c) (flag : d.intake.flag r = 0) (running : d.running r = true) :
    Alive p writeRate r c (d.intake.conn (r, c)).client d :=
  ⟨reachable, connection, flag, replica_works p writeRate r d reachable connection.1 flag running, rfl⟩

structure ThreadMoved (r c : Nat) (d : Database) (conn : Connection) (sent : List Packet) (next : Database) : Prop where
  conn : next.intake.conn (r, c) = conn
  replicas : next.replicas = d.replicas
  flag : next.intake.flag = d.intake.flag
  net : next.intake.net = d.intake.net ++ sent

section

variable (p : Deployment) (writeRate r c : Nat) (client : Client) (allowed : DatabaseAct → Prop)

theorem thread_taken (d : Database) (act : ClientInterface.Act) (conn : Connection) (sent : List Packet)
    (alive : Alive p writeRate r c client d)
    (done : ClientInterface.clientThread 0 d.intake.net r c (d.intake.conn (r, c)) act = some (conn, sent)) :
    ∃ next, Database.step p writeRate d (.thread r c act) = some next ∧ Alive p writeRate r c client next ∧
      ThreadMoved r c d conn sent next := by
  have ready : p.IsConnection r c ∧ d.running r = true := ⟨alive.connection, alive_running p writeRate r c client d alive⟩
  have moved : d.intake.threadStep r c act = some
      { flag := d.intake.flag
        conn := Function.update d.intake.conn (r, c) conn
        waitForExe := d.intake.registered r c act
        readTxBuffer := d.intake.requestedReads r c act
        net := d.intake.net ++ sent } := by
    simp only [Intake.threadStep, alive.flag, done, Option.map_some]
  have taken : Database.step p writeRate d (.thread r c act) = some
      { d with
        intake :=
          { flag := d.intake.flag
            conn := Function.update d.intake.conn (r, c) conn
            waitForExe := d.intake.registered r c act
            readTxBuffer := d.intake.requestedReads r c act
            net := d.intake.net ++ sent } } := by
    simp only [Database.step, if_pos ready, moved, Option.map_some]
  have kept : conn.client = (d.intake.conn (r, c)).client := by
    have step := thread_step_of_some _ _ sent r c _ conn act done
    cases step <;> rfl
  refine ⟨_, taken, ?_, ⟨?_, rfl, rfl, rfl⟩⟩
  · refine ⟨.step d _ (.thread r c act) alive.reachable taken, alive.connection, alive.flag, alive.works, ?_⟩
    simp only [Function.update_self]
    exact kept.trans alive.client
  · simp only [Function.update_self]

theorem thread_moves (d : Database) (act : ClientInterface.Act) (conn : Connection) (sent : List Packet)
    (kind : allowed (.thread r c act)) (alive : Alive p writeRate r c client d)
    (done : ClientInterface.clientThread 0 d.intake.net r c (d.intake.conn (r, c)) act = some (conn, sent)) :
    ∃ next, (database p writeRate).Leads allowed d next ∧ Alive p writeRate r c client next ∧
      ThreadMoved r c d conn sent next := by
  obtain ⟨next, taken, moved⟩ := thread_taken p writeRate r c client d act conn sent alive done
  exact ⟨next, Machine.leads_one _ allowed d next (.thread r c act) kind taken, moved⟩

variable (threads : ∀ act, act.packet = none → allowed (.thread r c act))

include threads

theorem request_taken (d : Database) (alive : Alive p writeRate r c client d) (waiting : client.pc = .waiting)
    (idle : (d.intake.conn (r, c)).thread.pc.idle = true) (up : (d.intake.conn (r, c)).toServer.pending ≠ []) :
    ∃ next, (database p writeRate).Leads allowed d next ∧ Alive p writeRate r c client next ∧
      (next.intake.conn (r, c)).thread.pc = ClientInterface.afterRequest client.sendTx.type ∧
      next.replicas = d.replicas ∧ next.intake.flag = d.intake.flag := by
  have receives : ∀ d, Alive p writeRate r c client d → (d.intake.conn (r, c)).thread.pc = .receiving →
      (d.intake.conn (r, c)).toServer.pending ≠ [] →
      ∃ next, (database p writeRate).Leads allowed d next ∧ Alive p writeRate r c client next ∧
        (next.intake.conn (r, c)).thread.pc = ClientInterface.afterRequest client.sendTx.type ∧
        next.replicas = d.replicas ∧ next.intake.flag = d.intake.flag := by
    intro d alive pc up
    have inv := (database_inv_reachable p writeRate d alive.reachable).conns r c alive.connection
    cases took : (d.intake.conn (r, c)).toServer.tryTake with
    | none => exact absurd (Fifo.try_take_none _ took) up
    | some pair =>
        obtain ⟨⟨data, len⟩, rest⟩ := pair
        obtain ⟨request, _, _, ⟨_, wire⟩ | ⟨gone, _⟩⟩ :=
          received_request_of_turn _ inv.turn pc data (d.intake.conn (r, c)).thread.recvMsg len rest took
        · have type : (getInfoFromRequestTxMsg (receiveMsg (d.intake.conn (r, c)).thread.recvMsg data len) initTx).type =
              client.sendTx.type := by
            rw [← alive.client]
            exact congrArg WireTx.type wire
          obtain ⟨next, leads, later, moved⟩ := thread_moves p writeRate r c client allowed d .receive _ []
            (threads _ rfl) alive (by simp only [ClientInterface.clientThread, pc, took, request, if_true]; rfl)
          refine ⟨next, leads, later, ?_, moved.replicas, moved.flag⟩
          rw [moved.conn, ← type]
        · rw [alive.client, waiting] at gone
          cases gone
  cases pc : (d.intake.conn (r, c)).thread.pc with
  | receiving => exact receives d alive pc up
  | loop =>
      obtain ⟨next, leads, later, moved⟩ := thread_moves p writeRate r c client allowed d .loop
        { d.intake.conn (r, c) with thread := { (d.intake.conn (r, c)).thread with pc := .receiving } } [] (threads _ rfl) alive
        (by simp [ClientInterface.clientThread, pc])
      obtain ⟨last, rest, alive, after, replicas, flag⟩ := receives next later (by rw [moved.conn]) (by rw [moved.conn]; exact up)
      exact ⟨last, Machine.leads_trans _ _ d next last leads rest, alive, after, replicas.trans moved.replicas,
        flag.trans moved.flag⟩
  | returned =>
      rcases ((staying_inv_reachable p writeRate d alive.reachable).gone r c alive.connection pc).asked with one | ⟨gone, _⟩
      · rw [alive.flag] at one
        cases one
      · rw [alive.client, waiting] at gone
        cases gone
  | reading | registering | sending | waitingAck | polling | completing | responding =>
      rw [pc] at idle
      cases idle

theorem reaches_busy (d : Database) (alive : Alive p writeRate r c client d) (waiting : client.pc = .waiting) :
    ∃ next, (database p writeRate).Leads allowed d next ∧ Alive p writeRate r c client next ∧
      next.replicas = d.replicas ∧ next.intake.flag = d.intake.flag ∧
      ((next.intake.conn (r, c)).thread.pc.idle = false ∨ (next.intake.conn (r, c)).toClient.pending ≠ []) := by
  have conn := (database_inv_reachable p writeRate d alive.reachable).conns r c alive.connection
  have waits : (d.intake.conn (r, c)).client.pc = .waiting := by
    rw [alive.client]
    exact waiting
  cases conn.turn with
  | choosing pc | finishing buf pc | finished pc =>
      rw [waits] at pc
      cases pc
  | answered message pc up down idle =>
      exact ⟨d, Machine.leads_refl _ _ d, alive, rfl, rfl, .inr (by rw [down]; simp)⟩
  | requesting buf pc up down idle =>
      obtain ⟨next, leads, later, after, replicas, flag⟩ :=
        request_taken p writeRate r c client allowed threads d alive waiting idle (by rw [up]; simp)
      have kind : client.sendTx.type = .writeOnly ∨ client.sendTx.type = .readOnly := by
        rw [← alive.client]
        exact (conn.issued waits).1.kind
      refine ⟨next, leads, later, replicas, flag, .inl ?_⟩
      rcases kind with write | read
      · rw [after, write]
        rfl
      · rw [after, read]
        rfl
  | serving pc up down busy same =>
      refine ⟨d, Machine.leads_refl _ _ d, alive, rfl, rfl, .inl ?_⟩
      cases stands : (d.intake.conn (r, c)).thread.pc with
      | returned =>
          rcases ((staying_inv_reachable p writeRate d alive.reachable).gone r c alive.connection stands).asked with
            one | ⟨left, _⟩
          · rw [alive.flag] at one
            cases one
          · rw [waits] at left
            cases left
      | loop => exact absurd stands busy.1
      | receiving => exact absurd stands busy.2
      | reading | registering | sending | waitingAck | polling | completing | responding => rfl

theorem responding_answers (d : Database) (alive : Alive p writeRate r c client d)
    (pc : (d.intake.conn (r, c)).thread.pc = .responding) :
    ∃ next, (database p writeRate).Leads allowed d next ∧ Alive p writeRate r c client next ∧
      next.replicas = d.replicas ∧ next.intake.flag = d.intake.flag ∧ (next.intake.conn (r, c)).toClient.pending ≠ [] := by
  obtain ⟨next, leads, later, moved⟩ := thread_moves p writeRate r c client allowed d .respond _ [] (threads _ rfl) alive
    (by simp only [ClientInterface.clientThread, pc]; rfl)
  refine ⟨next, leads, later, moved.replicas, moved.flag, ?_⟩
  rw [moved.conn]
  simp

theorem completed_answers (d : Database) (alive : Alive p writeRate r c client d)
    (completes : (d.intake.conn (r, c)).thread.pc.completes = true)
    (done : (d.intake.conn (r, c)).thread.tx.completeFlag ≠ 0) :
    ∃ next, (database p writeRate).Leads allowed d next ∧ Alive p writeRate r c client next ∧
      next.replicas = d.replicas ∧ next.intake.flag = d.intake.flag ∧ (next.intake.conn (r, c)).toClient.pending ≠ [] := by
  cases pc : (d.intake.conn (r, c)).thread.pc with
  | responding => exact responding_answers p writeRate r c client allowed threads d alive pc
  | completing =>
      obtain ⟨next, leads, later, moved⟩ := thread_moves p writeRate r c client allowed d .spin
        { d.intake.conn (r, c) with thread := { (d.intake.conn (r, c)).thread with pc := .responding } } [] (threads _ rfl) alive
        (by simp [ClientInterface.clientThread, pc, done])
      obtain ⟨last, rest, alive, replicas, flag, answer⟩ := responding_answers p writeRate r c client allowed threads next
        later (by rw [moved.conn])
      exact ⟨last, Machine.leads_trans _ _ d next last leads rest, alive, replicas.trans moved.replicas,
        flag.trans moved.flag, answer⟩
  | loop | receiving | reading | registering | sending | waitingAck | polling | returned =>
      rw [pc] at completes
      cases completes

end

structure TakesResponse (p : Deployment) (writeRate r c : Nat) (client : Client) (d next : Database) : Prop where
  asked : (d.intake.conn (r, c)).client = client
  taken : Database.step p writeRate d (.client r c .receive) = some next
  choosing : (next.intake.conn (r, c)).client.pc = .choosing
  counted : (next.intake.conn (r, c)).client.txId = client.txId + 1

theorem response_taken (p : Deployment) (writeRate r c : Nat) (client : Client) (d : Database)
    (alive : Alive p writeRate r c client d) (waiting : client.pc = .waiting)
    (answer : (d.intake.conn (r, c)).toClient.pending ≠ []) : ∃ next, TakesResponse p writeRate r c client d next := by
  have pc : (d.intake.conn (r, c)).client.pc = .waiting := by
    rw [alive.client]
    exact waiting
  cases took : (d.intake.conn (r, c)).toClient.tryTake with
  | none => exact absurd (Fifo.try_take_none _ took) answer
  | some pair =>
      obtain ⟨⟨data, len⟩, rest⟩ := pair
      obtain ⟨conn, done, choosing, counted⟩ : ∃ conn,
          ClientTime.clientThread writeRate r c (d.intake.conn (r, c)) .receive = some conn ∧
            conn.client.pc = .choosing ∧ conn.client.txId = client.txId + 1 := by
        simp only [ClientTime.clientThread, pc, took, ← alive.client]
        exact ⟨_, rfl, rfl, rfl⟩
      refine ⟨{ d with intake := { d.intake with conn := Function.update d.intake.conn (r, c) conn } }, alive.client, ?_, ?_, ?_⟩
      · simp only [Database.step, if_pos alive.connection, Intake.clientStep, done, Option.map_some]
      · simp only [Function.update_self, choosing]
      · simp only [Function.update_self, counted]

end EpochReplication
