import EpochReplication.Answering
import EpochReplication.Backlog
import EpochReplication.ClientNumbers
import EpochReplication.EpochPass

set_option autoImplicit false

namespace EpochReplication

def DatabaseAct.epochs : DatabaseAct → Prop
  | .sequencers (.epoch _) => True
  | _ => False

def DatabaseAct.replicates (r : Nat) : DatabaseAct → Prop
  | .sequencers (.send q _) | .sequencers (.slave q _) => q = r
  | _ => False

def DatabaseAct.connects (r c : Nat) : DatabaseAct → Prop
  | .thread q e _ | .recieve q e _ | .addWriteTx q e => q = r ∧ e = c
  | _ => False

def DatabaseAct.serves (r c : Nat) (act : DatabaseAct) : Prop :=
  act.epochs ∨ act.replicates r ∨ act.schedulesWrites r ∨ act.connects r c

def DatabaseAct.packet : DatabaseAct → Option Nat
  | .thread _ _ act => act.packet
  | .recieve _ _ (.receive i) => some i
  | _ => none

def DatabaseAct.datagram : DatabaseAct → Option Nat
  | .sequencers act => act.delivered
  | _ => none

-- Whatever has been sent before `base` is lost.
structure HandsNew (base : Database) (act : DatabaseAct) : Prop where
  packet : ∀ i, act.packet = some i → base.intake.net.length ≤ i
  datagram : ∀ i, act.datagram = some i → base.replicas.sequencers.net.length ≤ i

def DatabaseAct.servesNew (base : Database) (r c : Nat) (act : DatabaseAct) : Prop := act.serves r c ∧ HandsNew base act

theorem hands_nothing (base : Database) (act : DatabaseAct) (packet : act.packet = none) (datagram : act.datagram = none) :
    HandsNew base act := by
  refine ⟨fun i handed => ?_, fun i handed => ?_⟩
  · rw [packet] at handed
    cases handed
  · rw [datagram] at handed
    cases handed

theorem epochs_hand_nothing (base : Database) (act : DatabaseAct) (kind : act.epochs) : HandsNew base act := by
  cases act with
  | sequencers inner =>
      cases inner with
      | epoch => exact hands_nothing base _ rfl rfl
      | addWriteTx | send | slave | takeBatch => exact kind.elim
  | start | finish | client | thread | recieve | addWriteTx | takeBatch | writeLoop | write | fetch | assign | raise
  | readLoop | takeRead | read | raiseRead => exact kind.elim

theorem schedulers_hand_nothing (base : Database) (r : Nat) (act : DatabaseAct) (kind : act.schedulesWrites r) :
    HandsNew base act := by
  cases act with
  | takeBatch | writeLoop | write | fetch | assign | raise => exact hands_nothing base _ rfl rfl
  | start | finish | client | thread | recieve | addWriteTx | sequencers | readLoop | takeRead | read | raiseRead =>
      exact kind.elim

structure Ready (p : Deployment) (writeRate r c : Nat) (client : Client) (base : Database) (spare : Nat) (d : Database) :
    Prop extends Alive p writeRate r c client d where
  master : d.intake.flag 0 = 0
  live : d.replicas.sequencers.master.exited = false
  spare : d.replicas.sequencers.master.confirmed.length + spare ≤ 32768
  grown : NetsGrow base d

structure Asks (client : Client) : Prop extends NumberFits client where
  waiting : client.pc = .waiting
  write : client.sendTx.type = .writeOnly

theorem replicates_all (p : Deployment) (gap : Nat) (s : Sequencers) (r : Nat) (method : p.exp ≠ .tcpMethod)
    (replica : p.IsSlave r) (reachable : (sequencers p).Reachable s) (live : s.master.exited = false)
    (send : (s.send r).pc ≠ .returned) (slave : (s.slave r).pc = .loop ∨ (s.slave r).pc = .receiving)
    (behind : s.master.determinedEpochId + 1 = (s.send r).nextEpochId + gap) :
    ∃ acts t, Continues p r s acts t ∧ t.master = s.master ∧
      ((t.slave r).pc = .loop ∨ (t.slave r).pc = .receiving) ∧
      (t.send r).nextEpochId = s.master.determinedEpochId + 1 := by
  induction gap generalizing s with
  | zero => exact ⟨[], s, ⟨rfl, between_nil r s.net⟩, rfl, slave, by omega⟩
  | succ gap ih =>
      obtain ⟨acts, t, continues, master, loops, looping, forward, _⟩ :=
        advances p s r method replica reachable live send slave (by omega)
      obtain ⟨rest, u, further, kept, works, reached⟩ := ih t (continues_reachable p r s t acts reachable continues)
        (by rw [master]; exact live) (by simp [loops]) (.inl looping) (by rw [master]; omega)
      exact ⟨_, u, continues_append p r s t u acts rest continues further, kept.trans master, works, by rw [reached, master]⟩

def Database.withMaster (d : Database) (m : Master) : Database :=
  { d with replicas := { d.replicas with sequencers := { d.replicas.sequencers with master := m } } }

theorem epoch_taken (p : Deployment) (writeRate : Nat) (d : Database) (m next : Master) (act : EpochAct)
    (live : m.exited = false) (done : masterSequencerStartup (d.intake.flag 0) m act = .returned next) :
    Database.step p writeRate (d.withMaster m) (.sequencers (.epoch act)) = some (d.withMaster next) := by
  have here : (d.withMaster m).replicas.sequencers.master = m := rfl
  have moved : Sequencers.step p (d.withMaster m).replicas.sequencers ((d.withMaster m).intake.flag 0, .epoch act) =
      some { (d.withMaster m).replicas.sequencers with master := next } := by
    have own : masterSequencerStartup ((d.withMaster m).intake.flag 0) m act = .returned next := done
    simp only [Sequencers.step, here, live, Bool.false_eq_true, if_false, own]
  simp only [Database.step, Database.inside, SequencersAct.node, Replicas.step, moved, Option.map_some]
  rfl

theorem epoch_loop_moves (p : Deployment) (writeRate : Nat) (d : Database) (m : Master) (flag : d.intake.flag 0 = 0)
    (live : d.replicas.sequencers.master.exited = false) (leads : EpochLeads p d.replicas.sequencers.master m) :
    (database p writeRate).Leads DatabaseAct.epochs d (d.withMaster m) ∧ m.exited = false := by
  have matched : ∀ s e act t, (e = d.withMaster s ∧ s.exited = false) → True → (epochLoop p).step s act = some t →
      ∃ act' e', DatabaseAct.epochs act' ∧ (database p writeRate).step e act' = some e' ∧
        (e' = d.withMaster t ∧ t.exited = false) := by
    rintro s e act t ⟨rfl, live⟩ _ taken
    simp only [epochLoop] at taken
    split at taken
    · rename_i done
      cases taken
      have exited : t.exited = s.exited := by
        have step := epoch_step_of_returned 0 s t act done
        cases step <;> rfl
      exact ⟨.sequencers (.epoch act), _, trivial, epoch_taken p writeRate d s t act live (by rw [flag]; exact done), rfl,
        exited.trans live⟩
    · cases taken
    · cases taken
  obtain ⟨e, moves, rfl, live⟩ := Machine.leads_embeds (epochLoop p) (database p writeRate) _ DatabaseAct.epochs
    (fun m e => e = d.withMaster m ∧ m.exited = false) matched _ m d ⟨rfl, live⟩ leads
  exact ⟨moves, live⟩

theorem replica_catches_up (p : Deployment) (writeRate : Nat) (d : Database) (r : Nat) (method : p.exp ≠ .tcpMethod)
    (replica : p.IsSlave r) (reachable : (database p writeRate).Reachable d) (master : d.intake.flag 0 = 0)
    (flag : d.intake.flag r = 0) (live : d.replicas.sequencers.master.exited = false)
    (works : (d.replicas.sequencers.slave r).pc = .loop ∨ (d.replicas.sequencers.slave r).pc = .receiving) :
    ∃ next, (database p writeRate).Leads (fun act => act.replicates r ∧ HandsNew d act) d next ∧ next.intake = d.intake ∧
      next.replicas.sequencers.master = d.replicas.sequencers.master ∧
      ((next.replicas.sequencers.slave r).pc = .loop ∨ (next.replicas.sequencers.slave r).pc = .receiving) ∧
      (next.replicas.sequencers.queue r).entered.length = d.replicas.sequencers.master.confirmed.length := by
  have not_master : r ≠ 0 := Nat.ne_of_gt replica.1
  have inner := Machine.projects_reachable _ _ _ (replicas_projects p) d.replicas
    (database_replicas_reachable p writeRate d reachable)
  have seq := sequencers_inv_reachable p d.replicas.sequencers inner
  have sends := (working_inv_reachable p writeRate d reachable).send (by rw [master]; decide) r
  have determined := seq.master.determined
  have bound := (seq.send r replica).next.2
  have behind := slave_behind _ _ (seq.slave r replica)
  simp only [Sequencers.accepted] at bound
  obtain ⟨gap, ahead⟩ := Int.eq_ofNat_of_zero_le (show 0 ≤ d.replicas.sequencers.master.determinedEpochId + 1 -
    (d.replicas.sequencers.send r).nextEpochId by omega)
  obtain ⟨acts, t, continues, same, still, reached⟩ := replicates_all p gap d.replicas.sequencers r method replica inner
    live sends works (by omega)
  have ran := database_continues p writeRate d r acts t master flag continues.between.own continues.ran
  have later := sequencers_inv_reachable p t (continues_reachable p r _ t acts inner continues)
  refine ⟨_, ⟨acts.map .sequencers, fun act member => ?_, ran⟩, rfl, same, still, ?_⟩
  · obtain ⟨moved, inside, rfl⟩ := List.mem_map.mp member
    refine ⟨?_, fun i handed => (by cases handed), continues.between.fresh moved inside⟩
    rcases continues.between.own moved inside with ⟨a, rfl⟩ | ⟨a, rfl⟩ <;> rfl
  · have last := (later.send r replica).next.2
    have whole := slave_behind _ _ (later.slave r replica)
    simp only [Sequencers.accepted, same] at last whole
    simp only [Sequencers.queue, if_neg not_master]
    exact Nat.le_antisymm whole (by unfold Slave.accepted at last; omega)

theorem running_of_live (d : Database) (live : d.replicas.sequencers.master.exited = false) : d.running 0 = true := by
  simp [Database.running, Sequencers.running, live]

theorem recieve_taken (p : Deployment) (writeRate r c : Nat) (d : Database) (act : RecieveAct) (recieve : RecieveThread)
    (sent : List Packet) (kind : ∀ batch, act ≠ .add batch) (connection : p.IsConnection r c) (running : d.running 0 = true)
    (done : recieveTxConnection (d.intake.flag 0) d.intake.net r c (d.intake.conn (r, c)).recieve act =
      some (recieve, sent)) :
    Database.step p writeRate d (.recieve r c act) = some
      { d with
        intake := { d.intake with
          conn := Function.update d.intake.conn (r, c) { d.intake.conn (r, c) with recieve := recieve }
          net := d.intake.net ++ sent } } := by
  have up : p.IsConnection r c ∧ d.running 0 = true := ⟨connection, running⟩
  have moved : d.intake.recieveStep r c act = some
      { d.intake with
        conn := Function.update d.intake.conn (r, c) { d.intake.conn (r, c) with recieve := recieve }
        net := d.intake.net ++ sent } := by
    simp only [Intake.recieveStep, done, Option.map_some]
  cases act with
  | add batch => exact absurd rfl (kind batch)
  | barrier | loop | receive | test => simp only [Database.step, if_pos up, moved, Option.map_some]

theorem add_taken (p : Deployment) (writeRate r c : Nat) (d : Database) (tx : Tx) (connection : p.IsConnection r c)
    (live : d.replicas.sequencers.master.exited = false) (pc : (d.intake.conn (r, c)).recieve.pc = .adding tx)
    (room : d.replicas.sequencers.master.batch.txSet.length < maxBatchSize) :
    Database.step p writeRate d (.addWriteTx r c) = some
      ⟨(d.withMaster { d.replicas.sequencers.master with
          batch := (sequencerAddWriteTxToBatch d.replicas.sequencers.master.batch tx).1 }).replicas,
        { d.intake with
          conn := Function.update d.intake.conn (r, c) { d.intake.conn (r, c) with
            recieve := { (d.intake.conn (r, c)).recieve with
              pc := .loop, added := (d.intake.conn (r, c)).recieve.added ++ [tx.wire] } }
          net := d.intake.net ++ [] }⟩ := by
  have up : p.IsConnection r c ∧ d.running 0 = true := ⟨connection, running_of_live d live⟩
  have added : ¬ (sequencerAddWriteTxToBatch d.replicas.sequencers.master.batch tx).2 = 0 := by
    rcases add_returns d.replicas.sequencers.master.batch tx with ⟨_, full⟩ | ⟨one, _⟩
    · exact absurd full (Nat.ne_of_lt room)
    · rw [one]
      decide
  have stepped : d.intake.recieveStep r c (.add d.replicas.sequencers.master.batch) = some
      { d.intake with
        conn := Function.update d.intake.conn (r, c) { d.intake.conn (r, c) with
          recieve := { (d.intake.conn (r, c)).recieve with
            pc := .loop, added := (d.intake.conn (r, c)).recieve.added ++ [tx.wire] } }
        net := d.intake.net ++ [] } := by
    simp only [Intake.recieveStep, recieveTxConnection, pc, if_neg added, Option.map_some]
  have moved : Replicas.step p d.replicas (d.intake.flag 0, .sequencers (.addWriteTx tx)) = some
      (d.withMaster { d.replicas.sequencers.master with
        batch := (sequencerAddWriteTxToBatch d.replicas.sequencers.master.batch tx).1 }).replicas := by
    simp [Replicas.step, Sequencers.step, live, Database.withMaster]
  simp only [Database.step, if_pos up, Database.addWriteTx, pc, stepped, moved, Option.bind_some, Option.map_some]

section

variable (p : Deployment) (writeRate r c : Nat) (client : Client) (base : Database)

def Serves (d next : Database) : Prop := (database p writeRate).Leads (DatabaseAct.servesNew base r c) d next

theorem serves_trans (d next last : Database) (first : Serves p writeRate r c base d next)
    (rest : Serves p writeRate r c base next last) : Serves p writeRate r c base d last :=
  Machine.leads_trans _ _ d next last first rest

theorem serves_threads (act : ClientInterface.Act) (quiet : act.packet = none) :
    DatabaseAct.servesNew base r c (.thread r c act) :=
  ⟨.inr (.inr (.inr ⟨rfl, rfl⟩)), hands_nothing base _ quiet rfl⟩

theorem ready_led (spare : Nat) (d next : Database) (ready : Ready p writeRate r c client base spare d)
    (leads : Serves p writeRate r c base d next) (flag : next.intake.flag = d.intake.flag)
    (same : (next.intake.conn (r, c)).client = (d.intake.conn (r, c)).client)
    (works : (next.replicas.sequencers.slave r).pc = .loop ∨ (next.replicas.sequencers.slave r).pc = .receiving)
    (exited : next.replicas.sequencers.master.exited = d.replicas.sequencers.master.exited)
    (confirmed : next.replicas.sequencers.master.confirmed = d.replicas.sequencers.master.confirmed) :
    Ready p writeRate r c client base spare next := by
  refine ⟨⟨Machine.leads_reachable _ _ d next ready.reachable leads, ready.connection, ?_, works, same.trans ready.client⟩, ?_,
    exited.trans ready.live, ?_, nets_grow_trans base d next ready.grown (nets_grow_leads p writeRate _ d next leads)⟩
  · rw [flag]
    exact ready.flag
  · rw [flag]
    exact ready.master
  · rw [confirmed]
    exact ready.spare

theorem ready_of_alive (spare : Nat) (d next : Database) (ready : Ready p writeRate r c client base spare d)
    (leads : Serves p writeRate r c base d next) (alive : Alive p writeRate r c client next)
    (replicas : next.replicas = d.replicas) (flag : next.intake.flag = d.intake.flag) :
    Ready p writeRate r c client base spare next :=
  ready_led p writeRate r c client base spare d next ready leads flag (alive.client.trans ready.client.symm) alive.works
    (by rw [replicas]) (by rw [replicas])

theorem thread_steps (spare : Nat) (d : Database) (act : ClientInterface.Act) (conn : Connection) (sent : List Packet)
    (new : HandsNew base (.thread r c act)) (ready : Ready p writeRate r c client base spare d)
    (done : ClientInterface.clientThread 0 d.intake.net r c (d.intake.conn (r, c)) act = some (conn, sent)) :
    ∃ next, Serves p writeRate r c base d next ∧ Ready p writeRate r c client base spare next ∧
      ThreadMoved r c d conn sent next := by
  obtain ⟨next, serves, alive, moved⟩ := thread_moves p writeRate r c client (DatabaseAct.servesNew base r c) d act conn sent
    ⟨.inr (.inr (.inr ⟨rfl, rfl⟩)), new⟩ ready.toAlive done
  exact ⟨next, serves, ready_of_alive p writeRate r c client base spare d next ready serves alive moved.replicas moved.flag,
    moved⟩

theorem ready_less (few many : Nat) (d : Database) (le : few ≤ many) (ready : Ready p writeRate r c client base many d) :
    Ready p writeRate r c client base few d :=
  ⟨ready.toAlive, ready.master, ready.live, Nat.le_trans (Nat.add_le_add_left le _) ready.spare, ready.grown⟩

theorem epoch_serves (spare less : Nat) (d : Database) (m : Master) (ready : Ready p writeRate r c client base spare d)
    (leads : EpochLeads p d.replicas.sequencers.master m) (room : m.confirmed.length + less ≤ 32768) :
    Serves p writeRate r c base d (d.withMaster m) ∧ Ready p writeRate r c client base less (d.withMaster m) := by
  obtain ⟨moves, live⟩ := epoch_loop_moves p writeRate d m ready.master ready.live leads
  exact ⟨Machine.leads_weaken _ _ _ d _ (fun act kind => ⟨.inl kind, epochs_hand_nothing base act kind⟩) moves,
    ⟨Machine.leads_reachable _ _ d _ ready.reachable moves, ready.connection, ready.flag, ready.works, ready.client⟩,
    ready.master, live, room, nets_grow_trans base d _ ready.grown (nets_grow_leads p writeRate _ d _ moves)⟩

theorem recieve_steps (spare : Nat) (d : Database) (act : RecieveAct) (recieve : RecieveThread) (sent : List Packet)
    (kind : ∀ batch, act ≠ .add batch) (new : HandsNew base (.recieve r c act))
    (ready : Ready p writeRate r c client base spare d)
    (done : recieveTxConnection 0 d.intake.net r c (d.intake.conn (r, c)).recieve act = some (recieve, sent)) :
    ∃ next, Serves p writeRate r c base d next ∧ Ready p writeRate r c client base spare next ∧
      next.intake.conn (r, c) = { d.intake.conn (r, c) with recieve := recieve } ∧ next.replicas = d.replicas ∧
      next.intake.net = d.intake.net ++ sent := by
  have taken := recieve_taken p writeRate r c d act recieve sent kind ready.connection (running_of_live d ready.live)
    (by rw [ready.master]; exact done)
  have leads := Machine.leads_one (database p writeRate) (DatabaseAct.servesNew base r c) d _ (.recieve r c act)
    ⟨.inr (.inr (.inr ⟨rfl, rfl⟩)), new⟩ taken
  refine ⟨_, leads, ready_led p writeRate r c client base spare d _ ready leads rfl ?_ ready.works rfl rfl, ?_, rfl, rfl⟩ <;>
    simp only [Function.update_self]

theorem add_steps (spare : Nat) (d : Database) (tx : Tx) (ready : Ready p writeRate r c client base spare d)
    (pc : (d.intake.conn (r, c)).recieve.pc = .adding tx)
    (room : d.replicas.sequencers.master.batch.txSet.length < maxBatchSize) :
    ∃ next, Serves p writeRate r c base d next ∧ Ready p writeRate r c client base spare next ∧
      next.intake.conn (r, c) = { d.intake.conn (r, c) with
        recieve := { (d.intake.conn (r, c)).recieve with
          pc := .loop, added := (d.intake.conn (r, c)).recieve.added ++ [tx.wire] } } := by
  have taken := add_taken p writeRate r c d tx ready.connection ready.live pc room
  have leads := Machine.leads_one (database p writeRate) (DatabaseAct.servesNew base r c) d _ (.addWriteTx r c)
    ⟨.inr (.inr (.inr ⟨rfl, rfl⟩)), hands_nothing base _ rfl rfl⟩ taken
  refine ⟨_, leads, ready_led p writeRate r c client base spare d _ ready leads rfl ?_ ready.works rfl rfl, ?_⟩ <;>
    simp only [Function.update_self]

-- The thread of the master that serves the connection waits for a packet. It may
-- have to put a write into a batch first, and the batch may have to be swapped.
def Listening (d next : Database) : Prop :=
  (next.intake.conn (r, c)).recieve.pc = .receiving ∧
    (next.intake.conn (r, c)).thread = (d.intake.conn (r, c)).thread

theorem loop_listens (spare : Nat) (d : Database) (ready : Ready p writeRate r c client base spare d)
    (pc : (d.intake.conn (r, c)).recieve.pc = .loop) :
    ∃ next, Serves p writeRate r c base d next ∧ Ready p writeRate r c client base spare next ∧ Listening r c d next := by
  obtain ⟨next, serves, later, conn, _⟩ := recieve_steps p writeRate r c client base spare d .loop
    { (d.intake.conn (r, c)).recieve with pc := .receiving } [] (by simp) (hands_nothing base _ rfl rfl) ready
    (by simp [recieveTxConnection, pc])
  exact ⟨next, serves, later, by rw [conn], by rw [conn]⟩

theorem adding_listens (spare : Nat) (d : Database) (tx : Tx) (ready : Ready p writeRate r c client base (spare + 1) d)
    (pc : (d.intake.conn (r, c)).recieve.pc = .adding tx) :
    ∃ next, Serves p writeRate r c base d next ∧ Ready p writeRate r c client base spare next ∧ Listening r c d next := by
  have adds : ∀ d, Ready p writeRate r c client base spare d → (d.intake.conn (r, c)).recieve.pc = .adding tx →
      d.replicas.sequencers.master.batch.txSet.length < maxBatchSize →
      ∃ next, Serves p writeRate r c base d next ∧ Ready p writeRate r c client base spare next ∧ Listening r c d next := by
    intro d ready pc room
    obtain ⟨next, serves, later, conn⟩ := add_steps p writeRate r c client base spare d tx ready pc room
    obtain ⟨last, rest, ready, receiving, thread⟩ := loop_listens p writeRate r c client base spare next later (by rw [conn])
    exact ⟨last, serves_trans p writeRate r c base d next last serves rest, ready, receiving, by rw [thread, conn]⟩
  by_cases room : d.replicas.sequencers.master.batch.txSet.length < maxBatchSize
  · exact adds d (ready_less p writeRate r c client base spare (spare + 1) d (Nat.le_succ _) ready) pc room
  · have stays := (staying_inv_reachable p writeRate d ready.reachable).epoch (by rw [ready.master]; decide)
    have inv := (database_nodes_inv p writeRate d ready.reachable).sequencers.master
    have short := ready.spare
    obtain ⟨m, leads, _, empty, count, _⟩ := reaches_room p d.replicas.sequencers.master inv stays (by omega)
    obtain ⟨serves, later⟩ := epoch_serves p writeRate r c client base (spare + 1) spare d m ready leads (by omega)
    obtain ⟨last, rest, ready, receiving, thread⟩ := adds (d.withMaster m) later pc (by
      have none : (d.withMaster m).replicas.sequencers.master.batch.txSet = [] := empty
      rw [none]
      decide)
    exact ⟨last, serves_trans p writeRate r c base d _ last serves rest, ready, receiving, thread⟩

theorem reaches_listening (spare : Nat) (d : Database) (ready : Ready p writeRate r c client base (spare + 1) d) :
    ∃ next, Serves p writeRate r c base d next ∧ Ready p writeRate r c client base spare next ∧ Listening r c d next := by
  have enough := ready_less p writeRate r c client base spare (spare + 1) d (Nat.le_succ _) ready
  cases pc : (d.intake.conn (r, c)).recieve.pc with
  | receiving => exact ⟨d, Machine.leads_refl _ _ d, enough, pc, rfl⟩
  | loop => exact loop_listens p writeRate r c client base spare d enough pc
  | adding tx => exact adding_listens p writeRate r c client base spare d tx ready pc
  | barrier =>
      obtain ⟨next, serves, later, conn, _⟩ := recieve_steps p writeRate r c client base spare d .barrier
        { (d.intake.conn (r, c)).recieve with pc := .loop } [] (by simp) (hands_nothing base _ rfl rfl) enough
        (by simp [recieveTxConnection, pc])
      obtain ⟨last, rest, ready, receiving, thread⟩ := loop_listens p writeRate r c client base spare next later (by rw [conn])
      exact ⟨last, serves_trans p writeRate r c base d next last serves rest, ready, receiving, by rw [thread, conn]⟩
  | acked tx =>
      have write := (((database_inv_reachable p writeRate d ready.reachable).conns r c ready.connection).hands tx
        (.inl pc)).write
      have kind : tx.type = .writeOnly := write
      by_cases old : (tx.id.toNat : Int) ≤ (d.intake.conn (r, c)).recieve.recievedTxId
      · obtain ⟨next, serves, later, conn, _⟩ := recieve_steps p writeRate r c client base spare d .test
          { (d.intake.conn (r, c)).recieve with pc := .loop } [] (by simp) (hands_nothing base _ rfl rfl) enough
          (by simp [recieveTxConnection, pc, old])
        obtain ⟨last, rest, ready, receiving, thread⟩ := loop_listens p writeRate r c client base spare next later
          (by rw [conn])
        exact ⟨last, serves_trans p writeRate r c base d next last serves rest, ready, receiving, by rw [thread, conn]⟩
      · obtain ⟨next, serves, later, conn, _⟩ := recieve_steps p writeRate r c client base (spare + 1) d .test
          { (d.intake.conn (r, c)).recieve with pc := .adding tx, recievedTxId := tx.id.toNat } [] (by simp)
          (hands_nothing base _ rfl rfl) ready (by simp [recieveTxConnection, pc, old, kind])
        obtain ⟨last, rest, ready, receiving, thread⟩ := adding_listens p writeRate r c client base spare next tx later
          (by rw [conn])
        exact ⟨last, serves_trans p writeRate r c base d next last serves rest, ready, receiving, by rw [thread, conn]⟩
  | returned =>
      exact absurd pc ((staying_inv_reachable p writeRate d ready.reachable).recieve (by rw [ready.master]; decide) r c
        ready.connection)

theorem reaches_sending_add (spare : Nat) (d : Database) (ready : Ready p writeRate r c client base spare d)
    (retransmits : (d.intake.conn (r, c)).thread.pc.retransmits = true) :
    ∃ next, Serves p writeRate r c base d next ∧ Ready p writeRate r c client base spare next ∧
      (next.intake.conn (r, c)).thread.pc = .sending ∧
      (next.intake.conn (r, c)).recieve = (d.intake.conn (r, c)).recieve := by
  have polls : ∀ d, Ready p writeRate r c client base spare d → (d.intake.conn (r, c)).thread.pc = .polling →
      ∃ next, Serves p writeRate r c base d next ∧ Ready p writeRate r c client base spare next ∧
        (next.intake.conn (r, c)).thread.pc = .sending ∧
        (next.intake.conn (r, c)).recieve = (d.intake.conn (r, c)).recieve := by
    intro d ready pc
    obtain ⟨next, serves, ready, moved⟩ := thread_steps p writeRate r c client base spare d (.pollNothing true)
      { d.intake.conn (r, c) with thread := { (d.intake.conn (r, c)).thread with pc := .sending } } []
      (hands_nothing base _ rfl rfl) ready (by simp [ClientInterface.clientThread, ClientInterface.afterPoll, pc])
    exact ⟨next, serves, ready, by rw [moved.conn], by rw [moved.conn]⟩
  cases pc : (d.intake.conn (r, c)).thread.pc with
  | sending => exact ⟨d, Machine.leads_refl _ _ d, ready, pc, rfl⟩
  | polling => exact polls d ready pc
  | waitingAck =>
      obtain ⟨next, serves, ready, moved⟩ := thread_steps p writeRate r c client base spare d .check
        { d.intake.conn (r, c) with thread := { (d.intake.conn (r, c)).thread with pc := .polling } } []
        (hands_nothing base _ rfl rfl) ready (by simp [ClientInterface.clientThread, pc])
      obtain ⟨last, rest, later, sending, recieve⟩ := polls next ready (by rw [moved.conn])
      exact ⟨last, serves_trans p writeRate r c base d next last serves rest, later, sending, by rw [recieve, moved.conn]⟩
  | loop | receiving | reading | registering | completing | responding | returned =>
      rw [pc] at retransmits
      cases retransmits

theorem serves_asked (spare : Nat) (d : Database) (ready : Ready p writeRate r c client base spare d) (asks : Asks client)
    (busy : (d.intake.conn (r, c)).thread.pc.idle = false) :
    (d.intake.conn (r, c)).thread.tx.wire = client.sendTx.wire ∧
      Submitted r c client (d.intake.conn (r, c)).thread.tx.wire := by
  have inv := (database_inv_reachable p writeRate d ready.reachable).conns r c ready.connection
  obtain ⟨_, _, _, same⟩ := turn_serving _ inv.turn busy
  rw [ready.client] at same
  have equal := same.write asks.write
  have submitted := serving_submitted _ r c _ inv busy ((congrArg WireTx.type equal).trans asks.write)
  rw [ready.client] at submitted
  exact ⟨equal, submitted⟩

theorem add_sent (spare : Nat) (d : Database) (ready : Ready p writeRate r c client base spare d) (asks : Asks client)
    (sending : (d.intake.conn (r, c)).thread.pc = .sending) :
    ∃ next tx buf, Serves p writeRate r c base d next ∧ Ready p writeRate r c client base spare next ∧
      next.intake.conn (r, c) = { d.intake.conn (r, c) with
        thread := { (d.intake.conn (r, c)).thread with pc := .waitingAck } } ∧
      tx.wire = (d.intake.conn (r, c)).thread.tx.wire ∧ next.intake.net[d.intake.net.length]? =
        some ⟨.clientThread r c, .recieveTx r c, (createAddToBatchMsg tx buf).1, addToBatchMessageSize⟩ := by
  have inv := (database_inv_reachable p writeRate d ready.reachable).conns r c ready.connection
  have submitted := (serves_asked p writeRate r c client base spare d ready asks (by rw [sending]; rfl)).2
  obtain ⟨len, tx, buf, wire, content⟩ := inv.packed (by rw [sending]; rfl)
  have replica : (d.intake.conn (r, c)).thread.tx.replicaId.toInt = r := submitted.issued.replica
  have own : (d.intake.conn (r, c)).thread.tx.clientId.toInt = c := submitted.issued.client
  obtain ⟨next, serves, ready, moved⟩ := thread_steps p writeRate r c client base spare d .send
    { d.intake.conn (r, c) with thread := { (d.intake.conn (r, c)).thread with pc := .waitingAck } }
    [⟨.clientThread r c, .recieveTx r c, (createAddToBatchMsg tx buf).1, addToBatchMessageSize⟩] (hands_nothing base _ rfl rfl)
    ready (by simp [ClientInterface.clientThread, sending, replica, own, len, content])
  refine ⟨next, tx, buf, serves, ready, moved.conn, wire, ?_⟩
  rw [moved.net]
  simp

theorem add_answered (spare : Nat) (d : Database) (tx : Tx) (buf : Buf) (i : Nat) (new : base.intake.net.length ≤ i)
    (ready : Ready p writeRate r c client base spare d) (receiving : (d.intake.conn (r, c)).recieve.pc = .receiving)
    (arrives : d.intake.net[i]? =
      some ⟨.clientThread r c, .recieveTx r c, (createAddToBatchMsg tx buf).1, addToBatchMessageSize⟩) :
    ∃ next old, Serves p writeRate r c base d next ∧ Ready p writeRate r c client base spare next ∧
      (next.intake.conn (r, c)).thread = (d.intake.conn (r, c)).thread ∧ next.intake.net[d.intake.net.length]? =
        some ⟨.recieveTx r c, .clientThread r c,
          (createAckAddMsg tx.replicaId.toInt tx.clientId.toInt tx.id.toNat old).1, ackAddMessageSize⟩ := by
  obtain ⟨type, wire⟩ := receive_add_to_batch tx buf (d.intake.conn (r, c)).recieve.recvMsg createTx
  generalize got : receiveMsg (d.intake.conn (r, c)).recieve.recvMsg (createAddToBatchMsg tx buf).1
    addToBatchMessageSize = recvMsg at type wire
  have answer : answerAddToBatch (getInfoFromAddToBatchMsg recvMsg createTx) (d.intake.conn (r, c)).recieve.sendMsg =
      createAckAddMsg tx.replicaId.toInt tx.clientId.toInt tx.id.toNat (d.intake.conn (r, c)).recieve.sendMsg := by
    have replica := congrArg WireTx.replicaId wire
    have client := congrArg WireTx.clientId wire
    have id := congrArg WireTx.id wire
    simp only [Tx.wire] at replica client id
    rw [answerAddToBatch, replica, client, id]
  obtain ⟨next, serves, later, conn, _, net⟩ := recieve_steps p writeRate r c client base spare d (.receive i)
    { (d.intake.conn (r, c)).recieve with
      pc := .acked (getInfoFromAddToBatchMsg recvMsg createTx)
      recvMsg := recvMsg
      sendMsg := (answerAddToBatch (getInfoFromAddToBatchMsg recvMsg createTx) (d.intake.conn (r, c)).recieve.sendMsg).1 }
    [⟨.recieveTx r c, .clientThread r c,
      (answerAddToBatch (getInfoFromAddToBatchMsg recvMsg createTx) (d.intake.conn (r, c)).recieve.sendMsg).1,
      ackAddMessageSize⟩] (by simp) ⟨fun j handed => Option.some.inj handed ▸ new, fun j handed => (by cases handed)⟩ ready
    (by simp only [recieveTxConnection, receiving, arrives, if_true, got, type]; rfl)
  refine ⟨next, (d.intake.conn (r, c)).recieve.sendMsg, serves, later, by rw [conn], ?_⟩
  rw [net, answer]
  simp

theorem ack_received (spare : Nat) (d : Database) (old : Buf) (i : Nat) (new : base.intake.net.length ≤ i)
    (ready : Ready p writeRate r c client base spare d)
    (waits : (d.intake.conn (r, c)).thread.pc = .waitingAck) (small : (d.intake.conn (r, c)).thread.tx.id.toNat < 32768)
    (arrives : d.intake.net[i]? = some ⟨.recieveTx r c, .clientThread r c,
      (createAckAddMsg (d.intake.conn (r, c)).thread.tx.replicaId.toInt (d.intake.conn (r, c)).thread.tx.clientId.toInt
        (d.intake.conn (r, c)).thread.tx.id.toNat old).1, ackAddMessageSize⟩) :
    ∃ next, Serves p writeRate r c base d next ∧ Ready p writeRate r c client base spare next ∧
      (next.intake.conn (r, c)).thread.pc = .completing := by
  obtain ⟨polls, serves, ready, moved⟩ := thread_steps p writeRate r c client base spare d .check
    { d.intake.conn (r, c) with thread := { (d.intake.conn (r, c)).thread with pc := .polling } } []
    (hands_nothing base _ rfl rfl) ready (by simp [ClientInterface.clientThread, waits])
  have ends := (ack_ends_iff (d.intake.conn (r, c)).thread.tx (d.intake.conn (r, c)).thread.tx.id old
    (d.intake.conn (r, c)).thread.ackMsg).mpr ⟨rfl, small⟩
  have there := arrives
  rw [← List.append_nil d.intake.net, ← moved.net] at there
  obtain ⟨next, rest, ready, last⟩ := thread_steps p writeRate r c client base spare polls (.poll i false) _ []
    ⟨fun j handed => Option.some.inj handed ▸ new, fun j handed => (by cases handed)⟩ ready
    (by simp only [ClientInterface.clientThread, moved.conn, there, if_true, ends]; rfl)
  exact ⟨next, serves_trans p writeRate r c base d polls next serves rest, ready, by rw [last.conn]⟩

theorem add_acknowledged (spare : Nat) (d : Database) (ready : Ready p writeRate r c client base (spare + 1) d)
    (asks : Asks client) (retransmits : (d.intake.conn (r, c)).thread.pc.retransmits = true) :
    ∃ next, Serves p writeRate r c base d next ∧ Ready p writeRate r c client base spare next ∧
      (next.intake.conn (r, c)).thread.pc = .completing := by
  obtain ⟨first, listens, ready, receiving, thread⟩ := reaches_listening p writeRate r c client base spare d ready
  obtain ⟨second, waits, ready, sending, recieve⟩ := reaches_sending_add p writeRate r c client base spare first ready
    (by rw [thread]; exact retransmits)
  have own := (serves_asked p writeRate r c client base spare second ready asks (by rw [sending]; rfl)).1
  have grown := ready.grown
  obtain ⟨third, tx, buf, sends, ready, conn, wire, arrives⟩ :=
    add_sent p writeRate r c client base spare second ready asks sending
  obtain ⟨fourth, old, answers, ready, same, ack⟩ := add_answered p writeRate r c client base spare third tx buf
    second.intake.net.length grown.packets.length_le ready (by rw [conn, recieve]; exact receiving) arrives
  have id : (second.intake.conn (r, c)).thread.tx.id = client.sendTx.id := congrArg WireTx.id own
  have names : tx.replicaId = (second.intake.conn (r, c)).thread.tx.replicaId ∧
      tx.clientId = (second.intake.conn (r, c)).thread.tx.clientId ∧ tx.id = (second.intake.conn (r, c)).thread.tx.id :=
    ⟨congrArg WireTx.replicaId wire, congrArg WireTx.clientId wire, congrArg WireTx.id wire⟩
  rw [names.1, names.2.1, names.2.2] at ack
  have later := (nets_grow_trans base second third grown (nets_grow_leads p writeRate _ second third sends)).packets.length_le
  obtain ⟨last, received, ready, completing⟩ := ack_received p writeRate r c client base spare fourth old
    third.intake.net.length later ready (by rw [same, conn]) (by rw [same, conn]; simp only [id]; exact asks.small)
    (by rw [same, conn]; exact ack)
  have sent := serves_trans p writeRate r c base _ _ _ listens (serves_trans p writeRate r c base _ _ _ waits sends)
  exact ⟨last, serves_trans p writeRate r c base _ _ _ sent (serves_trans p writeRate r c base _ _ _ answers received), ready,
    completing⟩

theorem reaches_replicated (spare : Nat) (d : Database) (method : p.exp ≠ .tcpMethod)
    (ready : Ready p writeRate r c client base spare d) :
    ∃ next, Serves p writeRate r c base d next ∧ Ready p writeRate r c client base spare next ∧ next.intake = d.intake ∧
      next.replicas.sequencers.master = d.replicas.sequencers.master ∧
      (next.replicas.sequencers.queue r).entered.length = d.replicas.sequencers.master.confirmed.length := by
  obtain ⟨next, leads, intake, master, works, delivered⟩ := replica_catches_up p writeRate d r method ready.connection.1
    ready.reachable ready.master ready.flag ready.live ready.works
  have older := ready.grown
  have serves : Serves p writeRate r c base d next := by
    refine Machine.leads_weaken _ _ _ d next (fun act kind => ⟨.inr (.inl kind.1), fun i handed => ?_, fun i handed => ?_⟩) leads
    · exact Nat.le_trans older.packets.length_le (kind.2.packet i handed)
    · exact Nat.le_trans older.datagrams.length_le (kind.2.datagram i handed)
  refine ⟨next, serves, ?_, intake, master, delivered⟩
  exact ready_led p writeRate r c client base spare d next ready serves (by rw [intake]) (by rw [intake]) works
    (by rw [master]) (by rw [master])

theorem reaches_drained (spare : Nat) (d : Database) (ready : Ready p writeRate r c client base spare d)
    (delivered : AllDelivered r d) :
    ∃ next, Serves p writeRate r c base d next ∧ Ready p writeRate r c client base spare next ∧ Unscheduled r d next ∧
      next.replicas.unfinished r = [] := by
  obtain ⟨next, leads, kept, done⟩ := write_scheduler_drains p writeRate d r ready.reachable ready.connection.1 ready.flag
    (alive_running p writeRate r c client d ready.toAlive) delivered
  have serves : Serves p writeRate r c base d next := Machine.leads_weaken _ _ _ d next
    (fun act kind => ⟨.inr (.inr (.inl kind)), schedulers_hand_nothing base r act kind⟩) leads
  refine ⟨next, serves, ?_, kept, done⟩
  exact ready_led p writeRate r c client base spare d next ready serves kept.flag (kept.client r c)
    (by rw [kept.slave]; exact ready.works) (by rw [kept.master]) (by rw [kept.master])

end

end EpochReplication
