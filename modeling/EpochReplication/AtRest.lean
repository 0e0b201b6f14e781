import EpochReplication.Answered
import EpochReplication.ReadProgress

set_option autoImplicit false

namespace EpochReplication

structure Standing (p : Deployment) (writeRate : Nat) (d : Database) : Prop where
  reachable : (database p writeRate).Reachable d
  flags : ∀ r, p.IsNode r → d.intake.flag r = 0
  live : d.replicas.sequencers.master.exited = false
  works : ∀ r, p.IsSlave r →
    (d.replicas.sequencers.slave r).pc = .loop ∨ (d.replicas.sequencers.slave r).pc = .receiving

def DatabaseAct.settles : DatabaseAct → Prop
  | .start | .finish _ | .client _ _ (.request _ _) | .client _ _ .finish => False
  | _ => True

structure Apart (r : Nat) (d next : Database) : Prop where
  flag : next.intake.flag = d.intake.flag
  slave : ∀ q, q ≠ r → (next.replicas.sequencers.slave q).pc = (d.replicas.sequencers.slave q).pc
  client : ∀ q e, (next.intake.conn (q, e)).client = (d.intake.conn (q, e)).client

theorem apart_refl (r : Nat) (d : Database) : Apart r d d := ⟨rfl, fun _ _ => rfl, fun _ _ => rfl⟩

theorem apart_trans (r : Nat) (d next last : Database) (first : Apart r d next) (rest : Apart r next last) :
    Apart r d last where
  flag := rest.flag.trans first.flag
  slave := fun q other => (rest.slave q other).trans (first.slave q other)
  client := fun q e => (rest.client q e).trans (first.client q e)

theorem sequencers_apart (p : Deployment) (writeRate : Nat) (d next : Database) (act : DatabaseAct) (r : Nat)
    (kind : act.epochs ∨ act.replicates r) (taken : Database.step p writeRate d act = some next) :
    Apart r d next ∧ next.intake = d.intake := by
  cases database_step_cases p writeRate d next act taken with
  | sequencers inner replicas notAdd moved =>
      refine ⟨⟨rfl, fun q other => ?_, fun _ _ => rfl⟩, rfl⟩
      cases replicas_step_cases p d.replicas replicas _ moved with
      | sequencers flag inner after notTake stepped =>
          cases sequencers_step_cases p d.replicas.sequencers after _ stepped with
          | epoch | epochExit | addWriteTx | send | sendExit | takeMaster => rfl
          | takeSlave flag q => exact absurd rfl (notTake q)
          | slave flag q | slaveExit flag q =>
              obtain rfl : q = r := kind.resolve_left id
              simp only [Function.update_of_ne other]
  | start | finish | client | thread | recieve | addWriteTx | takeBatch | writeLoop | write | fetch | assign | raise
  | readLoop | takeRead | readOut | read | raiseRead => exact (kind.elim id id).elim

theorem connects_apart (p : Deployment) (writeRate : Nat) (d next : Database) (act : DatabaseAct) (r c : Nat)
    (kind : act.connects r c) (taken : Database.step p writeRate d act = some next) : Apart r d next := by
  cases database_step_cases p writeRate d next act taken with
  | thread q e act conn sent connection running step =>
      refine ⟨rfl, fun _ _ => rfl, fun q' e' => update_view Connection.client d.intake.conn q e q' e' conn ?_⟩
      cases step <;> rfl
  | recieve q e act recieve sent kind connection running step =>
      exact ⟨rfl, fun _ _ => rfl, fun q' e' => update_view Connection.client d.intake.conn q e q' e' _ rfl⟩
  | addWriteTx q e tx recieve sent replicas connection running pc step moved =>
      refine ⟨rfl, fun q' _ => ?_, fun q' e' => update_view Connection.client d.intake.conn q e q' e' _ rfl⟩
      cases replicas_step_cases p d.replicas replicas _ moved with
      | sequencers flag inner after notTake stepped =>
          cases sequencers_step_cases p d.replicas.sequencers after _ stepped with
          | addWriteTx => rfl
  | start | finish | client | sequencers | takeBatch | writeLoop | write | fetch | assign | raise | readLoop | takeRead
  | readOut | read | raiseRead => exact kind.elim

theorem serves_apart (p : Deployment) (writeRate : Nat) (d next : Database) (act : DatabaseAct) (r c : Nat)
    (replica : p.IsSlave r) (kind : act.serves r c) (taken : Database.step p writeRate d act = some next) :
    Apart r d next := by
  rcases kind with epochs | replicates | schedules | connects
  · exact (sequencers_apart p writeRate d next act r (.inl epochs) taken).1
  · exact (sequencers_apart p writeRate d next act r (.inr replicates) taken).1
  · have kept := unscheduled_step p writeRate d next act r replica schedules taken
    exact ⟨kept.flag, fun q _ => kept.slave q, kept.client⟩
  · exact connects_apart p writeRate d next act r c connects taken

theorem reads_apart (p : Deployment) (writeRate : Nat) (d next : Database) (act : DatabaseAct) (r c : Nat)
    (kind : act.reads r c) (taken : Database.step p writeRate d act = some next) : Apart r d next := by
  rcases kind with schedules | ⟨own, rfl⟩
  · have kept := scheduler_unread p writeRate d next act r schedules taken
    exact ⟨kept.flag, fun q _ => by rw [kept.sequencers], kept.client⟩
  · exact connects_apart p writeRate d next (.thread r c own) r c ⟨rfl, rfl⟩ taken

theorem reads_master (p : Deployment) (writeRate r c : Nat) (d next : Database)
    (reads : (database p writeRate).Leads (DatabaseAct.reads r c) d next) :
    next.replicas.sequencers.master = d.replicas.sequencers.master := by
  refine Machine.leads_relates (database p writeRate) (DatabaseAct.reads r c)
    (fun s t => t.replicas.sequencers.master = s.replicas.sequencers.master) (fun _ => rfl)
    (fun _ _ _ first rest => rest.trans first) (fun s act t kind taken => ?_) d next reads
  rcases kind with schedules | ⟨own, rfl⟩
  · rw [(scheduler_unread p writeRate s t act r schedules taken).sequencers]
  · cases database_step_cases p writeRate s t (.thread r c own) taken with
    | thread => rfl

theorem leads_apart (p : Deployment) (writeRate : Nat) (kind : DatabaseAct → Prop) (d next : Database) (r : Nat)
    (apart : ∀ s act t, kind act → Database.step p writeRate s act = some t → Apart r s t)
    (leads : (database p writeRate).Leads kind d next) : Apart r d next :=
  Machine.leads_relates (database p writeRate) kind (Apart r) (apart_refl r) (apart_trans r) apart d next leads

theorem serves_settle (r c : Nat) (act : DatabaseAct) (kind : act.serves r c) : act.settles := by
  cases act with
  | start | finish | client => exact (kind.elim id fun rest => rest.elim id fun rest => rest.elim id id).elim
  | thread | recieve | addWriteTx | sequencers | takeBatch | writeLoop | write | fetch | assign | raise | readLoop
  | takeRead | read | raiseRead => trivial

theorem reads_settle (r c : Nat) (act : DatabaseAct) (kind : act.reads r c) : act.settles := by
  rcases kind with schedules | ⟨own, rfl⟩
  · cases act <;> first | exact schedules.elim | trivial
  · trivial

structure Settling (d next : Database) : Prop where
  waits : ∀ q e, (next.intake.conn (q, e)).client.pc = .waiting →
    (next.intake.conn (q, e)).client = (d.intake.conn (q, e)).client
  submitted : ∀ q e, (next.intake.conn (q, e)).client.submitted = (d.intake.conn (q, e)).client.submitted

theorem settling_same (d next : Database)
    (client : ∀ q e, (next.intake.conn (q, e)).client = (d.intake.conn (q, e)).client) : Settling d next :=
  ⟨fun q e _ => client q e, fun q e => congrArg Client.submitted (client q e)⟩

theorem settling_trans (d next last : Database) (first : Settling d next) (rest : Settling next last) :
    Settling d last := by
  refine ⟨fun q e waiting => ?_, fun q e => (rest.submitted q e).trans (first.submitted q e)⟩
  have same := rest.waits q e waiting
  exact same.trans (first.waits q e (same ▸ waiting))

section

variable (p : Deployment) (writeRate : Nat)

theorem standing_apart (d next : Database) (r : Nat) (standing : Standing p writeRate d) (apart : Apart r d next)
    (reachable : (database p writeRate).Reachable next) (live : next.replicas.sequencers.master.exited = false)
    (works : (next.replicas.sequencers.slave r).pc = .loop ∨ (next.replicas.sequencers.slave r).pc = .receiving) :
    Standing p writeRate next := by
  refine ⟨reachable, fun q node => by rw [apart.flag]; exact standing.flags q node, live, fun q replica => ?_⟩
  by_cases here : q = r
  · exact here ▸ works
  · rw [apart.slave q here]
    exact standing.works q replica

theorem standing_alive (d : Database) (r c : Nat) (standing : Standing p writeRate d) (connection : p.IsConnection r c) :
    Alive p writeRate r c (d.intake.conn (r, c)).client d :=
  ⟨standing.reachable, connection, standing.flags r (.inr connection.1), standing.works r connection.1, rfl⟩

theorem response_settles (d next : Database) (r c : Nat) (client : Client) (standing : Standing p writeRate d)
    (takes : TakesResponse p writeRate r c client d next) :
    Standing p writeRate next ∧ next.replicas = d.replicas ∧ Settling d next := by
  have reachable : (database p writeRate).Reachable next := .step d next (.client r c .receive) standing.reachable takes.taken
  have choosing := takes.choosing
  cases database_step_cases p writeRate d next _ takes.taken with
  | client q e act conn connection step =>
      refine ⟨⟨reachable, standing.flags, standing.live, standing.works⟩, rfl, ⟨fun q e waiting => ?_, fun q e => ?_⟩⟩
      · by_cases here : (q, e) = (r, c)
        · cases here
          rw [choosing] at waiting
          cases waiting
        · simp only [Function.update_of_ne here]
      · refine update_view (fun conn => conn.client.submitted) d.intake.conn r c q e conn ?_
        cases step
        rfl

theorem client_settles (spare : Nat) (d : Database) (r c : Nat) (method : p.exp ≠ .tcpMethod)
    (standing : Standing p writeRate d) (connection : p.IsConnection r c)
    (fits : (d.intake.conn (r, c)).client.pc = .waiting → (d.intake.conn (r, c)).client.sendTx.type = .writeOnly →
      NumberFits (d.intake.conn (r, c)).client)
    (room : d.replicas.sequencers.master.confirmed.length + (spare + 4) ≤ 32768) :
    ∃ next, (database p writeRate).Leads DatabaseAct.settles d next ∧ Standing p writeRate next ∧
      next.replicas.sequencers.master.confirmed.length + spare ≤ 32768 ∧
      (next.intake.conn (r, c)).client.pc ≠ .waiting ∧ Settling d next := by
  have alive := standing_alive p writeRate d r c standing connection
  have takes : ∀ (kind : DatabaseAct → Prop) (e next : Database), (∀ act, kind act → act.settles) →
      (database p writeRate).Leads kind d e → Apart r d e → Standing p writeRate e →
      e.replicas.sequencers.master.confirmed.length + spare ≤ 32768 →
      TakesResponse p writeRate r c (d.intake.conn (r, c)).client e next →
      ∃ next, (database p writeRate).Leads DatabaseAct.settles d next ∧ Standing p writeRate next ∧
        next.replicas.sequencers.master.confirmed.length + spare ≤ 32768 ∧
        (next.intake.conn (r, c)).client.pc ≠ .waiting ∧ Settling d next := by
    intro kind e next allowed leads apart standing room takes
    obtain ⟨later, replicas, settling⟩ := response_settles p writeRate e next r c _ standing takes
    refine ⟨next, ?_, later, by rw [replicas]; exact room, by rw [takes.choosing]; simp, ?_⟩
    · exact Machine.leads_trans _ _ d e next (Machine.leads_weaken _ kind _ d e allowed leads)
        (Machine.leads_one _ _ e next (.client r c .receive) trivial takes.taken)
    · exact settling_trans d e next (settling_same d e apart.client) settling
  by_cases waiting : (d.intake.conn (r, c)).client.pc = .waiting
  · rcases (((database_inv_reachable p writeRate d standing.reachable).conns r c connection).issued waiting).1.kind with
      write | read
    · have ready : Ready p writeRate r c (d.intake.conn (r, c)).client d (spare + 4) d :=
        ⟨alive, standing.flags 0 (.inl rfl), standing.live, room, List.prefix_rfl, List.prefix_rfl⟩
      obtain ⟨e, next, serves, later, taken⟩ := write_answered p writeRate r c _ d spare d method ready
        ⟨fits waiting write, waiting, write⟩
      have apart := leads_apart p writeRate _ d e r
        (fun s act t kind taken => serves_apart p writeRate s t act r c connection.1 kind.1 taken) serves
      exact takes _ e next (fun act kind => serves_settle r c act kind.1) serves apart
        (standing_apart p writeRate d e r standing apart later.reachable later.live later.works) later.spare taken
    · obtain ⟨e, next, reads, later, taken⟩ := read_answered p writeRate r c _ d alive waiting read
      have apart := leads_apart p writeRate _ d e r
        (fun s act t kind taken => reads_apart p writeRate s t act r c kind taken) reads
      have master := reads_master p writeRate r c d e reads
      exact takes _ e next (reads_settle r c) reads apart
        (standing_apart p writeRate d e r standing apart later.reachable (by rw [master]; exact standing.live) later.works)
        (by rw [master]; omega) taken
  · exact ⟨d, Machine.leads_refl _ _ d, standing, by omega, waiting, settling_same d d fun _ _ => rfl⟩

theorem clients_settle (clients : List (Nat × Nat)) (spare : Nat) (d : Database) (method : p.exp ≠ .tcpMethod)
    (standing : Standing p writeRate d) (connections : ∀ x ∈ clients, p.IsConnection x.1 x.2)
    (fits : ∀ x ∈ clients, (d.intake.conn x).client.pc = .waiting → (d.intake.conn x).client.sendTx.type = .writeOnly →
      NumberFits (d.intake.conn x).client)
    (room : d.replicas.sequencers.master.confirmed.length + (spare + 4 * clients.length) ≤ 32768) :
    ∃ next, (database p writeRate).Leads DatabaseAct.settles d next ∧ Standing p writeRate next ∧
      next.replicas.sequencers.master.confirmed.length + spare ≤ 32768 ∧
      (∀ x ∈ clients, (next.intake.conn x).client.pc ≠ .waiting) ∧ Settling d next := by
  induction clients generalizing d with
  | nil => exact ⟨d, Machine.leads_refl _ _ d, standing, by omega, by simp, settling_same d d fun _ _ => rfl⟩
  | cons x rest ih =>
      obtain ⟨r, c⟩ := x
      rw [List.length_cons] at room
      obtain ⟨first, leads, standing, room, answered, settling⟩ := client_settles p writeRate (spare + 4 * rest.length) d r c
        method standing (connections (r, c) List.mem_cons_self) (fits (r, c) List.mem_cons_self) (by omega)
      obtain ⟨next, others, standing, room, all, later⟩ := ih first standing
        (fun x member => connections x (List.mem_cons_of_mem _ member)) (fun x member waiting write => by
          have same := settling.waits x.1 x.2 waiting
          rw [same] at waiting write ⊢
          exact fits x (List.mem_cons_of_mem _ member) waiting write) room
      refine ⟨next, Machine.leads_trans _ _ d first next leads others, standing, room, fun x member => ?_,
        settling_trans d first next settling later⟩
      rcases List.mem_cons.mp member with rfl | inside
      · intro waiting
        rw [later.waits r c waiting] at waiting
        exact answered waiting
      · exact all x inside

theorem batches_settle (d : Database) (standing : Standing p writeRate d)
    (room : d.replicas.sequencers.master.confirmed.length + 2 ≤ 32768) :
    ∃ next, (database p writeRate).Leads DatabaseAct.settles d next ∧ Standing p writeRate next ∧
      next.replicas.sequencers.master.placed = next.replicas.sequencers.master.confirmed.flatMap Batch.wire ∧
      next.intake = d.intake := by
  have flag := standing.flags 0 (.inl rfl)
  have stays := (staying_inv_reachable p writeRate d standing.reachable).epoch (by rw [flag]; decide)
  have inv := (database_nodes_inv p writeRate d standing.reachable).sequencers.master
  obtain ⟨m, leads, _, placed, _⟩ := epoch_pass p d.replicas.sequencers.master inv stays (by omega)
  obtain ⟨moves, live⟩ := epoch_loop_moves p writeRate d m flag standing.live leads
  refine ⟨d.withMaster m, Machine.leads_weaken _ _ _ d _ (fun act kind => serves_settle 0 0 act (.inl kind)) moves,
    ⟨?_, standing.flags, live, standing.works⟩, placed, rfl⟩
  exact Machine.leads_reachable _ _ d _ standing.reachable moves

theorem standing_running (d : Database) (r : Nat) (standing : Standing p writeRate d) (replica : p.IsSlave r) :
    d.running r = true := by
  simp only [Database.running, Sequencers.running, if_neg (Nat.ne_of_gt replica.1)]
  rcases standing.works r replica with pc | pc <;> rw [pc] <;> rfl

theorem grown_leads (kind : DatabaseAct → Prop) (d next : Database) (r : Nat) (node : p.IsNode r)
    (reachable : (database p writeRate).Reachable d) (leads : (database p writeRate).Leads kind d next) : Grown r d next := by
  have whole := Machine.leads_relates (database p writeRate) kind
    (fun s t => (database p writeRate).Reachable s → (database p writeRate).Reachable t ∧ Grown r s t)
    (fun s reachable => ⟨reachable, List.prefix_refl _, List.prefix_refl _⟩)
    (fun s t u first rest reachable => ⟨(rest (first reachable).1).1,
      grown_trans r s t u (first reachable).2 (rest (first reachable).1).2⟩)
    (fun s act t _ taken reachable => ⟨.step s t act reachable taken, grown_step p writeRate s t act r node reachable taken⟩)
    d next leads
  exact (whole reachable).2

theorem unfinished_none (s : Replicas) (r : Nat) (nodes : NodesInv p s) (node : p.IsNode r)
    (placed : s.sequencers.master.placed = s.sequencers.master.confirmed.flatMap Batch.wire)
    (none : s.unfinished r = []) : s.executedBy r = s.sequencers.master.placed := by
  have within := executed_confirmed p s r nodes.sequencers nodes.replicas node
  rw [← placed] at within
  exact within.eq_of_length_le (List.drop_eq_nil_iff.mp (List.append_eq_nil_iff.mp none).2)

theorem executed_kept (d next : Database) (r : Nat) (replica : p.IsSlave r) (reachable : (database p writeRate).Reachable d)
    (leads : (database p writeRate).Leads DatabaseAct.settles d next)
    (placed : d.replicas.sequencers.master.placed = d.replicas.sequencers.master.confirmed.flatMap Batch.wire)
    (master : next.replicas.sequencers.master = d.replicas.sequencers.master)
    (all : d.replicas.executedBy r = d.replicas.sequencers.master.placed) :
    next.replicas.executedBy r = next.replicas.sequencers.master.placed := by
  have grown := (grown_leads p writeRate _ d next r (.inr replica) reachable leads).executed
  have nodes := database_nodes_inv p writeRate next (Machine.leads_reachable _ _ d next reachable leads)
  have within := executed_confirmed p next.replicas r nodes.sequencers nodes.replicas (.inr replica)
  rw [master, ← placed, ← all] at within
  rw [master, ← all]
  exact within.eq_of_length_le grown.length_le

theorem replica_settles (d : Database) (r : Nat) (method : p.exp ≠ .tcpMethod) (replica : p.IsSlave r)
    (standing : Standing p writeRate d)
    (placed : d.replicas.sequencers.master.placed = d.replicas.sequencers.master.confirmed.flatMap Batch.wire) :
    ∃ next, (database p writeRate).Leads DatabaseAct.settles d next ∧ Standing p writeRate next ∧
      next.replicas.sequencers.master = d.replicas.sequencers.master ∧
      (∀ q e, (next.intake.conn (q, e)).client = (d.intake.conn (q, e)).client) ∧
      next.replicas.executedBy r = next.replicas.sequencers.master.placed := by
  obtain ⟨first, replicates, intake, master, works, delivered⟩ := replica_catches_up p writeRate d r method replica
    standing.reachable (standing.flags 0 (.inl rfl)) (standing.flags r (.inr replica)) standing.live (standing.works r replica)
  have apart := leads_apart p writeRate _ d first r
    (fun s act t kind taken => (sequencers_apart p writeRate s t act r (.inr kind.1) taken).1) replicates
  have later := standing_apart p writeRate d first r standing apart
    (Machine.leads_reachable _ _ d first standing.reachable replicates) (by rw [master]; exact standing.live) works
  obtain ⟨next, drains, kept, done⟩ := write_scheduler_drains p writeRate first r later.reachable replica
    (later.flags r (.inr replica)) (standing_running p writeRate first r later replica)
    ⟨by rw [master]; exact placed, by rw [master]; exact delivered⟩
  have reachable := Machine.leads_reachable _ _ first next later.reachable drains
  have settles := Machine.leads_trans _ _ d first next
    (Machine.leads_weaken _ _ _ d first (fun act kind => serves_settle r 0 act (.inr (.inl kind.1))) replicates)
    (Machine.leads_weaken _ _ _ first next (fun act kind => serves_settle r 0 act (.inr (.inr (.inl kind)))) drains)
  refine ⟨next, settles, ⟨reachable, ?_, ?_, ?_⟩, kept.master.trans master, fun q e => ?_, ?_⟩
  · intro q node
    rw [kept.flag]
    exact later.flags q node
  · rw [kept.master]
    exact later.live
  · intro q other
    rw [kept.slave]
    exact later.works q other
  · rw [kept.client, apart.client]
  · exact unfinished_none p next.replicas r (database_nodes_inv p writeRate next reachable) (.inr replica)
      (by rw [kept.master, master]; exact placed) done

theorem replicas_settle (replicas : List Nat) (d : Database) (method : p.exp ≠ .tcpMethod)
    (slaves : ∀ r ∈ replicas, p.IsSlave r) (standing : Standing p writeRate d)
    (placed : d.replicas.sequencers.master.placed = d.replicas.sequencers.master.confirmed.flatMap Batch.wire) :
    ∃ next, (database p writeRate).Leads DatabaseAct.settles d next ∧ (database p writeRate).Reachable next ∧
      next.replicas.sequencers.master = d.replicas.sequencers.master ∧
      (∀ q e, (next.intake.conn (q, e)).client = (d.intake.conn (q, e)).client) ∧
      ∀ r ∈ replicas, next.replicas.executedBy r = next.replicas.sequencers.master.placed := by
  induction replicas generalizing d with
  | nil => exact ⟨d, Machine.leads_refl _ _ d, standing.reachable, rfl, fun _ _ => rfl, by simp⟩
  | cons r rest ih =>
      obtain ⟨first, leads, standing, master, clients, all⟩ := replica_settles p writeRate d r method
        (slaves r List.mem_cons_self) standing placed
      have still : first.replicas.sequencers.master.placed =
          first.replicas.sequencers.master.confirmed.flatMap Batch.wire := by
        rw [master]
        exact placed
      obtain ⟨next, others, reachable, same, kept, done⟩ := ih first (fun q member => slaves q (List.mem_cons_of_mem r member))
        standing still
      refine ⟨next, Machine.leads_trans _ _ d first next leads others, reachable, same.trans master,
        fun q e => (kept q e).trans (clients q e), fun q member => ?_⟩
      rcases List.mem_cons.mp member with rfl | inside
      · exact executed_kept p writeRate first next q (slaves q List.mem_cons_self) standing.reachable others still same all
      · exact done q inside

end

structure AtRest (p : Deployment) (d : Database) : Prop where
  answered : ∀ r c, p.IsConnection r c → (d.intake.conn (r, c)).client.pc ≠ .waiting
  executed : ∀ r, p.IsSlave r → d.replicas.executedBy r = d.replicas.sequencers.master.placed
  asked : ∀ r c, p.IsConnection r c → ∀ w ∈ (d.intake.conn (r, c)).client.submitted,
    w ∈ d.replicas.sequencers.master.placed
  stores : ∀ r q, p.IsSlave r → p.IsSlave q → (d.replicas.exec r).storage = (d.replicas.exec q).storage

theorem at_rest (p : Deployment) (writeRate : Nat) (d : Database) (reachable : (database p writeRate).Reachable d)
    (answered : ∀ r c, p.IsConnection r c → (d.intake.conn (r, c)).client.pc ≠ .waiting)
    (executed : ∀ r, p.IsSlave r → d.replicas.executedBy r = d.replicas.sequencers.master.placed) : AtRest p d := by
  have inv := database_inv_reachable p writeRate d reachable
  have nodes := database_nodes_inv p writeRate d reachable
  refine ⟨answered, executed, fun r c connection w member => ?_, fun r q replica other => ?_⟩
  · rcases (submitted_applied_reachable p writeRate d r c reachable connection).applied w member with
      ⟨waiting, _⟩ | ⟨k, i, applied⟩
    · exact absurd waiting (answered r c connection)
    · rw [← executed r connection.1]
      exact List.mem_of_getElem? applied.executed
  · have store : ∀ r, p.IsSlave r → replay applyTx (newStorage storageSize) d.replicas.sequencers.master.placed =
        some (d.replicas.exec r).storage := by
      intro r replica
      rw [← executed r replica]
      exact (nodes.replicas r (.inr replica)).store (reports_live _ _ r (inv.reports r (.inr replica)))
    exact Option.some.inj ((store r replica).symm.trans (store q other))

theorem comes_to_rest (p : Deployment) (writeRate : Nat) (d : Database) (method : p.exp ≠ .tcpMethod)
    (reachable : (database p writeRate).Reachable d) (flags : ∀ r, p.IsNode r → d.intake.flag r = 0)
    (running : ∀ r, p.IsNode r → d.running r = true)
    (fits : ∀ r c, p.IsConnection r c → (d.intake.conn (r, c)).client.pc = .waiting →
      (d.intake.conn (r, c)).client.sendTx.type = .writeOnly → NumberFits (d.intake.conn (r, c)).client)
    (room : d.replicas.sequencers.master.confirmed.length + 4 * ((p.replicaNum - 1) * p.clientNum) + 2 ≤ 32768) :
    ∃ e, (database p writeRate).Leads DatabaseAct.settles d e ∧ AtRest p e ∧
      ∀ r c, (e.intake.conn (r, c)).client.submitted = (d.intake.conn (r, c)).client.submitted := by
  have works : ∀ r, p.IsSlave r →
      (d.replicas.sequencers.slave r).pc = .loop ∨ (d.replicas.sequencers.slave r).pc = .receiving :=
    fun r replica => replica_works p writeRate r d reachable replica (flags r (.inr replica)) (running r (.inr replica))
  have live : d.replicas.sequencers.master.exited = false := by
    simpa [Database.running, Sequencers.running] using running 0 (.inl rfl)
  have count : p.connections.length = (p.replicaNum - 1) * p.clientNum := by
    simp [Deployment.connections, Deployment.slaves, List.length_product]
  obtain ⟨told, tell, standing, room, answered, settling⟩ := clients_settle p writeRate p.connections 2 d method
    ⟨reachable, flags, live, works⟩ (fun x member => (mem_connections p x.1 x.2).mp member)
    (fun x member => fits x.1 x.2 ((mem_connections p x.1 x.2).mp member)) (by rw [count]; omega)
  obtain ⟨swapped, swap, standing, placed, same⟩ := batches_settle p writeRate told standing room
  obtain ⟨e, execute, reached, _, clients, executed⟩ := replicas_settle p writeRate p.slaves swapped method
    (fun r member => (mem_slaves p r).mp member) standing placed
  have kept : ∀ r c, (e.intake.conn (r, c)).client = (told.intake.conn (r, c)).client := by
    intro r c
    rw [clients, same]
  refine ⟨e, Machine.leads_trans _ _ d told e tell (Machine.leads_trans _ _ told swapped e swap execute), ?_, fun r c => ?_⟩
  · refine at_rest p writeRate e reached (fun r c connection => ?_) (fun r replica => executed r ((mem_slaves p r).mpr replica))
    rw [kept]
    exact answered (r, c) ((mem_connections p r c).mpr connection)
  · rw [kept]
    exact settling.submitted r c

theorem comes_to_rest_first_write : ∃ d e, afterFirstAsked = some d ∧
    (database (configuration .proposedMethod) ClientTime.writeRate).Leads DatabaseAct.settles d e ∧
      AtRest (configuration .proposedMethod) e ∧
      ∀ r c, (e.intake.conn (r, c)).client.submitted = (d.intake.conn (r, c)).client.submitted := by
  have ends : afterFirstAsked.map (fun d => ((List.range 7).all fun r => d.intake.flag r == 0 && d.running r) &&
      (configuration .proposedMethod).connections.all fun x => decide ((d.intake.conn x).client.txId = 0)) = some true := by
    decide +kernel
  obtain ⟨d, ran, first⟩ := first_asked
  rw [ran] at ends
  simp only [Option.map_some, Option.some.injEq, Bool.and_eq_true, List.all_eq_true, List.mem_range, beq_iff_eq,
    decide_eq_true_eq] at ends
  obtain ⟨nodes, numbers⟩ := ends
  obtain ⟨e, settles, rest, same⟩ := comes_to_rest (configuration .proposedMethod) ClientTime.writeRate d (by decide)
    first.reachable (fun r node => (nodes r (node_below _ r (by decide) node)).1)
    (fun r node => (nodes r (node_below _ r (by decide) node)).2)
    (fun r c connection waiting write => first_numbers_fit (configuration .proposedMethod) ClientTime.writeRate d r c
      first.reachable connection waiting write (by rw [numbers (r, c) ((mem_connections _ r c).mpr connection)]; decide))
    (by rw [first.confirmed]; decide)
  exact ⟨d, e, ran, settles, rest, same⟩

end EpochReplication
