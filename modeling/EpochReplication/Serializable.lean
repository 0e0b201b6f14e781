import EpochReplication.LogView

set_option autoImplicit false

namespace EpochReplication

open ReplicatedLog (Request Operation)

namespace Database

def asks (writeRate : Nat) (s : Nat × Nat) (x : Database × DatabaseAct) : Option (Request WireTx Int16) :=
  match x.2 with
  | .client r c (.request typeRand keyRand) =>
      if (r, c) = s then
        some (ClientTime.requestTx writeRate r c (x.1.intake.conn (r, c)).client.txId typeRand keyRand).request
      else none
  | _ => none

def answer (writeRate : Nat) (s : Nat × Nat) (x : Database × DatabaseAct) : Option (Operation WireTx Int16 Int) :=
  match x.2 with
  | .client r c .receive =>
      if (r, c) = s then
        (x.1.intake.clientStep writeRate r c .receive).map (fun intake => (intake.conn (r, c)).client.result)
      else none
  | _ => none

def asked (writeRate : Nat) (s : Nat × Nat) (run : List (Database × DatabaseAct)) : List (Request WireTx Int16) :=
  run.filterMap (asks writeRate s)

def answered (writeRate : Nat) (s : Nat × Nat) (run : List (Database × DatabaseAct)) : List (Operation WireTx Int16 Int) :=
  run.filterMap (answer writeRate s)

end Database

abbrev LogState := ReplicatedLog.State (Nat × Nat) Nat WireTx Int16 Int

structure InLog (p : Deployment) (d : Database) (st : LogState) : Prop where
  log : st.log.map Prod.snd = d.replicas.sequencers.master.placed
  applied : ∀ r, p.IsNode r → st.applied r = (d.replicas.executedBy r).length
  phases : ∀ r c, p.IsConnection r c → d.phase r c (st.phase (r, c))
  none : ∀ r c, ¬ p.IsConnection r c → st.phase (r, c) = .idle

def SameEvents (writeRate : Nat) (x : Database × DatabaseAct) (y : LogState × ReplicatedLog.Act (Nat × Nat) Nat WireTx Int16) :
    Prop :=
  ∀ s, Database.asks writeRate s x = ReplicatedLog.asks s y ∧ Database.answer writeRate s x = ReplicatedLog.answer s y

def LogStep (p : Deployment) (writeRate : Nat) (d next : Database) (act : DatabaseAct) (st : LogState) : Prop :=
  ∃ act' st', ReplicatedLog.step databaseStore st act' = some st' ∧ InLog p next st' ∧ SameEvents writeRate (d, act) (st, act')

theorem in_log_initial (p : Deployment) (writeRate : Nat) :
    InLog p (database p writeRate).init (replicatedLog databaseStore).init := by
  refine ⟨?_, fun r _ => ?_, fun r c _ => .idle (by simp [database, Database.initial, Intake.initial]) ⟨?_, ?_⟩,
    fun r c _ => rfl⟩
  · simp [replicatedLog, database, Database.initial, Replicas.initial, Sequencers.initial, Master.placed, EpochPc.swapped,
      Batch.wire]
  · have none : (Replicas.initial p).executedBy r = [] := by
      simp only [Replicas.executedBy, executed, Replicas.initial, Exec.initial, WritePc.current, Sequencers.queue]
      split <;> rfl
    exact (congrArg List.length none).symm
  · simp [database, Database.initial, Intake.initial, createTx, initTx]
  · simp [database, Database.initial, Intake.initial, createTx, initTx]

theorem log_pass (p : Deployment) (writeRate : Nat) (d next : Database) (act : DatabaseAct) (st : LogState)
    (reachable : (database p writeRate).Reachable d) (taken : Database.step p writeRate d act = some next)
    (view : InLog p d st) (client : ∀ r c own, act ≠ .client r c own)
    (placed : next.replicas.sequencers.master.placed = d.replicas.sequencers.master.placed)
    (executed : ∀ r, p.IsNode r → next.replicas.executedBy r = d.replicas.executedBy r)
    (unread : ∀ r c value, ¬ Touches d r c act (.value value)) : LogStep p writeRate d next act st := by
  refine ⟨.pass, st, rfl, ⟨view.log.trans placed.symm, fun r node => ?_, fun r c connection => ?_, view.none⟩, fun s => ?_⟩
  · rw [executed r node]
    exact view.applied r node
  · exact phase_kept p writeRate d next act r c _ reachable connection taken (client r c) (fun _ => placed) (unread r c)
      (view.phases r c connection)
  · cases act with
    | client r c own => exact absurd rfl (client r c own)
    | _ => exact ⟨rfl, rfl⟩

theorem in_log_moved (p : Deployment) (next : Database) (st : LogState) (r c : Nat) (log : List ((Nat × Nat) × WireTx))
    (looks : List (ReplicatedLog.Look (Nat × Nat) Int16 Int)) (phase : ReplicatedLog.Phase WireTx Int16 Int)
    (same : log.map Prod.snd = next.replicas.sequencers.master.placed)
    (applied : ∀ q, p.IsNode q → st.applied q = (next.replicas.executedBy q).length) (own : next.phase r c phase)
    (others : ∀ q e, p.IsConnection q e → (q, e) ≠ (r, c) → next.phase q e (st.phase (q, e)))
    (connection : p.IsConnection r c) (none : ∀ q e, ¬ p.IsConnection q e → st.phase (q, e) = .idle) :
    InLog p next ⟨log, st.applied, looks, Function.update st.phase (r, c) phase⟩ := by
  refine ⟨same, applied, fun q e there => ?_, fun q e missing => ?_⟩
  · by_cases here : (q, e) = (r, c)
    · cases here
      simp only [Function.update_self]
      exact own
    · simp only [Function.update_of_ne here]
      exact others q e there here
  · have other : (q, e) ≠ (r, c) := by
      intro here
      cases here
      exact missing connection
    simp only [Function.update_of_ne other]
    exact none q e missing

theorem client_taken (p : Deployment) (writeRate : Nat) (d next : Database) (r c : Nat) (act : ClientTime.Act)
    (taken : Database.step p writeRate d (.client r c act) = some next) :
    d.intake.clientStep writeRate r c act = some next.intake := by
  simp only [Database.step] at taken
  split at taken
  · obtain ⟨intake, moved, rfl⟩ := Option.map_eq_some_iff.mp taken
    exact moved
  · cases taken

theorem log_client (p : Deployment) (writeRate : Nat) (d next : Database) (r c : Nat) (act : ClientTime.Act) (st : LogState)
    (reachable : (database p writeRate).Reachable d)
    (taken : Database.step p writeRate d (.client r c act) = some next) (view : InLog p d st) :
    LogStep p writeRate d next (.client r c act) st := by
  have others : ∀ q e, p.IsConnection q e → (q, e) ≠ (r, c) → next.phase q e (st.phase (q, e)) := by
    intro q e connection other
    refine phase_kept p writeRate d next _ q e _ reachable connection taken (fun own same => ?_) (by simp)
      (fun value touches => (by cases touches)) (view.phases q e connection)
    cases same
    exact other rfl
  have moved := client_taken p writeRate d next r c act taken
  cases database_step_cases p writeRate d next (.client r c act) taken with
  | client _ _ _ conn connection step =>
      have was := view.phases r c connection
      cases act with
      | request typeRand keyRand =>
          obtain ⟨idle, asked⟩ := phase_request writeRate r c typeRand keyRand d conn _ step was
          refine ⟨.invoke (r, c) _, _, ReplicatedLog.step_taken _ _ _ _ (.invoke (r, c) _ idle),
            in_log_moved p _ st r c _ _ _ view.log view.applied ?_ others connection view.none, fun s => ⟨rfl, rfl⟩⟩
          simp only [Database.phase, Function.update_self]
          exact asked
      | receive =>
          obtain ⟨op, bound, at_, known, result, idle⟩ := phase_receive p writeRate d _ r c _ reachable connection taken was
          have enough : bound ≤ st.applied (databaseStore.home (r, c)) := by
            change bound ≤ st.applied r
            rw [view.applied r (connection_node p r c connection)]
            exact known
          refine ⟨.respond (r, c), _, ReplicatedLog.step_taken _ _ _ _ (.respond (r, c) op bound at_ enough),
            in_log_moved p _ st r c _ _ _ view.log view.applied idle others connection view.none, fun s => ⟨rfl, ?_⟩⟩
          by_cases here : (r, c) = s
          · subst here
            simp only [Database.answer, ReplicatedLog.answer, if_true, moved, at_, Option.map_some, result]
            rfl
          · simp [Database.answer, ReplicatedLog.answer, here]
      | finish =>
          refine ⟨.pass, st, rfl, ⟨view.log, view.applied, fun q e there => ?_, view.none⟩, fun s => ⟨rfl, rfl⟩⟩
          by_cases here : (q, e) = (r, c)
          · cases here
            unfold Database.phase at was ⊢
            simp only [Function.update_self]
            cases step with
            | finish pc =>
                generalize st.phase (r, c) = phase at was ⊢
                cases was with
                | idle _ quiet => exact .idle (by simp) quiet
                | asked waiting | writing waiting | written _ waiting | reading waiting | read _ _ waiting =>
                    rw [pc] at waiting
                    cases waiting
          · exact others q e there here

theorem writes_replay (ws : List WireTx) (store : Storage) (keys : ∀ w ∈ ws, StorageKey w.key)
    (length : store.records.length = storageSize) : ∃ last, replay applyTx store ws = some last := by
  induction ws generalizing store with
  | nil => exact ⟨store, rfl⟩
  | cons w rest ih =>
      have key := keys w List.mem_cons_self
      obtain ⟨next, wrote⟩ := write_to_storage_some store w.key w.value key.1 (by rw [length]; exact key.2)
      obtain ⟨last, replayed⟩ := ih next (fun other member => keys other (List.mem_cons_of_mem w member))
        ((write_to_storage_length store next w.key w.value wrote).trans length)
      exact ⟨last, Option.bind_eq_some_iff.mpr ⟨next, wrote, replayed⟩⟩

theorem placed_replays (p : Deployment) (d : Database) (inv : DatabaseInv p d) :
    ∃ last, replay applyTx (newStorage storageSize) d.replicas.sequencers.master.placed = some last := by
  refine writes_replay _ _ (fun w member => ?_) List.length_replicate
  obtain ⟨_, _, _, issued⟩ := (inv.placed w member).issued
  exact issued.key

theorem log_add (p : Deployment) (writeRate : Nat) (d next : Database) (r c : Nat) (st : LogState)
    (reachable : (database p writeRate).Reachable d)
    (taken : Database.step p writeRate d (.addWriteTx r c) = some next) (view : InLog p d st) :
    LogStep p writeRate d next (.addWriteTx r c) st := by
  have later : (database p writeRate).Reachable next := .step d next (.addWriteTx r c) reachable taken
  have after := database_inv_reachable p writeRate next later
  have executed : ∀ q, p.IsNode q → next.replicas.executedBy q = d.replicas.executedBy q := fun q node =>
    (database_advances p writeRate d next _ q node reachable taken).resolve_right fun no => (by cases no.1)
  have keeps := phase_kept p writeRate d next (.addWriteTx r c)
  cases database_step_cases p writeRate d next (.addWriteTx r c) taken with
  | addWriteTx _ _ tx recieve sent replicas connection running pc step moved =>
      obtain ⟨exec, _, _, ⟨_, same⟩ | ⟨_, more⟩⟩ := placed_added p d.replicas replicas _ tx moved
      · exact log_pass p writeRate d _ _ st reachable taken view (by simp) same executed
          (fun _ _ _ touches => (by cases touches))
      · obtain ⟨asked, placed⟩ := phase_commit p writeRate d _ r c tx _ reachable connection pc exec
          (executed r (connection_node p r c connection)) more (by simp) (by simp) (by simp) (view.phases r c connection)
        have length : st.log.length = d.replicas.sequencers.master.placed.length := by
          rw [← view.log, List.length_map]
        have log : (st.log ++ [((r, c), tx.wire)]).map Prod.snd = replicas.sequencers.master.placed := by
          rw [List.map_append, view.log, more]
          rfl
        obtain ⟨store, replayed⟩ := placed_replays p _ after
        rw [← length] at placed
        refine ⟨.commit (r, c), _, ReplicatedLog.step_taken _ _ _ _
          (.commit (r, c) tx.wire store asked (by rw [log]; exact replayed)),
          in_log_moved p _ st r c _ _ _ log (fun q node => ?_) placed (fun q e there other => ?_) connection view.none,
          fun s => ⟨rfl, rfl⟩⟩
        · rw [executed q node]
          exact view.applied q node
        · refine keeps q e _ reachable there taken (by simp) (fun same => ?_) (fun _ touches => (by cases touches))
            (view.phases q e there)
          cases same
          exact absurd rfl other

theorem log_write (p : Deployment) (writeRate : Nat) (d next : Database) (r : Nat) (st : LogState)
    (reachable : (database p writeRate).Reachable d) (taken : Database.step p writeRate d (.write r) = some next)
    (view : InLog p d st) : LogStep p writeRate d next (.write r) st := by
  have later : (database p writeRate).Reachable next := .step d next (.write r) reachable taken
  have node : p.IsNode r := by
    cases database_step_cases p writeRate d next (.write r) taken with
    | write _ replicas moved =>
        cases replicas_step_cases p d.replicas replicas _ moved with
        | write _ _ _ _ _ node => exact node
  have placed := log_unmoved p writeRate d next (.write r) (by simp) taken
  have others : ∀ q, p.IsNode q → q ≠ r → next.replicas.executedBy q = d.replicas.executedBy q := by
    intro q there other
    refine (database_advances p writeRate d next _ q there reachable taken).resolve_right fun no => other ?_
    injection no.1 with same
    exact same.symm
  have unread : ∀ q e value, ¬ Touches d q e (.write r) (.value value) := fun _ _ _ touches => (by cases touches)
  rcases database_advances p writeRate d next _ r node reachable taken with same | ⟨_, w, more⟩
  · refine log_pass p writeRate d next _ st reachable taken view (by simp) placed (fun q there => ?_) unread
    by_cases here : q = r
    · subst here
      exact same
    · exact others q there here
  · have count : (next.replicas.executedBy r).length = st.applied r + 1 := by
      rw [more, List.length_append, view.applied r node]
      rfl
    have nodes := database_nodes_inv p writeRate next later
    have inside := (executed_placed p next.replicas r nodes.sequencers nodes.replicas node).length_le
    rw [count, placed, ← view.log, List.length_map] at inside
    refine ⟨.apply r, _, ReplicatedLog.step_taken _ _ _ _ (.apply r inside),
      ⟨view.log.trans placed.symm, fun q there => ?_, fun q e there => ?_, view.none⟩, fun s => ⟨rfl, rfl⟩⟩
    · by_cases here : q = r
      · subst here
        simp only [Function.update_self, count]
      · simp only [Function.update_of_ne here, others q there here]
        exact view.applied q there
    · exact phase_kept p writeRate d next _ q e _ reachable there taken (by simp) (by simp) (unread q e)
        (view.phases q e there)

theorem log_read (p : Deployment) (writeRate : Nat) (d next : Database) (r : Nat) (st : LogState)
    (reachable : (database p writeRate).Reachable d) (taken : Database.step p writeRate d (.read r) = some next)
    (view : InLog p d st) : LogStep p writeRate d next (.read r) st := by
  have executed : ∀ q, p.IsNode q → next.replicas.executedBy q = d.replicas.executedBy q := fun q node =>
    (database_advances p writeRate d next _ q node reachable taken).resolve_right fun no => (by cases no.1)
  have placed := log_unmoved p writeRate d next (.read r) (by simp) taken
  have looks := phase_look p writeRate d next r
  have keeps := phase_kept p writeRate d next (.read r)
  cases database_step_cases p writeRate d next (.read r) taken with
  | readOut _ e replicas pc out moved =>
      refine log_pass p writeRate d _ _ st reachable taken view (by simp) placed executed (fun q e value touches => ?_)
      cases touches with
      | value _ here found =>
          rw [pc] at here
          cases here
          rw [out] at found
          cases found
  | read _ c value replicas pc found moved =>
      have inv := database_inv_reachable p writeRate d reachable
      have nodes := database_nodes_inv p writeRate d reachable
      have connection := (read_waits p d r c inv (by rw [pc]; rfl)).1
      have node := connection_node p r c connection
      obtain ⟨asked, key, seen⟩ := looks c value _ reachable connection taken pc found (view.phases r c connection)
      have here : ReplicatedLog.storeAt databaseStore st (st.applied r) = some (d.replicas.exec r).storage := by
        have behind := executed_placed p d.replicas r nodes.sequencers nodes.replicas node
        rw [ReplicatedLog.storeAt, List.map_take, view.log, view.applied r node, ← List.prefix_iff_eq_take.mp behind]
        exact (nodes.replicas r node).store (reports_live _ _ r (inv.reports r node))
      have touched : Touches d r c (.read r) (.value value) := .value value pc found
      rw [key] at found
      rw [← view.applied r node] at seen
      refine ⟨.look (r, c), _, ReplicatedLog.step_taken _ _ _ _ (.look (r, c) _ _ value asked here found),
        in_log_moved p _ st r c _ _ _ (view.log.trans placed.symm) (fun q there => ?_) seen (fun q e there other => ?_)
          connection view.none, fun s => ⟨rfl, rfl⟩⟩
      · rw [executed q there]
        exact view.applied q there
      · refine keeps q e _ reachable there taken (by simp) (by simp) (fun v touches => other ?_) (view.phases q e there)
        exact (touches_one d _ q e r c _ _ touched touches).symm

theorem log_step (p : Deployment) (writeRate : Nat) (d next : Database) (act : DatabaseAct) (st : LogState)
    (reachable : (database p writeRate).Reachable d) (taken : Database.step p writeRate d act = some next)
    (view : InLog p d st) : LogStep p writeRate d next act st := by
  have pass : (∀ r c own, act ≠ .client r c own) → (∀ r c, act ≠ .addWriteTx r c) → (∀ r, act ≠ .write r) →
      (∀ r, act ≠ .read r) → LogStep p writeRate d next act st := by
    intro client add write read
    refine log_pass p writeRate d next act st reachable taken view client (log_unmoved p writeRate d next act add taken)
      (fun r node => ?_) (fun r c value touches => ?_)
    · exact (database_advances p writeRate d next act r node reachable taken).resolve_right fun no => write r no.1
    · cases touches
      exact read r rfl
  cases act with
  | client r c own => exact log_client p writeRate d next r c own st reachable taken view
  | addWriteTx r c => exact log_add p writeRate d next r c st reachable taken view
  | write r => exact log_write p writeRate d next r st reachable taken view
  | read r => exact log_read p writeRate d next r st reachable taken view
  | start | finish | thread | recieve | sequencers | takeBatch | writeLoop | fetch | assign | raise | readLoop | takeRead
  | raiseRead => exact pass (by simp) (by simp) (by simp) (by simp)

theorem log_simulates (p : Deployment) (writeRate : Nat) :
    Machine.Simulates (database p writeRate) (replicatedLog databaseStore) (InLog p) (SameEvents writeRate) where
  init := in_log_initial p writeRate
  step := fun d st act next reachable view taken => log_step p writeRate d next act st reachable taken view

theorem in_log_store (p : Deployment) (writeRate : Nat) (d : Database) (st : LogState) (r : Nat) (node : p.IsNode r)
    (reachable : (database p writeRate).Reachable d) (view : InLog p d st) :
    ReplicatedLog.storeAt databaseStore st (st.applied r) = some (d.replicas.exec r).storage := by
  have inv := database_inv_reachable p writeRate d reachable
  have nodes := database_nodes_inv p writeRate d reachable
  have behind := executed_placed p d.replicas r nodes.sequencers nodes.replicas node
  rw [ReplicatedLog.storeAt, List.map_take, view.log, view.applied r node, ← List.prefix_iff_eq_take.mp behind]
  exact (nodes.replicas r node).store (reports_live _ _ r (inv.reports r node))

theorem refines_replicated_log (p : Deployment) (writeRate : Nat) (run : List (Database × DatabaseAct)) (d : Database)
    (trace : (database p writeRate).Trace run d) : ∃ run' st, (replicatedLog databaseStore).Trace run' st ∧ InLog p d st ∧
      List.Forall₂ (SameEvents writeRate) run run' ∧
      ∀ r, p.IsNode r → ReplicatedLog.storeAt databaseStore st (st.applied r) = some (d.replicas.exec r).storage := by
  obtain ⟨run', st, trace', view, same⟩ := Machine.simulates_trace _ _ _ _ (log_simulates p writeRate) run d trace
  exact ⟨run', st, trace', view, same, fun r node =>
    in_log_store p writeRate d st r node (Machine.trace_reachable _ run d trace) view⟩

def writtenAndRead : List DatabaseAct :=
  firstAnswered ++ .client 1 0 .receive :: thenRead ++ [.client 1 0 .receive]

theorem written_and_read_trace : ∃ run d, (database (configuration .proposedMethod) 50).Trace run d ∧
    d.replicas.sequencers.master.placed ≠ [] := by
  have runs : (afterActs writtenAndRead).map (fun d => d.replicas.sequencers.master.placed.length) = some 1 := by
    decide +kernel
  obtain ⟨d, ran, length⟩ := Option.map_eq_some_iff.mp runs
  obtain ⟨run, trace, _⟩ := Machine.trace_exec _ [] _ _ d .init ran
  exact ⟨_, d, trace, fun empty => (by rw [empty] at length; cases length)⟩

theorem refines_replicated_log_write : ∃ d st, (replicatedLog databaseStore).Reachable st ∧
    InLog (configuration .proposedMethod) d st ∧ st.log ≠ [] := by
  obtain ⟨run, d, trace, some⟩ := written_and_read_trace
  obtain ⟨run', st, trace', view, _⟩ := refines_replicated_log (configuration .proposedMethod) 50 run d trace
  refine ⟨d, st, Machine.trace_reachable _ run' st trace', view, fun empty => some ?_⟩
  rw [← view.log, empty]
  rfl

theorem same_events_run (writeRate : Nat) (run : List (Database × DatabaseAct))
    (run' : List (LogState × ReplicatedLog.Act (Nat × Nat) Nat WireTx Int16))
    (same : List.Forall₂ (SameEvents writeRate) run run') (s : Nat × Nat) :
    Database.asked writeRate s run = ReplicatedLog.asked s run' ∧
      Database.answered writeRate s run = ReplicatedLog.answered s run' := by
  induction same with
  | nil => exact ⟨rfl, rfl⟩
  | cons here _ ih =>
      obtain ⟨asks, answer⟩ := here s
      simp only [Database.asked, Database.answered, ReplicatedLog.asked, ReplicatedLog.answered, List.filterMap_cons, asks,
        answer] at ih ⊢
      rw [ih.1, ih.2]
      exact ⟨rfl, rfl⟩

structure Serialized (p : Deployment) (writeRate : Nat) (run : List (Database × DatabaseAct)) (d : Database)
    (ops : List ((Nat × Nat) × Operation WireTx Int16 Int)) : Prop where
  legal : ∃ last, ReplicatedLog.Legal databaseStore (newStorage storageSize) (ops.map Prod.snd) last
  writes : ops.flatMap (fun x => x.2.writes) = d.replicas.sequencers.master.placed
  own : ∀ r c, ∃ effect, ReplicatedLog.own (r, c) ops = Database.answered writeRate (r, c) run ++ effect ∧
    (effect = [] ∨ ∃ op, effect = [op] ∧ p.IsConnection r c ∧ (d.intake.conn (r, c)).client.pc = .waiting ∧
      op.request = (d.intake.conn (r, c)).client.sendTx.request)
  realTime : ∀ earlier later, run = earlier ++ later → ∀ s t op before after, ops = before ++ (t, op) :: after →
    (Database.asked writeRate t earlier).length ≤ (ReplicatedLog.own t before).length →
    (op.writes ≠ [] ∨ s.1 = t.1) → Database.answered writeRate s earlier <+: ReplicatedLog.own s before

theorem phase_effect (d : Database) (r c : Nat) (phase : ReplicatedLog.Phase WireTx Int16 Int) (was : d.phase r c phase) :
    phase.effect = [] ∨ ∃ op, phase.effect = [op] ∧ (d.intake.conn (r, c)).client.pc = .waiting ∧
      op.request = (d.intake.conn (r, c)).client.sendTx.request := by
  unfold Database.phase at was
  cases was with
  | idle | asked | writing | reading => exact .inl rfl
  | written i pc _ kind => exact .inr ⟨_, rfl, pc, (if_pos kind).symm⟩
  | read value bound pc _ kind => exact .inr ⟨_, rfl, pc, (if_neg kind).symm⟩

theorem serializable (p : Deployment) (writeRate : Nat) (run : List (Database × DatabaseAct)) (d : Database)
    (trace : (database p writeRate).Trace run d) : ∃ ops, Serialized p writeRate run d ops := by
  obtain ⟨run', st, trace', view, same⟩ := Machine.simulates_trace _ _ _ _ (log_simulates p writeRate) run d trace
  obtain ⟨legal, writes, own, realTime⟩ := ReplicatedLog.serializes databaseStore run' st trace'
  refine ⟨_, legal, writes.trans view.log, fun r c => ⟨(st.phase (r, c)).effect, ?_, ?_⟩, ?_⟩
  · rw [own (r, c), (same_events_run writeRate run run' same (r, c)).2]
  · by_cases connection : p.IsConnection r c
    · refine (phase_effect d r c _ (view.phases r c connection)).imp_right fun ⟨op, one, rest⟩ => ⟨op, one, connection, rest⟩
    · rw [view.none r c connection]
      exact .inl rfl
  · intro earlier later split s t op before after place late kind
    subst split
    have front := List.forall₂_take earlier.length same
    rw [List.take_left] at front
    have parts := (List.take_append_drop earlier.length run').symm
    rw [(same_events_run writeRate earlier _ front t).1] at late
    rw [(same_events_run writeRate earlier _ front s).2]
    exact realTime _ _ parts s t op before after place late kind

theorem serializable_write_then_read : ∃ run d ops, (database (configuration .proposedMethod) 50).Trace run d ∧
    Serialized (configuration .proposedMethod) 50 run d ops ∧ ops ≠ [] := by
  obtain ⟨run, d, trace, some⟩ := written_and_read_trace
  obtain ⟨ops, serialized⟩ := serializable (configuration .proposedMethod) 50 run d trace
  refine ⟨run, d, ops, trace, serialized, fun empty => some ?_⟩
  rw [← serialized.writes, empty]
  rfl

end EpochReplication
