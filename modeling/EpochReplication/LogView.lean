import EpochReplication.Lib.Serialization
import EpochReplication.SessionReads

set_option autoImplicit false

namespace EpochReplication

open ReplicatedLog (Request Operation)

-- The database as its clients may think of it: every replica applies the same
-- writes to the same store, and client `c` of replica `r` is session `(r, c)`.
def databaseStore : ReplicatedStore (Nat × Nat) Nat WireTx Int16 Int Storage where
  home := Prod.fst
  initial := newStorage storageSize
  write := applyTx
  read := readFromStorage

def Tx.request (tx : Tx) : Request WireTx Int16 := if tx.type = .writeOnly then .write tx.wire else .read tx.key

def Client.result (client : Client) : Operation WireTx Int16 Int :=
  if client.sendTx.type = .writeOnly then .write client.sendTx.wire else .read client.sendTx.key client.recvTx.value.toInt

structure Quiet (t : ClientThread) : Prop where
  write : t.tx.type = .writeOnly → t.raised ≠ []
  read : t.tx.type = .readOnly → t.tx.completeFlag ≠ 0

-- Where a client stands in the replicated log. `work` is what is left of its
-- write in the batches, `looking` that execute_read_tx has read for it and not
-- yet raised the flag, `done` what the replica has executed.
inductive PhaseOf (placed : List WireTx) (done : Nat) (work : List WireTx) (looking : Prop) (conn : Connection) :
    ReplicatedLog.Phase WireTx Int16 Int → Prop where
  | idle (pc : conn.client.pc ≠ .waiting) (quiet : Quiet conn.thread) : PhaseOf placed done work looking conn .idle
  | asked (pc : conn.client.pc = .waiting) (up : conn.toServer.pending ≠ []) (quiet : Quiet conn.thread) :
      PhaseOf placed done work looking conn (.requested conn.client.sendTx.request)
  | writing (pc : conn.client.pc = .waiting) (up : conn.toServer.pending = [])
      (kind : conn.client.sendTx.type = .writeOnly) (same : SameRequest conn.thread.tx.wire conn.client.sendTx.wire)
      (none : work = []) (unraised : conn.thread.raised = []) :
      PhaseOf placed done work looking conn (.requested (.write conn.client.sendTx.wire))
  | written (i : Nat) (pc : conn.client.pc = .waiting) (up : conn.toServer.pending = [])
      (kind : conn.client.sendTx.type = .writeOnly) (same : SameRequest conn.thread.tx.wire conn.client.sendTx.wire)
      (logged : work ≠ [] ∨ conn.thread.raised ≠ []) (found : placed[i]? = some conn.client.sendTx.wire) :
      PhaseOf placed done work looking conn (.taken (.write conn.client.sendTx.wire) (i + 1))
  | reading (pc : conn.client.pc = .waiting) (up : conn.toServer.pending = [])
      (kind : conn.client.sendTx.type ≠ .writeOnly) (same : SameRequest conn.thread.tx.wire conn.client.sendTx.wire)
      (unseen : ¬ looking) (complete : conn.thread.tx.completeFlag = 0) :
      PhaseOf placed done work looking conn (.requested (.read conn.client.sendTx.key))
  | read (value : Int) (bound : Nat) (pc : conn.client.pc = .waiting) (up : conn.toServer.pending = [])
      (kind : conn.client.sendTx.type ≠ .writeOnly) (same : SameRequest conn.thread.tx.wire conn.client.sendTx.wire)
      (seen : looking ∨ conn.thread.tx.completeFlag ≠ 0) (result : conn.thread.tx.value.toInt = value)
      (known : bound ≤ done) : PhaseOf placed done work looking conn (.taken (.read conn.client.sendTx.key value) bound)

def Database.phase (d : Database) (r c : Nat) : ReplicatedLog.Phase WireTx Int16 Int → Prop :=
  PhaseOf d.replicas.sequencers.master.placed (d.replicas.executedBy r).length
    ((d.replicas.unfinished r).filter (mine r c)) ((d.replicas.exec r).readPc = .raising c) (d.intake.conn (r, c))

theorem same_request_type (tx asked : WireTx) (same : SameRequest tx asked) : tx.type = asked.type := by
  have equal := congrArg WireTx.type same.request
  exact equal

theorem phase_frame (before after : List WireTx) (done more : Nat) (work : List WireTx) (looking looks : Prop)
    (conn next : Connection) (phase : ReplicatedLog.Phase WireTx Int16 Int) (grown : before <+: after) (le : done ≤ more)
    (iff : looks ↔ looking) (client : next.client = conn.client) (up : next.toServer = conn.toServer)
    (raised : next.thread.raised = conn.thread.raised) (wire : next.thread.tx.wire = conn.thread.tx.wire)
    (complete : next.thread.tx.completeFlag = conn.thread.tx.completeFlag)
    (was : PhaseOf before done work looking conn phase) : PhaseOf after more work looks next phase := by
  have type : next.thread.tx.type = conn.thread.tx.type := congrArg WireTx.type wire
  have value : next.thread.tx.value = conn.thread.tx.value := congrArg WireTx.value wire
  have quiet : Quiet conn.thread → Quiet next.thread := by
    rintro ⟨write, read⟩
    refine ⟨?_, ?_⟩
    · rwa [type, raised]
    · rwa [type, complete]
  cases was with
  | idle pc still => exact .idle (by rwa [client]) (quiet still)
  | asked pc sent still =>
      rw [← client] at pc ⊢
      exact .asked pc (by rwa [up]) (quiet still)
  | writing pc none kind same empty unraised =>
      rw [← client] at pc kind same ⊢
      exact .writing pc (by rwa [up]) kind (by rwa [wire]) empty (by rwa [raised])
  | written i pc none kind same logged found =>
      rw [← client] at pc kind same found ⊢
      obtain ⟨rest, rfl⟩ := grown
      refine .written i pc (by rwa [up]) kind (by rwa [wire]) (by rwa [raised]) ?_
      rw [List.getElem?_append_left (List.getElem?_eq_some_iff.mp found).1]
      exact found
  | reading pc none kind same unseen waits =>
      rw [← client] at pc kind same ⊢
      exact .reading pc (by rwa [up]) kind (by rwa [wire]) (by rwa [iff]) (by rwa [complete])
  | read result bound pc none kind same seen here known =>
      rw [← client] at pc kind same ⊢
      refine .read _ bound pc (by rwa [up]) kind (by rwa [wire]) ?_ ?_ (Nat.le_trans known le)
      · rwa [iff, complete]
      · rwa [value]

theorem phase_thread (flag : Int) (net sent : List Packet) (r c : Nat) (conn next : Connection) (act : ClientInterface.Act)
    (placed : List WireTx) (done : Nat) (work : List WireTx) (looking : Prop) (phase : ReplicatedLog.Phase WireTx Int16 Int)
    (inv : ConnectionInv flag r c conn) (waits : looking → ReadWaits conn.thread)
    (between : conn.thread.pc = .receiving → work = []) (step : ThreadStep flag net r c conn act next sent)
    (was : PhaseOf placed done work looking conn phase) : PhaseOf placed done work looking next phase := by
  have frame : next.client = conn.client → next.toServer = conn.toServer → next.thread.raised = conn.thread.raised →
      next.thread.tx = conn.thread.tx → PhaseOf placed done work looking next phase := by
    intro client up raised tx
    exact phase_frame placed placed done done work looking looking conn next phase (List.prefix_refl _) (Nat.le_refl _)
      Iff.rfl client up raised (by rw [tx]) (by rw [tx]) was
  cases step with
  | ignore data recvMsg len rest pc took filled other =>
      have request := (received_request_of_turn conn inv.turn pc data conn.thread.recvMsg len rest took).1
      rw [← filled, other] at request
      cases request
  | receive data recvMsg len rest tx pc took filled request decoded =>
      subst filled
      have more := Fifo.try_take_pending conn.toServer rest (data, len) took
      obtain ⟨_, empty, _, origin⟩ := received_request_of_turn conn inv.turn pc data conn.thread.recvMsg len rest took
      rw [← decoded] at origin
      cases was with
      | idle gone quiet =>
          obtain ⟨waiting, _⟩ | ⟨_, wire⟩ := origin
          · exact absurd waiting gone
          · have type : tx.type = .finishRequest := congrArg WireTx.type wire
            refine .idle gone ⟨?_, ?_⟩
            · simp [type]
            · simp [type]
      | asked waiting up quiet =>
          have wire := (origin.resolve_right (fun gone => by rw [waiting] at gone; cases gone.1)).2
          have same : SameRequest tx.wire conn.client.sendTx.wire := ⟨by rw [wire], fun _ => wire⟩
          by_cases write : conn.client.sendTx.type = .writeOnly
          · rw [Tx.request, if_pos write]
            exact .writing waiting empty write same (between pc) rfl
          · rw [Tx.request, if_neg write]
            refine .reading waiting empty write same (fun looks => ?_)
              (decoded ▸ decoded_complete requestTxLayout (receiveMsg conn.thread.recvMsg data len))
            rcases (waits looks).waits with no | no <;> simp [pc, ClientThreadPc.completes] at no
      | writing _ up | written _ _ up | reading _ up | read _ _ _ up =>
          rw [more] at up
          cases up
  | enter | leave | requestRead | requestWrite | giveUp | send | check | checkFinish | acknowledge | poll | pollNothing
  | spin | complete | abandon | respond => exact frame rfl rfl rfl rfl

theorem phase_assign (placed : List WireTx) (done : Nat) (work : List WireTx) (looking : Prop) (conn : Connection)
    (epochId : Int16) (phase : ReplicatedLog.Phase WireTx Int16 Int) (was : PhaseOf placed done work looking conn phase) :
    PhaseOf placed done work looking { conn with thread := waitForTx conn.thread (.assign epochId) } phase :=
  phase_frame placed placed done done work looking looking conn _ phase (List.prefix_refl _) (Nat.le_refl _) Iff.rfl
    rfl rfl rfl rfl rfl was

theorem phase_raise (placed : List WireTx) (done more : Nat) (work after : List WireTx) (looking looks : Prop)
    (conn : Connection) (position : Nat × Nat) (phase : ReplicatedLog.Phase WireTx Int16 Int)
    (write : conn.thread.tx.type = .writeOnly)
    (unraised : conn.thread.raised = []) (waits : work ≠ []) (was : PhaseOf placed done work looking conn phase) :
    PhaseOf placed more after looks { conn with thread := waitForTx conn.thread (.raise (some position)) } phase := by
  cases was with
  | idle _ quiet | asked _ _ quiet => exact absurd unraised (quiet.write write)
  | writing _ _ _ _ none => exact absurd none waits
  | reading _ _ kind same | read _ _ _ _ kind same => exact absurd ((same_request_type _ _ same).symm.trans write) kind
  | written i pc up kind same logged found =>
      refine .written i pc up kind same (.inr ?_) found
      simp [waitForTx]

theorem phase_raise_read (placed : List WireTx) (done : Nat) (work : List WireTx) (looking looks : Prop)
    (conn : Connection) (phase : ReplicatedLog.Phase WireTx Int16 Int) (waits : ReadWaits conn.thread) (seen : looking)
    (was : PhaseOf placed done work looking conn phase) :
    PhaseOf placed done work looks { conn with thread := waitForTx conn.thread (.raise none) } phase := by
  cases was with
  | idle _ quiet | asked _ _ quiet => exact absurd waits.complete (quiet.read waits.kind)
  | writing _ _ kind same none unraised => exact .writing ‹_› ‹_› kind same none (by simpa [waitForTx] using unraised)
  | written i pc up kind same logged found => exact .written i pc up kind same (by simpa [waitForTx] using logged) found
  | reading _ _ _ _ unseen => exact absurd seen unseen
  | read value bound pc up kind same _ result known =>
      refine .read value bound pc up kind same (.inr ?_) result known
      simp [waitForTx, raiseTxCompleteFlag]

theorem phase_value (placed : List WireTx) (done : Nat) (work : List WireTx) (looking looks : Prop) (conn : Connection)
    (value : Int) (phase : ReplicatedLog.Phase WireTx Int16 Int) (waits : ReadWaits conn.thread) (unseen : ¬ looking)
    (seen : looks)
    (fits : (Int16.ofInt value).toInt = value) (was : PhaseOf placed done work looking conn phase) :
    phase = .requested (.read conn.client.sendTx.key) ∧ conn.thread.tx.key = conn.client.sendTx.key ∧
      PhaseOf placed done work looks { conn with thread := waitForTx conn.thread (.value value) }
        (.taken (.read conn.client.sendTx.key value) done) := by
  cases was with
  | idle _ quiet | asked _ _ quiet => exact absurd waits.complete (quiet.read waits.kind)
  | writing _ _ kind same | written _ _ _ kind same =>
      have type := (same_request_type _ _ same).trans kind
      exact absurd (waits.kind.symm.trans type) (by simp)
  | read _ _ _ _ _ _ other =>
      rcases other with looks | complete
      · exact absurd looks unseen
      · exact absurd waits.complete complete
  | reading pc up kind same =>
      refine ⟨rfl, congrArg WireTx.key same.request, .read value done pc up kind ?_ (.inl seen) fits (Nat.le_refl _)⟩
      exact ⟨same.request, fun write => absurd write kind⟩

theorem log_grows (p : Deployment) (writeRate : Nat) (d next : Database) (act : DatabaseAct)
    (taken : Database.step p writeRate d act = some next) :
    d.replicas.sequencers.master.placed <+: next.replicas.sequencers.master.placed := by
  rcases database_nodes_step p writeRate d next act taken with same | ⟨q, inner, moved, _⟩
  · rw [same]
  · by_cases add : ∃ tx, inner = .sequencers (.addWriteTx tx)
    · obtain ⟨tx, rfl⟩ := add
      obtain ⟨_, _, _, ⟨_, same⟩ | ⟨_, more⟩⟩ := placed_added p d.replicas next.replicas _ tx moved
      · rw [same]
      · rw [more]
        exact List.prefix_append _ _
    · rw [replicas_placed_kept p d.replicas next.replicas _ inner (fun tx same => add ⟨tx, same⟩) moved]

theorem log_unmoved (p : Deployment) (writeRate : Nat) (d next : Database) (act : DatabaseAct)
    (other : ∀ r c, act ≠ .addWriteTx r c) (taken : Database.step p writeRate d act = some next) :
    next.replicas.sequencers.master.placed = d.replicas.sequencers.master.placed := by
  have kept : ∀ (flag : Int) (inner : ReplicasAct), (∀ tx, inner ≠ .sequencers (.addWriteTx tx)) →
      Replicas.step p d.replicas (flag, inner) = some next.replicas →
      next.replicas.sequencers.master.placed = d.replicas.sequencers.master.placed :=
    fun flag inner kind moved => replicas_placed_kept p d.replicas next.replicas flag inner kind moved
  cases database_step_cases p writeRate d next act taken with
  | start | finish | client | thread | recieve => rfl
  | addWriteTx r c => exact absurd rfl (other r c)
  | sequencers _ _ kind moved => exact kept _ _ (fun tx add => kind tx (ReplicasAct.sequencers.inj add)) moved
  | takeBatch _ _ moved | writeLoop _ _ moved | write _ _ moved | readLoop _ _ moved | takeRead _ _ moved =>
      exact kept _ _ (by simp) moved
  | fetch _ _ _ _ _ _ _ moved => exact kept _ _ (by simp) moved
  | assign _ _ _ _ _ _ moved | raise _ _ _ _ _ _ moved => exact kept _ _ (by simp) moved
  | readOut _ _ _ _ _ moved => exact kept _ _ (by simp) moved
  | read _ _ _ _ _ _ moved => exact kept _ _ (by simp) moved
  | raiseRead _ _ _ _ moved => exact kept _ _ (by simp) moved

theorem looking_stays (p : Deployment) (s t : Replicas) (flag : Int) (act : ReplicasAct) (r c : Nat)
    (kind : act ≠ .read r .raise) (taken : Replicas.step p s (flag, act) = some t)
    (raising : (s.exec r).readPc = .raising c) : (t.exec r).readPc = .raising c := by
  have write : ∀ (q : Nat) (act : WriteAct) (exec : Exec), WriteStep flag q (s.exec q) act exec →
      (Function.update s.exec q exec r).readPc = .raising c := by
    intro q act exec done
    by_cases here : r = q
    · subst here
      rw [Function.update_self, write_step_reads flag r (s.exec r) exec act done]
      exact raising
    · rw [Function.update_of_ne here]
      exact raising
  cases replicas_step_cases p s t (flag, act) taken with
  | sequencers => exact raising
  | takeNone flag q exec node running done => exact write q _ exec done
  | take flag q batch rest next exec node running took moved done => exact write q _ exec done
  | write flag q act exec other node running done => exact write q act exec done
  | read flag q act exec node running done =>
      by_cases here : r = q
      · subst here
        cases done with
        | raise => exact absurd rfl kind
        | enter pc | leave pc | takeNone pc | take _ pc | crash _ _ pc | read _ _ _ pc =>
            rw [raising] at pc
            cases pc
      · simp only [Function.update_of_ne here]
        exact raising

theorem looking_kept (p : Deployment) (writeRate : Nat) (d next : Database) (act : DatabaseAct) (r c : Nat)
    (taken : Database.step p writeRate d act = some next) (unread : ∀ value, ¬ Touches d r c act (.value value))
    (unraised : ¬ Touches d r c act (.raise none)) :
    (next.replicas.exec r).readPc = .raising c ↔ (d.replicas.exec r).readPc = .raising c := by
  refine ⟨fun after => ?_, fun raising => ?_⟩
  · exact (raised_step p writeRate d next act r c taken after).resolve_right fun ⟨value, touches⟩ => unread value touches
  · have stays := fun (flag : Int) (inner : ReplicasAct) kind moved =>
      looking_stays p d.replicas next.replicas flag inner r c kind moved raising
    cases database_step_cases p writeRate d next act taken with
    | start | finish | client | thread | recieve => exact raising
    | addWriteTx _ _ _ _ _ _ _ _ _ _ moved => exact stays _ _ (by simp) moved
    | sequencers _ _ _ moved => exact stays _ _ (by simp) moved
    | takeBatch _ _ moved | writeLoop _ _ moved | write _ _ moved | readLoop _ _ moved | takeRead _ _ moved =>
        exact stays _ _ (by simp) moved
    | fetch _ _ _ _ _ _ _ moved => exact stays _ _ (by simp) moved
    | assign _ _ _ _ _ _ moved | raise _ _ _ _ _ _ moved => exact stays _ _ (by simp) moved
    | readOut _ _ _ _ _ moved => exact stays _ _ (by simp) moved
    | read _ _ _ _ _ _ moved => exact stays _ _ (by simp) moved
    | raiseRead q e replicas pc moved =>
        by_cases here : q = r
        · subst here
          rw [raising] at pc
          cases pc
          exact absurd (.raiseRead raising) unraised
        · exact stays _ _ (by simp [here]) moved

theorem work_kept (p : Deployment) (writeRate : Nat) (d next : Database) (act : DatabaseAct) (r c : Nat)
    (reachable : (database p writeRate).Reachable d) (connection : p.IsConnection r c)
    (taken : Database.step p writeRate d act = some next)
    (full : act = .addWriteTx r c →
      next.replicas.sequencers.master.placed = d.replicas.sequencers.master.placed)
    (unraised : ∀ position, ¬ Touches d r c act (.raise (some position))) :
    (next.replicas.unfinished r).filter (mine r c) = (d.replicas.unfinished r).filter (mine r c) := by
  have later := Machine.Reachable.step d next act reachable taken
  have inv := database_inv_reachable p writeRate d reachable
  have before := database_nodes_inv p writeRate d reachable
  have after := database_nodes_inv p writeRate next later
  have node := connection_node p r c connection
  have live := reports_live _ _ r ((database_inv_reachable p writeRate next later).reports r node)
  have kept : ∀ (flag : Int) (inner : ReplicasAct), (∀ tx, inner ≠ .sequencers (.addWriteTx tx)) →
      (inner = .write r .raise → ∀ w ∈ (d.replicas.exec r).writePc.reporting, mine r c w = false) →
      Replicas.step p d.replicas (flag, inner) = some next.replicas →
      (next.replicas.unfinished r).filter (mine r c) = (d.replicas.unfinished r).filter (mine r c) := by
    intro flag inner kind quiet moved
    exact work_filter d.replicas next.replicas r c inner (work_step p d.replicas next.replicas flag inner r
      after.sequencers before.replicas after.replicas node live kind moved).2 quiet
  cases database_step_cases p writeRate d next act taken with
  | start | finish | client | thread | recieve => rfl
  | addWriteTx q e tx recieve sent replicas there running pc step moved =>
      obtain ⟨exec, _, queue, outcome⟩ := placed_added p d.replicas replicas _ tx moved
      obtain ⟨more, values, placed, _⟩ := add_write_outcome _ d.intake.net sent q e _ recieve tx _ _ _ pc outcome step
      have issued := ((inv.conns q e there).hands tx (.inr pc)).issued
      have bound := (executed_placed p d.replicas r before.sequencers before.replicas node).length_le
      have executed : replicas.executedBy r = d.replicas.executedBy r := by
        simp only [Replicas.executedBy, queue, exec]
      have none : more.filter (mine r c) = [] := by
        rw [filter_mine q e r c tx.wire more issued values]
        split
        · rename_i same
          cases same
          have unmoved := full rfl
          rw [placed] at unmoved
          exact List.append_right_eq_self.mp unmoved
        · rfl
      simp only [Replicas.unfinished, executed, placed, exec, List.drop_append_of_le_length bound, List.filter_append, none,
        List.append_nil]
  | sequencers act replicas kind moved =>
      exact kept _ _ (fun tx add => kind tx (ReplicasAct.sequencers.inj add)) (by simp) moved
  | takeBatch _ _ moved | writeLoop _ _ moved | write _ _ moved | readLoop _ _ moved | takeRead _ _ moved =>
      exact kept _ _ (by simp) (by simp) moved
  | fetch _ _ _ _ _ _ _ moved => exact kept _ _ (by simp) (by simp) moved
  | assign _ _ _ _ _ _ moved => exact kept _ _ (by simp) (by simp) moved
  | readOut _ _ _ _ _ moved | raiseRead _ _ _ _ moved => exact kept _ _ (by simp) (by simp) moved
  | read _ _ _ _ _ _ moved => exact kept _ _ (by simp) (by simp) moved
  | raise q i e batch replicas pc moved =>
      refine kept _ _ (by simp) (fun same w member => ?_) moved
      injection same with same
      subst same
      obtain ⟨tx, found, _, client, report⟩ :=
        reported_tx d.replicas d.intake.conn q e i batch (inv.reports q node) (.inl pc)
      rw [report] at member
      cases List.mem_singleton.mp member
      rw [Bool.eq_false_iff, Ne, mine_iff]
      rintro ⟨_, own⟩
      have own : tx.clientId.toInt = c := own
      obtain rfl : e = c := by omega
      exact unraised _ (.raise batch i pc)

theorem reported_unraised_work (p : Deployment) (d : Database) (r c i : Nat) (batch : Batch) (inv : DatabaseInv p d)
    (connection : p.IsConnection r c) (pc : (d.replicas.exec r).writePc = .raising batch i c) :
    (d.intake.conn (r, c)).thread.tx.type = .writeOnly ∧ (d.intake.conn (r, c)).thread.raised = [] ∧
      (d.replicas.unfinished r).filter (mine r c) ≠ [] := by
  obtain ⟨tx, rest, found, report, work⟩ := reported_waits p d r c i batch connection inv (.inl pc)
  obtain ⟨_, _, write, _, _, _, _, unraised, _⟩ :=
    stage_carries _ _ _ _ c _ _ tx.wire rest work (inv.stages r c connection)
  refine ⟨write, unraised.raised, ?_⟩
  obtain ⟨same, there, replica, client, _⟩ :=
    reported_tx d.replicas d.intake.conn r c i batch (inv.reports r (connection_node p r c connection)) (.inl pc)
  rw [found] at there
  cases there
  have own : mine r c tx.wire = true := (mine_iff r c tx.wire).mpr ⟨replica, client⟩
  simp [Replicas.unfinished, report, own]

theorem phase_kept (p : Deployment) (writeRate : Nat) (d next : Database) (act : DatabaseAct) (r c : Nat)
    (phase : ReplicatedLog.Phase WireTx Int16 Int) (reachable : (database p writeRate).Reachable d)
    (connection : p.IsConnection r c)
    (taken : Database.step p writeRate d act = some next) (client : ∀ own, act ≠ .client r c own)
    (full : act = .addWriteTx r c →
      next.replicas.sequencers.master.placed = d.replicas.sequencers.master.placed)
    (unread : ∀ value, ¬ Touches d r c act (.value value)) (was : d.phase r c phase) :
    next.phase r c phase := by
  have inv := database_inv_reachable p writeRate d reachable
  have grown := log_grows p writeRate d next act taken
  have le := (grown_step p writeRate d next act r (connection_node p r c connection) reachable taken).executed.length_le
  -- What the step does to the nodes, once the connection is as after it.
  have nodes : ∀ conn : Connection, next.intake.conn (r, c) = conn →
      (∀ position, ¬ Touches d r c act (.raise position)) →
      PhaseOf d.replicas.sequencers.master.placed (d.replicas.executedBy r).length
        ((d.replicas.unfinished r).filter (mine r c)) ((d.replicas.exec r).readPc = .raising c) conn phase →
      next.phase r c phase := by
    intro conn same quiet view
    unfold Database.phase
    rw [same, work_kept p writeRate d next act r c reachable connection taken full (fun position => quiet _)]
    exact phase_frame _ _ _ _ _ _ _ conn conn phase grown le
      (looking_kept p writeRate d next act r c taken unread (quiet none)) rfl rfl rfl rfl rfl view
  unfold Database.phase at was
  cases database_conn_step p writeRate d next act r c taken with
  | same act other quiet conn => exact nodes _ conn (fun position => quiet _) was
  | client act => exact absurd rfl (client act)
  | thread act after sent _ step conn =>
      refine nodes after conn (fun position touches => (by cases touches)) ?_
      refine phase_thread _ _ sent r c _ after act _ _ _ _ phase (inv.conns r c connection)
        (fun looking => (read_waits p d r c inv (by rw [looking]; rfl)).2.1) (fun pc => ?_) step was
      have none := stage_between _ _ _ _ c _ _ (.inr pc) (inv.stages r c connection)
      exact (List.append_eq_nil_iff.mp none).1
  | recieve act inner recieve sent from_ step conn =>
      refine nodes _ conn (fun position touches => ?_) ?_
      · rcases from_ with rfl | ⟨rfl, _⟩ <;> cases touches
      · exact phase_frame _ _ _ _ _ _ _ (d.intake.conn (r, c)) _ phase (List.prefix_refl _) (Nat.le_refl _) Iff.rfl rfl rfl
          rfl rfl rfl was
  | touch act tx touches conn =>
      cases touches with
      | assign batch i pc =>
          exact nodes _ conn (fun position touches => (by cases touches)) (phase_assign _ _ _ _ _ _ phase was)
      | value value pc found => exact absurd (.value value pc found) (unread value)
      | raise batch i pc =>
          obtain ⟨write, unraised, waits⟩ := reported_unraised_work p d r c i batch inv connection pc
          unfold Database.phase
          rw [conn]
          exact phase_frame _ _ _ _ _ _ _ _ _ phase grown (Nat.le_refl _) Iff.rfl rfl rfl rfl rfl rfl
            (phase_raise _ _ _ _ _ _ _ _ _ phase write unraised waits was)
      | raiseRead pc =>
          have waits := (read_waits p d r c inv (by rw [pc]; rfl)).2.1
          have work := work_kept p writeRate d next (.raiseRead r) r c reachable connection taken (by simp)
            (fun position touches => (by cases touches))
          unfold Database.phase
          rw [conn, work]
          exact phase_frame _ _ _ _ _ _ _ _ _ phase grown le Iff.rfl rfl rfl rfl rfl rfl
            (phase_raise_read _ _ _ _ _ _ phase waits pc was)

theorem phase_request (writeRate r c typeRand keyRand : Nat) (d : Database) (conn : Connection)
    (phase : ReplicatedLog.Phase WireTx Int16 Int)
    (step : ClientStep writeRate r c (d.intake.conn (r, c)) (.request typeRand keyRand) conn)
    (was : d.phase r c phase) : phase = .idle ∧
      PhaseOf d.replicas.sequencers.master.placed (d.replicas.executedBy r).length
        ((d.replicas.unfinished r).filter (mine r c)) ((d.replicas.exec r).readPc = .raising c) conn
        (.requested (ClientTime.requestTx writeRate r c (d.intake.conn (r, c)).client.txId typeRand keyRand).request) := by
  unfold Database.phase at was
  cases step with
  | request typeRand keyRand sendTx pc chosen =>
      subst chosen
      cases was with
      | idle _ quiet => exact ⟨rfl, .asked rfl (by simp) quiet⟩
      | asked waiting | writing waiting | written _ waiting | reading waiting | read _ _ waiting =>
          rw [pc] at waiting
          cases waiting

theorem phase_receive (p : Deployment) (writeRate : Nat) (d next : Database) (r c : Nat)
    (phase : ReplicatedLog.Phase WireTx Int16 Int)
    (reachable : (database p writeRate).Reachable d) (connection : p.IsConnection r c)
    (taken : Database.step p writeRate d (.client r c .receive) = some next) (was : d.phase r c phase) :
    ∃ op bound, phase = .taken op bound ∧ bound ≤ (d.replicas.executedBy r).length ∧
      op = (next.intake.conn (r, c)).client.result ∧ next.phase r c .idle := by
  obtain ⟨run, trace⟩ := Machine.reachable_trace _ d reachable
  have inv := database_inv_reachable p writeRate d reachable
  obtain ⟨answer, complete, same, told⟩ :=
    response_received p writeRate d next r c _ (served_trace p writeRate run d r c connection trace) taken
  have content : (next.intake.conn (r, c)).client.recvTx.value = (d.intake.conn (r, c)).thread.tx.value :=
    congrArg WireTx.value told
  have raised : (d.intake.conn (r, c)).thread.tx.type = .writeOnly → (d.intake.conn (r, c)).thread.raised ≠ [] ∧
      (d.replicas.unfinished r).filter (mine r c) = [] := by
    intro write
    have stage := inv.stages r c connection
    unfold Database.stage flow at stage
    cases stage with
    | idle kind => exact absurd write kind
    | fresh _ _ unraised | sent _ _ _ _ _ unraised | placed _ _ _ _ _ _ unraised => exact absurd unraised.complete complete
    | raised k i _ _ _ _ none position =>
        refine ⟨?_, (List.append_eq_nil_iff.mp none).1⟩
        rw [position.raised]
        simp
  have through : next.phase r c .idle ∧
      (next.intake.conn (r, c)).client.sendTx = (d.intake.conn (r, c)).client.sendTx := by
    unfold Database.phase
    cases database_conn_step p writeRate d next _ r c taken with
    | same act other => exact absurd rfl (other .receive)
    | recieve act inner recieve sent from_ => rcases from_ with no | ⟨no, _⟩ <;> cases no
    | touch act tx touches => cases touches
    | client act after _ step conn =>
        rw [conn]
        cases step with
        | receive data msg len rest recvTx pc took =>
            exact ⟨.idle (by simp) ⟨fun write => (raised write).1, fun _ => complete⟩, rfl⟩
  obtain ⟨waiting, up⟩ : (d.intake.conn (r, c)).client.pc = .waiting ∧ (d.intake.conn (r, c)).toServer.pending = [] := by
    cases (inv.conns r c connection).turn with
    | answered message pc up => exact ⟨pc, up⟩
    | choosing _ _ down | requesting _ _ _ down | serving _ _ down | finishing _ _ _ down | finished _ _ down =>
        exact absurd down answer
  have type := same_request_type _ _ same
  obtain ⟨through, asked⟩ := through
  unfold Database.phase at was
  cases was with
  | idle gone => exact absurd waiting gone
  | asked _ sent => exact absurd up sent
  | writing _ _ kind _ _ unraised => exact absurd unraised (raised (type.trans kind)).1
  | reading _ _ _ _ _ open_ => exact absurd open_ complete
  | read value bound _ _ kind _ _ result known =>
      exact ⟨_, bound, rfl, known, by rw [Client.result, asked, if_neg kind, content, result], through⟩
  | written i _ _ kind _ _ found =>
      refine ⟨_, i + 1, rfl, ?_, by rw [Client.result, asked, if_pos kind], through⟩
      by_contra beyond
      have issued := ((inv.conns r c connection).issued waiting).1
      have own := (mine_iff r c _).mpr ⟨issued.replica, issued.client⟩
      have member : (d.intake.conn (r, c)).client.sendTx.wire ∈ (d.replicas.unfinished r).filter (mine r c) := by
        refine List.mem_filter.mpr ⟨List.mem_append_right _ ?_, own⟩
        refine List.mem_of_getElem? (i := i - (d.replicas.executedBy r).length) ?_
        rw [List.getElem?_drop, Nat.add_sub_cancel' (by omega)]
        exact found
      rw [(raised (type.trans kind)).2] at member
      cases member

theorem read_fits (storage : Storage) (key : Int16) (value : Int) (found : readFromStorage storage key = some value) :
    (Int16.ofInt value).toInt = value := by
  obtain ⟨i, _, stored⟩ := Option.bind_eq_some_iff.mp found
  obtain ⟨record, _, rfl⟩ := Option.map_eq_some_iff.mp stored
  rw [Int16.ofInt_toInt]

theorem read_looks (p : Deployment) (writeRate : Nat) (d next : Database) (r c : Nat) (value : Int)
    (taken : Database.step p writeRate d (.read r) = some next) (pc : (d.replicas.exec r).readPc = .reading c)
    (found : readFromStorage (d.replicas.exec r).storage (d.intake.conn (r, c)).thread.tx.key = some value) :
    (next.replicas.exec r).readPc = .raising c := by
  cases database_step_cases p writeRate d next (.read r) taken with
  | readOut _ e replicas here out moved =>
      rw [pc] at here
      cases here
      rw [out] at found
      cases found
  | read _ e other replicas here also moved =>
      rw [pc] at here
      cases here
      cases replicas_step_cases p d.replicas replicas _ moved with
      | read flag _ act exec node running done =>
          simp only [Function.update_self]
          cases done with
          | crash _ _ _ out =>
              rw [out] at found
              cases found
          | read _ _ _ there =>
              rw [pc] at there
              cases there
              rfl

theorem phase_look (p : Deployment) (writeRate : Nat) (d next : Database) (r c : Nat) (value : Int)
    (phase : ReplicatedLog.Phase WireTx Int16 Int) (reachable : (database p writeRate).Reachable d)
    (connection : p.IsConnection r c)
    (taken : Database.step p writeRate d (.read r) = some next) (pc : (d.replicas.exec r).readPc = .reading c)
    (found : readFromStorage (d.replicas.exec r).storage (d.intake.conn (r, c)).thread.tx.key = some value)
    (was : d.phase r c phase) : phase = .requested (.read (d.intake.conn (r, c)).client.sendTx.key) ∧
      (d.intake.conn (r, c)).thread.tx.key = (d.intake.conn (r, c)).client.sendTx.key ∧
      next.phase r c (.taken (.read (d.intake.conn (r, c)).client.sendTx.key value) (d.replicas.executedBy r).length) := by
  have inv := database_inv_reachable p writeRate d reachable
  have waits := (read_waits p d r c inv (by rw [pc]; rfl)).2.1
  have work := work_kept p writeRate d next (.read r) r c reachable connection taken (by simp)
    (fun position touches => (by cases touches))
  have grown := log_grows p writeRate d next (.read r) taken
  have le := (grown_step p writeRate d next (.read r) r (connection_node p r c connection) reachable taken).executed.length_le
  have looks := read_looks p writeRate d next r c value taken pc found
  obtain ⟨asked, key, view⟩ := phase_value _ _ _ _ _ _ value phase waits (by simp [pc]) looks
    (read_fits _ _ value found) was
  refine ⟨asked, key, ?_⟩
  have conn : next.intake.conn (r, c) =
      { d.intake.conn (r, c) with thread := waitForTx (d.intake.conn (r, c)).thread (.value value) } := by
    cases database_conn_step p writeRate d next (.read r) r c taken with
    | same act other quiet => exact absurd (.value value pc found) (quiet _)
    | recieve act inner recieve sent from_ => rcases from_ with no | ⟨no, _⟩ <;> cases no
    | touch act tx touches conn =>
        cases touches with
        | value other _ also =>
            rw [found] at also
            cases also
            exact conn
  unfold Database.phase
  rw [conn, work]
  exact phase_frame _ _ _ _ _ _ _ _ _ _ grown le Iff.rfl rfl rfl rfl rfl rfl view

theorem phase_commit (p : Deployment) (writeRate : Nat) (d next : Database) (r c : Nat) (tx : Tx)
    (phase : ReplicatedLog.Phase WireTx Int16 Int) (reachable : (database p writeRate).Reachable d)
    (connection : p.IsConnection r c)
    (pc : (d.intake.conn (r, c)).recieve.pc = .adding tx) (exec : next.replicas.exec = d.replicas.exec)
    (executed : next.replicas.executedBy r = d.replicas.executedBy r)
    (placed : next.replicas.sequencers.master.placed = d.replicas.sequencers.master.placed ++ [tx.wire])
    (client : (next.intake.conn (r, c)).client = (d.intake.conn (r, c)).client)
    (up : (next.intake.conn (r, c)).toServer = (d.intake.conn (r, c)).toServer)
    (thread : (next.intake.conn (r, c)).thread = (d.intake.conn (r, c)).thread) (was : d.phase r c phase) :
    phase = .requested (.write tx.wire) ∧
      next.phase r c (.taken (.write tx.wire) (d.replicas.sequencers.master.placed.length + 1)) := by
  have inv := database_inv_reachable p writeRate d reachable
  have nodes := database_nodes_inv p writeRate d reachable
  have stage := inv.stages r c connection
  unfold Database.stage at stage
  obtain ⟨none, rest⟩ : (d.replicas.unfinished r).filter (mine r c) = [] ∧ flow r c (d.replicas.unfinished r)
      (d.intake.conn (r, c)).recieve = [tx.wire] := by
    unfold flow at stage ⊢
    rw [hands_adding _ tx pc] at stage ⊢
    cases front : (d.replicas.unfinished r).filter (mine r c) with
    | nil => exact ⟨rfl, rfl⟩
    | cons w others =>
        rw [front] at stage
        have last := (stage_carries _ _ _ _ c _ _ w _ rfl stage).2.1
        simp at last
  obtain ⟨wire, _, write, _, _, _, _, unraised, _⟩ := stage_carries _ _ _ _ c _ _ tx.wire [] rest stage
  have issued := ((inv.conns r c connection).hands tx (.inr pc)).issued
  have own := (mine_iff r c tx.wire).mpr ⟨issued.replica, issued.client⟩
  have bound := (executed_placed p d.replicas r nodes.sequencers nodes.replicas (connection_node p r c connection)).length_le
  have work : (next.replicas.unfinished r).filter (mine r c) = [tx.wire] := by
    simp only [Replicas.unfinished, executed, placed, exec, List.drop_append_of_le_length bound]
    simp only [Replicas.unfinished] at none
    rw [← List.append_assoc, List.filter_append, none]
    simp [own]
  unfold Database.phase at was ⊢
  cases was with
  | idle _ quiet | asked _ _ quiet => exact absurd unraised.raised (quiet.write write)
  | written _ _ _ _ _ logged =>
      exact absurd (not_or.mpr ⟨not_not.mpr none, not_not.mpr unraised.raised⟩) (not_not.mpr logged)
  | reading _ _ kind same | read _ _ _ _ kind same => exact absurd ((same_request_type _ _ same).symm.trans write) kind
  | writing waiting sent kind same =>
      have equal : tx.wire = (d.intake.conn (r, c)).client.sendTx.wire := wire.trans (same.write kind)
      rw [placed, work, equal]
      rw [← client] at waiting kind same ⊢
      refine ⟨rfl, .written _ waiting (by rwa [up]) kind (by rwa [thread]) (.inl (by simp)) ?_⟩
      simp

theorem executed_advances (p : Deployment) (s t : Replicas) (flag : Int) (act : ReplicasAct) (r : Nat)
    (inv : ReplicasInv p s) (node : p.IsNode r) (live : (t.exec r).writePc ≠ .crashed)
    (taken : Replicas.step p s (flag, act) = some t) : t.executedBy r = s.executedBy r ∨
      act = .write r .write ∧ ∃ w, t.executedBy r = s.executedBy r ++ [w] := by
  cases replicas_step_cases p s t (flag, act) taken with
  | sequencers flag act next kind moved =>
      obtain ⟨more, same⟩ := queue_grows p s.sequencers next flag act r kind moved
      exact .inl (executed_grown _ _ _ more same)
  | takeNone flag q exec other running done =>
      by_cases here : r = q
      · subst here
        have same := (exec_inv_take_none flag r _ (s.exec r) exec (inv r node) done).2
        exact .inl (by simpa [Replicas.executedBy] using same)
      · exact .inl (by simp [Replicas.executedBy, here])
  | take flag q batch rest next exec other running took moved done =>
      have list := queue_taken p s.sequencers next flag q r batch rest took moved
      by_cases here : r = q
      · subst here
        rw [if_pos rfl] at list
        have same := (exec_inv_take flag r _ rest (s.exec r) exec batch (inv r node) took done).2
        exact .inl (by simpa [Replicas.executedBy, list] using same)
      · rw [if_neg here] at list
        exact .inl (by simp [Replicas.executedBy, here, list])
  | write flag q act exec kind other running done =>
      by_cases here : r = q
      · subst here
        simp only [Function.update_self] at live
        simp only [Replicas.executedBy, Function.update_self]
        rcases executed_step flag r _ (s.exec r) exec act kind (inv r node) done live with ⟨same, _⟩ |
          ⟨batch, i, tx, pc, _, more, _⟩
        · exact .inl same
        · refine .inr ⟨?_, tx.wire, more⟩
          cases done with
          | complete | crash | writeOwn | writeOther => rfl
          | enter other | leave other | takeNone other | take _ other | fetchNone _ _ other | fetch _ _ _ other
          | assign _ _ _ other | raise _ _ _ other =>
              rw [pc] at other
              cases other
      · exact .inl (by simp [Replicas.executedBy, here])
  | read flag q act exec other running done =>
      by_cases here : r = q
      · subst here
        have same := (exec_inv_read flag _ (s.exec r) exec act (inv r node) done).2
        exact .inl (by simpa [Replicas.executedBy] using same)
      · exact .inl (by simp [Replicas.executedBy, here])

theorem database_advances (p : Deployment) (writeRate : Nat) (d next : Database) (act : DatabaseAct) (r : Nat)
    (node : p.IsNode r) (reachable : (database p writeRate).Reachable d)
    (taken : Database.step p writeRate d act = some next) : next.replicas.executedBy r = d.replicas.executedBy r ∨
      act = .write r ∧ ∃ w, next.replicas.executedBy r = d.replicas.executedBy r ++ [w] := by
  have later := Machine.Reachable.step d next act reachable taken
  have live := reports_live _ _ r ((database_inv_reachable p writeRate next later).reports r node)
  have inner := fun (flag : Int) (inner : ReplicasAct) moved =>
    executed_advances p d.replicas next.replicas flag inner r (database_nodes_inv p writeRate d reachable).replicas node
      live moved
  have kept : ∀ (flag : Int) (act : ReplicasAct), act ≠ .write r .write →
      Replicas.step p d.replicas (flag, act) = some next.replicas → next.replicas.executedBy r = d.replicas.executedBy r :=
    fun flag act other moved => (inner flag act moved).resolve_right fun here => other here.1
  cases database_step_cases p writeRate d next act taken with
  | start | finish | client | thread | recieve => exact .inl rfl
  | addWriteTx _ _ _ _ _ _ _ _ _ _ moved => exact .inl (kept _ _ (by simp) moved)
  | sequencers _ _ _ moved => exact .inl (kept _ _ (by simp) moved)
  | takeBatch _ _ moved | writeLoop _ _ moved | readLoop _ _ moved | takeRead _ _ moved =>
      exact .inl (kept _ _ (by simp) moved)
  | fetch _ _ _ _ _ _ _ moved => exact .inl (kept _ _ (by simp) moved)
  | assign _ _ _ _ _ _ moved | raise _ _ _ _ _ _ moved => exact .inl (kept _ _ (by simp) moved)
  | readOut _ _ _ _ _ moved => exact .inl (kept _ _ (by simp) moved)
  | read _ _ _ _ _ _ moved => exact .inl (kept _ _ (by simp) moved)
  | raiseRead _ _ _ _ moved => exact .inl (kept _ _ (by simp) moved)
  | write q replicas moved =>
      refine (inner _ _ moved).imp_right fun ⟨same, more⟩ => ⟨?_, more⟩
      injection same with same
      rw [same]

end EpochReplication
