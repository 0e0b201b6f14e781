import EpochReplication.Responses

set_option autoImplicit false

namespace EpochReplication

structure ReadAt (m : Database) (r c : Nat) (key value : Int16) : Prop where
  reading : (m.replicas.exec r).readPc = .reading c
  index : 0 ≤ key.toInt
  value : (m.replicas.exec r).storage.records[key.toInt.toNat]? = some value
  reflects : replay applyTx (newStorage storageSize) (m.replicas.executedBy r) = some (m.replicas.exec r).storage

def readsSince (r c : Nat) (seen : Option Database) (x : Database × DatabaseAct) : Option Database :=
  match x.2 with
  | .client q e .receive => if (q, e) = (r, c) then none else seen
  | .read q => if q = r ∧ (x.1.replicas.exec q).readPc = .reading c then some x.1 else seen
  | _ => seen

-- The state in which execute_read_tx read for client `c` of replica `r`, if it
-- has done so since a response last came to this client.
def servedRead (r c : Nat) (run : List (Database × DatabaseAct)) : Option Database := run.foldl (readsSince r c) none

theorem reads_since_member (r c : Nat) (run : List (Database × DatabaseAct)) (seen : Option Database) (m : Database)
    (found : run.foldl (readsSince r c) seen = some m) : seen = some m ∨ ∃ x ∈ run, x.1 = m := by
  induction run generalizing seen with
  | nil => exact .inl found
  | cons x rest ih =>
      rcases ih (readsSince r c seen x) found with here | ⟨y, member, same⟩
      · unfold readsSince at here
        split at here
        · split at here
          · cases here
          · exact .inl here
        · split at here
          · exact .inr ⟨x, List.mem_cons_self, Option.some.inj here⟩
          · exact .inl here
        · exact .inl here
      · exact .inr ⟨y, List.mem_cons_of_mem x member, same⟩

structure AnswerOf (conn : Connection) (message : Buf × Nat) : Prop where
  told : ∃ buf, message = ((createResponseTxMsg conn.thread.tx buf).1, responseTxMessageSize)
  same : SameRequest conn.thread.tx.wire conn.client.sendTx.wire
  complete : conn.thread.tx.completeFlag ≠ 0

-- `seen` is the state of the read as long as the client has not been told.
structure Served (r c : Nat) (seen : Option Database) (readPc : ReadPc) (conn : Connection) : Prop where
  told : ∀ message ∈ conn.toClient.pending, AnswerOf conn message
  read : conn.thread.pc.idle = false ∨ conn.toClient.pending ≠ [] → conn.thread.tx.type = .readOnly →
    readPc = .raising c ∨ conn.thread.tx.completeFlag ≠ 0 →
      ∃ m, seen = some m ∧ ReadAt m r c conn.thread.tx.key conn.thread.tx.value

theorem served_initial (p : Deployment) (r c : Nat) :
    Served r c none ((Database.initial p).replicas.exec r).readPc ((Database.initial p).intake.conn (r, c)) := by
  refine ⟨by simp [Database.initial, Intake.initial], ?_⟩
  simp [Database.initial, Intake.initial, ClientThreadPc.idle]

theorem served_kept (r c : Nat) (seen : Option Database) (readPc after : ReadPc) (conn next : Connection)
    (raising : after = .raising c → readPc = .raising c) (down : next.toClient = conn.toClient)
    (asked : next.client.sendTx = conn.client.sendTx) (tx : next.thread.tx = conn.thread.tx)
    (idle : next.thread.pc.idle = conn.thread.pc.idle) (served : Served r c seen readPc conn) :
    Served r c seen after next := by
  refine ⟨fun message member => ?_, fun busy read done => ?_⟩
  · rw [down] at member
    obtain ⟨told, same, complete⟩ := served.told message member
    exact ⟨tx ▸ told, by rw [tx, asked]; exact same, tx ▸ complete⟩
  · rw [tx] at read done ⊢
    rw [idle, down] at busy
    exact served.read busy read (done.imp_left raising)

theorem served_nothing (r c : Nat) (seen : Option Database) (readPc : ReadPc) (conn : Connection)
    (down : conn.toClient.pending = []) (idle : conn.thread.pc.idle = true) : Served r c seen readPc conn := by
  refine ⟨by simp [down], fun busy => ?_⟩
  rw [idle, down] at busy
  rcases busy with no | no <;> exact absurd no (by simp)

theorem served_client_step (flag : Int) (writeRate r c : Nat) (seen : Option Database) (readPc : ReadPc)
    (conn next : Connection) (act : ClientTime.Act) (inv : ConnectionInv flag r c next)
    (step : ClientStep writeRate r c conn act next) : Served r c seen readPc next := by
  cases step with
  | request typeRand keyRand sendTx pc chosen =>
      cases inv.turn with
      | requesting _ _ _ down idle => exact served_nothing r c seen readPc _ down idle
      | choosing no | finishing _ no | finished no => cases no
      | serving _ up => simp at up
      | answered _ _ up => simp at up
  | receive data msg len rest recvTx pc took =>
      cases inv.turn with
      | choosing _ _ down idle => exact served_nothing r c seen readPc _ down idle
      | requesting _ no | serving no | answered _ no | finishing _ no | finished no => cases no
  | finish pc =>
      cases inv.turn with
      | finishing _ _ _ down idle => exact served_nothing r c seen readPc _ down idle
      | finished _ up => simp at up
      | choosing no | requesting _ no | serving no | answered _ no => cases no

theorem served_thread_step (flag : Int) (net sent : List Packet) (r c : Nat) (seen : Option Database) (readPc : ReadPc)
    (conn next : Connection) (act : ClientInterface.Act) (inv : ConnectionInv flag r c conn)
    (answers : Answers flag conn.thread) (waits : readPc = .raising c → ReadWaits conn.thread)
    (step : ThreadStep flag net r c conn act next sent) (served : Served r c seen readPc conn) :
    Served r c seen readPc next := by
  cases step with
  | enter pc | leave pc | ignore _ _ _ _ pc | requestRead pc | requestWrite _ _ pc | giveUp pc | send pc | check pc
  | checkFinish pc | acknowledge _ _ _ _ pc | complete pc =>
      exact served_kept r c seen readPc readPc conn _ id rfl rfl rfl (by rw [pc]; rfl) served
  | poll _ overtime _ pc | pollNothing overtime pc =>
      refine served_kept r c seen readPc readPc conn _ id rfl rfl rfl ?_ served
      cases overtime <;> rw [pc] <;> rfl
  | spin => exact served
  | receive data recvMsg len rest tx pc took filled request decoded =>
      have more := Fifo.try_take_pending conn.toServer rest (data, len) took
      have down : conn.toClient.pending = [] := by
        cases inv.turn with
        | requesting _ _ _ down | finishing _ _ _ down => exact down
        | choosing _ up | serving _ up | answered _ _ up | finished _ up =>
            rw [more] at up
            cases up
      refine ⟨by simp [down], fun _ _ done => ?_⟩
      rcases done with raising | complete
      · rcases (waits raising).waits with no | no <;> simp [pc, ClientThreadPc.completes] at no
      · exact absurd (decoded ▸ decoded_complete requestTxLayout recvMsg) complete
  | abandon pc =>
      obtain ⟨_, _, down, _⟩ := turn_serving conn inv.turn (by rw [pc]; rfl)
      exact served_nothing r c seen readPc _ down rfl
  | respond pc running =>
      obtain ⟨_, _, down, same⟩ := turn_serving conn inv.turn (by rw [pc]; rfl)
      refine ⟨fun message member => ?_, fun _ => served.read (.inl (by rw [pc]; rfl))⟩
      simp only [Fifo.pending_add, down, List.nil_append, List.mem_singleton] at member
      exact ⟨⟨conn.thread.sendMsg, member⟩, same, answers.respond pc running⟩

theorem served_write (r c : Nat) (seen : Option Database) (readPc after : ReadPc) (conn : Connection) (act : TxAct)
    (waits : conn.thread.tx.completeFlag = 0) (write : conn.thread.tx.type = .writeOnly)
    (served : Served r c seen readPc conn) : Served r c seen after { conn with thread := waitForTx conn.thread act } := by
  refine ⟨fun message member => absurd waits (served.told message member).complete, fun _ read => ?_⟩
  have same : (waitForTx conn.thread act).tx.type = conn.thread.tx.type := by cases act <;> rfl
  rw [same, write] at read
  cases read

theorem served_value (d : Database) (r c : Nat) (readPc after : ReadPc) (value : Int)
    (seen : Option Database) (waits : ReadWaits (d.intake.conn (r, c)).thread)
    (reading : (d.replicas.exec r).readPc = .reading c)
    (found : readFromStorage (d.replicas.exec r).storage (d.intake.conn (r, c)).thread.tx.key = some value)
    (reflects : replay applyTx (newStorage storageSize) (d.replicas.executedBy r) = some (d.replicas.exec r).storage)
    (served : Served r c seen readPc (d.intake.conn (r, c))) :
    Served r c (some d) after
      { d.intake.conn (r, c) with thread := waitForTx (d.intake.conn (r, c)).thread (.value value) } := by
  refine ⟨fun message member => absurd waits.complete (served.told message member).complete, fun _ _ _ => ?_⟩
  obtain ⟨index, record, stored, rfl⟩ := read_from_storage_record _ _ _ found
  refine ⟨d, rfl, reading, index, ?_, reflects⟩
  simpa [waitForTx] using stored

theorem served_raise (r c : Nat) (seen : Option Database) (readPc after : ReadPc) (conn : Connection)
    (waits : ReadWaits conn.thread) (raising : readPc = .raising c) (served : Served r c seen readPc conn) :
    Served r c seen after { conn with thread := waitForTx conn.thread (.raise none) } := by
  refine ⟨fun message member => absurd waits.complete (served.told message member).complete, fun busy read _ => ?_⟩
  exact served.read busy read (.inl raising)

theorem raising_kept (p : Deployment) (s t : Replicas) (flag : Int) (act : ReplicasAct) (r c : Nat)
    (kind : ∀ key, act ≠ .read r (.read key)) (taken : Replicas.step p s (flag, act) = some t)
    (raising : (t.exec r).readPc = .raising c) : (s.exec r).readPc = .raising c := by
  have write : ∀ (q : Nat) (act : WriteAct) (exec : Exec), WriteStep flag q (s.exec q) act exec →
      (Function.update s.exec q exec r).readPc = .raising c → (s.exec r).readPc = .raising c := by
    intro q act exec done raising
    by_cases here : r = q
    · subst here
      rw [Function.update_self, write_step_reads flag r (s.exec r) exec act done] at raising
      exact raising
    · rw [Function.update_of_ne here] at raising
      exact raising
  cases replicas_step_cases p s t (flag, act) taken with
  | sequencers => exact raising
  | takeNone flag q exec node running done => exact write q _ exec done raising
  | take flag q batch rest next exec node running took moved done => exact write q _ exec done raising
  | write flag q act exec other node running done => exact write q act exec done raising
  | read flag q act exec node running done =>
      by_cases here : r = q
      · subst here
        simp only [Function.update_self] at raising
        cases done with
        | read _ key => exact absurd rfl (kind key)
        | crash _ key => exact absurd rfl (kind key)
        | enter | leave | takeNone | take | raise => cases raising
      · simp only [Function.update_of_ne here] at raising
        exact raising

theorem raising_read (p : Deployment) (s t : Replicas) (flag : Int) (key : Int16) (q e r c : Nat)
    (pc : (s.exec q).readPc = .reading e) (taken : Replicas.step p s (flag, .read q (.read key)) = some t)
    (raising : (t.exec r).readPc = .raising c) : (s.exec r).readPc = .raising c ∨
      (q, e) = (r, c) ∧ readFromStorage (s.exec q).storage key ≠ none := by
  cases replicas_step_cases p s t (flag, .read q (.read key)) taken with
  | read flag q act exec node running done =>
      by_cases here : r = q
      · subst here
        simp only [Function.update_self] at raising
        cases done with
        | crash => cases raising
        | read other key value reading found =>
            cases raising
            rw [pc] at reading
            cases reading
            exact .inr ⟨rfl, by simp [found]⟩
      · simp only [Function.update_of_ne here] at raising
        exact .inl raising

theorem reported_unraised (p : Deployment) (d : Database) (r c i : Nat) (batch : Batch) (inv : DatabaseInv p d)
    (connection : p.IsConnection r c)
    (pc : (d.replicas.exec r).writePc = .raising batch i c ∨ (d.replicas.exec r).writePc = .assigning batch i c) :
    (d.intake.conn (r, c)).thread.tx.type = .writeOnly ∧ (d.intake.conn (r, c)).thread.tx.completeFlag = 0 := by
  obtain ⟨tx, rest, _, _, work⟩ := reported_waits p d r c i batch connection inv pc
  obtain ⟨_, _, write, _, _, _, _, unraised, _⟩ :=
    stage_carries _ _ _ _ c _ _ tx.wire rest work (inv.stages r c connection)
  exact ⟨write, unraised.complete⟩

def Database.Served (r c : Nat) (seen : Option Database) (d : Database) : Prop :=
  EpochReplication.Served r c seen (d.replicas.exec r).readPc (d.intake.conn (r, c))

theorem raised_step (p : Deployment) (writeRate : Nat) (d next : Database) (act : DatabaseAct) (r c : Nat)
    (taken : Database.step p writeRate d act = some next) (raising : (next.replicas.exec r).readPc = .raising c) :
    (d.replicas.exec r).readPc = .raising c ∨ ∃ value, Touches d r c act (.value value) := by
  have kept : ∀ (flag : Int) (inner : ReplicasAct), (∀ key, inner ≠ .read r (.read key)) →
      Replicas.step p d.replicas (flag, inner) = some next.replicas → (d.replicas.exec r).readPc = .raising c :=
    fun flag inner kind moved => raising_kept p d.replicas next.replicas flag inner r c kind moved raising
  cases database_step_cases p writeRate d next act taken with
  | start | finish | client | thread | recieve => exact .inl raising
  | addWriteTx _ _ _ _ _ _ _ _ _ _ moved => exact .inl (kept _ _ (by simp) moved)
  | sequencers _ _ _ moved => exact .inl (kept _ _ (by simp) moved)
  | takeBatch _ _ moved | writeLoop _ _ moved | write _ _ moved | readLoop _ _ moved | takeRead _ _ moved =>
      exact .inl (kept _ _ (by simp) moved)
  | fetch _ _ _ _ _ _ _ moved => exact .inl (kept _ _ (by simp) moved)
  | assign _ _ _ _ _ _ moved | raise _ _ _ _ _ _ moved => exact .inl (kept _ _ (by simp) moved)
  | raiseRead _ _ _ _ moved => exact .inl (kept _ _ (by simp) moved)
  | readOut q e replicas pc out moved =>
      exact .inl ((raising_read p d.replicas replicas _ _ q e r c pc moved raising).resolve_right fun no => no.2 out)
  | read q e value replicas pc found moved =>
      refine (raising_read p d.replicas replicas _ _ q e r c pc moved raising).imp_right fun here => ?_
      cases here.1
      exact ⟨value, .value value pc found⟩

theorem unread_step (d : Database) (act : DatabaseAct) (r c : Nat) (seen : Option Database)
    (other : act ≠ .client r c .receive) (unread : act = .read r → (d.replicas.exec r).readPc ≠ .reading c) :
    readsSince r c seen (d, act) = seen := by
  unfold readsSince
  split
  · rename_i q e same
    refine if_neg fun here => other ?_
    cases here
    exact same
  · rename_i q same
    refine if_neg fun here => ?_
    obtain ⟨rfl, pc⟩ := here
    exact unread same pc
  · rfl

theorem served_step (p : Deployment) (writeRate : Nat) (d next : Database) (act : DatabaseAct) (r c : Nat)
    (seen : Option Database) (reachable : (database p writeRate).Reachable d) (connection : p.IsConnection r c)
    (taken : Database.step p writeRate d act = some next) (served : d.Served r c seen) :
    next.Served r c (readsSince r c seen (d, act)) := by
  have inv := database_inv_reachable p writeRate d reachable
  have raised := raised_step p writeRate d next act r c taken
  unfold Database.Served at served ⊢
  cases database_conn_step p writeRate d next act r c taken with
  | same act other quiet conn =>
      have raising := fun after => (raised after).resolve_right fun ⟨value, touches⟩ => quiet _ touches
      rw [conn]
      by_cases reads : act = .read r ∧ (d.replicas.exec r).readPc = .reading c
      · -- The key is not one of the storage: the thread still waits.
        obtain ⟨_, waits, _⟩ := read_waits p d r c inv (by rw [reads.2]; rfl)
        refine ⟨served.told, fun _ _ done => ?_⟩
        rcases done with after | complete
        · rw [raising after] at reads
          cases reads.2
        · exact absurd waits.complete complete
      · rw [unread_step d act r c seen (other _) (fun same pc => reads ⟨same, pc⟩)]
        exact served_kept r c seen _ _ (d.intake.conn (r, c)) _ raising rfl rfl rfl rfl served
  | client act after _ step conn =>
      have later : (database p writeRate).Reachable next := .step d next (.client r c act) reachable taken
      have kept := (database_inv_reachable p writeRate next later).conns r c connection
      rw [conn] at kept ⊢
      exact served_client_step _ writeRate r c _ _ _ after act kept step
  | thread act after sent _ step conn =>
      have raising := fun after => (raised after).resolve_right fun ⟨value, touches⟩ => (by cases touches)
      rw [conn]
      refine served_kept r c seen _ _ after after raising rfl rfl rfl rfl ?_
      exact served_thread_step _ _ sent r c seen _ _ after act (inv.conns r c connection) (inv.answers r c connection)
        (fun raising => (read_waits p d r c inv (by rw [raising]; rfl)).2.1) step served
  | recieve act inner recieve sent from_ step conn =>
      have raising : (next.replicas.exec r).readPc = .raising c → (d.replicas.exec r).readPc = .raising c := by
        refine fun after => (raised after).resolve_right fun ⟨value, touches⟩ => ?_
        rcases from_ with rfl | ⟨rfl, _⟩ <;> cases touches
      have unread : readsSince r c seen (d, act) = seen := by
        rcases from_ with rfl | ⟨rfl, _⟩ <;> rfl
      rw [conn, unread]
      exact served_kept r c seen _ _ (d.intake.conn (r, c)) _ raising rfl rfl rfl rfl served
  | touch act tx touches conn =>
      rw [conn]
      cases touches with
      | assign batch i pc | raise batch i pc =>
          obtain ⟨write, waits⟩ := reported_unraised p d r c i batch inv connection (by rw [pc]; simp)
          exact served_write r c seen _ _ _ _ waits write served
      | value value pc found =>
          have node := connection_node p r c connection
          have stored := ((database_nodes_inv p writeRate d reachable).replicas r node).store
            (reports_live _ _ r (inv.reports r node))
          rw [show readsSince r c seen (d, .read r) = some d from if_pos ⟨rfl, pc⟩]
          exact served_value d r c _ _ value seen (read_waits p d r c inv (by rw [pc]; rfl)).2.1 pc found stored served
      | raiseRead pc => exact served_raise r c seen _ _ _ (read_waits p d r c inv (by rw [pc]; rfl)).2.1 pc served

theorem served_trace (p : Deployment) (writeRate : Nat) (run : List (Database × DatabaseAct)) (d : Database) (r c : Nat)
    (connection : p.IsConnection r c) (trace : (database p writeRate).Trace run d) : d.Served r c (servedRead r c run) := by
  induction trace with
  | init => exact served_initial p r c
  | step run d next act before taken ih =>
      have step := served_step p writeRate d next act r c _ (Machine.trace_reachable _ run d before) connection taken ih
      rw [servedRead, List.foldl_append]
      exact step

structure Grown (r : Nat) (d e : Database) : Prop where
  executed : d.replicas.executedBy r <+: e.replicas.executedBy r
  confirmed : d.replicas.sequencers.master.confirmed <+: e.replicas.sequencers.master.confirmed

theorem grown_trans (r : Nat) (d e f : Database) (first : Grown r d e) (rest : Grown r e f) : Grown r d f :=
  ⟨first.executed.trans rest.executed, first.confirmed.trans rest.confirmed⟩

theorem grown_step (p : Deployment) (writeRate : Nat) (d next : Database) (act : DatabaseAct) (r : Nat) (node : p.IsNode r)
    (reachable : (database p writeRate).Reachable d) (taken : Database.step p writeRate d act = some next) :
    Grown r d next := by
  have later := Machine.Reachable.step d next act reachable taken
  have before := database_nodes_inv p writeRate d reachable
  have after := database_nodes_inv p writeRate next later
  rcases database_nodes_step p writeRate d next act taken with same | ⟨q, inner, moved, _⟩
  · exact ⟨same ▸ List.prefix_refl _, same ▸ List.prefix_refl _⟩
  · refine ⟨?_, confirmed_step p d.replicas next.replicas _ before.sequencers moved⟩
    by_cases add : ∃ tx, inner = .sequencers (.addWriteTx tx)
    · obtain ⟨tx, rfl⟩ := add
      obtain ⟨exec, _, queue, _⟩ := placed_added p d.replicas next.replicas _ tx moved
      simp only [Replicas.executedBy, exec, queue]
      exact List.prefix_refl _
    · have live := reports_live _ _ r ((database_inv_reachable p writeRate next later).reports r node)
      exact (work_step p d.replicas next.replicas _ inner r after.sequencers before.replicas after.replicas node live
        (fun tx same => add ⟨tx, same⟩) moved).1

theorem response_received (p : Deployment) (writeRate : Nat) (d next : Database) (r c : Nat) (seen : Option Database)
    (served : d.Served r c seen) (taken : Database.step p writeRate d (.client r c .receive) = some next) :
    (d.intake.conn (r, c)).toClient.pending ≠ [] ∧
      (d.intake.conn (r, c)).thread.tx.completeFlag ≠ 0 ∧
      SameRequest (d.intake.conn (r, c)).thread.tx.wire (d.intake.conn (r, c)).client.sendTx.wire ∧
      (next.intake.conn (r, c)).client.recvTx.wire = (d.intake.conn (r, c)).thread.tx.wire := by
  simp only [Database.step] at taken
  split at taken
  · obtain ⟨intake, moved, rfl⟩ := Option.map_eq_some_iff.mp taken
    obtain ⟨conn, done, rfl⟩ := Option.map_eq_some_iff.mp moved
    cases pc : (d.intake.conn (r, c)).client.pc with
    | choosing | returned => simp [ClientTime.clientThread, pc] at done
    | waiting =>
        cases took : (d.intake.conn (r, c)).toClient.tryTake with
        | none => simp [ClientTime.clientThread, pc, took] at done
        | some answer =>
            obtain ⟨⟨data, len⟩, rest⟩ := answer
            simp only [ClientTime.clientThread, pc, took] at done
            cases done
            have down := Fifo.try_take_pending _ rest (data, len) took
            obtain ⟨⟨buf, told⟩, same, complete⟩ := served.told (data, len) (by rw [down]; exact List.mem_cons_self)
            cases told
            refine ⟨by simp [down], complete, same, ?_⟩
            simp only [Function.update_self]
            exact (receive_response_tx (d.intake.conn (r, c)).thread.tx buf (d.intake.conn (r, c)).client.msg _).1
  · cases taken

theorem read_served (p : Deployment) (writeRate : Nat) (run : List (Database × DatabaseAct)) (d next : Database) (r c : Nat)
    (connection : p.IsConnection r c) (trace : (database p writeRate).Trace run d)
    (taken : Database.step p writeRate d (.client r c .receive) = some next)
    (read : (d.intake.conn (r, c)).client.sendTx.type = .readOnly) :
    ∃ m, servedRead r c run = some m ∧
      ReadAt m r c (d.intake.conn (r, c)).client.sendTx.key (next.intake.conn (r, c)).client.recvTx.value := by
  have served := served_trace p writeRate run d r c connection trace
  obtain ⟨waiting, complete, same, told⟩ := response_received p writeRate d next r c _ served taken
  have kind : (d.intake.conn (r, c)).thread.tx.type = .readOnly := (congrArg WireTx.type same.request).trans read
  have key : (d.intake.conn (r, c)).thread.tx.key = (d.intake.conn (r, c)).client.sendTx.key :=
    congrArg WireTx.key same.request
  have value : (next.intake.conn (r, c)).client.recvTx.value = (d.intake.conn (r, c)).thread.tx.value :=
    congrArg WireTx.value told
  obtain ⟨m, found, reads⟩ := served.read (.inr waiting) kind (.inr complete)
  rw [← key, value]
  exact ⟨m, found, reads⟩

structure Applied (s : Replicas) (r k i : Nat) (w : WireTx) : Prop where
  contained : ∃ batch tx, s.sequencers.master.confirmed[k]? = some batch ∧ batch.txSet[i]? = some tx ∧ tx.wire = w
  executed : (s.executedBy r)[((s.sequencers.master.confirmed.take k).flatMap Batch.wire).length + i]? = some w

theorem write_applied (p : Deployment) (writeRate : Nat) (run : List (Database × DatabaseAct)) (d next m : Database)
    (r c : Nat)
    (connection : p.IsConnection r c) (trace : (database p writeRate).Trace run d)
    (taken : Database.step p writeRate d (.client r c .receive) = some next)
    (write : (d.intake.conn (r, c)).client.sendTx.type = .writeOnly) (reachable : (database p writeRate).Reachable m)
    (later : Grown r d m) : ∃ k i, (d.intake.conn (r, c)).thread.raised = [(k, i)] ∧
      Applied m.replicas r k i (d.intake.conn (r, c)).client.sendTx.wire := by
  have served := served_trace p writeRate run d r c connection trace
  have inv := database_inv_reachable p writeRate d (Machine.trace_reachable _ run d trace)
  have nodes := database_nodes_inv p writeRate m reachable
  obtain ⟨_, complete, same, _⟩ := response_received p writeRate d next r c _ served taken
  have asked := same.write write
  have kind : (d.intake.conn (r, c)).thread.tx.type = .writeOnly := (congrArg WireTx.type asked).trans write
  have stage := inv.stages r c connection
  unfold Database.stage at stage
  cases stage with
  | idle other => exact absurd kind other
  | fresh _ _ unraised | sent _ _ _ _ _ unraised | placed _ _ _ _ _ _ unraised => exact absurd unraised.complete complete
  | raised k i _ _ _ _ _ position =>
      obtain ⟨⟨batch, tx, found, there, equal⟩, executed, _, raised⟩ :=
        raised_at_mono _ _ _ _ k i _ later.confirmed later.executed.length_le position
      refine ⟨k, i, raised, ⟨batch, tx, found, there, equal.trans asked⟩, ?_⟩
      rw [← asked, ← equal]
      exact executed_position p m.replicas r k i batch tx nodes.sequencers nodes.replicas (connection_node p r c connection)
        found there executed

theorem read_your_writes_monotonic_reads (p : Deployment) (writeRate r c : Nat)
    (earlier later : List (Database × DatabaseAct)) (d next e last : Database) (received : Database.step p writeRate d (.client r c .receive) = some next)
    (trace : (database p writeRate).Trace (earlier ++ (d, .client r c .receive) :: later) e)
    (answered : Database.step p writeRate e (.client r c .receive) = some last)
    (read : (e.intake.conn (r, c)).client.sendTx.type = .readOnly) :
    ∃ m, servedRead r c (earlier ++ (d, .client r c .receive) :: later) = some m ∧
      ReadAt m r c (e.intake.conn (r, c)).client.sendTx.key (last.intake.conn (r, c)).client.recvTx.value ∧
      ((d.intake.conn (r, c)).client.sendTx.type = .writeOnly → ∃ k i, (d.intake.conn (r, c)).thread.raised = [(k, i)] ∧
        Applied m.replicas r k i (d.intake.conn (r, c)).client.sendTx.wire) ∧
      ((d.intake.conn (r, c)).client.sendTx.type = .readOnly → ∃ n, servedRead r c earlier = some n ∧
        ReadAt n r c (d.intake.conn (r, c)).client.sendTx.key (next.intake.conn (r, c)).client.recvTx.value ∧
        n.replicas.executedBy r <+: m.replicas.executedBy r) := by
  have before : (database p writeRate).Trace earlier d := Machine.trace_prefix _ earlier later (d, _) e trace
  have connection : p.IsConnection r c := by
    cases database_step_cases p writeRate d next _ received with
    | client _ _ _ _ connection => exact connection
  obtain ⟨m, found, reads⟩ := read_served p writeRate _ e last r c connection trace answered read
  obtain ⟨_, pairs⟩ := Machine.trace_relates _ (Grown r) (grown_trans r)
    (fun s act t reachable taken => grown_step p writeRate s t act r (connection_node p r c connection) reachable taken) _ e
    trace
  obtain ⟨_, after, crossing⟩ := List.pairwise_append.mp pairs
  obtain ⟨x, inside, rfl⟩ : ∃ x ∈ later, x.1 = m := by
    rw [servedRead, List.foldl_append, List.foldl_cons,
      show readsSince r c _ (d, .client r c .receive) = none from if_pos rfl] at found
    exact (reads_since_member r c later none m found).resolve_left (by simp)
  have grown : Grown r d x.1 := (List.pairwise_cons.mp after).1 x inside
  have reachable := (Machine.trace_source_reachable _ _ e trace x (by simp [inside])).1
  refine ⟨x.1, found, reads, fun write => ?_, fun first => ?_⟩
  · exact write_applied p writeRate earlier d next x.1 r c connection before received write reachable grown
  · obtain ⟨n, seen, first⟩ := read_served p writeRate earlier d next r c connection before received first
    obtain ⟨y, member, rfl⟩ := (reads_since_member r c earlier none n seen).resolve_left (by simp)
    exact ⟨y.1, seen, first, (crossing y member x (List.mem_cons_of_mem _ inside)).executed⟩

def firstAnswered : List DatabaseAct := firstResponse ++ [.thread 1 0 .respond]

def thenRead : List DatabaseAct :=
  [.client 1 0 (.request 60 5), .thread 1 0 .loop, .thread 1 0 .receive, .thread 1 0 .requestRead, .readLoop 1, .takeRead 1,
    .read 1, .raiseRead 1, .thread 1 0 .spin, .thread 1 0 .respond]

-- Half of the transactions are writes here.
def afterActs (acts : List DatabaseAct) : Option Database :=
  (database (configuration .proposedMethod) 50).exec (Database.initial (configuration .proposedMethod)) acts

theorem read_your_writes_monotonic_reads_own_write : ∃ earlier later d e last,
    (database (configuration .proposedMethod) 50).Trace (earlier ++ (d, .client 1 0 .receive) :: later) e ∧
      Database.step (configuration .proposedMethod) 50 e (.client 1 0 .receive) = some last ∧
      ∃ m, ReadAt m 1 0 (e.intake.conn (1, 0)).client.sendTx.key (last.intake.conn (1, 0)).client.recvTx.value ∧
        ∃ k i, Applied m.replicas 1 k i (d.intake.conn (1, 0)).client.sendTx.wire := by
  have runs : (afterActs (firstAnswered ++ .client 1 0 .receive :: thenRead)).map
      (fun e => ((e.intake.conn (1, 0)).client.sendTx.type, (e.intake.clientStep 50 1 0 .receive).isSome)) =
      some (.readOnly, true) := by
    decide +kernel
  have first : (afterActs firstAnswered).map (fun d => (d.intake.conn (1, 0)).client.sendTx.type) = some .writeOnly := by
    decide +kernel
  obtain ⟨e, ran, ends⟩ := Option.map_eq_some_iff.mp runs
  simp only [Prod.mk.injEq] at ends
  obtain ⟨read, receives⟩ := ends
  obtain ⟨intake, receives⟩ := Option.isSome_iff_exists.mp receives
  have answered : Database.step (configuration .proposedMethod) 50 e (.client 1 0 .receive) =
      some { e with intake := intake } := by
    simp [Database.step, receives, show (configuration .proposedMethod).IsConnection 1 0 by decide]
  obtain ⟨d, next, before, received, after⟩ := Machine.exec_through _ _ _ _ _ e ran
  obtain ⟨earlier, trace, _⟩ := Machine.trace_exec _ [] _ _ d .init before
  obtain ⟨later, trace, _⟩ := Machine.trace_exec _ _ _ _ e (.step _ d next _ trace received) after
  rw [List.nil_append, List.append_assoc] at trace
  have write : (d.intake.conn (1, 0)).client.sendTx.type = .writeOnly := by
    rw [afterActs, show (database _ 50).exec _ firstAnswered = some d from before] at first
    exact Option.some.inj first
  obtain ⟨m, _, reads, applied, _⟩ := read_your_writes_monotonic_reads (configuration .proposedMethod) 50 1 0 earlier later d
    next e _ received trace answered read
  obtain ⟨k, i, _, applied⟩ := applied write
  exact ⟨earlier, later, d, e, _, trace, answered, m, reads, k, i, applied⟩

end EpochReplication
