import EpochReplication.Answering

set_option autoImplicit false

namespace EpochReplication

theorem read_pc_kept (p : Deployment) (s t : Replicas) (flag : Int) (act : ReplicasAct) (r : Nat)
    (kind : ∀ q read, act ≠ .read q read) (moved : Replicas.step p s (flag, act) = some t) :
    (t.exec r).readPc = (s.exec r).readPc := by
  have write : ∀ (q : Nat) (act : WriteAct) (exec : Exec), WriteStep flag q (s.exec q) act exec →
      (Function.update s.exec q exec r).readPc = (s.exec r).readPc := by
    intro q act exec done
    by_cases here : r = q
    · subst here
      rw [Function.update_self]
      exact write_step_reads flag r (s.exec r) exec act done
    · rw [Function.update_of_ne here]
  cases replicas_step_cases p s t (flag, act) moved with
  | sequencers => rfl
  | takeNone flag q exec node running done => exact write q _ exec done
  | take flag q batch rest next exec node running took stepped done => exact write q _ exec done
  | write flag q act exec other node running done => exact write q act exec done
  | read flag q act => exact absurd rfl (kind q act)

theorem read_moved (p : Deployment) (s t : Replicas) (flag : Int) (q : Nat) (act : ReadAct)
    (moved : Replicas.step p s (flag, .read q act) = some t) :
    ReadStep flag (s.exec q) act (t.exec q) ∧ t.sequencers = s.sequencers ∧ ∀ r, r ≠ q → t.exec r = s.exec r := by
  cases replicas_step_cases p s t (flag, .read q act) moved with
  | read flag q act exec node running done =>
      refine ⟨?_, rfl, fun r other => Function.update_of_ne other _ _⟩
      simp only [Function.update_self]
      exact done

inductive ReaderStep (d next : Database) (r : Nat) (act : DatabaseAct) : Prop where
  | same (more : List Nat) (pc : (next.replicas.exec r).readPc = (d.replicas.exec r).readPc)
      (list : (next.intake.readTxBuffer r).pending = (d.intake.readTxBuffer r).pending ++ more) : ReaderStep d next r act
  | between (before : (d.replicas.exec r).readPc.pointer = none) (after : (next.replicas.exec r).readPc.pointer = none)
      (live : (next.replicas.exec r).readPc ≠ .crashed)
      (list : (next.intake.readTxBuffer r).pending = (d.intake.readTxBuffer r).pending) : ReaderStep d next r act
  | take (c : Nat) (before : (d.replicas.exec r).readPc = .taking) (after : (next.replicas.exec r).readPc = .reading c)
      (list : (d.intake.readTxBuffer r).pending = c :: (next.intake.readTxBuffer r).pending) : ReaderStep d next r act
  | crash (c : Nat) (before : (d.replicas.exec r).readPc = .reading c)
      (out : readFromStorage (d.replicas.exec r).storage (d.intake.conn (r, c)).thread.tx.key = none)
      (list : (next.intake.readTxBuffer r).pending = (d.intake.readTxBuffer r).pending) : ReaderStep d next r act
  | read (c : Nat) (before : (d.replicas.exec r).readPc = .reading c) (after : (next.replicas.exec r).readPc = .raising c)
      (list : (next.intake.readTxBuffer r).pending = (d.intake.readTxBuffer r).pending) : ReaderStep d next r act
  | raise (c : Nat) (touches : Touches d r c act (.raise none)) (before : (d.replicas.exec r).readPc = .raising c)
      (after : (next.replicas.exec r).readPc = .loop)
      (list : (next.intake.readTxBuffer r).pending = (d.intake.readTxBuffer r).pending) : ReaderStep d next r act

theorem database_reader_step (p : Deployment) (writeRate : Nat) (d next : Database) (act : DatabaseAct) (r : Nat)
    (taken : Database.step p writeRate d act = some next) : ReaderStep d next r act := by
  have kept : ∀ (replicas : Replicas) (intake : Intake), (replicas.exec r).readPc = (d.replicas.exec r).readPc →
      intake.readTxBuffer r = d.intake.readTxBuffer r → ReaderStep d ⟨replicas, intake⟩ r act :=
    fun replicas intake pc list => .same [] pc (by rw [list, List.append_nil])
  have inner : ∀ (flag : Int) (moves : ReplicasAct) (replicas : Replicas) (intake : Intake),
      (∀ q read, moves ≠ .read q read) → Replicas.step p d.replicas (flag, moves) = some replicas →
      intake.readTxBuffer r = d.intake.readTxBuffer r → ReaderStep d ⟨replicas, intake⟩ r act :=
    fun flag moves replicas intake kind moved =>
      kept replicas intake (read_pc_kept p d.replicas replicas flag moves r kind moved)
  have elsewhere : ∀ (flag : Int) (q : Nat) (moves : ReadAct) (replicas : Replicas) (intake : Intake), r ≠ q →
      Replicas.step p d.replicas (flag, .read q moves) = some replicas →
      intake.readTxBuffer r = d.intake.readTxBuffer r → ReaderStep d ⟨replicas, intake⟩ r act :=
    fun flag q moves replicas intake other moved =>
      kept replicas intake (by rw [(read_moved p d.replicas replicas flag q moves moved).2.2 r other])
  cases database_step_cases p writeRate d next act taken with
  | start | finish | client | recieve => exact kept _ _ rfl rfl
  | thread q e act conn sent connection running step =>
      cases act with
      | requestRead =>
          by_cases here : r = q
          · subst here
            exact .same [e] rfl (by simp [Intake.requestedReads])
          · exact kept _ _ rfl (Function.update_of_ne here _ _)
      | loop | receive | requestWrite | send | check | poll | pollNothing | spin | respond => exact kept _ _ rfl rfl
  | addWriteTx q e tx recieve sent replicas connection running pc step moved => exact inner _ _ _ _ (by simp) moved rfl
  | sequencers act replicas kind moved => exact inner _ _ _ _ (by simp) moved rfl
  | takeBatch q replicas moved | writeLoop q replicas moved | write q replicas moved =>
      exact inner _ _ _ _ (by simp) moved rfl
  | fetch q i batch tx replicas pc found moved => exact inner _ _ _ _ (by simp) moved rfl
  | assign q i e batch replicas pc moved | raise q i e batch replicas pc moved => exact inner _ _ _ _ (by simp) moved rfl
  | readLoop q replicas moved =>
      by_cases here : r = q
      · subst here
        have done := (read_moved p d.replicas replicas _ r .loop moved).1
        generalize same : replicas.exec r = exec at done
        cases done with
        | enter pc | leave pc => exact .between (by rw [pc]; rfl) (by rw [same]; rfl) (by rw [same]; simp) rfl
      · exact elsewhere _ q _ _ _ here moved rfl
  | takeRead q replicas moved =>
      by_cases here : r = q
      · subst here
        have done := (read_moved p d.replicas replicas _ r _ moved).1
        generalize same : replicas.exec r = exec at done
        unfold Intake.takeRead at done ⊢
        cases took : (d.intake.readTxBuffer r).tryTake with
        | none =>
            rw [took] at done
            cases done with
            | takeNone pc => exact .between (by rw [pc]; rfl) (by rw [same]; rfl) (by rw [same]; simp) rfl
        | some pair =>
            obtain ⟨e, rest⟩ := pair
            rw [took] at done
            cases done with
            | take e pc => exact .take e pc (by rw [same]) (by simpa using Fifo.try_take_pending _ rest e took)
      · refine elsewhere _ q _ _ _ here moved ?_
        unfold Intake.takeRead
        split
        · rfl
        · exact Function.update_of_ne here _ _
  | readOut q e replicas pc out moved =>
      by_cases here : r = q
      · subst here
        exact .crash e pc out rfl
      · exact elsewhere _ q _ _ _ here moved rfl
  | read q e value replicas pc found moved =>
      by_cases here : r = q
      · subst here
        have done := (read_moved p d.replicas replicas _ r _ moved).1
        generalize same : replicas.exec r = exec at done
        cases done with
        | crash other key at_pc out =>
            rw [found] at out
            cases out
        | read other key stored at_pc =>
            rw [pc] at at_pc
            cases at_pc
            exact .read e pc (by rw [same]) rfl
      · exact elsewhere _ q _ _ _ here moved rfl
  | raiseRead q e replicas pc moved =>
      by_cases here : r = q
      · subst here
        have done := (read_moved p d.replicas replicas _ r _ moved).1
        generalize same : replicas.exec r = exec at done
        cases done with
        | raise => exact .raise e (.raiseRead pc) pc (by rw [same]) rfl
      · exact elsewhere _ q _ _ _ here moved rfl

theorem reader_step (p : Deployment) (writeRate : Nat) (d next : Database) (act : DatabaseAct) (r c : Nat)
    (taken : Database.step p writeRate d act = some next) (reader : c ∈ d.readers r) : c ∈ next.readers r ∨
      Touches d r c act (.raise none) ∨
        readFromStorage (d.replicas.exec r).storage (d.intake.conn (r, c)).thread.tx.key = none := by
  unfold Database.readers at reader ⊢
  cases database_reader_step p writeRate d next act r taken with
  | same more pc list =>
      rw [pc, list, ← List.append_assoc]
      exact .inl (List.mem_append_left _ reader)
  | between before after live list =>
      rw [before] at reader
      rw [after, list]
      exact .inl reader
  | take e before after list =>
      rw [before, list] at reader
      rw [after]
      exact .inl reader
  | crash e before out list =>
      rw [before, ← list] at reader
      rcases List.mem_append.mp reader with now | later
      · obtain rfl : c = e := by simpa [ReadPc.pointer] using now
        exact .inr (.inr out)
      · exact .inl (List.mem_append_right _ later)
  | read e before after list =>
      rw [before, ← list] at reader
      rw [after]
      exact .inl reader
  | raise e touches before after list =>
      rw [before, ← list] at reader
      rcases List.mem_append.mp reader with now | later
      · obtain rfl : c = e := by simpa [ReadPc.pointer] using now
        exact .inr (.inl touches)
      · exact .inl (List.mem_append_right _ later)

theorem reader_key (p : Deployment) (writeRate : Nat) (d : Database) (r c : Nat)
    (reachable : (database p writeRate).Reachable d) (live : d.intake.flag r ≠ 1) (reader : c ∈ d.readers r) :
    ∃ value, readFromStorage (d.replicas.exec r).storage (d.intake.conn (r, c)).thread.tx.key = some value := by
  have inv := database_inv_reachable p writeRate d reachable
  obtain ⟨connection, waits⟩ := (inv.reads r).waits c reader
  have conn := inv.conns r c connection
  have node := connection_node p r c connection
  have exec := (database_nodes_inv p writeRate d reachable).replicas r node
  have length := exec_storage_length _ _ exec (reports_live _ _ r (inv.reports r node))
  have pc : (d.intake.conn (r, c)).thread.pc ≠ .loop ∧ (d.intake.conn (r, c)).thread.pc ≠ .receiving := by
    rcases waits.waits with completes | returned
    · constructor <;> intro same <;> simp [same, ClientThreadPc.completes] at completes
    · simp [returned]
  have served := still_served (d.intake.flag r) _ conn.turn pc.1 pc.2 (by rw [waits.kind]; simp) live
    ((staying_inv_reachable p writeRate d reachable).gone r c connection) waits.complete
  have key : (d.intake.conn (r, c)).thread.tx.key = (d.intake.conn (r, c)).client.sendTx.key :=
    congrArg WireTx.key served.same.request
  obtain ⟨low, high⟩ : StorageKey (d.intake.conn (r, c)).client.sendTx.key := (conn.issued served.waiting).1.key
  have inside : 0 ≤ (d.intake.conn (r, c)).client.sendTx.key.toInt ∧
      (d.intake.conn (r, c)).client.sendTx.key.toInt.toNat < (d.replicas.exec r).storage.records.length := by
    rw [length]
    exact ⟨low, by omega⟩
  rw [key, readFromStorage, recordIndex, if_pos inside, Option.bind_some, List.getElem?_eq_getElem inside.2]
  exact ⟨_, rfl⟩

def ReadQueued (d : Database) (r c : Nat) : Prop :=
  d.intake.flag r ≠ 1 → (d.intake.conn (r, c)).thread.pc = .completing → (d.intake.conn (r, c)).thread.tx.type = .readOnly →
    (d.intake.conn (r, c)).thread.tx.completeFlag = 0 → c ∈ d.readers r

theorem read_queued_thread (p : Deployment) (writeRate : Nat) (d next : Database) (r c : Nat) (act : ClientInterface.Act)
    (after : Connection) (sent : List Packet) (inv : DatabaseInv p d) (connection : p.IsConnection r c)
    (taken : Database.step p writeRate d (.thread r c act) = some next) (live : d.intake.flag r ≠ 1)
    (step : ThreadStep (d.intake.flag r) d.intake.net r c (d.intake.conn (r, c)) act after sent)
    (conn : next.intake.conn (r, c) = after) (kept : c ∈ d.readers r → c ∈ next.readers r) (queued : ReadQueued d r c)
    (pc : after.thread.pc = .completing) (read : after.thread.tx.type = .readOnly)
    (incomplete : after.thread.tx.completeFlag = 0) : c ∈ next.readers r := by
  cases step with
  | requestRead reading =>
      cases database_step_cases p writeRate d next _ taken with
      | thread q e act conn sent connection running step =>
          simp [Database.readers, Intake.requestedReads]
  | spin at_pc => exact kept (queued live at_pc read incomplete)
  | receive data recvMsg len rest tx =>
      simp only at pc read
      rw [read] at pc
      cases pc
  | giveUp _ flag => exact absurd flag live
  | acknowledge _ _ _ _ polling =>
      have write := (inv.conns r c connection).writes (.inr (by rw [polling]; rfl))
      rw [write] at read
      cases read
  | poll _ overtime | pollNothing overtime => cases overtime <;> cases pc
  | enter | leave | ignore | requestWrite | send | check | checkFinish | complete | abandon | respond => cases pc

theorem read_queued_step (p : Deployment) (writeRate : Nat) (d next : Database) (act : DatabaseAct) (r c : Nat)
    (reachable : (database p writeRate).Reachable d) (connection : p.IsConnection r c)
    (taken : Database.step p writeRate d act = some next) (queued : ReadQueued d r c) : ReadQueued next r c := by
  have inv := database_inv_reachable p writeRate d reachable
  intro running pc read incomplete
  have live : d.intake.flag r ≠ 1 := by
    rcases database_flag_step p writeRate d next act r taken with same | one | ⟨master, _⟩
    · rw [← same]
      exact running
    · exact absurd one running
    · exact absurd master (connection_not_master p r c connection)
  have kept : (¬ Touches d r c act (.raise none)) → c ∈ d.readers r → c ∈ next.readers r := by
    intro quiet reader
    rcases reader_step p writeRate d next act r c taken reader with still | touches | out
    · exact still
    · exact absurd touches quiet
    · obtain ⟨value, found⟩ := reader_key p writeRate d r c reachable live reader
      rw [found] at out
      cases out
  cases database_conn_step p writeRate d next act r c taken with
  | same act other quiet conn =>
      rw [conn] at pc read incomplete
      exact kept (quiet _) (queued live pc read incomplete)
  | client act after _ step conn =>
      have same : after.thread = (d.intake.conn (r, c)).thread := by cases step <;> rfl
      rw [conn, same] at pc read incomplete
      exact kept (fun touches => (by cases touches)) (queued live pc read incomplete)
  | thread act after sent _ step conn =>
      rw [conn] at pc read incomplete
      exact read_queued_thread p writeRate d next r c act after sent inv connection taken live step conn
        (kept fun touches => (by cases touches)) queued pc read incomplete
  | recieve act inner recieve sent from_ step conn =>
      rw [conn] at pc read incomplete
      refine kept (fun touches => ?_) (queued live pc read incomplete)
      rcases from_ with rfl | ⟨rfl, _⟩ <;> cases touches
  | touch act tx touches conn =>
      rw [conn] at pc read incomplete
      cases touches with
      | assign batch i at_pc | raise batch i at_pc =>
          have write := (reported_unraised p d r c i batch inv connection (by rw [at_pc]; simp)).1
          simp [waitForTx, setAssignedEpochIdToTx, raiseTxCompleteFlag, write] at read
      | value value at_pc found =>
          exact kept (fun touches => (by cases touches)) (queued live pc read incomplete)
      | raiseRead at_pc => simp [waitForTx, raiseTxCompleteFlag] at incomplete

theorem read_queued_reachable (p : Deployment) (writeRate : Nat) (d : Database) (r c : Nat)
    (reachable : (database p writeRate).Reachable d) (connection : p.IsConnection r c) : ReadQueued d r c := by
  induction reachable with
  | init => exact fun _ pc => (by cases pc)
  | step d next act before taken ih => exact read_queued_step p writeRate d next act r c before connection taken ih

theorem reader_never_crashes (p : Deployment) (writeRate : Nat) (d : Database) (r : Nat)
    (reachable : (database p writeRate).Reachable d) (replica : p.IsSlave r) (live : d.intake.flag r ≠ 1) :
    (d.replicas.exec r).readPc ≠ .crashed := by
  induction reachable with
  | init => exact fun crashed => (by cases crashed)
  | step d next act before taken ih =>
      have was : d.intake.flag r ≠ 1 := by
        rcases database_flag_step p writeRate d next act r taken with same | one | ⟨master, _⟩
        · rw [← same]
          exact live
        · exact absurd one live
        · exact absurd master (Nat.ne_of_gt replica.1)
      intro crashed
      cases database_reader_step p writeRate d next act r taken with
      | same more pc =>
          rw [pc] at crashed
          exact ih was crashed
      | between _ _ never => exact never crashed
      | crash e pc out =>
          obtain ⟨value, found⟩ := reader_key p writeRate d r e before was (by simp [Database.readers, pc, ReadPc.pointer])
          rw [found] at out
          cases out
      | take e _ after | read e _ after | raise e _ _ after =>
          rw [after] at crashed
          cases crashed

def ReadPc.weight : ReadPc → Nat
  | .reading _ => 4
  | .raising _ => 3
  | .loop => 2
  | .taking => 1
  | .returned | .crashed => 0

def Database.readBacklog (r : Nat) (d : Database) : Nat :=
  (d.replicas.exec r).readPc.weight + 4 * (d.intake.readTxBuffer r).pending.length

def DatabaseAct.schedulesReads (r : Nat) : DatabaseAct → Prop
  | .readLoop q | .takeRead q | .read q | .raiseRead q => q = r
  | _ => False

structure Unread (d next : Database) : Prop where
  sequencers : next.replicas.sequencers = d.replicas.sequencers
  flag : next.intake.flag = d.intake.flag
  client : ∀ q e, (next.intake.conn (q, e)).client = (d.intake.conn (q, e)).client
  pc : ∀ q e, (next.intake.conn (q, e)).thread.pc = (d.intake.conn (q, e)).thread.pc
  type : ∀ q e, (next.intake.conn (q, e)).thread.tx.type = (d.intake.conn (q, e)).thread.tx.type

theorem unread_touch (p : Deployment) (d : Database) (replicas : Replicas) (flag : Int) (r c : Nat) (act : ReadAct)
    (tx : TxAct) (moved : Replicas.step p d.replicas (flag, .read r act) = some replicas) :
    Unread d ⟨replicas, d.intake.touchTx r c tx⟩ := by
  refine ⟨(read_moved p d.replicas replicas flag r act moved).2.1, rfl, fun q e => ?_, fun q e => ?_, fun q e => ?_⟩
  · exact update_view Connection.client d.intake.conn r c q e _ rfl
  · refine update_view (fun conn => conn.thread.pc) d.intake.conn r c q e _ ?_
    cases tx <;> rfl
  · refine update_view (fun conn => conn.thread.tx.type) d.intake.conn r c q e _ ?_
    cases tx <;> rfl

theorem scheduler_unread (p : Deployment) (writeRate : Nat) (d next : Database) (act : DatabaseAct) (r : Nat)
    (kind : act.schedulesReads r) (taken : Database.step p writeRate d act = some next) : Unread d next := by
  have inner : ∀ (flag : Int) (moves : ReadAct) (replicas : Replicas) (intake : Intake),
      Replicas.step p d.replicas (flag, .read r moves) = some replicas → intake.flag = d.intake.flag →
      intake.conn = d.intake.conn → Unread d ⟨replicas, intake⟩ := by
    intro flag moves replicas intake moved same conn
    exact ⟨(read_moved p d.replicas replicas flag r moves moved).2.1, same, fun _ _ => by rw [conn], fun _ _ => by rw [conn],
      fun _ _ => by rw [conn]⟩
  cases database_step_cases p writeRate d next act taken with
  | start | finish | client | thread | recieve | addWriteTx | sequencers | takeBatch | writeLoop | write | fetch | assign
  | raise => exact kind.elim
  | readLoop q replicas moved =>
      obtain rfl : q = r := kind
      exact inner _ _ _ _ moved rfl rfl
  | takeRead q replicas moved =>
      obtain rfl : q = r := kind
      refine inner _ _ _ _ moved ?_ ?_ <;>
      · unfold Intake.takeRead
        split <;> rfl
  | readOut q e replicas pc out moved =>
      obtain rfl : q = r := kind
      exact inner _ _ _ _ moved rfl rfl
  | read q e value replicas pc found moved =>
      obtain rfl : q = r := kind
      exact unread_touch p d replicas _ q e _ _ moved
  | raiseRead q e replicas pc moved =>
      obtain rfl : q = r := kind
      exact unread_touch p d replicas _ q e _ _ moved

theorem inside_read (p : Deployment) (d : Database) (r : Nat) (act : ReadAct) (exec : Exec) (node : p.IsNode r)
    (running : d.running r = true) (done : readSchedulerStartup (d.intake.flag r) (d.replicas.exec r) act = some exec) :
    Replicas.step p d.replicas (d.intake.flag r, .read r act) =
      some { d.replicas with exec := Function.update d.replicas.exec r exec } := by
  have ready : p.IsNode r ∧ d.replicas.sequencers.running r = true := ⟨node, running⟩
  simp only [Replicas.step, if_pos ready, done, Option.map_some]

theorem read_backlog_exec (d : Database) (r : Nat) (exec : Exec) (intake : Intake)
    (list : intake.readTxBuffer = d.intake.readTxBuffer)
    (less : exec.readPc.weight < (d.replicas.exec r).readPc.weight) :
    Database.readBacklog r ⟨{ d.replicas with exec := Function.update d.replicas.exec r exec }, intake⟩ < d.readBacklog r := by
  simp only [Database.readBacklog, Function.update_self, list]
  exact Nat.add_lt_add_right less _

theorem read_scheduler_moves (p : Deployment) (writeRate : Nat) (d : Database) (r : Nat)
    (reachable : (database p writeRate).Reachable d) (replica : p.IsSlave r) (flag : d.intake.flag r = 0)
    (running : d.running r = true)
    (work : (d.replicas.exec r).readPc = .taking → (d.intake.readTxBuffer r).pending ≠ []) :
    ∃ act next, act.schedulesReads r ∧ Database.step p writeRate d act = some next ∧
      next.readBacklog r < d.readBacklog r := by
  have live : d.intake.flag r ≠ 1 := by
    rw [flag]
    decide
  have moves : ∀ (act : ReadAct) (exec : Exec), readSchedulerStartup (d.intake.flag r) (d.replicas.exec r) act = some exec →
      Replicas.step p d.replicas (d.intake.flag r, .read r act) =
        some { d.replicas with exec := Function.update d.replicas.exec r exec } :=
    fun act exec done => inside_read p d r act exec (.inr replica) running done
  cases pc : (d.replicas.exec r).readPc with
  | returned => exact absurd pc ((staying_inv_reachable p writeRate d reachable).read r replica flag)
  | crashed => exact absurd pc (reader_never_crashes p writeRate d r reachable replica live)
  | loop =>
      have moved := moves .loop { d.replicas.exec r with readPc := .taking }
        (by simp only [readSchedulerStartup, pc, flag, if_true])
      refine ⟨.readLoop r, _, rfl, by simp only [Database.step, Database.inside, moved]; rfl, ?_⟩
      exact read_backlog_exec d r _ _ rfl (by rw [pc]; exact Nat.lt_succ_self 1)
  | taking =>
      cases took : (d.intake.readTxBuffer r).tryTake with
      | none => exact absurd (Fifo.try_take_none _ took) (work pc)
      | some pair =>
          obtain ⟨c, rest⟩ := pair
          have first : d.intake.takeRead r =
              (some c, { d.intake with readTxBuffer := Function.update d.intake.readTxBuffer r rest }) := by
            simp only [Intake.takeRead, took]
          have moved := moves (.take (some c)) { d.replicas.exec r with readPc := .reading c }
            (by simp only [readSchedulerStartup, pc])
          refine ⟨.takeRead r, _, rfl, by simp only [Database.step, Database.takeRead, first, moved]; rfl, ?_⟩
          simp only [Database.readBacklog, Function.update_self, pc, ReadPc.weight, Fifo.try_take_pending _ rest c took,
            List.length_cons]
          omega
  | reading c =>
      obtain ⟨value, found⟩ := reader_key p writeRate d r c reachable live (by simp [Database.readers, pc, ReadPc.pointer])
      have moved := moves (.read (d.intake.conn (r, c)).thread.tx.key) { d.replicas.exec r with readPc := .raising c }
        (by simp only [readSchedulerStartup, pc, found])
      refine ⟨.read r, _, rfl, by simp only [Database.step, Database.read, pc, found, Database.touching, moved]; rfl, ?_⟩
      exact read_backlog_exec d r { d.replicas.exec r with readPc := .raising c } (d.intake.touchTx r c (.value value)) rfl
        (by rw [pc]; exact Nat.lt_succ_self 3)
  | raising c =>
      have moved := moves .raise { d.replicas.exec r with readPc := .loop } (by simp only [readSchedulerStartup, pc])
      refine ⟨.raiseRead r, _, rfl, by simp only [Database.step, Database.raiseRead, pc, Database.touching, moved]; rfl, ?_⟩
      exact read_backlog_exec d r { d.replicas.exec r with readPc := .loop } (d.intake.touchTx r c (.raise none)) rfl
        (by rw [pc]; exact Nat.lt_succ_self 2)

def DatabaseAct.reads (r c : Nat) (act : DatabaseAct) : Prop := act.schedulesReads r ∨ ∃ own, act = .thread r c own

structure Reading (p : Deployment) (writeRate r c : Nat) (client : Client) (d : Database) : Prop extends
    Alive p writeRate r c client d where
  pc : (d.intake.conn (r, c)).thread.pc = .completing
  read : (d.intake.conn (r, c)).thread.tx.type = .readOnly

section

variable (p : Deployment) (writeRate r c : Nat) (client : Client)

theorem reads_threads (act : ClientInterface.Act) (_ : act.packet = none) : DatabaseAct.reads r c (.thread r c act) :=
  .inr ⟨act, rfl⟩

theorem reading_completes (d : Database) (reading : Reading p writeRate r c client d) :
    ∃ next, (database p writeRate).Leads (DatabaseAct.reads r c) d next ∧ Reading p writeRate r c client next ∧
      (next.intake.conn (r, c)).thread.tx.completeFlag ≠ 0 := by
  refine Machine.leads_until (database p writeRate) (DatabaseAct.reads r c) (Reading p writeRate r c client)
    (fun d => (d.intake.conn (r, c)).thread.tx.completeFlag ≠ 0) (Database.readBacklog r) (fun d reading open_ => ?_) d reading
  have queued := read_queued_reachable p writeRate d r c reading.reachable reading.connection
    (by rw [reading.flag]; decide) reading.pc reading.read (not_not.mp open_)
  obtain ⟨act, next, kind, taken, less⟩ := read_scheduler_moves p writeRate d r reading.reachable reading.connection.1
    reading.flag (alive_running p writeRate r c client d reading.toAlive) (fun pc none => by
      simp [Database.readers, pc, ReadPc.pointer, none] at queued)
  have kept := scheduler_unread p writeRate d next act r kind taken
  refine ⟨next, Machine.leads_one _ _ d next act (.inl kind) taken, ⟨⟨?_, reading.connection, ?_, ?_, ?_⟩, ?_, ?_⟩, less⟩
  · exact .step d next act reading.reachable taken
  · rw [kept.flag]
    exact reading.flag
  · rw [kept.sequencers]
    exact reading.works
  · rw [kept.client]
    exact reading.client
  · rw [kept.pc]
    exact reading.pc
  · rw [kept.type]
    exact reading.read

theorem completing_answers (d : Database) (reading : Reading p writeRate r c client d) :
    ∃ next, (database p writeRate).Leads (DatabaseAct.reads r c) d next ∧ Alive p writeRate r c client next ∧
      (next.intake.conn (r, c)).toClient.pending ≠ [] := by
  obtain ⟨completed, reads, later, done⟩ := reading_completes p writeRate r c client d reading
  obtain ⟨next, rest, alive, _, _, answer⟩ := completed_answers p writeRate r c client (DatabaseAct.reads r c)
    (reads_threads r c) completed later.toAlive (by rw [later.pc]; rfl) done
  exact ⟨next, Machine.leads_trans _ _ d completed next reads rest, alive, answer⟩

theorem serving_reads (d : Database) (alive : Alive p writeRate r c client d) (read : client.sendTx.type = .readOnly)
    (busy : (d.intake.conn (r, c)).thread.pc.idle = false) :
    ∃ next, (database p writeRate).Leads (DatabaseAct.reads r c) d next ∧ Alive p writeRate r c client next ∧
      (next.intake.conn (r, c)).toClient.pending ≠ [] := by
  have inv := database_inv_reachable p writeRate d alive.reachable
  have conn := inv.conns r c alive.connection
  obtain ⟨_, _, _, same⟩ := turn_serving _ conn.turn busy
  have kind : (d.intake.conn (r, c)).thread.tx.type = .readOnly := by
    rw [alive.client] at same
    exact (congrArg WireTx.type same.request).trans read
  have reads : ¬ (d.intake.conn (r, c)).thread.tx.type = .writeOnly := by
    rw [kind]
    simp
  cases pc : (d.intake.conn (r, c)).thread.pc with
  | reading =>
      obtain ⟨queued, leads, later, moved⟩ := thread_moves p writeRate r c client (DatabaseAct.reads r c) d .requestRead
        { d.intake.conn (r, c) with thread := { (d.intake.conn (r, c)).thread with pc := .completing } } []
        (reads_threads r c _ rfl) alive
        (by simp only [ClientInterface.clientThread, pc])
      obtain ⟨next, rest, done⟩ := completing_answers p writeRate r c client queued
        ⟨later, by rw [moved.conn], by rw [moved.conn]; exact kind⟩
      exact ⟨next, Machine.leads_trans _ _ d queued next leads rest, done⟩
  | completing => exact completing_answers p writeRate r c client d ⟨alive, pc, kind⟩
  | responding =>
      obtain ⟨next, leads, later, _, _, answer⟩ :=
        responding_answers p writeRate r c client (DatabaseAct.reads r c) (reads_threads r c) d alive pc
      exact ⟨next, leads, later, answer⟩
  | registering => exact absurd (conn.writes (.inl pc)) reads
  | sending | waitingAck | polling => exact absurd (conn.writes (.inr (by rw [pc]; rfl))) reads
  | loop | receiving | returned =>
      rw [pc] at busy
      cases busy

theorem read_answered (d : Database) (alive : Alive p writeRate r c client d) (waiting : client.pc = .waiting)
    (read : client.sendTx.type = .readOnly) : ∃ e next, (database p writeRate).Leads (DatabaseAct.reads r c) d e ∧
      Alive p writeRate r c client e ∧ TakesResponse p writeRate r c client e next := by
  obtain ⟨taken, reads, later, _, _, busy | answer⟩ :=
    reaches_busy p writeRate r c client (DatabaseAct.reads r c) (reads_threads r c) d alive waiting
  · obtain ⟨e, rest, last, answer⟩ := serving_reads p writeRate r c client taken later read busy
    obtain ⟨next, takes⟩ := response_taken p writeRate r c client e last waiting answer
    exact ⟨e, next, Machine.leads_trans _ _ d taken e reads rest, last, takes⟩
  · obtain ⟨next, takes⟩ := response_taken p writeRate r c client taken later waiting answer
    exact ⟨taken, next, reads, later, takes⟩

end

end EpochReplication
