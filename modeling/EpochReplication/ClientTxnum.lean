import EpochReplication.ClientNumbers
import EpochReplication.StartBarrier

set_option autoImplicit false

namespace EpochReplication

-- client_txnum.c makes tx_num requests and only writes, as client_time.c does.
-- Its main sends no start datagram to the master, and no finish datagrams.
namespace ClientTxnum

def clientThread (txNum : Int) (r c : Nat) (conn : Connection) (act : ClientTime.Act) : Option Connection :=
  match act with
  | .request _ _ =>
      if conn.client.txId < txNum then ClientTime.clientThread ClientTime.writeRate r c conn act else none
  | .receive => ClientTime.clientThread ClientTime.writeRate r c conn act
  | .finish =>
      if conn.client.txId < txNum then none else ClientTime.clientThread ClientTime.writeRate r c conn act

def step (p : Deployment) (txNum : Int) (d : Database) : DatabaseAct → Option Database
  | .start | .finish _ => none
  | .client r c act =>
      if p.IsConnection r c then
        (clientThread txNum r c (d.intake.conn (r, c)) act).map (fun conn =>
          { d with intake := { d.intake with conn := Function.update d.intake.conn (r, c) conn } })
      else none
  | act => Database.step p ClientTime.writeRate d act

end ClientTxnum

def clientTxnum (p : Deployment) (txNum : Int) : Machine Database DatabaseAct :=
  ⟨.initial p, ClientTxnum.step p txNum⟩

def ClientTxnum.Allows (txNum : Int) (client : Client) : ClientTime.Act → Prop
  | .request _ _ => client.txId < txNum
  | .receive => True
  | .finish => ¬ client.txId < txNum

theorem client_txnum_thread (txNum : Int) (r c : Nat) (conn after : Connection) (act : ClientTime.Act)
    (done : ClientTxnum.clientThread txNum r c conn act = some after) :
    ClientTxnum.Allows txNum conn.client act ∧ ClientTime.clientThread ClientTime.writeRate r c conn act = some after := by
  cases act with
  | request typeRand keyRand =>
      simp only [ClientTxnum.clientThread] at done
      split at done
      · rename_i more
        exact ⟨more, done⟩
      · cases done
  | receive => exact ⟨trivial, done⟩
  | finish =>
      simp only [ClientTxnum.clientThread] at done
      split at done
      · cases done
      · rename_i short
        exact ⟨short, done⟩

theorem client_txnum_step (p : Deployment) (txNum : Int) (d next : Database) (act : DatabaseAct)
    (taken : ClientTxnum.step p txNum d act = some next) :
    Database.step p ClientTime.writeRate d act = some next ∧ act ≠ .start ∧ (∀ r, act ≠ .finish r) ∧
      ∀ r c own, act = .client r c own → ClientTxnum.Allows txNum (d.intake.conn (r, c)).client own := by
  cases act with
  | start | finish => cases taken
  | client r c own =>
      simp only [ClientTxnum.step] at taken
      split at taken
      · rename_i connection
        obtain ⟨conn, done, rfl⟩ := Option.map_eq_some_iff.mp taken
        obtain ⟨allows, thread⟩ := client_txnum_thread txNum r c _ conn own done
        refine ⟨?_, by simp, by simp, fun q e other same => ?_⟩
        · simp [Database.step, connection, Intake.clientStep, thread]
        · cases same
          exact allows
      · cases taken
  | thread | recieve | addWriteTx | sequencers | takeBatch | writeLoop | write | fetch | assign | raise | readLoop | takeRead
  | read | raiseRead => exact ⟨taken, by simp, by simp, by simp⟩

theorem client_txnum_reachable (p : Deployment) (txNum : Int) (d : Database)
    (reachable : (clientTxnum p txNum).Reachable d) : (database p ClientTime.writeRate).Reachable d := by
  induction reachable with
  | init => exact .init
  | step d next act _ taken ih => exact .step d next act ih (client_txnum_step p txNum d next act taken).1

theorem sequencers_confirmed (p : Deployment) (s t : Sequencers) (act : Int × SequencersAct)
    (barrier : s.master.epochPc = .barrier) (taken : Sequencers.step p s act = some t) :
    t.master.confirmed = s.master.confirmed := by
  cases sequencers_step_cases p s t act taken with
  | epoch flag act master live step =>
      cases step with
      | spin | start => rfl
      | enter pc | leave pc | stop _ pc | check _ pc | swap _ pc | log _ _ _ _ pc | count _ _ pc | enqueue _ _ pc =>
          exact absurd (barrier.symm.trans pc) (by simp)
  | epochExit | addWriteTx | send | sendExit | slave | slaveExit | takeMaster | takeSlave => rfl

theorem database_confirmed (p : Deployment) (writeRate : Nat) (d next : Database) (act : DatabaseAct)
    (barrier : d.replicas.sequencers.master.epochPc = .barrier) (taken : Database.step p writeRate d act = some next) :
    next.replicas.sequencers.master.confirmed = d.replicas.sequencers.master.confirmed := by
  rcases database_nodes_step p writeRate d next act taken with same | ⟨q, inner, moved, _⟩
  · rw [same]
  · generalize next.replicas = replicas at moved ⊢
    cases replicas_step_cases p d.replicas replicas _ moved with
    | sequencers flag act after notTake stepped =>
        exact sequencers_confirmed p _ _ _ barrier stepped
    | take flag r batch rest after exec node running took stepped done =>
        exact sequencers_confirmed p _ _ _ barrier stepped
    | takeNone | write | read => rfl

def AtFirstWrite (txNum : Int) (client : Client) : Prop :=
  client.txId = 0 ∧ (client.pc = .choosing ∨ (client.pc = .waiting ∧ 0 < txNum ∧ client.submitted ≠ []) ∨
    (client.pc = .returned ∧ txNum ≤ 0))

structure NotStarted (p : Deployment) (txNum : Int) (d : Database) : Prop where
  flag : d.intake.flag 0 ≠ 0
  barrier : d.replicas.sequencers.master.epochPc = .barrier
  confirmed : d.replicas.sequencers.master.confirmed = []
  clients : ∀ r c, p.IsConnection r c → AtFirstWrite txNum (d.intake.conn (r, c)).client

theorem not_started_initial (p : Deployment) (txNum : Int) : NotStarted p txNum (Database.initial p) :=
  ⟨by simp [Database.initial, Intake.initial], rfl, rfl, fun _ _ _ => ⟨rfl, .inl rfl⟩⟩

theorem never_answered (p : Deployment) (writeRate : Nat) (d : Database) (r c : Nat)
    (reachable : (database p writeRate).Reachable d) (connection : p.IsConnection r c)
    (nothing : d.replicas.sequencers.master.confirmed = []) (asked : (d.intake.conn (r, c)).client.submitted ≠ []) :
    (d.intake.conn (r, c)).client.pc = .waiting := by
  obtain ⟨w, member⟩ := List.exists_mem_of_ne_nil _ asked
  rcases (submitted_applied_reachable p writeRate d r c reachable connection).applied w member with ⟨pc, _⟩ | ⟨k, i, applied⟩
  · exact pc
  · obtain ⟨batch, tx, found, _⟩ := applied.contained
    rw [nothing] at found
    cases found

theorem unanswered_step (p : Deployment) (txNum : Int) (d next : Database) (act : DatabaseAct) (r c : Nat)
    (connection : p.IsConnection r c) (reachable : (database p ClientTime.writeRate).Reachable next)
    (nothing : next.replicas.sequencers.master.confirmed = []) (taken : ClientTxnum.step p txNum d act = some next)
    (before : AtFirstWrite txNum (d.intake.conn (r, c)).client) : AtFirstWrite txNum (next.intake.conn (r, c)).client := by
  obtain ⟨taken, _, _, allows⟩ := client_txnum_step p txNum d next act taken
  cases database_conn_step p ClientTime.writeRate d next act r c taken with
  | same act other quiet conn =>
      rw [conn]
      exact before
  | thread act after sent _ step conn =>
      rw [conn]
      cases step <;> exact before
  | recieve act inner recieve sent from_ step conn | touch act tx touches conn =>
      rw [conn]
      exact before
  | client act after _ step conn =>
      have allowed := allows r c act rfl
      have answered := never_answered p ClientTime.writeRate next r c reachable connection nothing
      rw [conn] at answered ⊢
      obtain ⟨first, stands⟩ := before
      cases step with
      | request typeRand keyRand sendTx pc chosen =>
          have write : sendTx.type = .writeOnly := by
            rw [chosen]
            exact always_writes r c _ typeRand keyRand
          simp only [ClientTxnum.Allows, first] at allowed
          exact ⟨first, .inr (.inl ⟨rfl, allowed, by simp [write]⟩)⟩
      | receive data msg len rest recvTx pc took =>
          rcases stands with other | ⟨_, _, asked⟩ | ⟨other, _⟩
          · exact absurd (pc.symm.trans other) (by simp)
          · exact absurd (answered asked) (by simp)
          · exact absurd (pc.symm.trans other) (by simp)
      | finish pc =>
          simp only [ClientTxnum.Allows, first] at allowed
          exact ⟨first, .inr (.inr ⟨rfl, by omega⟩)⟩

theorem not_started_step (p : Deployment) (txNum : Int) (d next : Database) (act : DatabaseAct)
    (reachable : (database p ClientTime.writeRate).Reachable d) (before : NotStarted p txNum d)
    (taken : ClientTxnum.step p txNum d act = some next) : NotStarted p txNum next := by
  obtain ⟨moved, not_start, not_finish, _⟩ := client_txnum_step p txNum d next act taken
  have later := Machine.Reachable.step d next act reachable moved
  have confirmed := (database_confirmed p ClientTime.writeRate d next act before.barrier moved).trans before.confirmed
  have flag := database_flag_kept p ClientTime.writeRate d next act 0 not_start (not_finish 0) moved
  have barrier : next.replicas.sequencers.master.epochPc = .barrier := by
    refine Classical.byContradiction fun left => ?_
    have stays := (barrier_step p ClientTime.writeRate d next act .sequencer moved).2 before.barrier left
    exact before.flag stays.2
  exact ⟨flag ▸ before.flag, barrier, confirmed, fun r c connection =>
    unanswered_step p txNum d next act r c connection later confirmed taken (before.clients r c connection)⟩

theorem not_started_reachable (p : Deployment) (txNum : Int) (d : Database) (reachable : (clientTxnum p txNum).Reachable d) :
    NotStarted p txNum d := by
  induction reachable with
  | init => exact not_started_initial p txNum
  | step d next act before taken ih =>
      exact not_started_step p txNum d next act (client_txnum_reachable p txNum d before) ih taken

theorem clients_return (p : Deployment) (txNum : Int) (none_asked : txNum ≤ 0) (left : List (Nat × Nat))
    (connections : ∀ x ∈ left, p.IsConnection x.1 x.2) :
    ∃ d, (clientTxnum p txNum).Reachable d ∧ (∀ x ∈ left, (d.intake.conn x).client.pc = .returned) ∧
      ∀ x, x ∉ left → d.intake.conn x = (Database.initial p).intake.conn x := by
  induction left with
  | nil => exact ⟨_, .init, by simp, fun _ _ => rfl⟩
  | cons x rest ih =>
      obtain ⟨d, reachable, returned, others⟩ := ih (fun y member => connections y (List.mem_cons_of_mem _ member))
      by_cases again : x ∈ rest
      · refine ⟨d, reachable, fun y member => ?_, fun y apart => others y (fun inside => apart (List.mem_cons_of_mem _ inside))⟩
        rcases List.mem_cons.mp member with rfl | inside
        · exact returned y again
        · exact returned y inside
      · have connection := connections x List.mem_cons_self
        have fresh := others x again
        have past : ¬ (d.intake.conn x).client.txId < txNum := by
          rw [fresh]
          exact Int.not_lt.mpr none_asked
        have leaves : ∃ conn, ClientTxnum.clientThread txNum x.1 x.2 (d.intake.conn x) .finish = some conn ∧
            conn.client.pc = .returned := by
          simp only [ClientTxnum.clientThread, if_neg past]
          rw [fresh]
          exact ⟨_, rfl, rfl⟩
        obtain ⟨conn, done, gone⟩ := leaves
        have taken : ClientTxnum.step p txNum d (.client x.1 x.2 .finish) =
            some { d with intake := { d.intake with conn := Function.update d.intake.conn x conn } } := by
          simp only [ClientTxnum.step, if_pos connection, done, Option.map_some]
        refine ⟨_, .step d _ (.client x.1 x.2 .finish) reachable taken, fun y member => ?_, fun y apart => ?_⟩
        · by_cases own : y = x
          · simp [own, gone]
          · simp only [Function.update_of_ne own]
            exact returned y ((List.mem_cons.mp member).resolve_left own)
        · obtain ⟨other, outside⟩ := not_or.mp (fun member => apart (List.mem_cons.mpr member))
          simp only [Function.update_of_ne other]
          exact others y outside

structure NothingServed (p : Deployment) (d : Database) : Prop where
  confirmed : d.replicas.sequencers.master.confirmed = []
  stores : ∀ r, p.IsNode r → (d.replicas.exec r).storage = newStorage storageSize
  unanswered : ∀ r c, p.IsConnection r c → (d.intake.conn (r, c)).client.txId = 0

theorem not_started_serves (p : Deployment) (txNum : Int) (d : Database)
    (reachable : (database p ClientTime.writeRate).Reachable d) (notStarted : NotStarted p txNum d) :
    NothingServed p d := by
  have nodes := database_nodes_inv p ClientTime.writeRate d reachable
  have inv := database_inv_reachable p ClientTime.writeRate d reachable
  refine ⟨notStarted.confirmed, fun r node => ?_, fun r c connection => (notStarted.clients r c connection).1⟩
  have few := executed_confirmed p d.replicas r nodes.sequencers nodes.replicas node
  rw [notStarted.confirmed, List.flatMap_nil, List.prefix_nil] at few
  have store := (nodes.replicas r node).store (reports_live _ _ r (inv.reports r node))
  rw [show executed _ _ = [] from few] at store
  exact (Option.some.inj store).symm

-- Nobody tells the master to start: the clients of client_txnum wait for their
-- first write for ever, and its main returns only when there was nothing to ask for.
theorem client_txnum_returns_iff (p : Deployment) (txNum : Int) :
    (∀ d, (clientTxnum p txNum).Reachable d → NothingServed p d) ∧
      ((∃ d, (clientTxnum p txNum).Reachable d ∧
          ∀ r c, p.IsConnection r c → (d.intake.conn (r, c)).client.pc = .returned) ↔
        txNum ≤ 0 ∨ ∀ r c, ¬ p.IsConnection r c) := by
  refine ⟨fun d reachable => ?_, ?_, ?_⟩
  · exact not_started_serves p txNum d (client_txnum_reachable p txNum d reachable)
      (not_started_reachable p txNum d reachable)
  · rintro ⟨d, reachable, returned⟩
    by_cases some_client : ∃ r c, p.IsConnection r c
    · obtain ⟨r, c, connection⟩ := some_client
      have gone := returned r c connection
      rcases ((not_started_reachable p txNum d reachable).clients r c connection).2 with pc | ⟨pc, _⟩ | ⟨_, none_asked⟩
      · exact absurd (pc.symm.trans gone) (by simp)
      · exact absurd (pc.symm.trans gone) (by simp)
      · exact .inl none_asked
    · exact .inr fun r c connection => some_client ⟨r, c, connection⟩
  · intro cases_
    rcases cases_ with none_asked | nobody
    · obtain ⟨d, reachable, returned, _⟩ := clients_return p txNum none_asked p.connections
        (fun x member => (mem_connections p x.1 x.2).mp member)
      exact ⟨d, reachable, fun r c connection => returned (r, c) ((mem_connections p r c).mpr connection)⟩
    · exact ⟨_, .init, fun r c connection => absurd connection (nobody r c)⟩

end EpochReplication
