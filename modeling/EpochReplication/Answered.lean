import EpochReplication.ExactlyOnce
import EpochReplication.WriteProgress

set_option autoImplicit false

namespace EpochReplication

section

variable (p : Deployment) (writeRate r c : Nat) (client : Client) (base : Database)

theorem awaited_carried (spare : Nat) (d : Database) (ready : Ready p writeRate r c client base spare d) (asks : Asks client)
    (completes : (d.intake.conn (r, c)).thread.pc.completes = true)
    (open_ : (d.intake.conn (r, c)).thread.tx.completeFlag = 0) :
    flow r c (d.replicas.unfinished r) (d.intake.conn (r, c)).recieve ≠ [] := by
  have inv := (database_inv_reachable p writeRate d ready.reachable).conns r c ready.connection
  have live : d.intake.flag r ≠ 1 := by
    rw [ready.flag]
    decide
  have busy : (d.intake.conn (r, c)).thread.pc.idle = false := by
    by_contra idle
    rw [(idle_rests _ (Bool.not_eq_false _ ▸ idle)).2] at completes
    cases completes
  obtain ⟨own, _, _⟩ := serves_asked p writeRate r c client base spare d ready asks busy
  have id : (d.intake.conn (r, c)).thread.tx.id = client.sendTx.id := congrArg WireTx.id own
  have settled := inv.settled completes ((congrArg WireTx.type own).trans asks.write) live
  rw [id] at settled
  have ascending := ascending_reachable p writeRate d ready.reachable r c ready.connection
  rcases (accounted_reachable p writeRate d r c ready.reachable ready.connection).account with all | untaken
  · have flight := all.flight live (by rw [ready.client]; exact asks.waiting) (by rw [ready.client]; exact asks.write)
    rcases flight.carried busy with work | raised
    · exact work
    · exact absurd open_ (raised_complete p writeRate d r c ready.reachable raised)
  · -- a write the test of the id has passed over has an id that is not new
    obtain ⟨w, member, le⟩ := settled_taken _ _ ascending settled
    have last := untaken.last
    rw [ready.client] at last
    have less := asks.ascends w (by rw [last, List.dropLast_concat]; exact member)
    omega

theorem awaited_completes (spare : Nat) (d : Database) (method : p.exp ≠ .tcpMethod)
    (ready : Ready p writeRate r c client base (spare + 3) d) (asks : Asks client)
    (completes : (d.intake.conn (r, c)).thread.pc.completes = true) :
    ∃ next, Serves p writeRate r c base d next ∧ Ready p writeRate r c client base spare next ∧
      (next.intake.conn (r, c)).thread.pc.completes = true ∧ (next.intake.conn (r, c)).thread.tx.completeFlag ≠ 0 := by
  obtain ⟨first, listens, ready, receiving, thread⟩ := reaches_listening p writeRate r c client base (spare + 2) d ready
  have stays := (staying_inv_reachable p writeRate first ready.reachable).epoch (by rw [ready.master]; decide)
  have inv := (database_nodes_inv p writeRate first ready.reachable).sequencers.master
  have room := ready.spare
  obtain ⟨m, leads, _, placed, _, count, _⟩ := epoch_pass p first.replicas.sequencers.master inv stays (by omega)
  obtain ⟨passes, ready⟩ := epoch_serves p writeRate r c client base (spare + 2) spare first m ready leads (by omega)
  obtain ⟨third, replicates, ready, intake, master, delivered⟩ :=
    reaches_replicated p writeRate r c client base spare (first.withMaster m) method ready
  have same : third.intake = first.intake := intake
  have here : third.replicas.sequencers.master = m := master
  obtain ⟨last, drains, ready, kept, finished⟩ := reaches_drained p writeRate r c client base spare third ready
    ⟨by rw [here]; exact placed, by rw [here]; exact delivered⟩
  have waits : (last.intake.conn (r, c)).thread.pc.completes = true := by
    rw [kept.thread, same, thread]
    exact completes
  have listening : (last.intake.conn (r, c)).recieve.pc = .receiving := by
    rw [kept.recieve, same]
    exact receiving
  have hands : (last.intake.conn (r, c)).recieve.hands = [] := hands_of_idle _ (by simp [listening]) (by simp [listening])
  refine ⟨last, serves_trans p writeRate r c base _ _ _ listens (serves_trans p writeRate r c base _ _ _ passes
    (serves_trans p writeRate r c base _ _ _ replicates drains)), ready, waits, fun open_ => ?_⟩
  -- nothing of the connection is on its way any more
  exact awaited_carried p writeRate r c client base spare last ready asks waits open_ (by simp [flow, finished, hands])

theorem serving_completes (spare : Nat) (d : Database) (method : p.exp ≠ .tcpMethod)
    (ready : Ready p writeRate r c client base (spare + 4) d) (asks : Asks client)
    (busy : (d.intake.conn (r, c)).thread.pc.idle = false) :
    ∃ next, Serves p writeRate r c base d next ∧ Ready p writeRate r c client base spare next ∧
      (next.intake.conn (r, c)).thread.pc.completes = true ∧ (next.intake.conn (r, c)).thread.tx.completeFlag ≠ 0 := by
  have acknowledges : ∀ d, Ready p writeRate r c client base (spare + 4) d →
      (d.intake.conn (r, c)).thread.pc.retransmits = true →
      ∃ next, Serves p writeRate r c base d next ∧ Ready p writeRate r c client base spare next ∧
        (next.intake.conn (r, c)).thread.pc.completes = true ∧ (next.intake.conn (r, c)).thread.tx.completeFlag ≠ 0 := by
    intro d ready retransmits
    obtain ⟨acked, serves, later, completing⟩ :=
      add_acknowledged p writeRate r c client base (spare + 3) d ready asks retransmits
    obtain ⟨next, completes, done⟩ := awaited_completes p writeRate r c client base spare acked method later asks
      (by rw [completing]; rfl)
    exact ⟨next, serves_trans p writeRate r c base d acked next serves completes, done⟩
  have inv := (database_inv_reachable p writeRate d ready.reachable).conns r c ready.connection
  have own := (serves_asked p writeRate r c client base (spare + 4) d ready asks busy).1
  have write : (d.intake.conn (r, c)).thread.tx.type = .writeOnly := (congrArg WireTx.type own).trans asks.write
  cases pc : (d.intake.conn (r, c)).thread.pc with
  | registering =>
      obtain ⟨sends, serves, ready, moved⟩ := thread_steps p writeRate r c client base (spare + 4) d
        (.requestWrite p.uninitialised p.uninitialised) _ [] (hands_nothing base _ rfl rfl) ready
        (by simp only [ClientInterface.clientThread, pc]; rfl)
      obtain ⟨next, rest, done⟩ := acknowledges sends ready (by rw [moved.conn]; rfl)
      exact ⟨next, serves_trans p writeRate r c base d sends next serves rest, done⟩
  | sending | waitingAck | polling => exact acknowledges d ready (by rw [pc]; rfl)
  | completing | responding =>
      exact awaited_completes p writeRate r c client base spare d method
        (ready_less p writeRate r c client base (spare + 3) (spare + 4) d (Nat.le_succ _) ready) asks (by rw [pc]; rfl)
  | reading =>
      have read := inv.reads pc
      rw [write] at read
      cases read
  | returned | loop | receiving =>
      rw [pc] at busy
      cases busy

theorem reaches_response (spare : Nat) (d : Database) (method : p.exp ≠ .tcpMethod)
    (ready : Ready p writeRate r c client base (spare + 4) d) (asks : Asks client) :
    ∃ next, Serves p writeRate r c base d next ∧ Ready p writeRate r c client base spare next ∧
      (next.intake.conn (r, c)).toClient.pending ≠ [] := by
  obtain ⟨taken, serves, alive, replicas, flag, busy | answer⟩ :=
    reaches_busy p writeRate r c client (DatabaseAct.servesNew base r c) (serves_threads r c base) d ready.toAlive asks.waiting
  · have later := ready_of_alive p writeRate r c client base (spare + 4) d taken ready serves alive replicas flag
    obtain ⟨completed, completes, ready, pc, done⟩ :=
      serving_completes p writeRate r c client base spare taken method later asks busy
    obtain ⟨next, rest, alive, replicas, flag, answer⟩ := completed_answers p writeRate r c client
      (DatabaseAct.servesNew base r c) (serves_threads r c base) completed ready.toAlive pc done
    exact ⟨next, serves_trans p writeRate r c base _ _ _ serves (serves_trans p writeRate r c base _ _ _ completes rest),
      ready_of_alive p writeRate r c client base spare completed next ready rest alive replicas flag, answer⟩
  · have later := ready_of_alive p writeRate r c client base (spare + 4) d taken ready serves alive replicas flag
    exact ⟨taken, serves, ready_less p writeRate r c client base spare (spare + 4) taken (Nat.le_add_right _ _) later, answer⟩

theorem write_answered (spare : Nat) (d : Database) (method : p.exp ≠ .tcpMethod)
    (ready : Ready p writeRate r c client base (spare + 4) d) (asks : Asks client) :
    ∃ e next, Serves p writeRate r c base d e ∧ Ready p writeRate r c client base spare e ∧
      TakesResponse p writeRate r c client e next := by
  obtain ⟨e, serves, later, answer⟩ := reaches_response p writeRate r c client base spare d method ready asks
  obtain ⟨next, taken⟩ := response_taken p writeRate r c client e later.toAlive asks.waiting answer
  exact ⟨e, next, serves, later, taken⟩

theorem ready_of_running (spare : Nat) (d : Database) (reachable : (database p writeRate).Reachable d)
    (connection : p.IsConnection r c) (master : d.intake.flag 0 = 0) (flag : d.intake.flag r = 0)
    (live : d.running 0 = true) (running : d.running r = true)
    (room : d.replicas.sequencers.master.confirmed.length + spare ≤ 32768) :
    Ready p writeRate r c (d.intake.conn (r, c)).client d spare d := by
  refine ⟨alive_of_running p writeRate r c d reachable connection flag running, master, ?_, room,
    List.prefix_rfl, List.prefix_rfl⟩
  simpa [Database.running, Sequencers.running] using live

end

theorem waiting_write_answered (p : Deployment) (writeRate : Nat) (d : Database) (r c : Nat) (method : p.exp ≠ .tcpMethod)
    (reachable : (database p writeRate).Reachable d) (connection : p.IsConnection r c) (master : d.intake.flag 0 = 0)
    (flag : d.intake.flag r = 0) (live : d.running 0 = true) (running : d.running r = true)
    (waiting : (d.intake.conn (r, c)).client.pc = .waiting)
    (write : (d.intake.conn (r, c)).client.sendTx.type = .writeOnly) (fits : NumberFits (d.intake.conn (r, c)).client)
    (room : d.replicas.sequencers.master.confirmed.length + 4 ≤ 32768) :
    ∃ e next, Serves p writeRate r c d d e ∧ TakesResponse p writeRate r c (d.intake.conn (r, c)).client e next := by
  have ready := ready_of_running p writeRate r c 4 d reachable connection master flag live running room
  obtain ⟨e, next, serves, _, takes⟩ := write_answered p writeRate r c _ d 0 d method ready ⟨fits, waiting, write⟩
  exact ⟨e, next, serves, takes⟩

def firstAsked : List DatabaseAct := firstResponse.take 6

def afterFirstAsked : Option Database :=
  (database (configuration .proposedMethod) ClientTime.writeRate).exec (Database.initial (configuration .proposedMethod))
    firstAsked

structure FirstAsked (d : Database) : Prop where
  reachable : (database (configuration .proposedMethod) ClientTime.writeRate).Reachable d
  master : d.intake.flag 0 = 0
  flag : d.intake.flag 1 = 0
  live : d.running 0 = true
  running : d.running 1 = true
  waiting : (d.intake.conn (1, 0)).client.pc = .waiting
  write : (d.intake.conn (1, 0)).client.sendTx.type = .writeOnly
  number : (d.intake.conn (1, 0)).client.txId = 0
  confirmed : d.replicas.sequencers.master.confirmed.length = 0

theorem first_asked : ∃ d, afterFirstAsked = some d ∧ FirstAsked d := by
  have ends : afterFirstAsked.map (fun d => ((d.intake.flag 0, d.intake.flag 1, d.running 0, d.running 1),
      ((d.intake.conn (1, 0)).client.pc, (d.intake.conn (1, 0)).client.sendTx.type, (d.intake.conn (1, 0)).client.txId),
      d.replicas.sequencers.master.confirmed.length)) = some ((0, 0, true, true), (.waiting, .writeOnly, 0), 0) := by
    decide +kernel
  obtain ⟨d, ran, ends⟩ := Option.map_eq_some_iff.mp ends
  simp only [Prod.mk.injEq] at ends
  obtain ⟨⟨master, flag, live, running⟩, ⟨waiting, write, number⟩, confirmed⟩ := ends
  exact ⟨d, ran, Machine.reachable_exec _ firstAsked _ d .init ran, master, flag, live, running, waiting, write, number,
    confirmed⟩

theorem waiting_write_answered_first_write : ∃ d e next, afterFirstAsked = some d ∧
    Serves (configuration .proposedMethod) ClientTime.writeRate 1 0 d d e ∧
      TakesResponse (configuration .proposedMethod) ClientTime.writeRate 1 0 (d.intake.conn (1, 0)).client e next := by
  obtain ⟨d, ran, first⟩ := first_asked
  obtain ⟨e, next, serves, takes⟩ := waiting_write_answered (configuration .proposedMethod) ClientTime.writeRate d 1 0
    (by decide) first.reachable (by decide) first.master first.flag first.live first.running first.waiting first.write
    (first_numbers_fit (configuration .proposedMethod) ClientTime.writeRate d 1 0 first.reachable (by decide) first.waiting
      first.write (by rw [first.number]; decide)) (by rw [first.confirmed]; decide)
  exact ⟨d, e, next, ran, serves, takes⟩

def Answerable (p : Deployment) (writeRate r c : Nat) (d : Database) : Prop :=
  ∃ acts e next, (database p writeRate).exec d acts = some e ∧
    TakesResponse p writeRate r c (d.intake.conn (r, c)).client e next

theorem answered_iff_id_fits (p : Deployment) (writeRate : Nat) (d : Database) (r c : Nat)
    (reachable : (database p writeRate).Reachable d) (connection : p.IsConnection r c)
    (waiting : (d.intake.conn (r, c)).client.pc = .waiting)
    (write : (d.intake.conn (r, c)).client.sendTx.type = .writeOnly) :
    (Answerable p writeRate r c d → NumberFits (d.intake.conn (r, c)).client) ∧
      (p.exp ≠ .tcpMethod → d.intake.flag 0 = 0 → d.intake.flag r = 0 → d.running 0 = true → d.running r = true →
        d.replicas.sequencers.master.confirmed.length + 4 ≤ 32768 →
          NumberFits (d.intake.conn (r, c)).client → Answerable p writeRate r c d) := by
  refine ⟨?_, fun method master flag live running room fits => ?_⟩
  · rintro ⟨acts, e, next, ran, takes⟩
    have later := Machine.reachable_exec _ acts d e reachable ran
    have same := takes.asked
    rw [← same]
    exact answered_number_fits p writeRate e next r c later takes.taken (by rw [same]; exact write)
  · obtain ⟨e, next, ⟨acts, _, ran⟩, _, takes⟩ := write_answered p writeRate r c _ d 0 d method
      (ready_of_running p writeRate r c 4 d reachable connection master flag live running room) ⟨fits, waiting, write⟩
    exact ⟨acts, e, next, ran, takes⟩

theorem answered_iff_id_fits_first_write : ∃ d, afterFirstAsked = some d ∧
    (Answerable (configuration .proposedMethod) ClientTime.writeRate 1 0 d →
      NumberFits (d.intake.conn (1, 0)).client) ∧ Answerable (configuration .proposedMethod) ClientTime.writeRate 1 0 d := by
  obtain ⟨d, ran, first⟩ := first_asked
  obtain ⟨needs, enough⟩ := answered_iff_id_fits (configuration .proposedMethod) ClientTime.writeRate d 1 0 first.reachable
    (by decide) first.waiting first.write
  exact ⟨d, ran, needs, enough (by decide) first.master first.flag first.live first.running
    (by rw [first.confirmed]; decide) (first_numbers_fit (configuration .proposedMethod) ClientTime.writeRate d 1 0
      first.reachable (by decide) first.waiting first.write (by rw [first.number]; decide))⟩

end EpochReplication
