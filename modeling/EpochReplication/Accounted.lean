import EpochReplication.SessionReads

set_option autoImplicit false

namespace EpochReplication

def RecieveThread.adds (t : RecieveThread) : List WireTx :=
  match t.pc with
  | .adding tx => [tx.wire]
  | _ => []

def RecieveThread.taken (t : RecieveThread) : List WireTx := t.added ++ t.hands

structure Ascending (t : RecieveThread) : Prop where
  ordered : (t.added ++ t.adds).Pairwise (fun a b => a.id.toNat < b.id.toNat)
  passed : ∀ w ∈ t.added ++ t.adds, (w.id.toNat : Int) ≤ t.recievedTxId
  reached : t.recievedTxId = -1 ∨ ∃ w ∈ t.added ++ t.adds, (w.id.toNat : Int) = t.recievedTxId

theorem ascending_step (flag : Int) (net sent : List Packet) (r c : Nat) (t next : RecieveThread) (act : RecieveAct)
    (writes : ∀ tx, t.pc = .acked tx → tx.type = .writeOnly) (inv : Ascending t)
    (step : RecieveStep flag net r c t act next sent) : Ascending next := by
  have same : next.added ++ next.adds = t.added ++ t.adds → next.recievedTxId = t.recievedTxId → Ascending next :=
    fun list id => ⟨list ▸ inv.ordered, list ▸ id ▸ inv.passed, list ▸ id ▸ inv.reached⟩
  cases step with
  | wait | retry => exact inv
  | start pc | enter pc | leave pc | receive _ _ _ _ pc | ignore _ _ _ pc | discard _ pc =>
      exact same (by simp [RecieveThread.adds, pc]) rfl
  | add tx batch pc => exact same (by simp [RecieveThread.adds, pc]) rfl
  | quit tx pc fresh other => exact absurd (writes tx pc) other
  | accept tx pc fresh write =>
      obtain ⟨ordered, passed, _⟩ := inv
      simp only [RecieveThread.adds, pc, List.append_nil] at ordered passed
      have below : ∀ w ∈ t.added, w.id.toNat < tx.id.toNat := by
        intro w member
        have low := passed w member
        omega
      refine ⟨?_, fun w member => ?_, .inr ⟨tx.wire, by simp [RecieveThread.adds], rfl⟩⟩
      · simp only [RecieveThread.adds, List.pairwise_append, List.pairwise_singleton, List.mem_singleton]
        refine ⟨ordered, trivial, fun a member b same => ?_⟩
        subst same
        exact below a member
      · simp only [RecieveThread.adds, List.mem_append, List.mem_singleton] at member ⊢
        rcases member with old | rfl
        · exact Int.ofNat_le.mpr (Nat.le_of_lt (below w old))
        · exact Int.le_refl _

theorem ascending_reachable (p : Deployment) (writeRate : Nat) (d : Database)
    (reachable : (database p writeRate).Reachable d) (r c : Nat) (connection : p.IsConnection r c) :
    Ascending (d.intake.conn (r, c)).recieve := by
  induction reachable with
  | init => exact ⟨List.Pairwise.nil, fun w none => (by cases none), .inl rfl⟩
  | step d next act before taken ih =>
      have inv := (database_inv_reachable p writeRate d before).conns r c connection
      rcases database_recieve_step p writeRate d next act r c taken with same | ⟨inner, sent, step, _⟩
      · rw [same]
        exact ih
      · exact ascending_step _ _ sent r c _ _ inner (fun tx acked => (inv.hands tx (.inl acked)).write) ih step

theorem taken_of_adds (t : RecieveThread) (w : WireTx) (member : w ∈ t.added ++ t.adds) : w ∈ t.taken := by
  refine List.mem_append.mpr ((List.mem_append.mp member).imp_right fun last => ?_)
  cases pc : t.pc with
  | adding tx =>
      rw [hands_adding t tx pc]
      simpa [RecieveThread.adds, pc] using last
  | barrier | loop | receiving | acked | returned => simp [RecieveThread.adds, pc] at last

theorem settled_taken (t : RecieveThread) (id : Nat) (ascending : Ascending t) (settled : Settled t id) :
    ∃ w ∈ t.taken, id ≤ w.id.toNat := by
  have passed : (id : Int) ≤ t.recievedTxId → ∃ w ∈ t.taken, id ≤ w.id.toNat := by
    intro old
    rcases ascending.reached with none | ⟨w, member, same⟩
    · omega
    · exact ⟨w, taken_of_adds t w member, by omega⟩
  rcases settled with old | ⟨tx, acked, rfl⟩
  · exact passed old
  · by_cases fresh : t.recievedTxId < tx.id.toNat
    · refine ⟨tx.wire, ?_, Nat.le_refl _⟩
      simp [RecieveThread.taken, RecieveThread.hands, acked, fresh]
    · exact passed (Int.not_lt.mp fresh)

theorem taken_ordered (t : RecieveThread) (ascending : Ascending t) :
    t.taken.Pairwise (fun a b => a.id.toNat < b.id.toNat) := by
  obtain ⟨ordered, passed, _⟩ := ascending
  unfold RecieveThread.taken
  cases pc : t.pc with
  | adding tx =>
      rw [hands_adding t tx pc]
      simpa [RecieveThread.adds, pc] using ordered
  | acked tx =>
      simp only [RecieveThread.adds, pc, List.append_nil] at ordered passed
      simp only [RecieveThread.hands, pc]
      split
      · rename_i fresh
        refine List.pairwise_append.mpr ⟨ordered, List.pairwise_singleton _ _, fun a member b last => ?_⟩
        rw [List.mem_singleton.mp last]
        have low := passed a member
        exact Int.ofNat_lt.mp (Int.lt_of_le_of_lt low fresh)
      · simpa using ordered
  | barrier | loop | receiving | returned => simpa [RecieveThread.hands, RecieveThread.adds, pc] using ordered

structure Untaken (work : List WireTx) (conn : Connection) : Prop where
  waiting : conn.client.pc = .waiting
  write : conn.client.sendTx.type = .writeOnly
  last : conn.client.submitted = conn.recieve.taken ++ [conn.client.sendTx.wire]
  down : conn.toClient.pending = []
  none : conn.thread.pc ≠ .returned → work = []
  unraised : conn.thread.pc.idle = false → Unraised conn.thread

structure InFlight (work : List WireTx) (conn : Connection) : Prop where
  up : conn.toServer.pending = []
  carried : conn.thread.pc.idle = false → work ≠ [] ∨ conn.thread.raised ≠ []

structure AllTaken (flag : Int) (work : List WireTx) (conn : Connection) : Prop where
  all : conn.recieve.taken = conn.client.submitted
  flight : flag ≠ 1 → conn.client.pc = .waiting → conn.client.sendTx.type = .writeOnly → InFlight work conn

-- `work` is the flow of the connection.
structure Accounted (flag : Int) (work : List WireTx) (conn : Connection) : Prop where
  current : conn.client.pc = .waiting → conn.client.sendTx.type = .writeOnly →
    ∃ earlier, conn.client.submitted = earlier ++ [conn.client.sendTx.wire]
  account : AllTaken flag work conn ∨ Untaken work conn

theorem accounted_initial (p : Deployment) (flag : Int) (work : List WireTx) (r c : Nat) :
    Accounted flag work ((Intake.initial p).conn (r, c)) := by
  refine ⟨fun waiting => ?_, .inl ⟨rfl, fun _ waiting => ?_⟩⟩ <;> cases waiting

theorem accounted_client (flag : Int) (writeRate r c : Nat) (work : List WireTx) (conn next : Connection)
    (act : ClientTime.Act) (inv : ConnectionInv flag r c conn)
    (between : conn.thread.pc = .loop ∨ conn.thread.pc = .receiving → work = []) (accounted : Accounted flag work conn)
    (step : ClientStep writeRate r c conn act next) : Accounted flag work next := by
  have all : conn.client.pc = .choosing → conn.recieve.taken = conn.client.submitted := by
    intro pc
    rcases accounted.account with taken | untaken
    · exact taken.all
    · rw [untaken.waiting] at pc
      cases pc
  cases step with
  | request typeRand keyRand sendTx pc chosen =>
      by_cases write : sendTx.type = .writeOnly
      · refine ⟨fun _ _ => ⟨conn.client.submitted, if_pos write⟩, .inr ?_⟩
        cases inv.turn with
        | choosing _ up down idle =>
            refine ⟨rfl, write, ?_, down, fun stays => between ?_, fun busy => ?_⟩
            · simp only [if_pos write, all pc]
            · cases rests : conn.thread.pc <;> simp_all [ClientThreadPc.idle]
            · simp only [idle] at busy
              cases busy
        | requesting _ other | serving other | answered _ other | finishing _ other | finished other =>
            rw [pc] at other
            cases other
      · exact ⟨fun _ same => absurd same write, .inl ⟨by simp only [if_neg write, all pc], fun _ _ same => absurd same write⟩⟩
  | receive data msg len rest recvTx pc took =>
      refine ⟨fun waiting => (by cases waiting), .inl ⟨?_, fun _ waiting => (by cases waiting)⟩⟩
      rcases accounted.account with taken | untaken
      · exact taken.all
      · have pending := Fifo.try_take_pending conn.toClient rest (data, len) took
        rw [untaken.down] at pending
        cases pending
  | finish pc => exact ⟨fun waiting => (by cases waiting), .inl ⟨all pc, fun _ waiting => (by cases waiting)⟩⟩

theorem accounted_thread (flag : Int) (net sent : List Packet) (r c : Nat) (work : List WireTx) (conn next : Connection)
    (act : ClientInterface.Act) (answers : Answers flag conn.thread) (accounted : Accounted flag work conn)
    (step : ThreadStep flag net r c conn act next sent) : Accounted flag work next := by
  obtain ⟨current, taken | untaken⟩ := accounted
  · have moves : ∀ t : ClientThread, (t.pc.idle = false → conn.thread.pc.idle = false) → t.raised = conn.thread.raised →
        Accounted flag work { conn with thread := t } := by
      refine fun t busy raised => ⟨current, .inl ⟨taken.all, fun live waiting write => ?_⟩⟩
      obtain ⟨up, carried⟩ := taken.flight live waiting write
      refine ⟨up, fun works => ?_⟩
      simp only [raised]
      exact carried (busy works)
    cases step with
    | enter pc | leave pc => exact moves _ (fun busy => (by cases busy)) rfl
    | receive data recvMsg len rest tx pc took | ignore data recvMsg len rest pc took =>
        have before := Fifo.try_take_pending conn.toServer rest (data, len) took
        refine ⟨current, .inl ⟨taken.all, fun live waiting write => ?_⟩⟩
        have up := (taken.flight live waiting write).up
        rw [before] at up
        cases up
    | requestRead pc | requestWrite _ _ pc | giveUp pc | send pc | check pc | checkFinish pc | acknowledge _ _ _ _ pc
    | poll _ _ _ pc | pollNothing _ pc | complete pc | abandon pc =>
        exact moves _ (fun _ => by rw [pc]; rfl) rfl
    | spin => exact ⟨current, .inl taken⟩
    | respond pc running =>
        exact ⟨current, .inl ⟨taken.all, fun live waiting write =>
          ⟨(taken.flight live waiting write).up, fun busy => (by cases busy)⟩⟩⟩
  · have moves : ∀ (t : ClientThread) (up : Fifo (Buf × Nat)), conn.thread.pc ≠ .returned →
        (t.pc.idle = false → Unraised t) → Accounted flag work { conn with toServer := up, thread := t } :=
      fun t up stays unraised => ⟨current, .inr ⟨untaken.waiting, untaken.write, untaken.last, untaken.down,
        fun _ => untaken.none stays, unraised⟩⟩
    have busy : conn.thread.pc.idle = false → conn.thread.tx.completeFlag = 0 ∧ conn.thread.raised = [] :=
      fun busy => ⟨(untaken.unraised busy).complete, (untaken.unraised busy).raised⟩
    cases step with
    | enter pc | leave pc | abandon pc | ignore _ _ _ _ pc => exact moves _ _ (by simp [pc]) (fun busy => (by cases busy))
    | receive data recvMsg len rest tx pc took filled request decoded =>
        exact moves _ rest (by simp [pc]) (fun _ => ⟨decoded ▸ decoded_complete requestTxLayout recvMsg, rfl⟩)
    | requestRead pc | requestWrite _ _ pc | giveUp pc | send pc | check pc | checkFinish pc | acknowledge _ _ _ _ pc
    | poll _ _ _ pc | pollNothing _ pc | complete pc =>
        obtain ⟨complete, raised⟩ := busy (by rw [pc]; rfl)
        exact moves _ conn.toServer (by simp [pc]) (fun _ => ⟨complete, raised⟩)
    | spin => exact ⟨current, .inr untaken⟩
    | respond pc running => exact absurd (busy (by rw [pc]; rfl)).1 (answers.respond pc running)

structure TakesNew (flag : Int) (r c : Nat) (conn : Connection) (t : RecieveThread) (w : WireTx) : Prop where
  added : t.added = conn.recieve.added
  before : conn.recieve.hands = []
  hands : t.hands = [w]
  submitted : Submitted r c conn.client w
  unsettled : ¬ Settled conn.recieve w.id.toNat
  outstanding : Outstanding flag conn.thread w

theorem recieve_takes (flag masterFlag : Int) (net sent : List Packet) (r c : Nat) (conn : Connection) (t : RecieveThread)
    (act : RecieveAct) (kind : ∀ batch, act ≠ .add batch) (inv : ConnectionInv flag r c conn)
    (packets : ∀ packet ∈ net, packet.dst = .recieveTx r c → PacketOf flag r c conn packet)
    (step : RecieveStep masterFlag net r c conn.recieve act t sent) :
    (t.added = conn.recieve.added ∧ t.hands = conn.recieve.hands) ∨ ∃ w, TakesNew flag r c conn t w := by
  cases step with
  | wait => exact .inl ⟨rfl, rfl⟩
  | start pc | enter pc | leave pc | ignore _ _ _ pc => exact .inl ⟨rfl, by simp [RecieveThread.hands, pc]⟩
  | receive i packet recvMsg tx pc found dst filled add decoded =>
      obtain ⟨_, submitted, current⟩ := delivered_add flag r c conn packet _ recvMsg tx
        (packets packet (List.mem_of_getElem? found) dst) dst filled decoded
      have before : conn.recieve.hands = [] := hands_of_idle conn.recieve (by simp [pc]) (by simp [pc])
      by_cases fresh : conn.recieve.recievedTxId < tx.id.toNat
      · have unsettled : ¬ Settled conn.recieve tx.wire.id.toNat := by
          rintro (old | ⟨other, acked, _⟩)
          · exact absurd old (Int.not_le.mpr fresh)
          · rw [pc] at acked
            cases acked
        exact .inr ⟨tx.wire, rfl, before, by simp [RecieveThread.hands, fresh], submitted, unsettled,
          current.resolve_left unsettled⟩
      · exact .inl ⟨rfl, by rw [before]; simp [RecieveThread.hands, fresh]⟩
  | discard tx pc old => exact .inl ⟨rfl, by simp [RecieveThread.hands, pc, Int.not_lt.mpr old]⟩
  | accept tx pc fresh write => exact .inl ⟨rfl, by simp [RecieveThread.hands, pc, fresh]⟩
  | quit tx pc fresh other => exact absurd (inv.hands tx (.inl pc)).write other
  | retry _ batch | add _ batch => exact absurd rfl (kind batch)

theorem add_takes (flag : Int) (net sent : List Packet) (r c : Nat) (t next : RecieveThread) (batch : Batch)
    (step : RecieveStep flag net r c t (.add batch) next sent) : next.taken = t.taken := by
  cases step with
  | retry => rfl
  | add tx batch pc room => simp [RecieveThread.taken, RecieveThread.hands, pc]

theorem new_not_taken (flag : Int) (r c : Nat) (conn : Connection) (t : RecieveThread) (w : WireTx)
    (ascending : Ascending conn.recieve) (new : TakesNew flag r c conn t w) : w ∉ conn.recieve.taken := by
  rw [RecieveThread.taken, new.before, List.append_nil]
  intro member
  exact new.unsettled (.inl (ascending.passed w (List.mem_append_left _ member)))

theorem accounted_same (flag : Int) (work : List WireTx) (conn : Connection) (t : RecieveThread)
    (same : t.taken = conn.recieve.taken) (accounted : Accounted flag work conn) :
    Accounted flag work { conn with recieve := t } := by
  refine ⟨accounted.current, accounted.account.imp (fun taken => ⟨same.trans taken.all, fun live waiting write => ?_⟩)
    fun untaken => ?_⟩
  · obtain ⟨up, carried⟩ := taken.flight live waiting write
    exact ⟨up, carried⟩
  · exact ⟨untaken.waiting, untaken.write, by simp only [same, untaken.last], untaken.down, untaken.none, untaken.unraised⟩

theorem accounted_recieve (flag masterFlag : Int) (net sent : List Packet) (r c : Nat) (rest : List WireTx)
    (conn : Connection) (t : RecieveThread) (act : RecieveAct) (kind : ∀ batch, act ≠ .add batch)
    (inv : ConnectionInv flag r c conn) (ascending : Ascending conn.recieve)
    (packets : ∀ packet ∈ net, packet.dst = .recieveTx r c → PacketOf flag r c conn packet)
    (step : RecieveStep masterFlag net r c conn.recieve act t sent)
    (accounted : Accounted flag (rest ++ conn.recieve.hands) conn) :
    Accounted flag (rest ++ t.hands) { conn with recieve := t } := by
  rcases recieve_takes flag masterFlag net sent r c conn t act kind inv packets step with ⟨added, hands⟩ | ⟨w, new⟩
  · rw [hands]
    exact accounted_same flag _ conn t (by rw [RecieveThread.taken, RecieveThread.taken, added, hands]) accounted
  · have fresh := new_not_taken flag r c conn t w ascending new
    have member := new.submitted.member
    refine ⟨accounted.current, .inl ⟨?_, fun live _ _ => ⟨?_, fun _ => .inl ?_⟩⟩⟩
    · rcases accounted.account with taken | untaken
      · rw [← taken.all] at member
        exact absurd member fresh
      · rw [untaken.last, List.mem_append, List.mem_singleton] at member
        rw [untaken.last, ← member.resolve_left fresh, RecieveThread.taken, RecieveThread.taken, new.added, new.hands,
          new.before, List.append_nil]
    · obtain ⟨_, _, retransmits | ⟨finish, _⟩⟩ := new.outstanding
      · have busy : conn.thread.pc.idle = false := by
          cases pc : conn.thread.pc <;> simp_all [ClientThreadPc.retransmits, ClientThreadPc.idle]
        exact (turn_serving conn inv.turn busy).2.1
      · exact absurd finish live
    · simp [new.hands]

theorem accounted_touch (flag : Int) (before after : List WireTx) (conn : Connection) (act : TxAct)
    (flight : before ≠ [] ∨ conn.thread.raised ≠ [] → after ≠ [] ∨ (waitForTx conn.thread act).raised ≠ [])
    (quiet : Untaken before conn → (conn.thread.pc ≠ .returned → after = []) ∧
      (conn.thread.pc.idle = false → Unraised (waitForTx conn.thread act)))
    (accounted : Accounted flag before conn) : Accounted flag after { conn with thread := waitForTx conn.thread act } := by
  have pc : (waitForTx conn.thread act).pc = conn.thread.pc := by cases act <;> rfl
  refine ⟨accounted.current, accounted.account.imp (fun taken => ⟨taken.all, fun live waiting write => ?_⟩)
    fun untaken => ?_⟩
  · obtain ⟨up, carried⟩ := taken.flight live waiting write
    exact ⟨up, fun works => flight (carried (pc ▸ works))⟩
  · obtain ⟨none, unraised⟩ := quiet untaken
    exact ⟨untaken.waiting, untaken.write, untaken.last, untaken.down, pc ▸ none, pc ▸ unraised⟩

theorem unfinished_added (p : Deployment) (d : Database) (replicas : Replicas) (flag : Int) (q e : Nat) (tx : Tx)
    (recieve : RecieveThread) (sent : List Packet) (nodes : NodesInv p d.replicas) (r : Nat) (node : p.IsNode r)
    (pc : (d.intake.conn (q, e)).recieve.pc = .adding tx)
    (step : RecieveStep (d.intake.flag 0) d.intake.net q e (d.intake.conn (q, e)).recieve
      (.add d.replicas.sequencers.master.batch) recieve sent)
    (moved : Replicas.step p d.replicas (flag, .sequencers (.addWriteTx tx)) = some replicas) :
    ∃ more, (more = [] ∨ more = [tx.wire]) ∧ more ++ recieve.hands = (d.intake.conn (q, e)).recieve.hands ∧
      replicas.unfinished r = d.replicas.unfinished r ++ more := by
  obtain ⟨exec, _, queue, outcome⟩ := placed_added p d.replicas replicas flag tx moved
  obtain ⟨more, values, placed, hands, _⟩ := add_write_outcome _ d.intake.net sent q e _ recieve tx _ _ _ pc outcome step
  have bound := (executed_placed p d.replicas r nodes.sequencers nodes.replicas node).length_le
  refine ⟨more, values, hands, ?_⟩
  simp only [Replicas.unfinished, Replicas.executedBy, exec, queue, placed] at bound ⊢
  rw [List.drop_append_of_le_length bound, List.append_assoc]

theorem own_work_kept (p : Deployment) (writeRate : Nat) (d next : Database) (act : DatabaseAct) (r c : Nat)
    (reachable : (database p writeRate).Reachable d) (connection : p.IsConnection r c)
    (taken : Database.step p writeRate d act = some next) (other : act ≠ .addWriteTx r c)
    (quiet : ∀ batch i, act = .raise r → (d.replicas.exec r).writePc ≠ .raising batch i c) :
    (next.replicas.unfinished r).filter (mine r c) = (d.replicas.unfinished r).filter (mine r c) := by
  have later := Machine.Reachable.step d next act reachable taken
  have inv := database_inv_reachable p writeRate d reachable
  have before := database_nodes_inv p writeRate d reachable
  have after := database_nodes_inv p writeRate next later
  have node := connection_node p r c connection
  have live := reports_live _ _ r ((database_inv_reachable p writeRate next later).reports r node)
  have moves : ∀ (flag : Int) (inner : ReplicasAct), (∀ tx, inner ≠ .sequencers (.addWriteTx tx)) →
      (inner = .write r .raise → ∀ w ∈ (d.replicas.exec r).writePc.reporting, mine r c w = false) →
      Replicas.step p d.replicas (flag, inner) = some next.replicas →
      (next.replicas.unfinished r).filter (mine r c) = (d.replicas.unfinished r).filter (mine r c) := by
    intro flag inner kind reported moved
    exact work_filter d.replicas next.replicas r c inner (work_step p d.replicas next.replicas flag inner r
      after.sequencers before.replicas after.replicas node live kind moved).2 reported
  cases database_step_cases p writeRate d next act taken with
  | start | finish | client | thread | recieve => rfl
  | addWriteTx q e tx recieve sent replicas elsewhere running pc step moved =>
      obtain ⟨more, values, _, work⟩ := unfinished_added p d replicas _ q e tx recieve sent before r node pc step moved
      have issued := ((inv.conns q e elsewhere).hands tx (.inr pc)).issued
      rw [work, List.filter_append, filter_mine q e r c tx.wire more issued values, if_neg, List.append_nil]
      intro same
      cases same
      exact other rfl
  | sequencers act replicas kind moved =>
      exact moves _ _ (fun tx same => kind tx (ReplicasAct.sequencers.inj same)) (fun no => (by cases no)) moved
  | takeBatch q replicas moved | writeLoop q replicas moved | write q replicas moved | readLoop q replicas moved
  | takeRead q replicas moved => exact moves _ _ (by simp) (fun no => (by cases no)) moved
  | fetch q i batch tx replicas pc found moved => exact moves _ _ (by simp) (fun no => (by cases no)) moved
  | assign q i e batch replicas pc moved => exact moves _ _ (by simp) (fun no => (by cases no)) moved
  | readOut q e replicas pc out moved => exact moves _ _ (by simp) (fun no => (by cases no)) moved
  | read q e value replicas pc found moved => exact moves _ _ (by simp) (fun no => (by cases no)) moved
  | raiseRead q e replicas pc moved => exact moves _ _ (by simp) (fun no => (by cases no)) moved
  | raise q i e batch replicas pc moved =>
      refine moves _ _ (by simp) (fun same w member => ?_) moved
      cases same
      obtain ⟨tx, _, _, client, report⟩ := reported_tx d.replicas d.intake.conn r e i batch (inv.reports r node) (.inl pc)
      rw [report] at member
      cases List.mem_singleton.mp member
      rw [Bool.eq_false_iff, Ne, mine_iff]
      rintro ⟨_, own⟩
      have same : tx.clientId.toInt = c := own
      obtain rfl : e = c := Int.ofNat_inj.mp (client.symm.trans same)
      exact quiet batch i rfl pc

def Database.Accounted (r c : Nat) (d : Database) : Prop :=
  EpochReplication.Accounted (d.intake.flag r) (flow r c (d.replicas.unfinished r) (d.intake.conn (r, c)).recieve)
    (d.intake.conn (r, c))

theorem accounted_flag (before after : Int) (work : List WireTx) (conn : Connection) (live : after ≠ 1 → before ≠ 1)
    (accounted : Accounted before work conn) : Accounted after work conn :=
  ⟨accounted.current, accounted.account.imp_left fun taken => ⟨taken.all, fun running => taken.flight (live running)⟩⟩

theorem accounted_add (p : Deployment) (writeRate : Nat) (d next : Database) (r c : Nat)
    (reachable : (database p writeRate).Reachable d) (connection : p.IsConnection r c)
    (taken : Database.step p writeRate d (.addWriteTx r c) = some next) (accounted : d.Accounted r c) :
    EpochReplication.Accounted (d.intake.flag r) (flow r c (next.replicas.unfinished r) (next.intake.conn (r, c)).recieve)
      (next.intake.conn (r, c)) := by
  have inv := database_inv_reachable p writeRate d reachable
  have nodes := database_nodes_inv p writeRate d reachable
  cases database_step_cases p writeRate d next _ taken with
  | addWriteTx _ _ tx recieve sent replicas _ running pc step moved =>
      obtain ⟨more, values, hands, work⟩ := unfinished_added p d replicas _ r c tx recieve sent nodes r
        (connection_node p r c connection) pc step moved
      have issued := ((inv.conns r c connection).hands tx (.inr pc)).issued
      have same : flow r c (replicas.unfinished r) recieve =
          flow r c (d.replicas.unfinished r) (d.intake.conn (r, c)).recieve := by
        rw [flow, flow, work, List.filter_append, filter_mine r c r c tx.wire more issued values, if_pos rfl,
          List.append_assoc, hands]
      simp only [Function.update_self, same]
      exact accounted_same _ _ _ recieve (add_takes _ d.intake.net sent r c _ recieve _ step) accounted

theorem raised_waits (p : Deployment) (d : Database) (r c : Nat) (inv : DatabaseInv p d) (connection : p.IsConnection r c)
    (pc : (d.replicas.exec r).readPc = .raising c) (busy : (d.intake.conn (r, c)).thread.pc.idle = false) :
    (d.intake.conn (r, c)).client.sendTx.type = .readOnly := by
  have reader : c ∈ d.readers r := by simp [Database.readers, pc, ReadPc.pointer]
  obtain ⟨_, _, _, same⟩ := turn_serving _ (inv.conns r c connection).turn busy
  exact (congrArg WireTx.type same.request).symm.trans ((inv.reads r).waits c reader).2.kind

theorem accounted_step (p : Deployment) (writeRate : Nat) (d next : Database) (act : DatabaseAct) (r c : Nat)
    (reachable : (database p writeRate).Reachable d) (connection : p.IsConnection r c)
    (taken : Database.step p writeRate d act = some next) (accounted : d.Accounted r c) : next.Accounted r c := by
  have inv := database_inv_reachable p writeRate d reachable
  have conn_inv := inv.conns r c connection
  have flag : next.intake.flag r ≠ 1 → d.intake.flag r ≠ 1 := by
    rcases database_flag_step p writeRate d next act r taken with same | one | ⟨_, was, _⟩
    · rw [same]
      exact id
    · exact fun live => absurd one live
    · exact fun _ => was
  refine accounted_flag _ _ _ _ flag ?_
  by_cases adds : act = .addWriteTx r c
  · subst adds
    exact accounted_add p writeRate d next r c reachable connection taken accounted
  have kept := own_work_kept p writeRate d next act r c reachable connection taken adds
  unfold Database.Accounted at accounted
  cases database_conn_step p writeRate d next act r c taken with
  | same act other quiet conn =>
      rw [conn, flow, kept fun batch i same pc => ?_]
      · exact accounted
      · subst same
        exact quiet _ (.raise batch i pc)
  | client act after _ step conn =>
      have same : after.recieve = (d.intake.conn (r, c)).recieve := by cases step <;> rfl
      rw [conn, flow, kept (by simp), same]
      exact accounted_client _ writeRate r c _ _ after act conn_inv
        (fun between => stage_between _ _ _ _ c _ _ between (inv.stages r c connection)) accounted step
  | thread act after sent _ step conn =>
      have same : after.recieve = (d.intake.conn (r, c)).recieve := by cases step <;> rfl
      rw [conn, flow, kept (by simp), same]
      exact accounted_thread _ d.intake.net sent r c _ _ after act (inv.answers r c connection) accounted step
  | recieve act inner recieve sent from_ step conn =>
      obtain rfl := from_.resolve_right fun add => adds add.1
      have kind : ∀ batch, inner ≠ .add batch := by
        rintro batch rfl
        simp [Database.step] at taken
      rw [conn, flow, kept (by simp)]
      exact accounted_recieve _ _ d.intake.net sent r c _ _ recieve inner kind conn_inv
        (ascending_reachable p writeRate d reachable r c connection) (packets_of_recieve p d r c inv) step accounted
  | touch act tx touches conn =>
      rw [conn]
      cases touches with
      | raise batch i pc =>
          obtain ⟨_, rest, _, _, work⟩ := reported_waits p d r c i batch connection inv (.inl pc)
          have moving : (d.intake.conn (r, c)).thread.pc ≠ .returned → ¬ Untaken _ (d.intake.conn (r, c)) :=
            fun stays untaken => List.cons_ne_nil _ rest (work.symm.trans (untaken.none stays))
          refine accounted_touch _ _ _ _ _ (fun _ => .inr ?_) (fun untaken => ⟨fun stays => ?_, fun busy => ?_⟩) accounted
          · simp [waitForTx]
          · exact absurd untaken (moving stays)
          · refine absurd untaken (moving fun gone => ?_)
            rw [gone] at busy
            cases busy
      | assign batch i pc | value value pc found =>
          rw [flow, kept (by simp)]
          refine accounted_touch _ _ _ _ _ id (fun untaken => ⟨untaken.none, fun busy => ?_⟩) accounted
          obtain ⟨complete, raised⟩ := untaken.unraised busy
          exact ⟨complete, raised⟩
      | raiseRead pc =>
          rw [flow, kept (by simp)]
          refine accounted_touch _ _ _ _ _ (Or.imp_right fun raised => ?_) (fun untaken => ⟨untaken.none, fun busy => ?_⟩)
            accounted
          · simpa [waitForTx] using raised
          · have read := raised_waits p d r c inv connection pc busy
            rw [untaken.write] at read
            cases read

theorem accounted_reachable (p : Deployment) (writeRate : Nat) (d : Database) (r c : Nat)
    (reachable : (database p writeRate).Reachable d) (connection : p.IsConnection r c) : d.Accounted r c := by
  induction reachable with
  | init => exact accounted_initial p _ _ r c
  | step d next act before taken ih => exact accounted_step p writeRate d next act r c before connection taken ih

theorem raised_complete (p : Deployment) (writeRate : Nat) (d : Database) (r c : Nat)
    (reachable : (database p writeRate).Reachable d) (raised : (d.intake.conn (r, c)).thread.raised ≠ []) :
    (d.intake.conn (r, c)).thread.tx.completeFlag ≠ 0 := by
  induction reachable with
  | init => exact absurd rfl raised
  | step d next act before taken ih =>
      cases database_conn_step p writeRate d next act r c taken with
      | same act other quiet conn | recieve act inner recieve sent from_ step conn =>
          rw [conn] at raised ⊢
          exact ih raised
      | client act after _ step conn =>
          have same : after.thread = (d.intake.conn (r, c)).thread := by cases step <;> rfl
          rw [conn, same] at raised ⊢
          exact ih raised
      | thread act after sent _ step conn =>
          rw [conn] at raised ⊢
          cases step with
          | receive => exact absurd rfl raised
          | _ => exact ih raised
      | touch act tx touches conn =>
          rw [conn] at raised ⊢
          cases tx with
          | assign | value => exact ih raised
          | raise => simp [waitForTx, raiseTxCompleteFlag]

theorem applied_grown (d next : Database) (r k i : Nat) (w : WireTx) (grown : Grown r d next)
    (applied : Applied d.replicas r k i w) : Applied next.replicas r k i w := by
  obtain ⟨⟨batch, tx, found, there, same⟩, executed⟩ := applied
  have inside := (List.getElem?_eq_some_iff.mp found).1
  have taken : next.replicas.sequencers.master.confirmed.take k = d.replicas.sequencers.master.confirmed.take k := by
    obtain ⟨rest, equal⟩ := grown.confirmed
    rw [← equal, List.take_append_of_le_length (by omega)]
  refine ⟨⟨batch, tx, found_grown _ _ k batch grown.confirmed found, there, same⟩, ?_⟩
  rw [taken]
  obtain ⟨rest, equal⟩ := grown.executed
  rw [← equal]
  exact List.getElem?_append_left (List.getElem?_eq_some_iff.mp executed).1 ▸ executed

structure SubmittedApplied (r c : Nat) (d : Database) : Prop where
  write : ∀ w ∈ (d.intake.conn (r, c)).client.submitted, w.type = .writeOnly
  applied : ∀ w ∈ (d.intake.conn (r, c)).client.submitted,
    (d.intake.conn (r, c)).client.pc = .waiting ∧ w = (d.intake.conn (r, c)).client.sendTx.wire ∨
      ∃ k i, Applied d.replicas r k i w

theorem submitted_applied_kept (d next : Database) (r c : Nat) (grown : Grown r d next)
    (client : (next.intake.conn (r, c)).client = (d.intake.conn (r, c)).client) (before : SubmittedApplied r c d) :
    SubmittedApplied r c next := by
  refine ⟨by rw [client]; exact before.write, fun w member => ?_⟩
  rw [client] at member ⊢
  refine (before.applied w member).imp_right fun done => ?_
  obtain ⟨k, i, applied⟩ := done
  exact ⟨k, i, applied_grown d next r k i w grown applied⟩

theorem submitted_applied_step (p : Deployment) (writeRate : Nat) (run : List (Database × DatabaseAct)) (d next : Database)
    (act : DatabaseAct) (r c : Nat) (connection : p.IsConnection r c) (trace : (database p writeRate).Trace run d)
    (taken : Database.step p writeRate d act = some next) (before : SubmittedApplied r c d) :
    SubmittedApplied r c next := by
  have reachable := Machine.trace_reachable _ run d trace
  have grown := grown_step p writeRate d next act r (connection_node p r c connection) reachable taken
  cases database_conn_step p writeRate d next act r c taken with
  | same act other quiet conn =>
      exact submitted_applied_kept d next r c grown (by rw [conn]) before
  | thread act after sent _ step conn =>
      exact submitted_applied_kept d next r c grown (by rw [conn]; cases step <;> rfl) before
  | recieve act inner recieve sent from_ step conn | touch act tx touches conn =>
      exact submitted_applied_kept d next r c grown (by rw [conn]) before
  | client act after _ step conn =>
      have old : (d.intake.conn (r, c)).client.pc = .choosing → ∀ w ∈ (d.intake.conn (r, c)).client.submitted,
          ∃ k i, Applied next.replicas r k i w := by
        intro pc w member
        rcases before.applied w member with ⟨waiting, _⟩ | ⟨k, i, applied⟩
        · rw [pc] at waiting
          cases waiting
        · exact ⟨k, i, applied_grown d next r k i w grown applied⟩
      cases step with
      | request typeRand keyRand sendTx pc chosen =>
          by_cases write : sendTx.type = .writeOnly
          · refine ⟨fun w member => ?_, fun w member => ?_⟩
            · rw [conn] at member
              simp only [if_pos write] at member
              rcases List.mem_append.mp member with inside | last
              · exact before.write w inside
              · rw [List.mem_singleton.mp last]
                exact write
            · rw [conn] at member ⊢
              simp only [if_pos write] at member ⊢
              rcases List.mem_append.mp member with inside | last
              · exact .inr (old pc w inside)
              · exact .inl ⟨trivial, List.mem_singleton.mp last⟩
          · refine ⟨fun w member => ?_, fun w member => ?_⟩
            · rw [conn] at member
              simp only [if_neg write] at member
              exact before.write w member
            · rw [conn] at member ⊢
              simp only [if_neg write] at member ⊢
              exact .inr (old pc w member)
      | receive data msg len rest recvTx pc took =>
          refine ⟨fun w member => ?_, fun w member => .inr ?_⟩
          · rw [conn] at member
            exact before.write w member
          · rw [conn] at member
            rcases before.applied w member with ⟨_, same⟩ | ⟨k, i, applied⟩
            · have kind : w.type = .writeOnly := before.write w member
              rw [same] at kind
              obtain ⟨k, i, _, applied⟩ := write_applied p writeRate run d next next r c connection trace taken kind
                (.step d next (.client r c .receive) reachable taken) grown
              exact ⟨k, i, same ▸ applied⟩
            · exact ⟨k, i, applied_grown d next r k i w grown applied⟩
      | finish pc =>
          refine ⟨fun w member => ?_, fun w member => .inr ?_⟩
          · rw [conn] at member
            exact before.write w member
          · rw [conn] at member
            exact old pc w member

theorem submitted_applied_reachable (p : Deployment) (writeRate : Nat) (d : Database) (r c : Nat)
    (reachable : (database p writeRate).Reachable d) (connection : p.IsConnection r c) : SubmittedApplied r c d := by
  obtain ⟨run, trace⟩ := Machine.reachable_trace (database p writeRate) d reachable
  induction trace with
  | init => exact ⟨by simp [database, Database.initial, Intake.initial], by simp [database, Database.initial, Intake.initial]⟩
  | step run d next act before taken ih =>
      exact submitted_applied_step p writeRate run d next act r c connection before taken
        (ih (Machine.trace_reachable _ run d before))

end EpochReplication
