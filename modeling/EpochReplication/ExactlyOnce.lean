import EpochReplication.Accounted
import EpochReplication.ReadProgress

set_option autoImplicit false

namespace EpochReplication

def ClientThreadPc.asks : ClientThreadPc → Bool
  | .registering | .sending | .waitingAck | .polling => true
  | _ => false

structure AllAcked (conn : Connection) : Prop where
  all : conn.thread.acknowledged = conn.client.submitted
  rests : conn.client.pc = .waiting → conn.client.sendTx.type = .writeOnly →
    conn.toServer.pending = [] ∧ conn.thread.pc.asks = false

structure Unacked (flag : Int) (conn : Connection) : Prop where
  waiting : conn.client.pc = .waiting
  write : conn.client.sendTx.type = .writeOnly
  last : conn.client.submitted = conn.thread.acknowledged ++ [conn.client.sendTx.wire]
  down : conn.toClient.pending = []
  waits : conn.thread.pc.completes = true → flag = 1

structure Acked (flag : Int) (conn : Connection) : Prop where
  small : ∀ w ∈ conn.thread.acknowledged, w.id.toNat < 32768
  account : AllAcked conn ∨ Unacked flag conn

theorem acked_client (flag : Int) (writeRate r c : Nat) (conn next : Connection) (act : ClientTime.Act)
    (inv : ConnectionInv flag r c conn) (acked : Acked flag conn) (step : ClientStep writeRate r c conn act next) :
    Acked flag next := by
  obtain ⟨small, account⟩ := acked
  have all : conn.client.pc = .choosing → conn.thread.acknowledged = conn.client.submitted := by
    intro pc
    rcases account with acked | unacked
    · exact acked.all
    · rw [unacked.waiting] at pc
      cases pc
  cases step with
  | request typeRand keyRand sendTx pc chosen =>
      by_cases write : sendTx.type = .writeOnly
      · refine ⟨small, .inr ?_⟩
        cases inv.turn with
        | choosing _ up down idle =>
            refine ⟨rfl, write, ?_, down, fun completes => ?_⟩
            · simp only [if_pos write, all pc]
            · rw [(idle_rests conn.thread.pc idle).2] at completes
              cases completes
        | requesting _ other | serving other | answered _ other | finishing _ other | finished other =>
            rw [pc] at other
            cases other
      · exact ⟨small, .inl ⟨by simp only [if_neg write, all pc], fun _ same => absurd same write⟩⟩
  | receive data msg len rest recvTx pc took =>
      refine ⟨small, .inl ⟨?_, fun waiting => (by cases waiting)⟩⟩
      rcases account with acked | unacked
      · exact acked.all
      · have pending := Fifo.try_take_pending conn.toClient rest (data, len) took
        rw [unacked.down] at pending
        cases pending
  | finish pc => exact ⟨small, .inl ⟨all pc, fun waiting => (by cases waiting)⟩⟩

theorem polling_current (flag : Int) (r c : Nat) (conn : Connection) (inv : ConnectionInv flag r c conn)
    (pc : conn.thread.pc = .polling) :
    conn.client.pc = .waiting ∧ conn.client.sendTx.type = .writeOnly ∧ conn.toServer.pending = [] ∧
      conn.thread.tx.wire = conn.client.sendTx.wire := by
  obtain ⟨waiting, up, _, same⟩ := turn_serving conn inv.turn (by rw [pc]; rfl)
  have write : conn.thread.tx.type = .writeOnly := inv.writes (by rw [pc]; exact .inr rfl)
  have type : conn.client.sendTx.type = .writeOnly := (congrArg WireTx.type same.request).symm.trans write
  exact ⟨waiting, type, up, same.write type⟩

theorem all_acked_rests (flag : Int) (r c : Nat) (conn : Connection) (inv : ConnectionInv flag r c conn)
    (all : AllAcked conn) : conn.thread.pc ≠ .polling := by
  intro pc
  obtain ⟨waiting, write, _⟩ := polling_current flag r c conn inv pc
  have rests := (all.rests waiting write).2
  rw [pc] at rests
  cases rests

theorem acked_thread (flag : Int) (net sent : List Packet) (r c : Nat) (conn next : Connection) (act : ClientInterface.Act)
    (inv : ConnectionInv flag r c conn)
    (packets : ∀ packet ∈ net, packet.dst = .clientThread r c → PacketOf flag r c conn packet)
    (acked : Acked flag conn) (step : ThreadStep flag net r c conn act next sent) : Acked flag next := by
  obtain ⟨small, all | unacked⟩ := acked
  · have moves : ∀ (t : ClientThread) (down : Fifo (Buf × Nat)), (t.pc.asks = true → conn.thread.pc.asks = true) →
        t.acknowledged = conn.thread.acknowledged → Acked flag { conn with toClient := down, thread := t } := by
      refine fun t down asks same => ⟨by simp only [same]; exact small, .inl ⟨same.trans all.all, fun waiting write => ?_⟩⟩
      obtain ⟨up, rests⟩ := all.rests waiting write
      exact ⟨up, Bool.eq_false_iff.mpr fun now => Bool.eq_false_iff.mp rests (asks now)⟩
    cases step with
    | enter | leave | requestRead | giveUp | complete | abandon | respond => exact moves _ _ (fun no => (by cases no)) rfl
    | requestWrite _ _ pc | send pc | check pc | checkFinish pc | poll _ _ _ pc | pollNothing _ pc =>
        exact moves _ conn.toClient (fun _ => by rw [pc]; rfl) rfl
    | receive data recvMsg len rest tx pc took | ignore data recvMsg len rest pc took =>
        refine ⟨small, .inl ⟨all.all, fun waiting write => ?_⟩⟩
        have pending := Fifo.try_take_pending conn.toServer rest (data, len) took
        rw [(all.rests waiting write).1] at pending
        cases pending
    | spin => exact ⟨small, .inl all⟩
    | acknowledge i overtime packet ackMsg pc => exact absurd pc (all_acked_rests flag r c conn inv all)
  · have moves : ∀ (t : ClientThread) (up : Fifo (Buf × Nat)),
        t.pc.completes = false ∨ flag = 1 ∨ conn.thread.pc.completes = true →
        t.acknowledged = conn.thread.acknowledged → Acked flag { conn with toServer := up, thread := t } := by
      refine fun t up way same => ⟨by simp only [same]; exact small, .inr ⟨unacked.waiting, unacked.write,
        by simp only [same]; exact unacked.last, unacked.down, fun completes => ?_⟩⟩
      rcases way with no | finish | still
      · rw [completes] at no
        cases no
      · exact finish
      · exact unacked.waits still
    cases step with
    | enter | leave | ignore | requestWrite | send | check | checkFinish => exact moves _ _ (.inl rfl) rfl
    | receive data recvMsg len rest tx pc took filled request decoded =>
        refine moves _ rest (.inl ?_) rfl
        subst filled
        obtain ⟨_, _, _, ⟨_, wire⟩ | ⟨gone, _⟩⟩ :=
          received_request_of_turn conn inv.turn pc data conn.thread.recvMsg len rest took
        · have type : tx.type = .writeOnly := by
            rw [decoded]
            exact (congrArg WireTx.type wire).trans unacked.write
          simp [type, ClientInterface.afterRequest, ClientThreadPc.completes]
        · rw [unacked.waiting] at gone
          cases gone
    | requestRead pc =>
        obtain ⟨_, _, _, same⟩ := turn_serving conn inv.turn (by rw [pc]; rfl)
        have read := (congrArg WireTx.type same.request).symm.trans (inv.reads pc)
        rw [show conn.client.sendTx.wire.type = .writeOnly from unacked.write] at read
        cases read
    | giveUp pc finish => exact moves _ _ (.inr (.inl finish)) rfl
    | poll _ overtime _ pc | pollNothing overtime pc => exact moves _ _ (.inl (after_poll_retransmits overtime).2) rfl
    | spin => exact ⟨small, .inr unacked⟩
    | complete pc | abandon pc => exact moves _ _ (.inr (.inr (by rw [pc]; rfl))) rfl
    | acknowledge i overtime packet ackMsg pc found dst filled ends =>
        subst filled
        have low := (ack_settles flag r c conn packet inv pc dst (packets packet (List.mem_of_getElem? found) dst) ends).2
        obtain ⟨_, _, up, wire⟩ := polling_current flag r c conn inv pc
        refine ⟨fun w member => ?_, .inl ⟨?_, fun _ _ => ⟨up, rfl⟩⟩⟩
        · rcases List.mem_append.mp member with old | last
          · exact small w old
          · rw [List.mem_singleton.mp last]
            exact low
        · simp only [unacked.last, wire]
    | respond pc running => exact absurd (unacked.waits (by rw [pc]; rfl)) running

theorem acked_reachable (p : Deployment) (writeRate : Nat) (d : Database) (r c : Nat)
    (reachable : (database p writeRate).Reachable d) (connection : p.IsConnection r c) :
    Acked (d.intake.flag r) (d.intake.conn (r, c)) := by
  induction reachable with
  | init => exact ⟨by simp [database, Database.initial, Intake.initial], .inl ⟨rfl, fun waiting => (by cases waiting)⟩⟩
  | step d next act before taken ih =>
      have inv := database_inv_reachable p writeRate d before
      have kept := inv.conns r c connection
      have after : Acked (d.intake.flag r) (next.intake.conn (r, c)) := by
        cases database_conn_step p writeRate d next act r c taken with
        | same act other quiet conn =>
            rw [conn]
            exact ih
        | client act after _ step conn =>
            rw [conn]
            exact acked_client _ writeRate r c _ after act kept ih step
        | thread act after sent _ step conn =>
            rw [conn]
            exact acked_thread _ d.intake.net sent r c _ after act kept (packets_of_thread p d r c inv) ih step
        | recieve act inner recieve sent from_ step conn =>
            rw [conn]
            exact ⟨ih.small, ih.account.imp (fun all => ⟨all.all, all.rests⟩)
              fun un => ⟨un.waiting, un.write, un.last, un.down, un.waits⟩⟩
        | touch act tx touches conn =>
            rw [conn]
            cases tx <;> exact ⟨ih.small, ih.account.imp (fun all => ⟨all.all, all.rests⟩)
              fun un => ⟨un.waiting, un.write, un.last, un.down, un.waits⟩⟩
      rcases database_flag_step p writeRate d next act r taken with same | one | ⟨master, _⟩
      · rw [same]
        exact after
      · rw [one]
        exact ⟨after.small, after.account.imp_right fun un => ⟨un.waiting, un.write, un.last, un.down, fun _ => rfl⟩⟩
      · exact absurd master (connection_not_master p r c connection)

theorem placed_step (p : Deployment) (writeRate : Nat) (d next : Database) (act : DatabaseAct) (r c : Nat)
    (reachable : (database p writeRate).Reachable d) (taken : Database.step p writeRate d act = some next)
    (own : d.replicas.sequencers.master.placed.filter (mine r c) = (d.intake.conn (r, c)).recieve.added) :
    next.replicas.sequencers.master.placed.filter (mine r c) = (next.intake.conn (r, c)).recieve.added := by
  have same : next.replicas.sequencers.master.placed = d.replicas.sequencers.master.placed →
      (next.intake.conn (r, c)).recieve.added = (d.intake.conn (r, c)).recieve.added →
      next.replicas.sequencers.master.placed.filter (mine r c) = (next.intake.conn (r, c)).recieve.added := by
    intro placed added
    rw [placed, added]
    exact own
  have update : ∀ (q e : Nat) (conn : Connection), conn.recieve.added = (d.intake.conn (q, e)).recieve.added →
      (Function.update d.intake.conn (q, e) conn (r, c)).recieve.added = (d.intake.conn (r, c)).recieve.added :=
    fun q e conn added => update_view (fun conn => conn.recieve.added) d.intake.conn q e r c conn added
  have inner : ∀ (replicas : Replicas) (flag : Int) (act : ReplicasAct),
      (∀ tx, act ≠ .sequencers (.addWriteTx tx)) →
      Replicas.step p d.replicas (flag, act) = some replicas →
      replicas.sequencers.master.placed = d.replicas.sequencers.master.placed :=
    fun replicas flag act kind moved => replicas_placed_kept p d.replicas replicas flag act kind moved
  cases database_step_cases p writeRate d next act taken with
  | start | finish => exact own
  | client q e act conn unrelated step =>
      refine same rfl (update q e conn ?_)
      cases step <;> rfl
  | thread q e act conn sent unrelated running step =>
      refine same rfl (update q e conn ?_)
      cases step <;> rfl
  | recieve q e act recieve sent kind unrelated running step =>
      refine same rfl (update q e _ ?_)
      cases step with
      | retry _ batch | add _ batch => exact absurd rfl (kind batch)
      | _ => rfl
  | addWriteTx q e tx recieve sent replicas other running pc step moved =>
      obtain ⟨_, _, _, outcome⟩ := placed_added p d.replicas replicas _ tx moved
      obtain ⟨more, values, placed, _, added⟩ :=
        add_write_outcome _ d.intake.net sent q e _ recieve tx _ _ _ pc outcome step
      have inv := database_inv_reachable p writeRate d reachable
      have issued := ((inv.conns q e other).hands tx (.inr pc)).issued
      rw [placed, List.filter_append, own, filter_mine q e r c tx.wire more issued values]
      by_cases here : (r, c) = (q, e)
      · cases here
        simp only [if_pos, Function.update_self, added]
      · simp only [if_neg here, Function.update_of_ne here, List.append_nil]
  | sequencers act replicas kind moved =>
      exact same (inner replicas _ _ (fun tx add => kind tx (ReplicasAct.sequencers.inj add)) moved) rfl
  | takeBatch q replicas moved | writeLoop q replicas moved | write q replicas moved
  | fetch q i batch tx replicas pc found moved | readLoop q replicas moved | readOut q e replicas pc out moved =>
      exact same (inner replicas _ _ (fun tx add => (by cases add)) moved) rfl
  | takeRead q replicas moved =>
      refine same (inner replicas _ _ (fun tx add => (by cases add)) moved) ?_
      unfold Intake.takeRead
      split <;> rfl
  | assign q i e batch replicas pc moved | raise q i e batch replicas pc moved =>
      exact same (inner replicas _ _ (fun tx add => (by cases add)) moved) (update q e _ rfl)
  | read q e value replicas pc found moved =>
      exact same (inner replicas _ _ (fun tx add => (by cases add)) moved) (update q e _ rfl)
  | raiseRead q e replicas pc moved =>
      exact same (inner replicas _ _ (fun tx add => (by cases add)) moved) (update q e _ rfl)

theorem placed_of_client (p : Deployment) (writeRate : Nat) (d : Database) (reachable : (database p writeRate).Reachable d)
    (r c : Nat) : d.replicas.sequencers.master.placed.filter (mine r c) =
      (d.intake.conn (r, c)).recieve.added := by
  induction reachable with
  | init =>
      simp [database, Database.initial, Replicas.initial, Sequencers.initial, Master.placed, EpochPc.swapped, Batch.wire,
        Intake.initial]
  | step d next act before taken ih => exact placed_step p writeRate d next act r c before taken ih

def Connection.ShutOut (conn : Connection) : Prop := conn.recieve.taken.length < conn.thread.acknowledged.length

-- The ids are 16 bits wide. This step accepts an ACK for an id that is not above
-- those of the earlier writes of the client.
def Database.acksOldId (r c : Nat) (d : Database) : DatabaseAct → Bool
  | .thread q e (.poll i _) =>
      match d.intake.net[i]? with
      | none => false
      | some packet =>
          let conn := d.intake.conn (r, c)
          (q, e) == (r, c) && endsRetransmission conn.thread.tx (receiveMsg conn.thread.ackMsg packet.data packet.len) &&
            conn.client.submitted.dropLast.any (fun w => conn.thread.tx.id.toNat ≤ w.id.toNat)
  | _ => false

theorem acks_old_id_thread (r c : Nat) (d : Database) (act : DatabaseAct) (acks : d.acksOldId r c act = true) :
    ∃ i overtime, act = .thread r c (.poll i overtime) := by
  unfold Database.acksOldId at acks
  split at acks
  · rename_i q e i overtime
    split at acks
    · cases acks
    · simp only [Bool.and_eq_true, beq_iff_eq] at acks
      cases acks.1.1
      exact ⟨i, overtime, rfl⟩
  · cases acks

theorem acks_old_id_poll (r c i : Nat) (overtime : Bool) (d : Database) (packet : Packet)
    (found : d.intake.net[i]? = some packet) : d.acksOldId r c (.thread r c (.poll i overtime)) = true ↔
      endsRetransmission (d.intake.conn (r, c)).thread.tx
          (receiveMsg (d.intake.conn (r, c)).thread.ackMsg packet.data packet.len) = true ∧
        ∃ w ∈ (d.intake.conn (r, c)).client.submitted.dropLast,
          (d.intake.conn (r, c)).thread.tx.id.toNat ≤ w.id.toNat := by
  simp [Database.acksOldId, found]

theorem shut_out_waits (flag : Int) (work : List WireTx) (r c : Nat) (conn : Connection) (inv : ConnectionInv flag r c conn)
    (accounted : Accounted flag work conn) (acked : Acked flag conn) (shut : conn.ShutOut) :
    conn.client.submitted = conn.recieve.taken ++ [conn.client.sendTx.wire] ∧
      Settled conn.recieve conn.client.sendTx.id.toNat := by
  unfold Connection.ShutOut at shut
  rcases accounted.account with taken | untaken
  · exfalso
    rw [taken.all] at shut
    rcases acked.account with all | un
    · rw [all.all] at shut
      exact Nat.lt_irrefl _ shut
    · have last := congrArg List.length un.last
      rw [List.length_append, List.length_singleton] at last
      omega
  · refine ⟨untaken.last, ?_⟩
    rcases acked.account with all | un
    · refine (inv.acknowledged conn.client.sendTx.wire ?_).2
      rw [all.all, untaken.last]
      exact List.mem_append_right _ (List.mem_singleton_self _)
    · have same := congrArg List.length (un.last.symm.trans untaken.last)
      simp only [List.length_append, List.length_singleton] at same
      omega

theorem unacked_open (flag : Int) (work : List WireTx) (r c : Nat) (conn : Connection) (inv : ConnectionInv flag r c conn)
    (accounted : Accounted flag work conn) (acked : Acked flag conn) (un : Unacked flag conn) : ¬ conn.ShutOut := by
  intro shut
  have last := un.last.symm.trans (shut_out_waits flag work r c conn inv accounted acked shut).1
  have length := congrArg List.length last
  simp only [List.length_append, List.length_singleton] at length
  rw [Connection.ShutOut] at shut
  omega

theorem new_write_open (flag : Int) (work : List WireTx) (r c : Nat) (conn : Connection) (t : RecieveThread) (w : WireTx)
    (inv : ConnectionInv flag r c conn) (ascending : Ascending conn.recieve) (accounted : Accounted flag work conn)
    (acked : Acked flag conn) (new : TakesNew flag r c conn t w) : ¬ conn.ShutOut := by
  intro shut
  obtain ⟨last, settled⟩ := shut_out_waits flag work r c conn inv accounted acked shut
  have member := new.submitted.member
  rw [last, List.mem_append, List.mem_singleton] at member
  have own := member.resolve_left (new_not_taken flag r c conn t w ascending new)
  exact new.unsettled (own ▸ settled)

theorem shut_out_recieve (flag masterFlag : Int) (net sent : List Packet) (r c : Nat) (work : List WireTx)
    (conn : Connection) (t : RecieveThread) (act : RecieveAct) (inv : ConnectionInv flag r c conn)
    (ascending : Ascending conn.recieve) (accounted : Accounted flag work conn) (acked : Acked flag conn)
    (packets : ∀ packet ∈ net, packet.dst = .recieveTx r c → PacketOf flag r c conn packet)
    (step : RecieveStep masterFlag net r c conn.recieve act t sent) :
    Connection.ShutOut { conn with recieve := t } ↔ conn.ShutOut := by
  have same : t.taken = conn.recieve.taken → (Connection.ShutOut { conn with recieve := t } ↔ conn.ShutOut) := by
    intro takes
    rw [Connection.ShutOut, Connection.ShutOut, takes]
  by_cases adds : ∃ batch, act = .add batch
  · obtain ⟨batch, rfl⟩ := adds
    exact same (add_takes masterFlag net sent r c conn.recieve t batch step)
  · rcases recieve_takes flag masterFlag net sent r c conn t act (fun batch add => adds ⟨batch, add⟩) inv packets step with
      ⟨added, hands⟩ | ⟨w, new⟩
    · exact same (by rw [RecieveThread.taken, RecieveThread.taken, added, hands])
    · have before := new_write_open flag work r c conn t w inv ascending accounted acked new
      refine iff_of_false ?_ before
      have longer : t.taken.length = conn.recieve.taken.length + 1 := by
        simp [RecieveThread.taken, new.added, new.before, new.hands]
      rw [Connection.ShutOut] at before ⊢
      simp only [longer]
      omega

theorem acknowledge_shuts_out (flag : Int) (work : List WireTx) (r c : Nat) (conn : Connection)
    (inv : ConnectionInv flag r c conn) (ascending : Ascending conn.recieve) (accounted : Accounted flag work conn)
    (un : Unacked flag conn) (pc : conn.thread.pc = .polling) (settled : Settled conn.recieve conn.thread.tx.id.toNat) :
    conn.recieve.taken.length < conn.thread.acknowledged.length + 1 ↔
      ∃ w ∈ conn.client.submitted.dropLast, conn.thread.tx.id.toNat ≤ w.id.toNat := by
  obtain ⟨_, _, _, wire⟩ := polling_current flag r c conn inv pc
  have id : conn.thread.tx.id = conn.client.sendTx.id := congrArg WireTx.id wire
  have earlier : conn.client.submitted.dropLast = conn.thread.acknowledged := by rw [un.last, List.dropLast_concat]
  rw [earlier]
  rcases accounted.account with taken | untaken
  · -- the ids of what has been let through ascend
    have ordered := taken_ordered conn.recieve ascending
    rw [taken.all, un.last] at ordered
    have length : conn.recieve.taken.length = conn.thread.acknowledged.length + 1 := by
      rw [taken.all, un.last, List.length_append, List.length_singleton]
    refine ⟨fun short => by omega, fun old => ?_⟩
    obtain ⟨w, member, le⟩ := old
    have less := (List.pairwise_append.mp ordered).2.2 w member _ (List.mem_singleton_self _)
    have same : conn.client.sendTx.wire.id = conn.thread.tx.id := id.symm
    rw [same] at less
    omega
  · have taken : conn.recieve.taken = conn.thread.acknowledged :=
      List.append_cancel_right (untaken.last.symm.trans un.last)
    rw [← taken]
    exact ⟨fun _ => settled_taken conn.recieve _ ascending settled, fun _ => Nat.lt_succ_self _⟩

theorem shut_out_step (p : Deployment) (writeRate : Nat) (d next : Database) (act : DatabaseAct) (r c : Nat)
    (reachable : (database p writeRate).Reachable d) (connection : p.IsConnection r c)
    (taken : Database.step p writeRate d act = some next) :
    (next.intake.conn (r, c)).ShutOut ↔ (d.intake.conn (r, c)).ShutOut ∨ d.acksOldId r c act = true := by
  have inv := database_inv_reachable p writeRate d reachable
  have kept := inv.conns r c connection
  have ascending := ascending_reachable p writeRate d reachable r c connection
  have accounted := accounted_reachable p writeRate d r c reachable connection
  have acked := acked_reachable p writeRate d r c reachable connection
  have not_old : (∀ own, act ≠ .thread r c own) → ¬ d.acksOldId r c act = true := by
    intro other old
    obtain ⟨i, overtime, poll⟩ := acks_old_id_thread r c d act old
    exact other _ poll
  have same : (∀ own, act ≠ .thread r c own) →
      (next.intake.conn (r, c)).recieve.taken = (d.intake.conn (r, c)).recieve.taken →
      (next.intake.conn (r, c)).thread.acknowledged = (d.intake.conn (r, c)).thread.acknowledged →
      ((next.intake.conn (r, c)).ShutOut ↔ (d.intake.conn (r, c)).ShutOut ∨ d.acksOldId r c act = true) := by
    intro other takes acks
    rw [Connection.ShutOut, Connection.ShutOut, takes, acks]
    exact (or_iff_left (not_old other)).symm
  cases database_conn_step p writeRate d next act r c taken with
  | same act other quiet conn still => exact same still (by rw [conn]) (by rw [conn])
  | client act after _ step conn =>
      refine same (by simp) ?_ ?_ <;> rw [conn] <;> cases step <;> rfl
  | touch act tx touches conn =>
      refine same (by rintro own rfl; cases touches) ?_ ?_
      · rw [conn]
      · rw [conn]
        cases tx <;> rfl
  | recieve act inner recieve sent from_ step conn =>
      have other : ∀ own, act ≠ .thread r c own := by
        rintro own rfl
        rcases from_ with no | ⟨no, _⟩ <;> cases no
      rw [conn, shut_out_recieve _ _ d.intake.net sent r c _ _ recieve inner kept ascending accounted acked
        (packets_of_recieve p d r c inv) step]
      exact (or_iff_left (not_old other)).symm
  | thread act after sent _ step conn =>
      have moves : after.recieve = (d.intake.conn (r, c)).recieve →
          after.thread.acknowledged = (d.intake.conn (r, c)).thread.acknowledged →
          ¬ d.acksOldId r c (.thread r c act) = true →
          ((next.intake.conn (r, c)).ShutOut ↔
            (d.intake.conn (r, c)).ShutOut ∨ d.acksOldId r c (.thread r c act) = true) := by
        intro takes acks quiet
        rw [Connection.ShutOut, Connection.ShutOut, conn, takes, acks]
        exact (or_iff_left quiet).symm
      cases step with
      | enter | leave | receive | ignore | requestRead | requestWrite | giveUp | send | check | checkFinish | pollNothing
      | spin | complete | abandon | respond => exact moves rfl rfl (by simp [Database.acksOldId])
      | poll i overtime ackMsg pc packet found filled other =>
          refine moves rfl rfl fun old => ?_
          obtain ⟨ends, _⟩ := (acks_old_id_poll r c i overtime d packet found).mp old
          rw [← filled, other] at ends
          cases ends
      | acknowledge i overtime packet ackMsg pc found dst filled ends =>
          subst filled
          have settled := (ack_settles _ r c _ packet kept pc dst
            (packets_of_thread p d r c inv packet (List.mem_of_getElem? found) dst) ends).1
          have un := acked.account.resolve_left fun all => all_acked_rests _ r c _ kept all pc
          have before := unacked_open _ _ r c _ kept accounted acked un
          rw [Connection.ShutOut, conn, acks_old_id_poll r c i overtime d packet found]
          simp only [List.length_append, List.length_singleton, before, false_or, ends, true_and]
          exact acknowledge_shuts_out _ _ r c _ kept ascending accounted un pc settled

theorem shut_out_iff (p : Deployment) (writeRate : Nat) (run : List (Database × DatabaseAct)) (d : Database) (r c : Nat)
    (trace : (database p writeRate).Trace run d) (connection : p.IsConnection r c) :
    (d.intake.conn (r, c)).ShutOut ↔ ∃ x ∈ run, x.1.acksOldId r c x.2 = true := by
  induction trace with
  | init => simp [Connection.ShutOut, database, Database.initial, Intake.initial]
  | step run d next act before taken ih =>
      have reachable := Machine.trace_reachable _ run d before
      rw [shut_out_step p writeRate d next act r c reachable connection taken, ih]
      simp only [List.mem_append, List.mem_singleton, or_and_right, exists_or, exists_eq_left]

structure AddedOnce (d : Database) (r c : Nat) : Prop where
  batched : d.replicas.sequencers.master.placed.filter (mine r c) = (d.intake.conn (r, c)).recieve.added
  ordered : (d.intake.conn (r, c)).recieve.added <+: (d.intake.conn (r, c)).client.submitted
  once : (d.intake.conn (r, c)).recieve.added.Nodup
  acknowledged : (d.intake.conn (r, c)).thread.acknowledged <+:
    (d.intake.conn (r, c)).recieve.added ++ (d.intake.conn (r, c)).recieve.hands

theorem added_once_of_open (p : Deployment) (writeRate : Nat) (d : Database) (r c : Nat)
    (reachable : (database p writeRate).Reachable d) (connection : p.IsConnection r c) :
    AddedOnce d r c ↔ ¬ (d.intake.conn (r, c)).ShutOut := by
  have accounted := accounted_reachable p writeRate d r c reachable connection
  have acked := acked_reachable p writeRate d r c reachable connection
  have ordered := (ascending_reachable p writeRate d reachable r c connection).ordered
  refine ⟨fun once => Nat.not_lt.mpr once.acknowledged.length_le, fun open_ => ?_⟩
  refine ⟨placed_of_client p writeRate d reachable r c, ?_, ?_, ?_⟩
  · refine (List.prefix_append _ (d.intake.conn (r, c)).recieve.hands).trans ?_
    rcases accounted.account with taken | untaken
    · exact taken.all ▸ List.prefix_refl _
    · rw [untaken.last]
      exact List.prefix_append _ _
  · refine (List.pairwise_append.mp ordered).1.imp fun less same => ?_
    rw [same] at less
    exact Nat.lt_irrefl _ less
  · rw [Connection.ShutOut, Nat.not_lt] at open_
    have whole : (d.intake.conn (r, c)).thread.acknowledged <+: (d.intake.conn (r, c)).client.submitted := by
      rcases acked.account with all | un
      · exact all.all ▸ List.prefix_refl _
      · rw [un.last]
        exact List.prefix_append _ _
    have part : (d.intake.conn (r, c)).recieve.taken <+: (d.intake.conn (r, c)).client.submitted := by
      rcases accounted.account with taken | untaken
      · exact taken.all ▸ List.prefix_refl _
      · rw [untaken.last]
        exact List.prefix_append _ _
    exact List.prefix_of_prefix_length_le whole part open_

theorem writes_added_once_iff (p : Deployment) (writeRate : Nat) (run : List (Database × DatabaseAct)) (d : Database)
    (r c : Nat) (trace : (database p writeRate).Trace run d) (connection : p.IsConnection r c) :
    AddedOnce d r c ↔ ∀ x ∈ run, x.1.acksOldId r c x.2 = false := by
  rw [added_once_of_open p writeRate d r c (Machine.trace_reachable _ run d trace) connection,
    shut_out_iff p writeRate run d r c trace connection]
  simp

-- Client 0 of replica 1 asks for a write. The ADD_TO_BATCH is sent twice, the
-- first copy is answered, and the ACK arrives before the write is in a batch.
def firstAcknowledged : List DatabaseAct :=
  let buf : Buf := fun _ => 0
  [.start, .client 1 0 (.request 0 5), .thread 1 0 .loop, .thread 1 0 .receive, .thread 1 0 (.requestWrite buf buf),
    .thread 1 0 .send, .thread 1 0 .check, .thread 1 0 (.pollNothing true), .thread 1 0 .send, .recieve 1 0 .barrier,
    .recieve 1 0 .loop, .recieve 1 0 (.receive 0), .thread 1 0 .check, .thread 1 0 (.poll 2 false)]

def afterFirstAcknowledged : Option Database :=
  (database (configuration .proposedMethod) ClientTime.writeRate).exec (Database.initial (configuration .proposedMethod))
    firstAcknowledged

theorem writes_added_once_iff_first_write : ∃ run d, afterFirstAcknowledged = some d ∧
    (database (configuration .proposedMethod) ClientTime.writeRate).Trace run d ∧
    (d.intake.conn (1, 0)).thread.acknowledged.length = 1 ∧
    (AddedOnce d 1 0 ↔ ∀ x ∈ run, x.1.acksOldId 1 0 x.2 = false) := by
  have ends : afterFirstAcknowledged.map (fun d => (d.intake.conn (1, 0)).thread.acknowledged.length) = some 1 := by
    decide +kernel
  obtain ⟨d, ran, count⟩ := Option.map_eq_some_iff.mp ends
  obtain ⟨run, trace, _⟩ := Machine.trace_exec _ [] firstAcknowledged _ d .init ran
  exact ⟨_, d, ran, trace, count, writes_added_once_iff (configuration .proposedMethod) ClientTime.writeRate _ d 1 0 trace
    (by decide)⟩

-- Client 0 of replica 1 has asked for one write, which had the id 0, and for
-- nothing but reads since. Half of the transactions are writes here.
structure OneWrite (n : Nat) (d : Database) : Prop where
  reachable : (database (configuration .proposedMethod) 50).Reachable d
  flag : d.intake.flag 1 = 0
  running : d.running 1 = true
  choosing : (d.intake.conn (1, 0)).client.pc = .choosing
  number : (d.intake.conn (1, 0)).client.txId = n
  asked : (d.intake.conn (1, 0)).client.submitted.length = 1
  ack : ∃ (i : Nat) (old : Buf), d.intake.net[i]? =
    some ⟨.recieveTx 1 0, .clientThread 1 0, (createAckAddMsg 1 0 0 old).1, ackAddMessageSize⟩

theorem one_write_first : ∃ d, OneWrite 1 d := by
  have ends : (afterActs (firstAnswered ++ [.client 1 0 .receive])).map (fun d =>
      ((d.intake.flag 1, d.running 1), ((d.intake.conn (1, 0)).client.pc, (d.intake.conn (1, 0)).client.txId,
        (d.intake.conn (1, 0)).client.submitted.map WireTx.id), d.intake.net[1]?.map Packet.dst)) =
      some ((0, true), (.choosing, 1, [0]), some (.clientThread 1 0)) := by
    decide +kernel
  obtain ⟨d, ran, ends⟩ := Option.map_eq_some_iff.mp ends
  simp only [Prod.mk.injEq, Option.map_eq_some_iff] at ends
  obtain ⟨⟨flag, running⟩, ⟨choosing, number, ids⟩, packet, found, dst⟩ := ends
  have reachable := Machine.reachable_exec (database (configuration .proposedMethod) 50) _ _ d .init ran
  have connection : (configuration .proposedMethod).IsConnection 1 0 := by decide
  refine ⟨d, reachable, flag, running, choosing, number, by simpa using congrArg List.length ids, 1, ?_⟩
  cases packets_of_thread _ d 1 0 (database_inv_reachable _ _ d reachable) packet (List.mem_of_getElem? found) dst with
  | add => cases dst
  | ack id buf settled =>
      obtain ⟨w, member, le⟩ := settled_taken _ _ (ascending_reachable _ _ d reachable 1 0 connection) settled
      have asked : w ∈ (d.intake.conn (1, 0)).client.submitted := by
        rcases (accounted_reachable _ _ d 1 0 reachable connection).account with taken | untaken
        · exact taken.all ▸ member
        · exact untaken.last ▸ List.mem_append_left _ member
      have zero : w.id = 0 := by simpa [ids] using List.mem_map_of_mem (f := WireTx.id) asked
      obtain rfl : id = 0 := UInt16.toNat.inj (by simpa [zero] using le)
      exact ⟨buf, found⟩

theorem client_asks (p : Deployment) (writeRate : Nat) (d : Database) (r c typeRand keyRand : Nat)
    (connection : p.IsConnection r c) (choosing : (d.intake.conn (r, c)).client.pc = .choosing) : ∃ asked,
      Database.step p writeRate d (.client r c (.request typeRand keyRand)) = some asked ∧
        asked.replicas = d.replicas ∧ asked.intake.flag = d.intake.flag ∧ asked.intake.net = d.intake.net ∧
        ClientStep writeRate r c (d.intake.conn (r, c)) (.request typeRand keyRand) (asked.intake.conn (r, c)) := by
  obtain ⟨conn, done⟩ : ∃ conn, ClientTime.clientThread writeRate r c (d.intake.conn (r, c))
      (.request typeRand keyRand) = some conn := by
    simp only [ClientTime.clientThread, choosing]
    exact ⟨_, rfl⟩
  refine ⟨{ d with intake := { d.intake with conn := Function.update d.intake.conn (r, c) conn } }, ?_, rfl, rfl, rfl, ?_⟩
  · simp only [Database.step, if_pos connection, Intake.clientStep, done, Option.map_some]
  · simp only [Function.update_self]
    exact client_step_of_some writeRate r c _ conn _ done

theorem one_write_asks (n : Nat) (d : Database) (typeRand keyRand : Nat) (one : OneWrite n d) : ∃ asked,
    Alive (configuration .proposedMethod) 50 1 0 (asked.intake.conn (1, 0)).client asked ∧
      asked.intake.net = d.intake.net ∧
      ClientStep 50 1 0 (d.intake.conn (1, 0)) (.request typeRand keyRand) (asked.intake.conn (1, 0)) := by
  have connection : (configuration .proposedMethod).IsConnection 1 0 := by decide
  obtain ⟨asked, taken, replicas, flags, net, step⟩ :=
    client_asks (configuration .proposedMethod) 50 d 1 0 typeRand keyRand connection one.choosing
  refine ⟨asked, ?_, net, step⟩
  refine alive_of_running (configuration .proposedMethod) 50 1 0 asked
    (.step d asked (.client 1 0 (.request typeRand keyRand)) one.reachable taken) connection ?_ ?_
  · rw [flags]
    exact one.flag
  · rw [Database.running, replicas]
    exact one.running

theorem one_write_read (n : Nat) (d : Database) (one : OneWrite n d) : ∃ next, OneWrite (n + 1) next := by
  obtain ⟨i, old, found⟩ := one.ack
  obtain ⟨asked, up, net, step⟩ := one_write_asks n d 60 5 one
  obtain ⟨waiting, read, number, submitted⟩ : (asked.intake.conn (1, 0)).client.pc = .waiting ∧
      (asked.intake.conn (1, 0)).client.sendTx.type = .readOnly ∧ (asked.intake.conn (1, 0)).client.txId = n ∧
      (asked.intake.conn (1, 0)).client.submitted.length = 1 := by
    generalize asked.intake.conn (1, 0) = conn at step
    cases step with
    | request typeRand keyRand sendTx pc chosen =>
        have read : sendTx.type = .readOnly := by
          rw [chosen]
          rfl
        exact ⟨rfl, read, one.number, by simp only [if_neg (show ¬ sendTx.type = .writeOnly by simp [read]), one.asked]⟩
  obtain ⟨e, next, reads, alive, takes⟩ := read_answered (configuration .proposedMethod) 50 1 0 _ asked up waiting read
  have kept : (next.intake.conn (1, 0)).client.submitted = (e.intake.conn (1, 0)).client.submitted ∧
      next.intake.flag = e.intake.flag ∧ next.replicas = e.replicas := by
    cases database_step_cases (configuration .proposedMethod) 50 e next _ takes.taken with
    | client r c act conn connection step =>
        refine ⟨?_, rfl, rfl⟩
        simp only [Function.update_self]
        cases step with
        | receive => rfl
  have grown := (nets_grow_leads _ _ _ asked e reads).packets.trans (nets_grow_step _ _ e next _ takes.taken).packets
  refine ⟨next, .step e next (.client 1 0 .receive) alive.reachable takes.taken, ?_, ?_, takes.choosing, ?_, ?_, i, old, ?_⟩
  · rw [kept.2.1]
    exact alive.flag
  · rw [Database.running, kept.2.2]
    exact alive_running (configuration .proposedMethod) 50 1 0 _ e alive
  · rw [takes.counted, number]
    rfl
  · rw [kept.1, alive.client, submitted]
  · exact found_grown _ _ i _ grown (by rw [net]; exact found)

theorem one_write_reads (n : Nat) : ∃ d, OneWrite (n + 1) d := by
  induction n with
  | zero => exact one_write_first
  | succ n ih =>
      obtain ⟨d, one⟩ := ih
      exact one_write_read (n + 1) d one

theorem reaches_polling (p : Deployment) (writeRate r c : Nat) (client : Client) (d : Database)
    (alive : Alive p writeRate r c client d) (waiting : client.pc = .waiting) (write : client.sendTx.type = .writeOnly)
    (idle : (d.intake.conn (r, c)).thread.pc.idle = true) (up : (d.intake.conn (r, c)).toServer.pending ≠ []) :
    ∃ next, (database p writeRate).Leads (fun _ => True) d next ∧ Alive p writeRate r c client next ∧
      (next.intake.conn (r, c)).thread.pc = .polling := by
  obtain ⟨taken, first, alive, pc, _⟩ :=
    request_taken p writeRate r c client (fun _ => True) (fun _ _ => trivial) d alive waiting idle up
  rw [write] at pc
  obtain ⟨made, second, alive, moved⟩ := thread_moves p writeRate r c client (fun _ => True) taken
    (.requestWrite p.uninitialised p.uninitialised) _ [] trivial alive
    (by simp only [ClientInterface.clientThread, pc, ClientInterface.afterRequest]; rfl)
  obtain ⟨sent, third, alive, after⟩ := thread_moves p writeRate r c client (fun _ => True) made .send _ _ trivial alive
    (by rw [moved.conn]; rfl)
  obtain ⟨next, last, alive, polls⟩ := thread_moves p writeRate r c client (fun _ => True) sent .check _ _ trivial alive
    (by rw [after.conn]; rfl)
  refine ⟨next, Machine.leads_trans _ _ d taken next first (Machine.leads_trans _ _ taken made next second
    (Machine.leads_trans _ _ made sent next third last)), alive, ?_⟩
  rw [polls.conn]

structure AsksAgain (d asked : Database) : Prop where
  alive : Alive (configuration .proposedMethod) 50 1 0 (asked.intake.conn (1, 0)).client asked
  net : asked.intake.net = d.intake.net
  sent : (asked.intake.conn (1, 0)).client.sendTx = ClientTime.requestTx 50 1 0 65536 0 5
  waiting : (asked.intake.conn (1, 0)).client.pc = .waiting
  number : (asked.intake.conn (1, 0)).client.txId = 65536
  submitted : (asked.intake.conn (1, 0)).client.submitted.length = 2
  pending : (asked.intake.conn (1, 0)).toServer.pending ≠ []
  idle : (asked.intake.conn (1, 0)).thread.pc.idle = true

theorem one_write_asks_again (d : Database) (one : OneWrite 65536 d) : ∃ asked, AsksAgain d asked := by
  obtain ⟨asked, alive, net, step⟩ := one_write_asks 65536 d 0 5 one
  have before := (database_inv_reachable _ _ d one.reachable).conns 1 0 alive.connection
  obtain ⟨sent, waiting, number, submitted, pending, idle⟩ :
      (asked.intake.conn (1, 0)).client.sendTx = ClientTime.requestTx 50 1 0 65536 0 5 ∧
      (asked.intake.conn (1, 0)).client.pc = .waiting ∧ (asked.intake.conn (1, 0)).client.txId = 65536 ∧
      (asked.intake.conn (1, 0)).client.submitted.length = 2 ∧ (asked.intake.conn (1, 0)).toServer.pending ≠ [] ∧
      (asked.intake.conn (1, 0)).thread.pc.idle = true := by
    generalize asked.intake.conn (1, 0) = conn at step
    cases step with
    | request typeRand keyRand sendTx pc chosen =>
        rw [one.number] at chosen
        have write : sendTx.type = .writeOnly := by
          rw [chosen]
          rfl
        refine ⟨chosen, rfl, one.number, ?_, by simp, ?_⟩
        · simp only [if_pos write, List.length_append, one.asked, List.length_singleton]
        · cases before.turn with
          | choosing _ _ _ idle => exact idle
          | requesting _ other | serving other | answered _ other | finishing _ other | finished other =>
              rw [pc] at other
              cases other
  exact ⟨asked, alive, net, sent, waiting, number, submitted, pending, idle⟩

theorem writes_added_once_wrapped : ∃ d, (database (configuration .proposedMethod) 50).Reachable d ∧
    (d.intake.conn (1, 0)).client.txId = 65536 ∧ (d.intake.conn (1, 0)).client.submitted.length = 2 ∧
      ¬ AddedOnce d 1 0 := by
  obtain ⟨d, one⟩ := one_write_reads 65535
  obtain ⟨i, old, found⟩ := one.ack
  obtain ⟨asked, alive, net, sent, waiting, number, submitted, pending, idle⟩ := one_write_asks_again d one
  have write : (asked.intake.conn (1, 0)).client.sendTx.type = .writeOnly := by
    rw [sent]
    rfl
  obtain ⟨polls, leads, alive, polling⟩ := reaches_polling (configuration .proposedMethod) 50 1 0 _ asked alive waiting write
    idle pending
  have kept := (database_inv_reachable _ _ polls alive.reachable).conns 1 0 alive.connection
  obtain ⟨_, _, _, wire⟩ := polling_current _ 1 0 _ kept polling
  rw [alive.client, sent] at wire
  have replica : (polls.intake.conn (1, 0)).thread.tx.replicaId = 1 := congrArg WireTx.replicaId wire
  have client : (polls.intake.conn (1, 0)).thread.tx.clientId = 0 := congrArg WireTx.clientId wire
  have id : (polls.intake.conn (1, 0)).thread.tx.id = 0 := congrArg WireTx.id wire
  have arrives := found_grown _ _ i _ (nets_grow_leads _ _ _ asked polls leads).packets (by rw [net]; exact found)
  have ends : endsRetransmission (polls.intake.conn (1, 0)).thread.tx
      (receiveMsg (polls.intake.conn (1, 0)).thread.ackMsg (createAckAddMsg 1 0 0 old).1 ackAddMessageSize) = true := by
    have own := ack_ends_iff (polls.intake.conn (1, 0)).thread.tx 0 old (polls.intake.conn (1, 0)).thread.ackMsg
    rw [replica, client] at own
    exact own.mpr ⟨id.symm, by rw [id]; decide⟩
  obtain ⟨last, taken, after, moved⟩ := thread_taken (configuration .proposedMethod) 50 1 0 _ polls (.poll i false) _ [] alive
    (by simp only [ClientInterface.clientThread, polling, arrives, if_true, ends]; rfl)
  have old : polls.acksOldId 1 0 (.thread 1 0 (.poll i false)) = true := by
    refine (acks_old_id_poll 1 0 i false polls _ arrives).mpr ⟨ends, ?_⟩
    rw [id, alive.client]
    obtain ⟨w, others, same⟩ := List.length_eq_two.mp submitted
    exact ⟨w, by simp [same], Nat.zero_le _⟩
  have same : (last.intake.conn (1, 0)).client = (asked.intake.conn (1, 0)).client := after.client
  refine ⟨last, after.reachable, by rw [same, number], by rw [same, submitted], ?_⟩
  rw [added_once_of_open (configuration .proposedMethod) 50 last 1 0 after.reachable after.connection, not_not]
  exact (shut_out_step (configuration .proposedMethod) 50 polls last _ 1 0 alive.reachable alive.connection taken).mpr
    (.inr old)

end EpochReplication
