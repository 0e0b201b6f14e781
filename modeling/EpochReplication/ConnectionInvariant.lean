import EpochReplication.IntakeSteps

set_option autoImplicit false

namespace EpochReplication

def ClientThreadPc.idle : ClientThreadPc → Bool
  | .loop | .receiving | .returned => true
  | _ => false

def ClientThreadPc.retransmits : ClientThreadPc → Bool
  | .sending | .waitingAck | .polling => true
  | _ => false

def ClientThreadPc.completes : ClientThreadPc → Bool
  | .completing | .responding => true
  | _ => false

theorem idle_rests (pc : ClientThreadPc) (idle : pc.idle = true) : pc.retransmits = false ∧ pc.completes = false := by
  cases pc <;> simp_all [ClientThreadPc.idle, ClientThreadPc.retransmits, ClientThreadPc.completes]

-- A transaction as it was asked for; the value of a read is filled in later.
structure SameRequest (tx asked : WireTx) : Prop where
  request : { tx with value := asked.value } = asked
  write : asked.type = .writeOnly → tx = asked

inductive Turn (conn : Connection) : Prop where
  | choosing (pc : conn.client.pc = .choosing) (up : conn.toServer.pending = []) (down : conn.toClient.pending = [])
      (idle : conn.thread.pc.idle = true) : Turn conn
  | requesting (buf : Buf) (pc : conn.client.pc = .waiting)
      (up : conn.toServer.pending = [((createRequestTxMsg conn.client.sendTx buf).1, requestTxMessageSize)])
      (down : conn.toClient.pending = []) (idle : conn.thread.pc.idle = true) : Turn conn
  | serving (pc : conn.client.pc = .waiting) (up : conn.toServer.pending = []) (down : conn.toClient.pending = [])
      (busy : conn.thread.pc ≠ .loop ∧ conn.thread.pc ≠ .receiving)
      (same : SameRequest conn.thread.tx.wire conn.client.sendTx.wire) : Turn conn
  | answered (message : Buf × Nat) (pc : conn.client.pc = .waiting) (up : conn.toServer.pending = [])
      (down : conn.toClient.pending = [message]) (idle : conn.thread.pc.idle = true) : Turn conn
  | finishing (buf : Buf) (pc : conn.client.pc = .returned)
      (up : conn.toServer.pending = [((createRequestTxMsg modifyFinishRequest buf).1, requestTxMessageSize)])
      (down : conn.toClient.pending = []) (idle : conn.thread.pc.idle = true) : Turn conn
  | finished (pc : conn.client.pc = .returned) (up : conn.toServer.pending = []) (down : conn.toClient.pending = [])
      (gone : conn.thread.pc = .returned) : Turn conn

def Settled (t : RecieveThread) (id : Nat) : Prop :=
  (id : Int) ≤ t.recievedTxId ∨ ∃ tx, t.pc = .acked tx ∧ tx.id.toNat = id

-- The thread of the replica may still have to be answered: it retransmits, or
-- it has left request_write_tx because the system is about to finish.
def Outstanding (systemFinishRequest : Int) (t : ClientThread) (w : WireTx) : Prop :=
  t.tx.wire = w ∧ w.type = .writeOnly ∧
    (t.pc.retransmits = true ∨ systemFinishRequest = 1 ∧ (t.pc.completes = true ∨ t.pc = .returned))

structure IssuedBy (r c : Nat) (w : WireTx) : Prop where
  replica : w.replicaId.toInt = r
  client : w.clientId.toInt = c
  kind : w.type = .writeOnly ∨ w.type = .readOnly
  key : StorageKey w.key

structure Submitted (r c : Nat) (client : Client) (w : WireTx) : Prop where
  issued : IssuedBy r c w
  write : w.type = .writeOnly
  member : w ∈ client.submitted

structure ConnectionInv (systemFinishRequest : Int) (r c : Nat) (conn : Connection) : Prop where
  turn : Turn conn
  issued : conn.client.pc = .waiting → IssuedBy r c conn.client.sendTx.wire ∧
    (conn.client.sendTx.type = .writeOnly → conn.client.sendTx.wire ∈ conn.client.submitted)
  writes : conn.thread.pc = .registering ∨ conn.thread.pc.retransmits = true → conn.thread.tx.type = .writeOnly
  reads : conn.thread.pc = .reading → conn.thread.tx.type = .readOnly
  packed : conn.thread.pc.retransmits = true → conn.thread.addMsgLen = addToBatchMessageSize ∧
    ∃ tx buf, tx.wire = conn.thread.tx.wire ∧ conn.thread.addMsg = (createAddToBatchMsg tx buf).1
  settled : conn.thread.pc.completes = true → conn.thread.tx.type = .writeOnly → systemFinishRequest ≠ 1 →
    Settled conn.recieve conn.thread.tx.id.toNat
  acknowledged : ∀ w ∈ conn.thread.acknowledged, Submitted r c conn.client w ∧ Settled conn.recieve w.id.toNat
  hands : ∀ tx, conn.recieve.pc = .acked tx ∨ conn.recieve.pc = .adding tx → Submitted r c conn.client tx.wire
  adding : ∀ tx, conn.recieve.pc = .adding tx → conn.recieve.recievedTxId = tx.id.toNat
  low : -1 ≤ conn.recieve.recievedTxId

inductive PacketOf (systemFinishRequest : Int) (r c : Nat) (conn : Connection) : Packet → Prop where
  | add (tx : Tx) (buf : Buf) (submitted : Submitted r c conn.client tx.wire)
      (current : Settled conn.recieve tx.id.toNat ∨ Outstanding systemFinishRequest conn.thread tx.wire) :
      PacketOf systemFinishRequest r c conn
        ⟨.clientThread r c, .recieveTx r c, (createAddToBatchMsg tx buf).1, addToBatchMessageSize⟩
  | ack (id : UInt16) (buf : Buf) (settled : Settled conn.recieve id.toNat) :
      PacketOf systemFinishRequest r c conn
        ⟨.recieveTx r c, .clientThread r c, (createAckAddMsg r c id.toNat buf).1, ackAddMessageSize⟩

structure PacketsKept (before after : Int) (conn next : Connection) : Prop where
  submitted : ∀ w ∈ conn.client.submitted, w ∈ next.client.submitted
  settled : ∀ id, Settled conn.recieve id → Settled next.recieve id
  outstanding : ∀ w, Outstanding before conn.thread w → Settled next.recieve w.id.toNat ∨ Outstanding after next.thread w

theorem submitted_kept (before after : Int) (r c : Nat) (conn next : Connection) (w : WireTx)
    (kept : PacketsKept before after conn next) (submitted : Submitted r c conn.client w) : Submitted r c next.client w :=
  ⟨submitted.issued, submitted.write, kept.submitted w submitted.member⟩

theorem packet_kept (before after : Int) (r c : Nat) (conn next : Connection) (packet : Packet)
    (kept : PacketsKept before after conn next) (of : PacketOf before r c conn packet) : PacketOf after r c next packet := by
  cases of with
  | add tx buf submitted current =>
      refine .add tx buf (submitted_kept before after r c conn next tx.wire kept submitted) ?_
      rcases current with settled | outstanding
      · exact .inl (kept.settled _ settled)
      · exact kept.outstanding _ outstanding
  | ack id buf settled => exact .ack id buf (kept.settled _ settled)

theorem turn_serving (conn : Connection) (turn : Turn conn) (busy : conn.thread.pc.idle = false) :
    conn.client.pc = .waiting ∧ conn.toServer.pending = [] ∧ conn.toClient.pending = [] ∧
      SameRequest conn.thread.tx.wire conn.client.sendTx.wire := by
  cases turn with
  | serving pc up down _ same => exact ⟨pc, up, down, same⟩
  | choosing _ _ _ idle | requesting _ _ _ _ idle | answered _ _ _ _ idle | finishing _ _ _ _ idle =>
      rw [idle] at busy
      cases busy
  | finished _ _ _ gone =>
      rw [gone] at busy
      cases busy

theorem turn_busy (conn : Connection) (t : ClientThread) (turn : Turn conn) (busy : conn.thread.pc.idle = false)
    (still : t.pc ≠ .loop ∧ t.pc ≠ .receiving) (same : t.tx = conn.thread.tx) : Turn { conn with thread := t } := by
  obtain ⟨pc, up, down, own⟩ := turn_serving conn turn busy
  exact .serving pc up down still (same ▸ own)

theorem turn_idle (conn : Connection) (t : ClientThread) (turn : Turn conn)
    (waits : conn.thread.pc = .loop ∨ conn.thread.pc = .receiving) (still : t.pc.idle = true) :
    Turn { conn with thread := t } := by
  cases turn with
  | choosing pc up down _ => exact .choosing pc up down still
  | requesting buf pc up down _ => exact .requesting buf pc up down still
  | serving _ _ _ busy _ => exact absurd waits (not_or.mpr busy)
  | answered message pc up down _ => exact .answered message pc up down still
  | finishing buf pc up down _ => exact .finishing buf pc up down still
  | finished _ _ _ gone =>
      rw [gone] at waits
      rcases waits with other | other <;> cases other

theorem turn_keeps (conn next : Connection) (turn : Turn conn) (client : next.client = conn.client)
    (up : next.toServer = conn.toServer) (down : next.toClient = conn.toClient) (pc : next.thread.pc = conn.thread.pc)
    (request : ∀ asked, SameRequest conn.thread.tx.wire asked → SameRequest next.thread.tx.wire asked) : Turn next := by
  cases turn with
  | choosing chooses empty none idle =>
      exact .choosing (by rw [client]; exact chooses) (by rw [up]; exact empty) (by rw [down]; exact none)
        (by rw [pc]; exact idle)
  | requesting buf waits one none idle =>
      exact .requesting buf (by rw [client]; exact waits) (by rw [up, client]; exact one) (by rw [down]; exact none)
        (by rw [pc]; exact idle)
  | serving waits empty none busy same =>
      exact .serving (by rw [client]; exact waits) (by rw [up]; exact empty) (by rw [down]; exact none)
        (by rw [pc]; exact busy) (by rw [client]; exact request _ same)
  | answered message waits empty one idle =>
      exact .answered message (by rw [client]; exact waits) (by rw [up]; exact empty) (by rw [down]; exact one)
        (by rw [pc]; exact idle)
  | finishing buf gone one none idle =>
      exact .finishing buf (by rw [client]; exact gone) (by rw [up]; exact one) (by rw [down]; exact none)
        (by rw [pc]; exact idle)
  | finished gone empty none left =>
      exact .finished (by rw [client]; exact gone) (by rw [up]; exact empty) (by rw [down]; exact none)
        (by rw [pc]; exact left)

theorem random_key (rand : Nat) : StorageKey (Int16.ofInt (ClientTime.getRandom 0 (storageSize - 1) rand)) := by
  have low : 0 ≤ ClientTime.getRandom 0 (storageSize - 1) rand ∧
      ClientTime.getRandom 0 (storageSize - 1) rand < storageSize := by
    simp only [ClientTime.getRandom, storageSize]
    omega
  have fits : (storageSize : Int) = 124 := rfl
  have same : (Int16.ofInt (ClientTime.getRandom 0 (storageSize - 1) rand)).toInt =
      ClientTime.getRandom 0 (storageSize - 1) rand := by
    rw [Int16.toInt_ofInt]
    exact bmod_short _ (by omega) (by omega)
  unfold StorageKey
  rw [same]
  exact low

theorem request_tx_issued (p : Deployment) (writeRate r c : Nat) (txId : Int) (typeRand keyRand : Nat)
    (connection : p.IsConnection r c) :
    IssuedBy r c (ClientTime.requestTx writeRate r c txId typeRand keyRand).wire := by
  have replicas := p.replicasFit
  have clients := p.clientsFit
  obtain ⟨⟨_, small⟩, few⟩ := connection
  have replica : (Int16.ofNat r).toInt = r := Int16.toInt_ofNat_of_lt (by omega)
  have client : (Int16.ofNat c).toInt = c := Int16.toInt_ofNat_of_lt (by omega)
  have key := random_key keyRand
  unfold ClientTime.requestTx
  simp only
  split
  · exact ⟨replica, client, .inl rfl, key⟩
  · exact ⟨replica, client, .inr rfl, key⟩

theorem client_inv_step (p : Deployment) (writeRate : Nat) (flag : Int) (r c : Nat) (conn next : Connection)
    (act : ClientTime.Act) (connection : p.IsConnection r c) (inv : ConnectionInv flag r c conn)
    (step : ClientStep writeRate r c conn act next) :
    ConnectionInv flag r c next ∧ PacketsKept flag flag conn next := by
  have kept : PacketsKept flag flag conn next := by
    refine ⟨?_, ?_, ?_⟩
    · intro w member
      cases step with
      | request typeRand keyRand sendTx pc chosen =>
          simp only
          split
          · exact List.mem_append_left _ member
          · exact member
      | receive | finish => exact member
    · cases step <;> exact fun id settled => settled
    · cases step <;> exact fun w outstanding => .inr outstanding
  refine ⟨?_, kept⟩
  obtain ⟨turn, issued, writes, reads, packed, settled, acknowledged, hands, adding, low⟩ := inv
  have told : ∀ w ∈ conn.thread.acknowledged, Submitted r c next.client w ∧ Settled conn.recieve w.id.toNat :=
    fun w member => ⟨submitted_kept flag flag r c conn next w kept (acknowledged w member).1, (acknowledged w member).2⟩
  have held : ∀ tx, conn.recieve.pc = .acked tx ∨ conn.recieve.pc = .adding tx → Submitted r c next.client tx.wire :=
    fun tx holds => submitted_kept flag flag r c conn next tx.wire kept (hands tx holds)
  cases step with
  | request typeRand keyRand sendTx pc chosen =>
      refine ⟨?_, ?_, writes, reads, packed, settled, told, held, adding, low⟩
      · cases turn with
        | choosing _ up down idle =>
            exact .requesting conn.client.msg rfl (by rw [Fifo.pending_add, up]; rfl) down idle
        | requesting _ other | serving other | answered _ other | finishing _ other | finished other =>
            rw [pc] at other
            cases other
      · intro _
        refine ⟨chosen ▸ request_tx_issued p writeRate r c conn.client.txId typeRand keyRand connection, ?_⟩
        intro (write : sendTx.type = .writeOnly)
        simp only [if_pos write]
        exact List.mem_append_right _ (List.mem_singleton_self _)
  | receive data msg len rest recvTx pc took =>
      refine ⟨?_, fun waiting => (by cases waiting), writes, reads, packed, settled, told, held, adding, low⟩
      have before := Fifo.try_take_pending conn.toClient rest (data, len) took
      cases turn with
      | answered message _ up down idle =>
          rw [before] at down
          exact .choosing rfl up (List.cons.inj down).2 idle
      | choosing _ _ down | requesting _ _ _ down | serving _ _ down | finishing _ _ _ down | finished _ _ down =>
          rw [before] at down
          cases down
  | finish pc =>
      refine ⟨?_, fun waiting => (by cases waiting), writes, reads, packed, settled, told, held, adding, low⟩
      cases turn with
      | choosing _ up down idle =>
          exact .finishing conn.client.msg rfl (by rw [Fifo.pending_add, up]; rfl) down idle
      | requesting _ other | serving other | answered _ other | finishing _ other | finished other =>
          rw [pc] at other
          cases other

theorem busy_moves (flag : Int) (r c : Nat) (conn : Connection) (t : ClientThread) (inv : ConnectionInv flag r c conn)
    (busy : conn.thread.pc.idle = false) (tx : t.tx = conn.thread.tx)
    (still : t.pc ≠ .loop ∧ t.pc ≠ .receiving ∧ t.pc ≠ .reading ∧ t.pc ≠ .registering)
    (packed : t.pc.retransmits = true → conn.thread.tx.type = .writeOnly ∧ t.addMsgLen = addToBatchMessageSize ∧
      ∃ tx buf, tx.wire = conn.thread.tx.wire ∧ t.addMsg = (createAddToBatchMsg tx buf).1)
    (settled : t.pc.completes = true → conn.thread.tx.type = .writeOnly → flag ≠ 1 →
      Settled conn.recieve conn.thread.tx.id.toNat)
    (acknowledged : ∀ w ∈ t.acknowledged, Submitted r c conn.client w ∧ Settled conn.recieve w.id.toNat) :
    ConnectionInv flag r c { conn with thread := t } where
  turn := turn_busy conn t inv.turn busy ⟨still.1, still.2.1⟩ tx
  issued := inv.issued
  writes := by
    rintro (registering | retransmits)
    · exact absurd registering still.2.2.2
    · exact tx ▸ (packed retransmits).1
  reads := fun reading => absurd reading still.2.2.1
  packed := fun retransmits => tx ▸ (packed retransmits).2
  settled := tx ▸ settled
  acknowledged := acknowledged
  hands := inv.hands
  adding := inv.adding
  low := inv.low

theorem idle_moves (flag : Int) (r c : Nat) (conn : Connection) (t : ClientThread) (up : Fifo (Buf × Nat))
    (down : Fifo (Buf × Nat)) (inv : ConnectionInv flag r c conn) (idle : t.pc.idle = true)
    (turn : Turn { conn with thread := t, toServer := up, toClient := down })
    (acknowledged : t.acknowledged = conn.thread.acknowledged) :
    ConnectionInv flag r c { conn with thread := t, toServer := up, toClient := down } := by
  refine ⟨turn, inv.issued, ?_, ?_, ?_, ?_, acknowledged ▸ inv.acknowledged, inv.hands, inv.adding, inv.low⟩
  · rintro (registering | retransmits)
    · simp only at registering
      simp [registering, ClientThreadPc.idle] at idle
    · rw [(idle_rests t.pc idle).1] at retransmits
      cases retransmits
  · intro reading
    simp only at reading
    simp [reading, ClientThreadPc.idle] at idle
  · intro retransmits
    simp only [(idle_rests t.pc idle).1] at retransmits
    cases retransmits
  · intro completes
    simp only [(idle_rests t.pc idle).2] at completes
    cases completes

theorem kept_fresh (flag : Int) (conn next : Connection) (submitted : next.client.submitted = conn.client.submitted)
    (recieve : next.recieve = conn.recieve) (fresh : conn.thread.pc.retransmits = false ∧
      (conn.thread.pc.completes = false ∧ conn.thread.pc ≠ .returned ∨ flag ≠ 1)) :
    PacketsKept flag flag conn next := by
  refine ⟨fun w member => submitted ▸ member, fun id settled => recieve ▸ settled, ?_⟩
  rintro w ⟨_, _, retransmits | ⟨finish, completes | gone⟩⟩
  · rw [fresh.1] at retransmits
    cases retransmits
  · rcases fresh.2 with no | running
    · rw [no.1] at completes
      cases completes
    · exact absurd finish running
  · rcases fresh.2 with no | running
    · exact absurd gone no.2
    · exact absurd finish running

theorem kept_moves (flag : Int) (conn next : Connection) (submitted : next.client.submitted = conn.client.submitted)
    (recieve : next.recieve = conn.recieve) (tx : next.thread.tx = conn.thread.tx)
    (moves : Settled conn.recieve conn.thread.tx.id.toNat ∨ next.thread.pc.retransmits = true ∨
      flag = 1 ∧ (next.thread.pc.completes = true ∨ next.thread.pc = .returned)) : PacketsKept flag flag conn next := by
  refine ⟨fun w member => submitted ▸ member, fun id settled => recieve ▸ settled, ?_⟩
  rintro w ⟨rfl, write, _⟩
  rcases moves with settled | still
  · exact .inl (recieve ▸ settled)
  · exact .inr ⟨by rw [tx], write, still⟩

theorem serving_submitted (flag : Int) (r c : Nat) (conn : Connection) (inv : ConnectionInv flag r c conn)
    (busy : conn.thread.pc.idle = false) (write : conn.thread.tx.type = .writeOnly) :
    Submitted r c conn.client conn.thread.tx.wire := by
  obtain ⟨waiting, _, _, same⟩ := turn_serving conn inv.turn busy
  obtain ⟨issued, member⟩ := inv.issued waiting
  have type : conn.client.sendTx.type = .writeOnly := by
    have equal := congrArg WireTx.type same.request
    exact equal.symm.trans write
  have equal : conn.thread.tx.wire = conn.client.sendTx.wire := same.write type
  rw [equal]
  exact ⟨issued, type, member type⟩

theorem after_poll_retransmits (overtime : Bool) : (ClientInterface.afterPoll overtime).retransmits = true ∧
    (ClientInterface.afterPoll overtime).completes = false := by
  cases overtime <;> exact ⟨rfl, rfl⟩

end EpochReplication
