import EpochReplication.ConnectionInvariant

set_option autoImplicit false

namespace EpochReplication

theorem received_request_of_turn (conn : Connection) (turn : Turn conn) (receiving : conn.thread.pc = .receiving)
    (data msg : Buf) (len : Nat) (rest : Fifo (Buf × Nat)) (took : conn.toServer.tryTake = some ((data, len), rest)) :
    checkMsg (receiveMsg msg data len) .requestTxMessage = true ∧ rest.pending = [] ∧ conn.toClient.pending = [] ∧
      (conn.client.pc = .waiting ∧
          (getInfoFromRequestTxMsg (receiveMsg msg data len) initTx).wire = conn.client.sendTx.wire ∨
        conn.client.pc = .returned ∧
          (getInfoFromRequestTxMsg (receiveMsg msg data len) initTx).wire = modifyFinishRequest.wire) := by
  have before := Fifo.try_take_pending conn.toServer rest (data, len) took
  cases turn with
  | requesting buf pc up down idle =>
      obtain ⟨same, empty⟩ := List.cons.inj (before.symm.trans up)
      cases same
      obtain ⟨type, wire⟩ := receive_request_tx conn.client.sendTx buf msg initTx
      exact ⟨type, empty, down, .inl ⟨pc, wire⟩⟩
  | finishing buf pc up down idle =>
      obtain ⟨same, empty⟩ := List.cons.inj (before.symm.trans up)
      cases same
      obtain ⟨type, wire⟩ := receive_request_tx modifyFinishRequest buf msg initTx
      exact ⟨type, empty, down, .inr ⟨pc, wire⟩⟩
  | serving _ _ _ busy => exact absurd receiving busy.2
  | choosing _ up | answered _ _ up | finished _ up =>
      rw [before] at up
      cases up

theorem thread_receive_inv (flag : Int) (r c : Nat) (conn : Connection) (data recvMsg : Buf) (len : Nat)
    (rest : Fifo (Buf × Nat)) (tx : Tx) (inv : ConnectionInv flag r c conn) (pc : conn.thread.pc = .receiving)
    (took : conn.toServer.tryTake = some ((data, len), rest)) (filled : recvMsg = receiveMsg conn.thread.recvMsg data len)
    (decoded : tx = getInfoFromRequestTxMsg recvMsg initTx) :
    ConnectionInv flag r c
      { conn with
        toServer := rest
        thread := { conn.thread with
          pc := ClientInterface.afterRequest tx.type, tx := tx, recvMsg := recvMsg, raised := [] } } := by
  subst filled
  obtain ⟨_, up, down, ⟨waiting, wire⟩ | ⟨gone, wire⟩⟩ :=
    received_request_of_turn conn inv.turn pc data conn.thread.recvMsg len rest took
  · rw [← decoded] at wire
    obtain ⟨issued, member⟩ := inv.issued waiting
    have type : tx.type = conn.client.sendTx.type := congrArg WireTx.type wire
    have same : SameRequest tx.wire conn.client.sendTx.wire := ⟨by rw [wire], fun _ => wire⟩
    rcases issued.kind with write | read
    · have write : tx.type = .writeOnly := type.trans write
      rw [write]
      exact ⟨.serving waiting up down ⟨by simp [ClientInterface.afterRequest], by simp [ClientInterface.afterRequest]⟩ same,
        inv.issued, fun _ => write, by simp [ClientInterface.afterRequest],
        by simp [ClientInterface.afterRequest, ClientThreadPc.retransmits],
        by simp [ClientInterface.afterRequest, ClientThreadPc.completes], inv.acknowledged, inv.hands, inv.adding, inv.low⟩
    · have read : tx.type = .readOnly := type.trans read
      rw [read]
      exact ⟨.serving waiting up down ⟨by simp [ClientInterface.afterRequest], by simp [ClientInterface.afterRequest]⟩ same,
        inv.issued, by simp [ClientInterface.afterRequest, ClientThreadPc.retransmits], fun _ => read,
        by simp [ClientInterface.afterRequest, ClientThreadPc.retransmits],
        by simp [ClientInterface.afterRequest, ClientThreadPc.completes], inv.acknowledged, inv.hands, inv.adding, inv.low⟩
  · rw [← decoded] at wire
    have finish : tx.type = .finishRequest := congrArg WireTx.type wire
    rw [finish]
    exact idle_moves flag r c conn _ rest conn.toClient inv rfl (.finished gone up down rfl) rfl

theorem sends_add (flag : Int) (r c : Nat) (conn next : Connection) (inv : ConnectionInv flag r c conn)
    (pc : conn.thread.pc = .sending) (client : next.client = conn.client) (tx : next.thread.tx = conn.thread.tx)
    (still : next.thread.pc.retransmits = true) :
    PacketOf flag r c next ⟨.clientThread r c,
      .recieveTx conn.thread.tx.replicaId.toInt conn.thread.tx.clientId.toInt, conn.thread.addMsg, conn.thread.addMsgLen⟩ := by
  have write := inv.writes (by rw [pc]; exact .inr rfl)
  have submitted := serving_submitted flag r c conn inv (by rw [pc]; rfl) write
  obtain ⟨len, sent, buf, wire, content⟩ := inv.packed (by rw [pc]; rfl)
  have replica : conn.thread.tx.replicaId.toInt = r := submitted.issued.replica
  have own : conn.thread.tx.clientId.toInt = c := submitted.issued.client
  rw [replica, own, len, content]
  exact .add sent buf (by rw [wire, client]; exact submitted)
    (.inr ⟨by rw [tx, wire], by rw [wire]; exact submitted.write, .inl still⟩)

theorem ack_settles (flag : Int) (r c : Nat) (conn : Connection) (packet : Packet) (inv : ConnectionInv flag r c conn)
    (pc : conn.thread.pc = .polling) (dst : packet.dst = .clientThread r c) (of : PacketOf flag r c conn packet)
    (ends : endsRetransmission conn.thread.tx (receiveMsg conn.thread.ackMsg packet.data packet.len) = true) :
    Settled conn.recieve conn.thread.tx.id.toNat ∧ conn.thread.tx.id.toNat < 32768 := by
  have write := inv.writes (by rw [pc]; exact .inr rfl)
  have submitted := serving_submitted flag r c conn inv (by rw [pc]; rfl) write
  cases of with
  | add => cases dst
  | ack id buf settled =>
      have replica : conn.thread.tx.replicaId.toInt = r := submitted.issued.replica
      have own : conn.thread.tx.clientId.toInt = c := submitted.issued.client
      have same := ack_ends_iff conn.thread.tx id buf conn.thread.ackMsg
      rw [replica, own] at same
      obtain ⟨rfl, small⟩ := same.mp ends
      exact ⟨settled, small⟩

theorem thread_inv_step (flag : Int) (net sent : List Packet) (r c : Nat) (conn next : Connection)
    (act : ClientInterface.Act) (inv : ConnectionInv flag r c conn)
    (packets : ∀ packet ∈ net, packet.dst = .clientThread r c → PacketOf flag r c conn packet)
    (step : ThreadStep flag net r c conn act next sent) :
    ConnectionInv flag r c next ∧ PacketsKept flag flag conn next ∧ ∀ packet ∈ sent, PacketOf flag r c next packet := by
  have none_sent : ∀ packet ∈ ([] : List Packet), PacketOf flag r c next packet := by simp
  cases step with
  | enter pc | leave pc =>
      exact ⟨idle_moves flag r c conn _ _ _ inv rfl (turn_idle conn _ inv.turn (.inl pc) rfl) rfl,
        kept_fresh flag conn _ rfl rfl (by rw [pc]; exact ⟨rfl, .inl ⟨rfl, by simp⟩⟩), none_sent⟩
  | receive data recvMsg len rest tx pc took filled request decoded =>
      exact ⟨thread_receive_inv flag r c conn data recvMsg len rest tx inv pc took filled decoded,
        kept_fresh flag conn _ rfl rfl (by rw [pc]; exact ⟨rfl, .inl ⟨rfl, by simp⟩⟩), none_sent⟩
  | ignore data recvMsg len rest pc took filled other =>
      subst filled
      have request := (received_request_of_turn conn inv.turn pc data conn.thread.recvMsg len rest took).1
      rw [request] at other
      cases other
  | requestRead pc =>
      have read := inv.reads pc
      refine ⟨busy_moves flag r c conn _ inv (by rw [pc]; rfl) rfl (by simp) (fun no => (by cases no))
        (fun _ write => ?_) inv.acknowledged, kept_fresh flag conn _ rfl rfl (by rw [pc]; exact ⟨rfl, .inl ⟨rfl, by simp⟩⟩),
        none_sent⟩
      rw [read] at write
      cases write
  | requestWrite sendMsg recvMsg pc =>
      have write := inv.writes (.inl pc)
      exact ⟨busy_moves flag r c conn _ inv (by rw [pc]; rfl) rfl (by simp)
          (fun _ => ⟨write, rfl, conn.thread.tx, sendMsg, rfl, rfl⟩) (fun no => (by cases no)) inv.acknowledged,
        kept_fresh flag conn _ rfl rfl (by rw [pc]; exact ⟨rfl, .inl ⟨rfl, by simp⟩⟩), none_sent⟩
  | giveUp pc finish =>
      exact ⟨busy_moves flag r c conn _ inv (by rw [pc]; rfl) rfl (by simp) (fun no => (by cases no))
          (fun _ _ running => absurd finish running) inv.acknowledged,
        kept_moves flag conn _ rfl rfl rfl (.inr (.inr ⟨finish, .inl rfl⟩)), none_sent⟩
  | send pc running =>
      refine ⟨busy_moves flag r c conn _ inv (by rw [pc]; rfl) rfl (by simp)
          (fun _ => ⟨inv.writes (by rw [pc]; exact .inr rfl), inv.packed (by rw [pc]; rfl)⟩) (fun no => (by cases no))
          inv.acknowledged, kept_moves flag conn _ rfl rfl rfl (.inr (.inl rfl)), ?_⟩
      intro packet member
      cases List.mem_singleton.mp member
      exact sends_add flag r c conn _ inv pc rfl rfl rfl
  | check pc | checkFinish pc _ =>
      exact ⟨busy_moves flag r c conn _ inv (by rw [pc]; rfl) rfl (by simp)
          (fun _ => ⟨inv.writes (by rw [pc]; exact .inr rfl), inv.packed (by rw [pc]; rfl)⟩) (fun no => (by cases no))
          inv.acknowledged, kept_moves flag conn _ rfl rfl rfl (.inr (.inl rfl)), none_sent⟩
  | acknowledge i overtime packet ackMsg pc found dst filled ends =>
      subst filled
      have settled := (ack_settles flag r c conn packet inv pc dst (packets packet (List.mem_of_getElem? found) dst) ends).1
      refine ⟨busy_moves flag r c conn _ inv (by rw [pc]; rfl) rfl (by simp) (fun no => (by cases no))
          (fun _ _ _ => settled) ?_, kept_moves flag conn _ rfl rfl rfl (.inl settled), none_sent⟩
      intro w member
      rcases List.mem_append.mp member with earlier | last
      · exact inv.acknowledged w earlier
      · cases List.mem_singleton.mp last
        exact ⟨serving_submitted flag r c conn inv (by rw [pc]; rfl) (inv.writes (by rw [pc]; exact .inr rfl)), settled⟩
  | poll _ overtime _ pc | pollNothing overtime pc =>
      obtain ⟨still, open_⟩ := after_poll_retransmits overtime
      exact ⟨busy_moves flag r c conn _ inv (by rw [pc]; rfl) rfl (by cases overtime <;> simp [ClientInterface.afterPoll])
          (fun _ => ⟨inv.writes (by rw [pc]; exact .inr rfl), inv.packed (by rw [pc]; rfl)⟩)
          (fun no => (by rw [open_] at no; cases no)) inv.acknowledged,
        kept_moves flag conn _ rfl rfl rfl (.inr (.inl still)), none_sent⟩
  | spin pc => exact ⟨inv, ⟨fun _ member => member, fun _ settled => settled, fun _ still => .inr still⟩, none_sent⟩
  | complete pc free =>
      refine ⟨busy_moves flag r c conn _ inv (by rw [pc]; rfl) rfl (by simp) (fun no => (by cases no))
          (fun _ => inv.settled (by rw [pc]; rfl)) inv.acknowledged, ?_, none_sent⟩
      by_cases finish : flag = 1
      · exact kept_moves flag conn _ rfl rfl rfl (.inr (.inr ⟨finish, .inl rfl⟩))
      · exact kept_fresh flag conn _ rfl rfl ⟨by rw [pc]; rfl, .inr finish⟩
  | abandon pc finish =>
      exact ⟨busy_moves flag r c conn _ inv (by rw [pc]; rfl) rfl (by simp) (fun no => (by cases no))
          (fun no => (by cases no)) inv.acknowledged,
        kept_moves flag conn _ rfl rfl rfl (.inr (.inr ⟨finish, .inr rfl⟩)), none_sent⟩
  | respond pc running =>
      obtain ⟨waiting, up, down, _⟩ := turn_serving conn inv.turn (by rw [pc]; rfl)
      refine ⟨idle_moves flag r c conn _ _ _ inv rfl ?_ rfl,
        kept_fresh flag conn _ rfl rfl ⟨by rw [pc]; rfl, .inr running⟩, none_sent⟩
      exact .answered _ waiting up (by rw [Fifo.pending_add, down]; rfl) rfl

theorem recieve_moves (flag : Int) (r c : Nat) (conn : Connection) (t : RecieveThread) (inv : ConnectionInv flag r c conn)
    (settled : ∀ id, Settled conn.recieve id → Settled t id)
    (hands : ∀ tx, t.pc = .acked tx ∨ t.pc = .adding tx → Submitted r c conn.client tx.wire)
    (adding : ∀ tx, t.pc = .adding tx → t.recievedTxId = tx.id.toNat) (low : -1 ≤ t.recievedTxId) :
    ConnectionInv flag r c { conn with recieve := t } ∧ PacketsKept flag flag conn { conn with recieve := t } := by
  refine ⟨⟨?_, inv.issued, inv.writes, inv.reads, inv.packed, fun completes write running =>
    settled _ (inv.settled completes write running), ?_, hands, adding, low⟩, ⟨fun _ member => member, settled,
    fun _ still => .inr still⟩⟩
  · exact turn_keeps conn _ inv.turn rfl rfl rfl rfl (fun _ same => same)
  · intro w member
    exact ⟨(inv.acknowledged w member).1, settled _ (inv.acknowledged w member).2⟩

theorem settled_same (t next : RecieveThread) (same : next.recievedTxId = t.recievedTxId) (pc : ∀ tx, t.pc ≠ .acked tx)
    (id : Nat) (settled : Settled t id) : Settled next id := by
  rcases settled with old | ⟨tx, acked, _⟩
  · exact .inl (same ▸ old)
  · exact absurd acked (pc tx)

theorem settled_of_acked (t : RecieveThread) (tx : Tx) (id : Nat) (pc : t.pc = .acked tx) (settled : Settled t id) :
    (id : Int) ≤ t.recievedTxId ∨ id = tx.id.toNat := by
  rcases settled with old | ⟨other, acked, same⟩
  · exact .inl old
  · rw [pc] at acked
    cases acked
    exact .inr same.symm

theorem delivered_add (flag : Int) (r c : Nat) (conn : Connection) (packet : Packet) (msg recvMsg : Buf) (tx : Tx)
    (of : PacketOf flag r c conn packet) (dst : packet.dst = .recieveTx r c)
    (filled : recvMsg = receiveMsg msg packet.data packet.len) (decoded : tx = getInfoFromAddToBatchMsg recvMsg createTx) :
    packet.src = .clientThread r c ∧ Submitted r c conn.client tx.wire ∧
      (Settled conn.recieve tx.id.toNat ∨ Outstanding flag conn.thread tx.wire) := by
  cases of with
  | ack => cases dst
  | add original buf submitted current =>
      have wire : tx.wire = original.wire := by
        rw [decoded, filled]
        exact (receive_add_to_batch original buf msg createTx).2
      have id : tx.id = original.id := congrArg WireTx.id wire
      rw [wire, id]
      exact ⟨rfl, submitted, current⟩

theorem recieve_inv_step (masterFlag flag : Int) (net sent : List Packet) (r c : Nat) (conn : Connection)
    (t : RecieveThread) (act : RecieveAct) (inv : ConnectionInv flag r c conn)
    (packets : ∀ packet ∈ net, packet.dst = .recieveTx r c → PacketOf flag r c conn packet)
    (step : RecieveStep masterFlag net r c conn.recieve act t sent) :
    ConnectionInv flag r c { conn with recieve := t } ∧ PacketsKept flag flag conn { conn with recieve := t } ∧
      ∀ packet ∈ sent, PacketOf flag r c { conn with recieve := t } packet := by
  have unsent : ∀ packet ∈ ([] : List Packet), PacketOf flag r c { conn with recieve := t } packet := by simp
  have empty : ∀ pc : RecievePc, (∀ tx, pc ≠ .acked tx ∧ pc ≠ .adding tx) →
      (∀ tx, pc = .acked tx ∨ pc = .adding tx → Submitted r c conn.client tx.wire) ∧
        ∀ (id : Int) tx, pc = .adding tx → id = tx.id.toNat := by
    intro pc none
    refine ⟨?_, fun _ tx adding => absurd adding (none tx).2⟩
    rintro tx (acked | adding)
    · exact absurd acked (none tx).1
    · exact absurd adding (none tx).2
  have moves : ∀ (pc : RecievePc), t.pc = pc → (∀ tx, pc ≠ .acked tx ∧ pc ≠ .adding tx) →
      t.recievedTxId = conn.recieve.recievedTxId → (∀ id, Settled conn.recieve id → Settled t id) →
      ConnectionInv flag r c { conn with recieve := t } ∧ PacketsKept flag flag conn { conn with recieve := t } := by
    rintro pc rfl none same settled
    exact recieve_moves flag r c conn t inv settled (empty t.pc none).1 (fun tx => (empty t.pc none).2 _ tx)
      (same ▸ inv.low)
  cases step with
  | wait pc =>
      obtain ⟨kept, still⟩ := moves .barrier pc (by simp) rfl (fun _ settled => settled)
      exact ⟨kept, still, unsent⟩
  | start pc | enter pc | leave pc | ignore _ _ _ pc | add _ _ pc =>
      obtain ⟨kept, still⟩ := moves _ rfl (by simp) rfl (settled_same conn.recieve _ rfl (by simp [pc]))
      exact ⟨kept, still, unsent⟩
  | receive i packet recvMsg tx pc found dst filled add decoded =>
      obtain ⟨src, mine, _⟩ := delivered_add flag r c conn packet _ recvMsg tx (packets packet (List.mem_of_getElem? found) dst)
        dst filled decoded
      have own : answerAddToBatch tx conn.recieve.sendMsg = createAckAddMsg r c tx.id.toNat conn.recieve.sendMsg := by
        have replica : tx.replicaId.toInt = r := mine.issued.replica
        have client : tx.clientId.toInt = c := mine.issued.client
        rw [answerAddToBatch, replica, client]
      obtain ⟨kept, still⟩ := recieve_moves flag r c conn
        { conn.recieve with pc := .acked tx, recvMsg := recvMsg, sendMsg := (answerAddToBatch tx conn.recieve.sendMsg).1 }
        inv (settled_same conn.recieve _ rfl (by simp [pc]))
        (by rintro other (acked | adding)
            · cases acked
              exact mine
            · cases adding)
        (by simp) inv.low
      refine ⟨kept, still, ?_⟩
      intro sent member
      cases List.mem_singleton.mp member
      rw [own, src]
      exact .ack tx.id conn.recieve.sendMsg (.inr ⟨tx, rfl, rfl⟩)
  | discard tx pc old =>
      obtain ⟨kept, still⟩ := moves .loop rfl (by simp) rfl (fun id settled => (by
        rcases settled_of_acked conn.recieve tx id pc settled with early | rfl
        · exact .inl early
        · exact .inl old))
      exact ⟨kept, still, unsent⟩
  | accept tx pc fresh write =>
      have mine := inv.hands tx (.inl pc)
      obtain ⟨kept, still⟩ := recieve_moves flag r c conn
        { conn.recieve with pc := .adding tx, recievedTxId := tx.id.toNat } inv
        (fun id settled => (by
          rcases settled_of_acked conn.recieve tx id pc settled with early | rfl
          · exact .inl (by simp only; omega)
          · exact .inl (Int.le_refl _)))
        (by rintro other (acked | adding)
            · cases acked
            · cases adding
              exact mine)
        (by rintro other adding
            cases adding
            rfl)
        (by simp only; omega)
      exact ⟨kept, still, unsent⟩
  | quit tx pc fresh other => exact absurd (inv.hands tx (.inl pc)).write other
  | retry tx batch pc full => exact ⟨inv, ⟨fun _ member => member, fun _ settled => settled, fun _ still => .inr still⟩, unsent⟩

theorem touch_inv (flag : Int) (r c : Nat) (conn : Connection) (act : TxAct) (inv : ConnectionInv flag r c conn)
    (kind : ∀ v, act = .value v → conn.thread.tx.type = .readOnly) :
    ConnectionInv flag r c { conn with thread := waitForTx conn.thread act } ∧
      PacketsKept flag flag conn { conn with thread := waitForTx conn.thread act } := by
  have pc : (waitForTx conn.thread act).pc = conn.thread.pc := by cases act <;> rfl
  have type : (waitForTx conn.thread act).tx.type = conn.thread.tx.type := by cases act <;> rfl
  have id : (waitForTx conn.thread act).tx.id = conn.thread.tx.id := by cases act <;> rfl
  have request : ∀ asked, SameRequest conn.thread.tx.wire asked → SameRequest (waitForTx conn.thread act).tx.wire asked := by
    intro asked same
    cases act with
    | assign | raise => exact same
    | value v =>
        refine ⟨same.request, fun write => ?_⟩
        have read := kind v rfl
        have equal : conn.thread.tx.type = asked.type := congrArg WireTx.type same.request
        rw [read, write] at equal
        cases equal
  have written : conn.thread.tx.type = .writeOnly → (waitForTx conn.thread act).tx.wire = conn.thread.tx.wire := by
    intro write
    cases act with
    | assign | raise => rfl
    | value v =>
        have read := kind v rfl
        rw [read] at write
        cases write
  obtain ⟨turn, issued, writes, reads, packed, settled, acknowledged, hands, adding, low⟩ := inv
  refine ⟨⟨?_, issued, ?_, ?_, ?_, ?_, ?_, hands, adding, low⟩, ⟨fun _ member => member, fun _ held => held, ?_⟩⟩
  · exact turn_keeps conn _ turn rfl rfl rfl pc request
  · rw [pc, type]
    exact writes
  · rw [pc, type]
    exact reads
  · rw [pc]
    intro retransmits
    obtain ⟨len, tx, buf, wire, content⟩ := packed retransmits
    have same : (waitForTx conn.thread act).addMsgLen = conn.thread.addMsgLen ∧
        (waitForTx conn.thread act).addMsg = conn.thread.addMsg := by cases act <;> exact ⟨rfl, rfl⟩
    refine ⟨same.1.trans len, tx, buf, ?_, same.2.trans content⟩
    rw [written (writes (.inr retransmits))]
    exact wire
  · rw [pc, type, id]
    exact settled
  · have same : (waitForTx conn.thread act).acknowledged = conn.thread.acknowledged := by cases act <;> rfl
    rw [same]
    exact acknowledged
  · rintro w ⟨rfl, write, still⟩
    exact .inr ⟨written write, write, by rw [pc]; exact still⟩

theorem finish_inv (flag : Int) (r c : Nat) (conn : Connection) (inv : ConnectionInv flag r c conn) :
    ConnectionInv 1 r c conn ∧ PacketsKept flag 1 conn conn := by
  refine ⟨⟨inv.turn, inv.issued, inv.writes, inv.reads, inv.packed, fun _ _ running => absurd rfl running,
    inv.acknowledged, inv.hands, inv.adding, inv.low⟩, ⟨fun _ member => member, fun _ settled => settled, ?_⟩⟩
  rintro w ⟨same, write, retransmits | ⟨_, still⟩⟩
  · exact .inr ⟨same, write, .inl retransmits⟩
  · exact .inr ⟨same, write, .inr ⟨rfl, still⟩⟩

end EpochReplication
