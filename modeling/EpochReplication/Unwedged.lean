import EpochReplication.Replicated

set_option autoImplicit false

namespace EpochReplication

-- A piece of a run in which only the send thread for slave `r` and that slave
-- move. They are handed nothing but datagrams of the piece itself, and every
-- one that goes between them is delivered.
structure Between (r : Nat) (before : List Datagram) (acts : List SequencersAct) (after : List Datagram) : Prop where
  own : ∀ act ∈ acts, (∃ a, act = .send r a) ∨ ∃ a, act = .slave r a
  grown : before <+: after
  fresh : ∀ act ∈ acts, ∀ i, act.delivered = some i → before.length ≤ i
  lossless : ∀ (i : Nat) (d : Datagram), before.length ≤ i → after[i]? = some d →
    d.dst = .slaveSequencer r ∨ d.dst = .masterSequencerFromSlaveSequencer r → ∃ act ∈ acts, act.delivered = some i

theorem between_append (r : Nat) (before middle after : List Datagram) (first rest : List SequencersAct)
    (earlier : Between r before first middle) (later : Between r middle rest after) :
    Between r before (first ++ rest) after := by
  have longer := earlier.grown.length_le
  refine ⟨?_, earlier.grown.trans later.grown, ?_, ?_⟩
  · intro act member
    exact (List.mem_append.mp member).elim (earlier.own act) (later.own act)
  · intro act member i delivered
    rcases List.mem_append.mp member with inside | inside
    · exact earlier.fresh act inside i delivered
    · exact Nat.le_trans longer (later.fresh act inside i delivered)
  · intro i d low found dst
    by_cases inside : i < middle.length
    · obtain ⟨more, rfl⟩ := later.grown
      rw [List.getElem?_append_left inside] at found
      obtain ⟨act, member, delivered⟩ := earlier.lossless i d low found dst
      exact ⟨act, List.mem_append_left _ member, delivered⟩
    · obtain ⟨act, member, delivered⟩ := later.lossless i d (by omega) found dst
      exact ⟨act, List.mem_append_right _ member, delivered⟩

theorem between_nil (r : Nat) (net : List Datagram) : Between r net [] net := by
  refine ⟨by simp, List.prefix_refl _, by simp, ?_⟩
  intro i d low found
  have inside := (List.getElem?_eq_some_iff.mp found).1
  omega

theorem between_quiet (r : Nat) (net : List Datagram) (act : SequencersAct)
    (own : (∃ a, act = .send r a) ∨ ∃ a, act = .slave r a) (quiet : act.delivered = none) :
    Between r net [act] net := by
  refine ⟨?_, List.prefix_refl _, ?_, ?_⟩
  · intro other member
    cases List.mem_singleton.mp member
    exact own
  · intro other member i delivered
    cases List.mem_singleton.mp member
    rw [quiet] at delivered
    cases delivered
  · intro i d low found
    have inside := (List.getElem?_eq_some_iff.mp found).1
    omega

def untilFinish (acts : List SequencersAct) : List (Int × SequencersAct) := acts.map (fun act => (0, act))

structure Continues (p : Deployment) (r : Nat) (s : Sequencers) (acts : List SequencersAct) (t : Sequencers) : Prop where
  ran : (sequencers p).exec s (untilFinish acts) = some t
  between : Between r s.net acts t.net

theorem continues_append (p : Deployment) (r : Nat) (s t u : Sequencers) (first rest : List SequencersAct)
    (earlier : Continues p r s first t) (later : Continues p r t rest u) : Continues p r s (first ++ rest) u := by
  refine ⟨?_, between_append r _ _ _ first rest earlier.between later.between⟩
  rw [untilFinish, List.map_append]
  exact (Machine.exec_append _ _ _ s t earlier.ran).trans later.ran

theorem continues_one (p : Deployment) (r : Nat) (s t : Sequencers) (act : SequencersAct)
    (taken : Sequencers.step p s (0, act) = some t) (between : Between r s.net [act] t.net) : Continues p r s [act] t := by
  refine ⟨?_, between⟩
  simp only [untilFinish, List.map_singleton, Machine.exec, sequencers, taken, Option.bind_some]

theorem continues_reachable (p : Deployment) (r : Nat) (s t : Sequencers) (acts : List SequencersAct)
    (reachable : (sequencers p).Reachable s) (continues : Continues p r s acts t) : (sequencers p).Reachable t :=
  Machine.reachable_exec _ _ s t reachable continues.ran

theorem send_thread_accepts (p : Deployment) (method : p.exp ≠ .tcpMethod) :
    ∃ accepts : Int → Int → Bool, (∀ e, accepts e e = true) ∧ sendThread p = sendBatchConnection accepts := by
  cases exp : p.exp with
  | proposedMethod =>
      refine ⟨fun got sent => got ≥ sent, fun e => by simp, ?_⟩
      simp only [sendThread, exp]
      rfl
  | conventionalMethod =>
      refine ⟨fun got sent => got == sent, fun e => by simp, ?_⟩
      simp only [sendThread, exp]
      rfl
  | tcpMethod => exact absurd exp method

structure SendReady (s t : Sequencers) (r : Nat) : Prop where
  master : t.master = s.master
  slave : t.slave = s.slave
  net : t.net = s.net
  next : (t.send r).nextEpochId = (s.send r).nextEpochId
  sending : (t.send r).pc = .sending

theorem send_ready_step (p : Deployment) (s : Sequencers) (r : Nat) (act : SendAct) (thread : SendThread)
    (quiet : ∀ i, act ≠ .receive i) (live : s.master.exited = false) (replica : p.IsSlave r)
    (done : sendThread p 0 s.master s.net r (s.send r) act = .returned (thread, [])) :
    Continues p r s [.send r act] { s with send := Function.update s.send r thread } := by
  have taken := send_moves p s 0 r act thread [] live replica done
  rw [List.append_nil] at taken
  refine continues_one p r s _ _ taken (between_quiet r s.net _ (.inl ⟨act, rfl⟩) ?_)
  cases act with
  | receive i => exact absurd rfl (quiet i)
  | barrier | loop | read | send | timeout => rfl

theorem send_ready_then (p : Deployment) (s : Sequencers) (r : Nat) (act : SendAct) (thread : SendThread)
    (quiet : ∀ i, act ≠ .receive i) (live : s.master.exited = false) (replica : p.IsSlave r)
    (done : sendThread p 0 s.master s.net r (s.send r) act = .returned (thread, []))
    (same : thread.nextEpochId = (s.send r).nextEpochId) (t : Sequencers) (acts : List SequencersAct)
    (rest : Continues p r { s with send := Function.update s.send r thread } acts t)
    (ready : SendReady { s with send := Function.update s.send r thread } t r) :
    Continues p r s (.send r act :: acts) t ∧ SendReady s t r := by
  have first := send_ready_step p s r act thread quiet live replica done
  refine ⟨continues_append p r s _ t [.send r act] acts first rest, ready.master, ready.slave, ready.net, ?_, ready.sending⟩
  rw [ready.next]
  simpa using same

theorem reading_to_sending (p : Deployment) (s : Sequencers) (r : Nat) (method : p.exp ≠ .tcpMethod) (replica : p.IsSlave r)
    (reachable : (sequencers p).Reachable s) (live : s.master.exited = false) (pc : (s.send r).pc = .reading) :
    ∃ acts t, Continues p r s acts t ∧ SendReady s t r := by
  obtain ⟨accepts, _, thread⟩ := send_thread_accepts p method
  have inv := sequencers_inv_reachable p s reachable
  obtain ⟨low, _⟩ := (inv.send r replica).next
  have current := (inv.send r replica).current
  simp only [SendCurrent, pc] at current
  obtain ⟨same, inside⟩ := current
  obtain ⟨e, number⟩ := Int.eq_ofNat_of_zero_le (show 0 ≤ (s.send r).sendEpochId by omega)
  have found := List.getElem?_eq_getElem (show e < s.master.confirmed.length by omega)
  obtain ⟨out, read⟩ := read_log_progress s.master.batchLog (s.send r).sendMsg e fullIo
    (log_carries_holds _ _ _ _ (inv.master.logged e _ found)) full_io_succeeds
  rw [← number] at read
  refine ⟨_, _, send_ready_then p s r (.read fullIo) { s.send r with pc := .sending, sendMsg := out, sendMsgLen := batchLogSize }
    (by simp) live replica ?_ rfl _ [] ⟨rfl, between_nil r _⟩ ⟨rfl, rfl, rfl, rfl, by simp⟩⟩
  simp only [thread, sendBatchConnection, pc, read]

theorem loop_to_sending (p : Deployment) (s : Sequencers) (r : Nat) (method : p.exp ≠ .tcpMethod) (replica : p.IsSlave r)
    (reachable : (sequencers p).Reachable s) (live : s.master.exited = false) (pc : (s.send r).pc = .loop)
    (new : (s.send r).nextEpochId ≤ s.master.determinedEpochId) :
    ∃ acts t, Continues p r s acts t ∧ SendReady s t r := by
  obtain ⟨accepts, _, thread⟩ := send_thread_accepts p method
  have done : sendThread p 0 s.master s.net r (s.send r) .loop =
      .returned ({ s.send r with pc := .reading, sendEpochId := (s.send r).nextEpochId }, []) := by
    simp only [thread, sendBatchConnection, pc, if_true, ge_iff_le, if_pos new]
  have first := send_ready_step p s r .loop _ (by simp) live replica done
  obtain ⟨acts, t, rest, ready⟩ := reading_to_sending p _ r method replica
    (continues_reachable p r s _ _ reachable first) live (by simp)
  exact ⟨_, t, send_ready_then p s r .loop _ (by simp) live replica done rfl t acts rest ready⟩

theorem barrier_to_sending (p : Deployment) (s : Sequencers) (r : Nat) (method : p.exp ≠ .tcpMethod) (replica : p.IsSlave r)
    (reachable : (sequencers p).Reachable s) (live : s.master.exited = false) (pc : (s.send r).pc = .barrier)
    (new : (s.send r).nextEpochId ≤ s.master.determinedEpochId) :
    ∃ acts t, Continues p r s acts t ∧ SendReady s t r := by
  obtain ⟨accepts, _, thread⟩ := send_thread_accepts p method
  have done : sendThread p 0 s.master s.net r (s.send r) .barrier = .returned ({ s.send r with pc := .loop }, []) := by
    simp only [thread, sendBatchConnection, pc, ne_eq, not_true, if_false]
  have first := send_ready_step p s r .barrier _ (by simp) live replica done
  obtain ⟨acts, t, rest, ready⟩ := loop_to_sending p _ r method replica
    (continues_reachable p r s _ _ reachable first) live (by simp) (by simpa using new)
  exact ⟨_, t, send_ready_then p s r .barrier _ (by simp) live replica done rfl t acts rest ready⟩

theorem reaches_sending (p : Deployment) (s : Sequencers) (r : Nat) (method : p.exp ≠ .tcpMethod) (replica : p.IsSlave r)
    (reachable : (sequencers p).Reachable s) (live : s.master.exited = false) (works : (s.send r).pc ≠ .returned)
    (new : (s.send r).nextEpochId ≤ s.master.determinedEpochId) :
    ∃ acts t, Continues p r s acts t ∧ SendReady s t r := by
  cases pc : (s.send r).pc with
  | barrier => exact barrier_to_sending p s r method replica reachable live pc new
  | loop => exact loop_to_sending p s r method replica reachable live pc new
  | reading => exact reading_to_sending p s r method replica reachable live pc
  | sending => exact ⟨[], s, ⟨rfl, between_nil r s.net⟩, rfl, rfl, rfl, rfl, pc⟩
  | waiting =>
      obtain ⟨accepts, _, thread⟩ := send_thread_accepts p method
      have done : sendThread p 0 s.master s.net r (s.send r) .timeout =
          .returned ({ s.send r with pc := .sending }, []) := by
        simp only [thread, sendBatchConnection, pc]
      exact ⟨_, _, send_ready_then p s r .timeout _ (by simp) live replica done rfl _ [] ⟨rfl, between_nil r _⟩
        ⟨rfl, rfl, rfl, rfl, by simp⟩⟩
  | returned => exact absurd pc works

theorem reaches_receiving (p : Deployment) (s : Sequencers) (r : Nat) (replica : p.IsSlave r)
    (works : (s.slave r).pc = .loop ∨ (s.slave r).pc = .receiving) :
    ∃ acts t, Continues p r s acts t ∧ t.master = s.master ∧ t.send = s.send ∧ (t.slave r).pc = .receiving ∧
      (t.slave r).nextBatchEpochId = (s.slave r).nextBatchEpochId := by
  rcases works with pc | pc
  · have done : slaveSequencer p 0 s.net r (s.slave r) .loop = .returned ({ s.slave r with pc := .receiving }, []) := by
      simp only [slaveSequencer, pc, if_true]
    have taken := slave_moves p s 0 r .loop _ [] replica done
    rw [List.append_nil] at taken
    exact ⟨_, _, continues_one p r s _ _ taken (between_quiet r s.net _ (.inr ⟨.loop, rfl⟩) rfl), rfl, rfl, by simp,
      by simp⟩
  · exact ⟨[], s, ⟨rfl, between_nil r s.net⟩, rfl, rfl, pc, rfl⟩

def ackTo (r e : Nat) (old : Buf) : Datagram :=
  ⟨.masterSequencerFromSlaveSequencer r, (createAckBatchMsg r e old).1, ackBatchMessageSize⟩

structure Acknowledges (r k : Nat) (slave next : Slave) (sent : List Datagram) : Prop where
  loops : next.pc = .loop
  next : next.nextBatchEpochId = if slave.nextBatchEpochId = k then slave.nextBatchEpochId + 1 else slave.nextBatchEpochId
  sent : ∃ old copies, sent = ackTo r k old :: copies ∧
    ∀ d ∈ copies, d.dst ≠ .slaveSequencer r ∧ d.dst ≠ .masterSequencerFromSlaveSequencer r

theorem receive_batch_acknowledges (r k : Nat) (peers : List Nat) (slave : Slave) (b : Batch) (len : Int)
    (others : r ∉ peers) (loops : slave.pc = .loop) (content : CarriesBatch slave.recvMsg b.epochId b.wire)
    (numbered : b.epochId.toInt = k) (behind : k ≤ slave.nextBatchEpochId) :
    ∃ next sent, receiveBatch r peers slave len fullIo = .returned (next, sent) ∧ Acknowledges r k slave next sent := by
  have epoch := (carries_batch_epoch slave.recvMsg b.epochId b.wire content).trans numbered
  have elsewhere : ∀ old, ∀ d ∈ peers.map (fun id : Nat => (⟨.slaveSequencer id, (createAckBatchMsg r k old).1,
      (createAckBatchMsg r k old).2⟩ : Datagram)),
      d.dst ≠ .slaveSequencer r ∧ d.dst ≠ .masterSequencerFromSlaveSequencer r := by
    intro old d member
    obtain ⟨q, inside, rfl⟩ := List.mem_map.mp member
    refine ⟨fun same => ?_, by simp⟩
    injection same with same
    obtain rfl : q = r := by omega
    exact others inside
  by_cases expected : slave.nextBatchEpochId = k
  · obtain ⟨file, wrote⟩ := append_log_progress slave.batchLog slave.recvMsg len k fullIo full_io_succeeds
    simp only [receiveBatch, epoch, expected, if_true, acceptBatch, wrote]
    exact ⟨_, _, rfl, loops, by simp [expected], _, _, rfl, elsewhere _⟩
  · have other : ¬ (k : Int) = slave.nextBatchEpochId := fun same => expected same.symm
    have stale : (k : Int) < slave.nextBatchEpochId := by omega
    simp only [receiveBatch, epoch, if_neg other, if_pos stale]
    exact ⟨_, _, rfl, loops, by rw [if_neg expected], _, [], rfl, by simp⟩

theorem slave_acknowledges (p : Deployment) (net : List Datagram) (r k i : Nat) (slave : Slave) (b : Batch) (data : Buf)
    (method : p.exp ≠ .tcpMethod) (receiving : slave.pc = .receiving)
    (found : net[i]? = some ⟨.slaveSequencer r, data, batchLogSize⟩) (content : CarriesBatch data b.epochId b.wire)
    (numbered : b.epochId.toInt = k) (behind : k ≤ slave.nextBatchEpochId) :
    ∃ next sent, slaveSequencer p 0 net r slave (.receive i fullIo) = .returned (next, sent) ∧
      Acknowledges r k slave next sent := by
  have arrived := receive_batch slave.recvMsg data (.slaveSequencer r) b content
  have others : r ∉ p.regionPeers r := by simp [Deployment.regionPeers]
  have acknowledges : ∀ peers len, r ∉ peers → ∃ next sent,
      receiveBatch r peers { slave with
        pc := .loop
        recvMsg := (udpSvReceiveMsg slave.recvMsg batchLogSize ⟨.slaveSequencer r, data, batchLogSize⟩).1 } len fullIo =
          .returned (next, sent) ∧ Acknowledges r k slave next sent := by
    intro peers len others
    obtain ⟨next, sent, done, answer⟩ := receive_batch_acknowledges r k peers { slave with
      pc := .loop
      recvMsg := (udpSvReceiveMsg slave.recvMsg batchLogSize ⟨.slaveSequencer r, data, batchLogSize⟩).1 } b len others rfl
      arrived numbered behind
    exact ⟨next, sent, done, answer.loops, answer.next, answer.sent⟩
  simp only [slaveSequencer, receiving, found, if_true]
  cases exp : p.exp with
  | proposedMethod =>
      simp only [proposedMethodRecieveBatchConnection, arrived.type, if_true]
      exact acknowledges (p.regionPeers r) _ others
  | conventionalMethod =>
      simp only [conventionalMethodRecieveBatchConnection, arrived.type, if_true]
      exact acknowledges [] _ (by simp)
  | tcpMethod => exact absurd exp method

theorem receive_own_ack (p : Deployment) (accepts : Int → Int → Bool) (r e : Nat) (t : SendThread) (old : Buf)
    (replica : p.IsSlave r) (short : e < 32768) (reflexive : ∀ e, accepts e e = true) (sent : t.sendEpochId = e) :
    (receiveAck accepts t (ackTo r e old)).pc = .loop ∧ (receiveAck accepts t (ackTo r e old)).nextEpochId = e + 1 := by
  obtain ⟨type, info⟩ := receive_ack_batch p t.recvMsg old (.masterSequencerFromSlaveSequencer r) r e replica short
  simp only [receiveAck, ackTo, type, if_true, info, sent, reflexive, and_self]

theorem between_exchange (r e : Nat) (net copies : List Datagram) (d : Datagram) (old : Buf) (io : LogIo)
    (elsewhere : ∀ d ∈ copies, d.dst ≠ .slaveSequencer r ∧ d.dst ≠ .masterSequencerFromSlaveSequencer r) :
    Between r net [.send r .send, .slave r (.receive net.length io), .send r (.receive (net.length + 1))]
      (net ++ [d] ++ (ackTo r e old :: copies)) := by
  refine ⟨by simp, by simp, ?_, ?_⟩
  · intro act member i delivered
    simp only [List.mem_cons, List.not_mem_nil, or_false] at member
    rcases member with rfl | rfl | rfl
    · cases delivered
    · cases delivered
      exact Nat.le_refl _
    · cases delivered
      exact Nat.le_succ _
  · intro i other low found dst
    obtain ⟨j, rfl⟩ := Nat.exists_eq_add_of_le low
    rw [List.append_assoc, List.getElem?_append_right (Nat.le_add_right _ j), Nat.add_sub_cancel_left] at found
    match j with
    | 0 => exact ⟨_, List.mem_cons_of_mem _ List.mem_cons_self, rfl⟩
    | 1 => exact ⟨_, List.mem_cons_of_mem _ (List.mem_cons_of_mem _ List.mem_cons_self), rfl⟩
    | j + 2 =>
        have member : other ∈ copies := List.mem_of_getElem? (by simpa using found)
        obtain ⟨slave, master⟩ := elsewhere other member
        exact absurd dst (not_or.mpr ⟨slave, master⟩)

theorem exchange (p : Deployment) (s : Sequencers) (r : Nat) (method : p.exp ≠ .tcpMethod) (replica : p.IsSlave r)
    (reachable : (sequencers p).Reachable s) (live : s.master.exited = false) (sending : (s.send r).pc = .sending)
    (receiving : (s.slave r).pc = .receiving) :
    ∃ acts t, Continues p r s acts t ∧ t.master = s.master ∧ (t.send r).pc = .loop ∧ (t.slave r).pc = .loop ∧
      (t.send r).nextEpochId = (s.send r).nextEpochId + 1 ∧
      (t.slave r).nextBatchEpochId = if (s.slave r).nextBatchEpochId = (s.send r).nextEpochId then
        (s.slave r).nextBatchEpochId + 1 else (s.slave r).nextBatchEpochId := by
  obtain ⟨accepts, reflexive, thread⟩ := send_thread_accepts p method
  have inv := sequencers_inv_reachable p s reachable
  obtain ⟨low, bound⟩ := (inv.send r replica).next
  have count := (inv.slave r replica).count
  have current := (inv.send r replica).current
  simp only [SendCurrent, sending] at current
  obtain ⟨same, length, b, found, content⟩ := current
  obtain ⟨e, number⟩ := Int.eq_ofNat_of_zero_le low
  rw [same, number, Int.toNat_natCast] at found
  have epoch := inv.master.epochs e b found
  have short := b.epochId.toInt_lt
  have batch : sendThread p 0 s.master s.net r (s.send r) .send =
      .returned ({ s.send r with pc := .waiting }, [⟨.slaveSequencer r, (s.send r).sendMsg, batchLogSize⟩]) := by
    simp only [thread, sendBatchConnection, sending, length, Int.toNat_natCast]
    rfl
  have first := send_moves p s 0 r .send _ _ live replica batch
  obtain ⟨next, sent, answered, loops, counter, old, copies, rfl, elsewhere⟩ :=
    slave_acknowledges p (s.net ++ [⟨.slaveSequencer r, (s.send r).sendMsg, batchLogSize⟩]) r e s.net.length (s.slave r) b
      (s.send r).sendMsg method receiving (by simp) content epoch (by simp only [Sequencers.accepted] at bound; omega)
  have second := slave_moves p
    { s with
      send := Function.update s.send r { s.send r with pc := .waiting }
      net := s.net ++ [⟨.slaveSequencer r, (s.send r).sendMsg, batchLogSize⟩] }
    0 r (.receive s.net.length fullIo) next _ replica answered
  obtain ⟨looping, forward⟩ := receive_own_ack p accepts r e { s.send r with pc := .waiting } old replica (by omega)
    reflexive (same.trans number)
  have ack : sendThread p 0 s.master
      (s.net ++ [⟨.slaveSequencer r, (s.send r).sendMsg, batchLogSize⟩] ++ (ackTo r e old :: copies)) r
      { s.send r with pc := .waiting } (.receive (s.net.length + 1)) =
        .returned (receiveAck accepts { s.send r with pc := .waiting } (ackTo r e old), []) := by
    simp [thread, sendBatchConnection, ackTo]
  have third := send_moves p
    { s with
      send := Function.update s.send r { s.send r with pc := .waiting }
      slave := Function.update s.slave r next
      net := s.net ++ [⟨.slaveSequencer r, (s.send r).sendMsg, batchLogSize⟩] ++ (ackTo r e old :: copies) }
    0 r (.receive (s.net.length + 1)) _ [] live replica (by simpa using ack)
  rw [List.append_nil] at third
  simp only [Function.update_idem] at third
  refine ⟨[.send r .send, .slave r (.receive s.net.length fullIo), .send r (.receive (s.net.length + 1))],
    { s with
      send := Function.update s.send r (receiveAck accepts { s.send r with pc := .waiting } (ackTo r e old))
      slave := Function.update s.slave r next
      net := s.net ++ [⟨.slaveSequencer r, (s.send r).sendMsg, batchLogSize⟩] ++ (ackTo r e old :: copies) },
    ⟨?_, between_exchange r e s.net copies _ old fullIo elsewhere⟩, rfl, ?_, ?_, ?_, ?_⟩
  · simp only [untilFinish, List.map_cons, List.map_nil, Machine.exec, sequencers, first, second, third, Option.bind_some]
  · simp only [Function.update_self, looping]
  · simp only [Function.update_self, loops]
  · simp only [Function.update_self]
    exact forward.trans (by rw [number])
  · simp only [Function.update_self, counter, number]

theorem advances (p : Deployment) (s : Sequencers) (r : Nat) (method : p.exp ≠ .tcpMethod) (replica : p.IsSlave r)
    (reachable : (sequencers p).Reachable s) (live : s.master.exited = false) (send : (s.send r).pc ≠ .returned)
    (slave : (s.slave r).pc = .loop ∨ (s.slave r).pc = .receiving)
    (new : (s.send r).nextEpochId ≤ s.master.determinedEpochId) :
    ∃ acts t, Continues p r s acts t ∧ t.master = s.master ∧ (t.send r).pc = .loop ∧ (t.slave r).pc = .loop ∧
      (t.send r).nextEpochId = (s.send r).nextEpochId + 1 ∧
      (t.slave r).nextBatchEpochId = if (s.slave r).nextBatchEpochId = (s.send r).nextEpochId then
        (s.slave r).nextBatchEpochId + 1 else (s.slave r).nextBatchEpochId := by
  obtain ⟨first, t, started, ready⟩ := reaches_sending p s r method replica reachable live send new
  have reached := continues_reachable p r s t first reachable started
  obtain ⟨second, u, opened, master, sends, receiving, counter⟩ :=
    reaches_receiving p t r replica (by rw [ready.slave]; exact slave)
  have later := continues_reachable p r t u second reached opened
  obtain ⟨third, v, exchanged, kept, loops, looping, forward, next⟩ := exchange p u r method replica later
    (by rw [master, ready.master]; exact live) (by rw [sends]; exact ready.sending) receiving
  rw [counter, sends, ready.slave, ready.next] at next
  rw [sends, ready.next] at forward
  refine ⟨_, v, continues_append p r s t v first _ started (continues_append p r t u v second third opened exchanged), ?_,
    loops, looping, forward, next⟩
  rw [kept, master, ready.master]

theorem catches_up (p : Deployment) (gap : Nat) (s : Sequencers) (r : Nat) (method : p.exp ≠ .tcpMethod)
    (replica : p.IsSlave r) (reachable : (sequencers p).Reachable s) (live : s.master.exited = false)
    (send : (s.send r).pc ≠ .returned) (slave : (s.slave r).pc = .loop ∨ (s.slave r).pc = .receiving)
    (ahead : (s.slave r).nextBatchEpochId = (s.send r).nextEpochId + gap)
    (new : (s.slave r).nextBatchEpochId ≤ s.master.determinedEpochId) :
    ∃ acts t, Continues p r s acts t ∧ t.master = s.master ∧
      (t.slave r).nextBatchEpochId = (s.slave r).nextBatchEpochId + 1 ∧
      (t.send r).nextEpochId = (s.slave r).nextBatchEpochId + 1 := by
  induction gap generalizing s with
  | zero =>
      obtain ⟨acts, t, continues, master, _, _, forward, next⟩ :=
        advances p s r method replica reachable live send slave (by omega)
      rw [if_pos (by omega)] at next
      exact ⟨acts, t, continues, master, next, by omega⟩
  | succ gap ih =>
      obtain ⟨acts, t, continues, master, loops, looping, forward, next⟩ :=
        advances p s r method replica reachable live send slave (by omega)
      rw [if_neg (by omega)] at next
      obtain ⟨rest, u, further, kept, reached, passed⟩ := ih t (continues_reachable p r s t acts reachable continues)
        (by rw [master]; exact live) (by simp [loops]) (.inl looping) (by omega) (by rw [master]; omega)
      refine ⟨_, u, continues_append p r s t u acts rest continues further, ?_, by omega, by omega⟩
      rw [kept, master]

end EpochReplication
