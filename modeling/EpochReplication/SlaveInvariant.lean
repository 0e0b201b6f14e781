import EpochReplication.SendInvariant

set_option autoImplicit false

namespace EpochReplication

def Batch.content (batch : Batch) : Int16 × List WireTx := (batch.epochId, batch.wire)

structure SlaveInv (confirmed : List Batch) (slave : Slave) : Prop where
  count : slave.nextBatchEpochId = slave.accepted
  delivered : slave.writeTxBuffer.entered.map Batch.content <+: confirmed.map Batch.content
  logged : ∀ (k : Nat) (b : Batch), k < slave.accepted → confirmed[k]? = some b → LogCarries batchLogSize slave.batchLog k b
  running : slave.pc ≠ .aborted

theorem prefix_next {α : Type} (short long : List α) (a : α) (before : short <+: long)
    (next : long[short.length]? = some a) : short ++ [a] <+: long := by
  obtain ⟨rest, rfl⟩ := before
  cases rest with
  | nil => simp at next
  | cons b rest =>
      simp only [List.getElem?_append_right (Nat.le_refl _), Nat.sub_self, List.getElem?_cons_zero,
        Option.some.injEq] at next
      exact ⟨rest, by simp [next]⟩

theorem slave_behind (confirmed : List Batch) (slave : Slave) (inv : SlaveInv confirmed slave) :
    slave.accepted ≤ confirmed.length := by
  simpa [Slave.accepted] using inv.delivered.length_le

theorem slave_inv_mono (before after : List Batch) (slave : Slave) (grown : before <+: after)
    (inv : SlaveInv before slave) : SlaveInv after slave := by
  have behind := slave_behind before slave inv
  refine ⟨inv.count, inv.delivered.trans (grown.map Batch.content), ?_, inv.running⟩
  intro k b low found
  obtain ⟨rest, rfl⟩ := grown
  rw [List.getElem?_append_left (by omega)] at found
  exact inv.logged k b low found

theorem accept_batch_keeps (confirmed : List Batch) (slave next : Slave) (b : Batch) (io : LogIo)
    (inv : SlaveInv confirmed slave) (found : confirmed[slave.accepted]? = some b)
    (content : CarriesBatch slave.recvMsg b.epochId b.wire)
    (done : acceptBatch slave batchLogSize slave.accepted io = .returned next) :
    SlaveInv confirmed next ∧ next.accepted = slave.accepted + 1 := by
  obtain ⟨count, delivered, logged, running⟩ := inv
  unfold acceptBatch at done
  split at done
  · cases done
  · cases done
  · rename_i file wrote
    cases done
    obtain ⟨number, txs⟩ := get_info_from_batch_carried slave.recvMsg b.epochId b.wire
      (batchCreate (Int16.ofInt slave.accepted)) content (batch_wire_fits b) rfl
    generalize getInfoFromBatchMsg slave.recvMsg (batchCreate (Int16.ofInt slave.accepted)) = batch at number txs ⊢
    have decoded : batch.content = b.content := Prod.ext number txs
    have one_more : (slave.writeTxBuffer.add batch).entered.length = slave.accepted + 1 := by simp [Slave.accepted]
    refine ⟨⟨?_, ?_, ?_, running⟩, one_more⟩
    · simp only [Slave.accepted, Fifo.entered_add, List.length_append, List.length_singleton] at count ⊢
      omega
    · simp only [Fifo.entered_add, List.map_append, List.map_singleton, decoded]
      apply prefix_next _ _ _ delivered
      rw [List.length_map, List.getElem?_map, show slave.writeTxBuffer.entered.length = slave.accepted from rfl, found]
      rfl
    · intro k c low other
      have near : k < slave.accepted + 1 := one_more ▸ low
      rcases Nat.lt_succ_iff_lt_or_eq.mp near with earlier | rfl
      · exact log_carries_kept _ _ _ _ _ k c io file (Nat.ne_of_lt earlier) wrote (logged k c earlier other)
      · have same := found.symm.trans other
        cases same
        exact log_carries_append _ _ _ _ _ b io file (Nat.le_refl _) (Nat.le_trans (batch_msg_fits b) (by decide))
          (Nat.le_refl _)
          content wrote

structure Handled (p : Deployment) (confirmed : List Batch) (accepted : Nat → Nat) (r : Nat) (slave next : Slave)
    (sent : List Datagram) : Prop where
  inv : SlaveInv confirmed next
  more : slave.accepted ≤ next.accepted
  sent : ∀ d ∈ sent, Carried p confirmed (Function.update accepted r next.accepted) d

theorem send_ack_keeps (p : Deployment) (confirmed : List Batch) (accepted : Nat → Nat) (r e : Nat) (peers : List Nat)
    (slave : Slave) (replica : p.IsSlave r) (inv : SlaveInv confirmed slave) (logged : e < slave.accepted) :
    Handled p confirmed accepted r slave (sendAck r peers slave e).1 (sendAck r peers slave e).2 := by
  refine ⟨⟨inv.count, inv.delivered, inv.logged, inv.running⟩, Nat.le_refl _, ?_⟩
  have here : e < Function.update accepted r slave.accepted r := by simpa using logged
  intro d member
  rcases List.mem_cons.mp member with rfl | member
  · exact .ackMaster r e slave.sendMsg replica here
  · obtain ⟨q, _, rfl⟩ := List.mem_map.mp member
    exact .ackPeer r q e slave.sendMsg replica here

theorem receive_batch_keeps (p : Deployment) (confirmed : List Batch) (accepted : Nat → Nat) (r k : Nat)
    (peers : List Nat) (slave next : Slave) (b : Batch) (io : LogIo) (sent : List Datagram) (replica : p.IsSlave r)
    (inv : SlaveInv confirmed slave) (reached : k ≤ slave.accepted) (found : confirmed[k]? = some b)
    (numbered : b.epochId.toInt = k) (content : CarriesBatch slave.recvMsg b.epochId b.wire)
    (done : receiveBatch r peers slave batchLogSize io = .returned (next, sent)) :
    Handled p confirmed accepted r slave next sent := by
  have count := inv.count
  simp only [receiveBatch, carries_batch_epoch slave.recvMsg b.epochId b.wire content, numbered] at done
  split at done
  · rename_i expected
    obtain rfl : k = slave.accepted := by omega
    split at done
    · cases done
    · cases done
    · rename_i after wrote
      cases done
      obtain ⟨kept, one_more⟩ := accept_batch_keeps confirmed slave after b io inv found content wrote
      have handled := send_ack_keeps p confirmed accepted r slave.accepted peers after replica kept (by omega)
      exact ⟨handled.inv, Nat.le_trans (by omega) handled.more, handled.sent⟩
  · rename_i different
    split at done
    · rename_i stale
      cases done
      exact send_ack_keeps p confirmed accepted r k [] slave replica inv (by omega)
    · rename_i ahead
      omega

theorem answer_keeps (p : Deployment) (confirmed : List Batch) (accepted : Nat → Nat) (r : Nat) (slave : Slave) (msg : Buf)
    (answer : Datagram) (accepted_r : accepted r = slave.accepted) (inv : SlaveInv confirmed slave)
    (carried : Carried p confirmed accepted answer) :
    Handled p confirmed accepted r slave { slave with sendMsg := msg } [answer] := by
  refine ⟨⟨inv.count, inv.delivered, inv.logged, inv.running⟩, Nat.le_refl _, ?_⟩
  intro d member
  obtain rfl := List.mem_singleton.mp member
  have unchanged : Function.update accepted r slave.accepted = accepted := by
    rw [← accepted_r, Function.update_eq_self]
  change Carried p confirmed (Function.update accepted r slave.accepted) _
  rw [unchanged]
  exact carried

theorem receive_ack_keeps_slave (p : Deployment) (confirmed : List Batch) (accepted : Nat → Nat) (r q e : Nat)
    (slave : Slave) (replica : p.IsSlave r) (accepted_r : accepted r = slave.accepted) (inv : SlaveInv confirmed slave)
    (logged : e < accepted q) (next : slave.nextBatchEpochId ≤ e) :
    Handled p confirmed accepted r slave
      { slave with sendMsg := (createRequestBatchMsg r slave.nextBatchEpochId slave.sendMsg).1 }
      [⟨.slaveSequencer q, (createRequestBatchMsg r slave.nextBatchEpochId slave.sendMsg).1,
        (createRequestBatchMsg r slave.nextBatchEpochId slave.sendMsg).2⟩] := by
  have count := inv.count
  apply answer_keeps p confirmed accepted r slave _ _ accepted_r inv
  rw [count]
  exact .request q r slave.accepted slave.sendMsg replica (by omega) (by omega)

theorem receive_request_keeps (p : Deployment) (confirmed : List Batch) (accepted : Nat → Nat) (r q e : Nat)
    (slave : Slave) (io : LogIo) (msg : Buf) (len : Int) (accepted_r : accepted r = slave.accepted)
    (inv : SlaveInv confirmed slave) (asked : e ≤ accepted q) (logged : e < slave.accepted)
    (done : readLog slave.batchLog slave.sendMsg e io = .returned (msg, len)) :
    Handled p confirmed accepted r slave { slave with sendMsg := msg } [⟨.slaveSequencer q, msg, len.toNat⟩] := by
  have behind := slave_behind confirmed slave inv
  have found := List.getElem?_eq_getElem (show e < confirmed.length by omega)
  obtain ⟨length, content⟩ := log_carries_read _ slave.batchLog slave.sendMsg e _ io msg len
    (Nat.le_refl _) (inv.logged e _ logged found) done
  apply answer_keeps p confirmed accepted r slave _ _ accepted_r inv
  rw [length, Int.toNat_natCast]
  exact .batch q e _ msg asked found content

inductive Heard (p : Deployment) (confirmed : List Batch) (accepted : Nat → Nat) (r : Nat) (recvMsg : Buf) : Nat → Prop where
  | batch (k : Nat) (b : Batch) (reached : k ≤ accepted r) (found : confirmed[k]? = some b)
      (content : CarriesBatch recvMsg b.epochId b.wire) : Heard p confirmed accepted r recvMsg batchLogSize
  | ack (q e len : Nat) (type : checkMsg recvMsg .ackBatchMessage = true)
      (info : getInfoFromAckBatchMsg recvMsg = ((q : Int), (e : Int))) (logged : e < accepted q) :
      Heard p confirmed accepted r recvMsg len
  | request (q e len : Nat) (type : checkMsg recvMsg .requestBatchMessage = true)
      (info : getInfoFromRequestBatchMessage recvMsg = ((q : Int), (e : Int))) (asked : e ≤ accepted q)
      (logged : e < accepted r) : Heard p confirmed accepted r recvMsg len

theorem heard_of_carried (p : Deployment) (confirmed : List Batch) (accepted : Nat → Nat) (r : Nat) (dst : Datagram)
    (old : Buf) (replica : p.IsSlave r) (fits : ∀ q, p.IsSlave q → accepted q ≤ 32768)
    (carried : Carried p confirmed accepted dst) (mine : dst.dst = .slaveSequencer r) :
    Heard p confirmed accepted r (udpSvReceiveMsg old batchLogSize dst).1 (udpSvReceiveMsg old batchLogSize dst).2 := by
  have same_replica : ∀ q : Nat, Endpoint.slaveSequencer q = .slaveSequencer r → q = r := by
    intro q same
    injection same with same
    omega
  cases carried with
  | batch q k b data reached found content =>
      obtain rfl := same_replica q mine
      simp only [udpSvReceiveMsg, Nat.min_self]
      exact .batch k b reached found (receive_batch old data (.slaveSequencer q) b content)
  | ackMaster q e buf slave_q logged => cases mine
  | ackPeer q s e buf slave_q logged =>
      have small := fits q slave_q
      obtain ⟨type, info⟩ := receive_ack_batch p old buf (.slaveSequencer s) q e slave_q (by omega)
      exact .ack q e _ type info logged
  | request q s e buf slave_s asked logged =>
      obtain rfl := same_replica q mine
      have small := fits q replica
      obtain ⟨type, info⟩ := receive_request_batch p old buf (.slaveSequencer q) s e slave_s (by omega)
      exact .request s e _ type info asked logged

theorem proposed_recieve_keeps (p : Deployment) (confirmed : List Batch) (accepted : Nat → Nat) (r len : Nat)
    (slave next : Slave) (io : LogIo) (sent : List Datagram) (replica : p.IsSlave r) (accepted_r : accepted r = slave.accepted)
    (epochs : ∀ (k : Nat) (b : Batch), confirmed[k]? = some b → b.epochId.toInt = k)
    (inv : SlaveInv confirmed slave) (heard : Heard p confirmed accepted r slave.recvMsg len)
    (done : proposedMethodRecieveBatchConnection p r slave len io = .returned (next, sent)) :
    Handled p confirmed accepted r slave next sent := by
  cases heard with
  | batch k b reached found content =>
      simp only [proposedMethodRecieveBatchConnection, content.type, if_true] at done
      exact receive_batch_keeps p confirmed accepted r k _ slave next b io sent replica inv (by omega) found
        (epochs k b found) content done
  | ack q e len type info logged =>
      have other := check_msg_other slave.recvMsg .ackBatchMessage .batchMessage type (by decide)
      simp only [proposedMethodRecieveBatchConnection, other, type, info, if_true, Bool.false_eq_true, if_false] at done
      split at done
      · rename_i behind
        cases done
        exact receive_ack_keeps_slave p confirmed accepted r q e slave replica accepted_r inv logged behind
      · cases done
        exact ⟨inv, Nat.le_refl _, by simp⟩
  | request q e len type info asked logged =>
      have not_batch := check_msg_other slave.recvMsg .requestBatchMessage .batchMessage type (by decide)
      have not_ack := check_msg_other slave.recvMsg .requestBatchMessage .ackBatchMessage type (by decide)
      simp only [proposedMethodRecieveBatchConnection, not_batch, not_ack, type, info, if_true, Bool.false_eq_true,
        if_false] at done
      split at done
      · cases done
      · cases done
      · rename_i msg sendMsgLen read
        cases done
        exact receive_request_keeps p confirmed accepted r q e slave io msg sendMsgLen accepted_r inv asked (by omega) read

theorem conventional_recieve_keeps (p : Deployment) (confirmed : List Batch) (accepted : Nat → Nat) (r len : Nat)
    (slave next : Slave) (io : LogIo) (sent : List Datagram) (replica : p.IsSlave r) (accepted_r : accepted r = slave.accepted)
    (epochs : ∀ (k : Nat) (b : Batch), confirmed[k]? = some b → b.epochId.toInt = k)
    (inv : SlaveInv confirmed slave) (heard : Heard p confirmed accepted r slave.recvMsg len)
    (done : conventionalMethodRecieveBatchConnection r slave len io = .returned (next, sent)) :
    Handled p confirmed accepted r slave next sent := by
  have ignored : checkMsg slave.recvMsg .batchMessage = false → Handled p confirmed accepted r slave next sent := by
    intro other
    simp only [conventionalMethodRecieveBatchConnection, other, Bool.false_eq_true, if_false] at done
    cases done
    exact ⟨inv, Nat.le_refl _, by simp⟩
  cases heard with
  | batch k b reached found content =>
      simp only [conventionalMethodRecieveBatchConnection, content.type, if_true] at done
      exact receive_batch_keeps p confirmed accepted r k _ slave next b io sent replica inv (by omega) found
        (epochs k b found) content done
  | ack q e len type => exact ignored (check_msg_other slave.recvMsg .ackBatchMessage .batchMessage type (by decide))
  | request q e len type => exact ignored (check_msg_other slave.recvMsg .requestBatchMessage .batchMessage type (by decide))

theorem slave_inv_step (p : Deployment) (systemFinishRequest : Int) (confirmed : List Batch) (accepted : Nat → Nat)
    (net sent : List Datagram) (r : Nat) (slave next : Slave) (act : SlaveAct) (replica : p.IsSlave r)
    (fits : ∀ q, p.IsSlave q → accepted q ≤ 32768) (accepted_r : accepted r = slave.accepted)
    (epochs : ∀ (k : Nat) (b : Batch), confirmed[k]? = some b → b.epochId.toInt = k)
    (inv : SlaveInv confirmed slave) (carried : ∀ d ∈ net, Carried p confirmed accepted d)
    (done : slaveSequencer p systemFinishRequest net r slave act = .returned (next, sent)) :
    Handled p confirmed accepted r slave next sent := by
  obtain ⟨count, delivered, logged, running⟩ := inv
  unfold slaveSequencer at done
  split at done
  · split at done
    · cases done
      exact ⟨⟨count, delivered, logged, by simp⟩, Nat.le_refl _, by simp⟩
    · cases done
      exact ⟨⟨count, delivered, logged, by simp⟩, Nat.le_refl _, by simp⟩
  · rename_i i io pc
    split at done
    · cases done
    · rename_i d found
      split at done
      · rename_i mine
        have known := carried d (List.mem_of_getElem? found)
        have kept : SlaveInv confirmed
            { slave with pc := .loop, recvMsg := (udpSvReceiveMsg slave.recvMsg batchLogSize d).1 } :=
          ⟨count, delivered, logged, by simp⟩
        have heard := heard_of_carried p confirmed accepted r d slave.recvMsg replica fits known mine
        cases method : p.exp with
        | proposedMethod =>
            simp only [method] at done
            have handled := proposed_recieve_keeps p confirmed accepted r _
              { slave with pc := .loop, recvMsg := (udpSvReceiveMsg slave.recvMsg batchLogSize d).1 } next io sent replica
              accepted_r epochs kept heard done
            exact ⟨handled.inv, handled.more, handled.sent⟩
        | conventionalMethod =>
            simp only [method] at done
            have handled := conventional_recieve_keeps p confirmed accepted r _
              { slave with pc := .loop, recvMsg := (udpSvReceiveMsg slave.recvMsg batchLogSize d).1 } next io sent replica
              accepted_r epochs kept heard done
            exact ⟨handled.inv, handled.more, handled.sent⟩
        | tcpMethod =>
            simp only [method] at done
            cases done
      · cases done
  · cases done

end EpochReplication
