import EpochReplication.AtRest
import Mathlib.Algebra.Order.BigOperators.Group.List
import Mathlib.Algebra.Order.Ring.Nat
import Mathlib.Data.Finset.Max

set_option autoImplicit false

namespace EpochReplication

def ackCopy (q e peer : Nat) (old : Buf) : Datagram :=
  ⟨.slaveSequencer peer, (createAckBatchMsg q e old).1, ackBatchMessageSize⟩

def Announced (p : Deployment) (s : Sequencers) : Prop :=
  ∀ q e peer, p.IsSlave q → e < s.accepted q → peer ∈ p.regionPeers q → ∃ old, ackCopy q e peer old ∈ s.net

theorem receive_batch_announces (r : Nat) (peers : List Nat) (slave next : Slave) (len : Int) (io : LogIo)
    (sent : List Datagram) (count : slave.nextBatchEpochId = slave.accepted)
    (done : receiveBatch r peers slave len io = .returned (next, sent)) :
    next.accepted = slave.accepted ∨
      next.accepted = slave.accepted + 1 ∧ ∀ peer ∈ peers, ∃ old, ackCopy r slave.accepted peer old ∈ sent := by
  simp only [receiveBatch] at done
  split at done
  · rename_i expected
    split at done
    · cases done
    · cases done
    · rename_i after accepted
      cases done
      right
      simp only [acceptBatch] at accepted
      split at accepted
      · cases accepted
      · cases accepted
      · cases accepted
        rw [expected, count]
        refine ⟨by simp [Slave.accepted], fun peer member => ⟨slave.sendMsg, ?_⟩⟩
        exact List.mem_cons_of_mem _ (List.mem_map.mpr ⟨peer, member, rfl⟩)
  · split at done
    · cases done
      exact .inl rfl
    · cases done
      exact .inl rfl

theorem slave_announces (p : Deployment) (systemFinishRequest : Int) (net sent : List Datagram) (r : Nat)
    (slave next : Slave) (act : SlaveAct) (method : p.exp = .proposedMethod)
    (count : slave.nextBatchEpochId = slave.accepted)
    (done : slaveSequencer p systemFinishRequest net r slave act = .returned (next, sent)) :
    next.accepted = slave.accepted ∨
      next.accepted = slave.accepted + 1 ∧
        ∀ peer ∈ p.regionPeers r, ∃ old, ackCopy r slave.accepted peer old ∈ sent := by
  unfold slaveSequencer at done
  split at done
  · split at done <;> cases done <;> exact .inl rfl
  · split at done
    · cases done
    · split at done
      · simp only [method] at done
        rcases proposed_recieve_cases p r _ next _ _ sent done with ⟨_, batch⟩ | ⟨sendMsg, rfl⟩
        · have announces := receive_batch_announces r _ _ next _ _ sent (by exact count) batch
          exact announces
        · exact .inl rfl
      · cases done
  · cases done

theorem announced_kept (p : Deployment) (s t : Sequencers) (announced : Announced p s)
    (same : ∀ q, t.accepted q = s.accepted q) (grown : s.net <+: t.net) : Announced p t := by
  intro q e peer replica taken member
  rw [same] at taken
  obtain ⟨old, sent⟩ := announced q e peer replica taken member
  exact ⟨old, grown.subset sent⟩

theorem announced_step (p : Deployment) (s t : Sequencers) (act : Int × SequencersAct) (method : p.exp = .proposedMethod)
    (inv : SequencersInv p s) (announced : Announced p s) (taken : Sequencers.step p s act = some t) :
    Announced p t := by
  cases sequencers_step_cases p s t act taken with
  | epoch | epochExit | addWriteTx | sendExit | takeMaster =>
      exact announced_kept p s _ announced (fun _ => rfl) (List.prefix_refl _)
  | send => exact announced_kept p s _ announced (fun _ => rfl) (List.prefix_append _ _)
  | slaveExit flag r =>
      refine announced_kept p s _ announced (fun q => ?_) (List.prefix_refl _)
      by_cases own : q = r
      · subst own
        simp [Sequencers.accepted, Slave.accepted]
      · simp [Sequencers.accepted, own]
  | takeSlave flag r batch rest replica took =>
      refine announced_kept p s _ announced (fun q => ?_) (List.prefix_refl _)
      obtain ⟨_, entered, _⟩ := Fifo.try_take_some _ _ _ took
      by_cases own : q = r
      · subst own
        simp [Sequencers.accepted, Slave.accepted, entered]
      · simp [Sequencers.accepted, own]
  | slave flag r act slave sent replica done =>
      intro q e peer other inside member
      by_cases own : q = r
      · subst own
        simp only [Sequencers.accepted, Function.update_self] at inside
        have before : e < s.accepted q → ∃ old, ackCopy q e peer old ∈ s.net ++ sent := by
          intro earlier
          obtain ⟨old, sent⟩ := announced q e peer replica earlier member
          exact ⟨old, List.mem_append_left _ sent⟩
        rcases slave_announces p flag s.net sent q _ slave act method (inv.slave q replica).count done with
          same | ⟨one_more, copies⟩
        · rw [same] at inside
          exact before inside
        · rw [one_more] at inside
          rcases Nat.lt_succ_iff_lt_or_eq.mp inside with earlier | rfl
          · exact before earlier
          · obtain ⟨old, sent⟩ := copies peer member
            exact ⟨old, List.mem_append_right _ sent⟩
      · simp only [Sequencers.accepted, Function.update_of_ne own] at inside
        obtain ⟨old, sent⟩ := announced q e peer other inside member
        exact ⟨old, List.mem_append_left _ sent⟩

theorem announced_reachable (p : Deployment) (s : Sequencers) (method : p.exp = .proposedMethod)
    (reachable : (sequencers p).Reachable s) : Announced p s := by
  refine (Machine.invariant_reachable (sequencers p) (fun s => SequencersInv p s ∧ Announced p s)
    ⟨sequencers_inv_initial p, ?_⟩ (fun s act t inv taken => ?_) s reachable).2
  · intro q e peer _ taken
    simp [sequencers, Sequencers.accepted, Slave.accepted, Sequencers.initial] at taken
  · exact ⟨sequencers_inv_step p s t act inv.1 taken, announced_step p s t act method inv.1 inv.2 taken⟩

-- Of what is in `net`, only the ACKs that these slaves copied to each other are
-- still to come: nobody sends them again.
def HandsCopies (who : Nat → Prop) (net : List Datagram) (act : SequencersAct) : Prop :=
  ∀ i, act.delivered = some i → i < net.length → ∃ q r e old, who q ∧ who r ∧ net[i]? = some (ackCopy q e r old)

theorem hands_no_copies (who : Nat → Prop) (net : List Datagram) (act : SequencersAct) (nothing : act.delivered = none) :
    HandsCopies who net act := by
  intro i handed
  rw [nothing] at handed
  cases handed

theorem hands_new (who : Nat → Prop) (net : List Datagram) (r i : Nat) (io : LogIo) (new : net.length ≤ i) :
    HandsCopies who net (.slave r (.receive i io)) := by
  intro j handed old
  cases handed
  exact absurd old (Nat.not_lt.mpr new)

def slavesOf (who : Nat → Prop) (net : List Datagram) (act : Int × SequencersAct) : Prop :=
  ∃ r a, who r ∧ HandsCopies who net (.slave r a) ∧ act = (0, .slave r a)

structure SlaveTurn (p : Deployment) (who : Nat → Prop) (net : List Datagram) (r : Nat) (s t : Sequencers) : Prop where
  leads : (sequencers p).Leads (slavesOf who net) s t
  grown : s.net <+: t.net
  others : ∀ x, x ≠ r → t.slave x = s.slave x

structure Keeps (slave next : Slave) : Prop where
  counter : next.nextBatchEpochId = slave.nextBatchEpochId
  queue : next.writeTxBuffer = slave.writeTxBuffer
  loops : next.pc = .loop

def Slave.listens (slave : Slave) : Prop := slave.pc = .loop ∨ slave.pc = .receiving

section

variable (p : Deployment) (who : Nat → Prop) (net : List Datagram) (s : Sequencers) (method : p.exp = .proposedMethod)

include method

theorem hears (r i : Nat) (d : Datagram) (next : Slave) (sent : List Datagram) (replica : p.IsSlave r) (moves : who r)
    (listens : (s.slave r).listens) (found : s.net[i]? = some d) (mine : d.dst = .slaveSequencer r)
    (copies : HandsCopies who net (.slave r (.receive i fullIo)))
    (handled : proposedMethodRecieveBatchConnection p r
      { s.slave r with pc := .loop, recvMsg := (udpSvReceiveMsg (s.slave r).recvMsg batchLogSize d).1 }
      (udpSvReceiveMsg (s.slave r).recvMsg batchLogSize d).2 fullIo = .returned (next, sent)) :
    ∃ t, SlaveTurn p who net r s t ∧ t.slave r = next ∧ t.net = s.net ++ sent := by
  have receive : ∀ slave : Slave, slave.pc = .receiving → { slave with pc := .loop } = { s.slave r with pc := .loop } →
      slaveSequencer p 0 s.net r slave (.receive i fullIo) = .returned (next, sent) := by
    intro slave receiving same
    simp only [Slave.mk.injEq, true_and] at same
    obtain ⟨counter, log, queue, recvMsg, sendMsg⟩ := same
    simp only [slaveSequencer, receiving, found, mine, if_true, method, counter, log, queue, recvMsg, sendMsg]
    exact handled
  refine ⟨{ s with slave := Function.update s.slave r next, net := s.net ++ sent },
    ⟨?_, List.prefix_append _ _, fun x other => ?_⟩, ?_, rfl⟩
  · rcases listens with pc | pc
    · have opened : slaveSequencer p 0 s.net r (s.slave r) .loop =
          .returned ({ s.slave r with pc := .receiving }, []) := by
        simp only [slaveSequencer, pc, if_true]
      have first := slave_moves p s 0 r .loop _ [] replica opened
      rw [List.append_nil] at first
      have second := slave_moves p { s with slave := Function.update s.slave r { s.slave r with pc := .receiving } } 0 r
        (.receive i fullIo) next sent replica (by simp only [Function.update_self]; exact receive _ rfl rfl)
      simp only [Function.update_idem] at second
      exact Machine.leads_step _ _ s _ _ (0, .slave r .loop) ⟨r, .loop, moves, hands_no_copies who net _ rfl, rfl⟩ first
        (Machine.leads_one _ _ _ _ (0, .slave r (.receive i fullIo)) ⟨r, _, moves, copies, rfl⟩ second)
    · exact Machine.leads_one _ _ s _ (0, .slave r (.receive i fullIo)) ⟨r, _, moves, copies, rfl⟩
        (slave_moves p s 0 r (.receive i fullIo) next sent replica (receive _ pc rfl))
  · simp only [Function.update_of_ne other]
  · simp only [Function.update_self]

theorem asks (r q k e : Nat) (old : Buf) (replica : p.IsSlave r) (peer : p.IsSlave q) (moves : who r) (sends : who q)
    (listens : (s.slave r).listens) (grown : net <+: s.net) (member : ackCopy q e r old ∈ s.net) (short : e < 32768)
    (needs : (s.slave r).nextBatchEpochId = k) (behind : k ≤ e) :
    ∃ t old, SlaveTurn p who net r s t ∧ Keeps (s.slave r) (t.slave r) ∧ t.net[s.net.length]? =
      some ⟨.slaveSequencer q, (createRequestBatchMsg r k old).1, requestBatchMessageSize⟩ := by
  obtain ⟨i, found⟩ := List.mem_iff_getElem?.mp member
  obtain ⟨type, info⟩ := receive_ack_batch p (s.slave r).recvMsg old (.slaveSequencer r) q e peer short
  have other := check_msg_other _ .ackBatchMessage .batchMessage type (by decide)
  have far : (e : Int) ≥ k := by omega
  have copies : HandsCopies who net (.slave r (.receive i fullIo)) := by
    intro j handed inside
    cases handed
    refine ⟨q, r, e, old, sends, moves, ?_⟩
    obtain ⟨rest, same⟩ := grown
    rw [← found, ← same, List.getElem?_append_left inside]
  obtain ⟨t, turn, slave, sent⟩ := hears p who net s method r i (ackCopy q e r old)
    { s.slave r with
      pc := .loop
      recvMsg := (udpSvReceiveMsg (s.slave r).recvMsg batchLogSize (ackCopy q e r old)).1
      sendMsg := (createRequestBatchMsg r k (s.slave r).sendMsg).1 }
    [⟨.slaveSequencer q, (createRequestBatchMsg r k (s.slave r).sendMsg).1, requestBatchMessageSize⟩]
    replica moves listens found rfl copies (by
      simp only [proposedMethodRecieveBatchConnection, ackCopy, other, type, info, needs, if_true, Bool.false_eq_true,
        if_false, if_pos far]
      rfl)
  refine ⟨t, (s.slave r).sendMsg, turn, ?_, by simp [sent]⟩
  rw [slave]
  exact ⟨rfl, rfl, rfl⟩

theorem answers (r q e i : Nat) (b : Batch) (old : Buf) (confirmed : List Batch) (replica : p.IsSlave r)
    (peer : p.IsSlave q) (moves : who q) (listens : (s.slave q).listens) (new : net.length ≤ i)
    (request : s.net[i]? = some ⟨.slaveSequencer q, (createRequestBatchMsg r e old).1, requestBatchMessageSize⟩)
    (short : e < 32768) (inv : SlaveInv confirmed (s.slave q)) (logged : e < (s.slave q).accepted)
    (found : confirmed[e]? = some b) :
    ∃ t data, SlaveTurn p who net q s t ∧ Keeps (s.slave q) (t.slave q) ∧
      t.net[s.net.length]? = some ⟨.slaveSequencer r, data, batchLogSize⟩ ∧ CarriesBatch data b.epochId b.wire := by
  obtain ⟨type, info⟩ := receive_request_batch p (s.slave q).recvMsg old (.slaveSequencer q) r e replica short
  have not_batch := check_msg_other _ .requestBatchMessage .batchMessage type (by decide)
  have not_ack := check_msg_other _ .requestBatchMessage .ackBatchMessage type (by decide)
  have carries := inv.logged e b logged found
  obtain ⟨data, read⟩ := read_log_progress (s.slave q).batchLog (s.slave q).sendMsg e fullIo
    (log_carries_holds _ _ _ _ carries) full_io_succeeds
  have content := (log_carries_read _ _ _ _ _ _ _ _ (Nat.le_refl _) carries read).2
  obtain ⟨t, turn, slave, sent⟩ := hears p who net s method q i
    ⟨.slaveSequencer q, (createRequestBatchMsg r e old).1, requestBatchMessageSize⟩
    { s.slave q with
      pc := .loop
      recvMsg := (udpSvReceiveMsg (s.slave q).recvMsg batchLogSize
        ⟨.slaveSequencer q, (createRequestBatchMsg r e old).1, requestBatchMessageSize⟩).1
      sendMsg := data }
    [⟨.slaveSequencer r, data, batchLogSize⟩] peer moves listens request rfl (hands_new who net q i fullIo new) (by
      simp only [proposedMethodRecieveBatchConnection, not_batch, not_ack, type, info, if_true, Bool.false_eq_true,
        if_false, read]
      rfl)
  refine ⟨t, data, turn, ?_, by simp [sent], content⟩
  rw [slave]
  exact ⟨rfl, rfl, rfl⟩

theorem takes (r k i : Nat) (b : Batch) (data : Buf) (replica : p.IsSlave r) (moves : who r)
    (listens : (s.slave r).listens) (new : net.length ≤ i) (found : s.net[i]? = some ⟨.slaveSequencer r, data, batchLogSize⟩)
    (content : CarriesBatch data b.epochId b.wire) (numbered : b.epochId.toInt = k)
    (expected : (s.slave r).nextBatchEpochId = k) :
    ∃ t, SlaveTurn p who net r s t ∧ (t.slave r).pc = .loop ∧ (t.slave r).nextBatchEpochId = k + 1 := by
  have arrived := receive_batch (s.slave r).recvMsg data (.slaveSequencer r) b content
  obtain ⟨next, sent, handled, answer⟩ := receive_batch_acknowledges r k (p.regionPeers r)
    { s.slave r with
      pc := .loop
      recvMsg := (udpSvReceiveMsg (s.slave r).recvMsg batchLogSize ⟨.slaveSequencer r, data, batchLogSize⟩).1 }
    b (udpSvReceiveMsg (s.slave r).recvMsg batchLogSize ⟨.slaveSequencer r, data, batchLogSize⟩).2
    (by simp [Deployment.regionPeers]) rfl arrived numbered (Int.le_of_eq expected.symm)
  have one_more := answer.next
  simp only [expected, if_true] at one_more
  obtain ⟨t, turn, slave, _⟩ := hears p who net s method r i _ next sent replica moves listens found rfl
    (hands_new who net r i fullIo new) (by
      simp only [proposedMethodRecieveBatchConnection, arrived.type, if_true]
      exact handled)
  rw [← slave] at one_more
  exact ⟨t, turn, slave ▸ answer.loops, one_more⟩

theorem passes_on (r q : Nat) (reachable : (sequencers p).Reachable s) (replica : p.IsSlave r) (peer : p.IsSlave q)
    (region : r ∈ p.regionPeers q) (moves : who r) (sends : who q) (listens : (s.slave r).listens)
    (serves : (s.slave q).listens) (grown : net <+: s.net) (behind : s.accepted r < s.accepted q) :
    ∃ t, (sequencers p).Leads (slavesOf who net) s t ∧ net <+: t.net ∧ (∀ x, x ≠ r → t.accepted x = s.accepted x) ∧
      t.accepted r = s.accepted r + 1 ∧ ∀ x, (s.slave x).listens → (t.slave x).listens := by
  have inv := sequencers_inv_reachable p s reachable
  have count : (s.slave r).nextBatchEpochId = s.accepted r := (inv.slave r replica).count
  have confirmed := slave_behind _ _ (inv.slave q peer)
  have fits := inv.master.fits
  have inside : s.accepted r < s.master.confirmed.length := Nat.lt_of_lt_of_le behind confirmed
  have found := List.getElem?_eq_getElem inside
  have different : q ≠ r := fun same => Nat.lt_irrefl _ (same ▸ behind)
  obtain ⟨old, announced⟩ := announced_reachable p s method reachable q (s.accepted r) r peer behind region
  obtain ⟨asked, buf, ask, asker, request⟩ := asks p who net s method r q (s.accepted r) (s.accepted r) old replica peer
    moves sends listens grown announced (by omega) count (Nat.le_refl _)
  have idle := ask.others q different
  obtain ⟨answered, data, answer, sender, batch, content⟩ := answers p who net asked method r q (s.accepted r) _ _
    buf s.master.confirmed replica peer sends (idle ▸ serves) grown.length_le request (by omega) (idle ▸ inv.slave q peer)
    (idle ▸ behind) found
  have waiting := answer.others r different.symm
  obtain ⟨t, take, loops, one_more⟩ := takes p who net answered method r (s.accepted r) _ _ data replica moves
    (.inl (waiting ▸ asker.loops)) (grown.trans ask.grown).length_le batch content (inv.master.epochs _ _ found)
    (by rw [waiting, asker.counter, count])
  have leads := Machine.leads_trans _ _ s asked t ask.leads (Machine.leads_trans _ _ asked answered t answer.leads take.leads)
  have same : (t.slave q).writeTxBuffer = (s.slave q).writeTxBuffer ∧ (t.slave q).pc = .loop := by
    rw [take.others q different, sender.queue, idle]
    exact ⟨rfl, sender.loops⟩
  have apart : ∀ x, x ≠ r → x ≠ q → t.slave x = s.slave x := by
    intro x other different
    rw [take.others x other, answer.others x different, ask.others x other]
  refine ⟨t, leads, grown.trans (ask.grown.trans (answer.grown.trans take.grown)), fun x other => ?_, ?_, fun x listens => ?_⟩
  · by_cases own : x = q
    · rw [Sequencers.accepted, Slave.accepted, own, same.1]
      rfl
    · rw [Sequencers.accepted, apart x other own]
      rfl
  · have after := (sequencers_inv_reachable p t (Machine.leads_reachable _ _ s t reachable leads)).slave r replica
    have counter := after.count
    rw [Sequencers.accepted]
    omega
  · by_cases asker : x = r
    · exact .inl (asker ▸ loops)
    · by_cases own : x = q
      · exact .inl (own ▸ same.2)
      · rw [apart x asker own]
        exact listens

end

structure Levelling (p : Deployment) (up : List Nat) (net : List Datagram) (q n : Nat) (t : Sequencers) : Prop where
  grown : net <+: t.net
  reachable : (sequencers p).Reachable t
  listens : ∀ r ∈ up, (t.slave r).listens
  below : ∀ r ∈ up, t.accepted r ≤ n
  foremost : t.accepted q = n

theorem region_levels (p : Deployment) (up : List Nat) (net : List Datagram) (q n : Nat) (s : Sequencers)
    (method : p.exp = .proposedMethod) (member : q ∈ up) (slaves : ∀ r ∈ up, p.IsSlave r ∧ p.region r = p.region q)
    (levelling : Levelling p up net q n s) :
    ∃ t, (sequencers p).Leads (slavesOf (· ∈ up) net) s t ∧ (sequencers p).Reachable t ∧ ∀ r ∈ up, t.accepted r = n := by
  have closer : ∀ t, Levelling p up net q n t → ¬ (∀ r ∈ up, t.accepted r = n) →
      ∃ u, (sequencers p).Leads (slavesOf (· ∈ up) net) t u ∧ Levelling p up net q n u ∧
        (up.map (fun r => n - u.accepted r)).sum < (up.map (fun r => n - t.accepted r)).sum := by
    intro t levelling uneven
    obtain ⟨r, late⟩ := Classical.not_forall.mp uneven
    obtain ⟨inside, late⟩ := Classical.not_imp.mp late
    have behind : t.accepted r < n := Nat.lt_of_le_of_ne (levelling.below r inside) late
    have different : r ≠ q := fun same => late (same ▸ levelling.foremost)
    have peer : r ∈ p.regionPeers q := by
      simp only [Deployment.regionPeers, List.mem_filter, List.mem_range, decide_eq_true_eq]
      obtain ⟨⟨low, high⟩, region⟩ := slaves r inside
      exact ⟨high, low, different, region⟩
    obtain ⟨u, leads, grown, others, one_more, listens⟩ := passes_on p (· ∈ up) net t method r q levelling.reachable
      (slaves r inside).1 (slaves q member).1 peer inside member (levelling.listens r inside) (levelling.listens q member)
      levelling.grown (by rw [levelling.foremost]; exact behind)
    have ahead : ∀ x, t.accepted x ≤ u.accepted x := by
      intro x
      by_cases own : x = r
      · rw [own, one_more]
        exact Nat.le_succ _
      · exact Nat.le_of_eq (others x own).symm
    refine ⟨u, leads, ⟨grown, Machine.leads_reachable _ _ t u levelling.reachable leads,
      fun x member => listens x (levelling.listens x member), fun x member => ?_, ?_⟩, ?_⟩
    · by_cases own : x = r
      · rw [own, one_more]
        exact behind
      · rw [others x own]
        exact levelling.below x member
    · rw [others q different.symm, levelling.foremost]
    · refine List.sum_lt_sum _ _ (fun x _ => Nat.sub_le_sub_left (ahead x) n) ⟨r, inside, ?_⟩
      rw [one_more]
      omega
  obtain ⟨t, leads, reached, level⟩ := Machine.leads_until (sequencers p) (slavesOf (· ∈ up) net) (Levelling p up net q n)
    (fun t => ∀ r ∈ up, t.accepted r = n) (fun t => (up.map (fun r => n - t.accepted r)).sum) closer s levelling
  exact ⟨t, leads, reached.reachable, level⟩

structure Untouched (who : Nat → Prop) (s t : Sequencers) : Prop where
  master : t.master = s.master
  send : t.send = s.send
  others : ∀ x, ¬ who x → t.slave x = s.slave x

theorem slaves_untouched (p : Deployment) (who : Nat → Prop) (net : List Datagram) (s t : Sequencers)
    (leads : (sequencers p).Leads (slavesOf who net) s t) : Untouched who s t := by
  refine Machine.leads_relates (sequencers p) (slavesOf who net) (Untouched who) (fun s => ⟨rfl, rfl, fun _ _ => rfl⟩) ?_ ?_
    s t leads
  · intro s t u first rest
    exact ⟨rest.master.trans first.master, rest.send.trans first.send,
      fun x apart => (rest.others x apart).trans (first.others x apart)⟩
  · rintro s act t ⟨r, a, moves, _, rfl⟩ taken
    have apart : ∀ x, ¬ who x → x ≠ r := fun x apart same => apart (same ▸ moves)
    cases sequencers_step_cases p s t (0, .slave r a) taken with
    | slave | slaveExit => exact ⟨rfl, rfl, fun x other => Function.update_of_ne (apart x other) _ _⟩

def Database.serves (p : Deployment) (d : Database) (region : Int) (r : Nat) : Prop :=
  p.IsSlave r ∧ p.region r = region ∧ d.intake.flag r = 0 ∧ d.running r = true

instance (p : Deployment) (d : Database) (region : Int) (r : Nat) : Decidable (d.serves p region r) :=
  inferInstanceAs (Decidable (_ ∧ _))

def DatabaseAct.ofSlaves (who : Nat → Prop) (net : List Datagram) : DatabaseAct → Prop
  | .sequencers (.slave r act) => who r ∧ HandsCopies who net (.slave r act)
  | _ => False

theorem database_slaves_lead (p : Deployment) (writeRate : Nat) (who : Nat → Prop) (net : List Datagram) (d : Database)
    (t : Sequencers) (flags : ∀ r, who r → d.intake.flag r = 0)
    (leads : (sequencers p).Leads (slavesOf who net) d.replicas.sequencers t) :
    (database p writeRate).Leads (DatabaseAct.ofSlaves who net) d
      { d with replicas := { d.replicas with sequencers := t } } := by
  obtain ⟨e, embedded, rfl⟩ := Machine.leads_embeds (sequencers p) (database p writeRate) (slavesOf who net)
    (DatabaseAct.ofSlaves who net) (fun s e => e = { d with replicas := { d.replicas with sequencers := s } }) (by
      rintro s e act t rfl ⟨r, a, moves, copies, rfl⟩ taken
      refine ⟨.sequencers (.slave r a), _, ⟨moves, copies⟩, ?_, rfl⟩
      have flag := flags r moves
      have moved : Sequencers.step p s (0, .slave r a) = some t := taken
      simp [database, Database.step, Database.inside, SequencersAct.node, flag, Replicas.step, moved])
    d.replicas.sequencers t d rfl leads
  exact embedded

def Slave.batches (slave : Slave) : List (Int16 × List WireTx) := slave.writeTxBuffer.entered.map Batch.content

structure Recovered (p : Deployment) (d : Database) (region : Int) (t : Sequencers) : Prop where
  untouched : Untouched (d.serves p region) d.replicas.sequencers t
  all : ∀ r x, d.serves p region r → d.serves p region x →
    (d.replicas.sequencers.slave x).batches <+: (t.slave r).batches
  level : ∀ r, d.serves p region r →
    ∃ q, d.serves p region q ∧ (t.slave r).batches = (d.replicas.sequencers.slave q).batches
  logged : ∀ r, d.serves p region r → ∀ k c, k < t.accepted r → t.master.confirmed[k]? = some c →
    LogCarries batchLogSize (t.slave r).batchLog k c
  answered : ∀ r x c, d.serves p region r → d.serves p region x → p.IsConnection x c →
    ∀ w ∈ (d.intake.conn (x, c)).client.submitted,
      (d.intake.conn (x, c)).client.pc = .waiting ∧ w = (d.intake.conn (x, c)).client.sendTx.wire ∨
        w ∈ (t.slave r).writeTxBuffer.entered.flatMap Batch.wire

theorem fewer_batches (confirmed : List Batch) (one other : Slave) (inv : SlaveInv confirmed one)
    (other_inv : SlaveInv confirmed other) (fewer : one.accepted ≤ other.accepted) : one.batches <+: other.batches :=
  List.prefix_of_prefix_length_le inv.delivered other_inv.delivered
    (by simpa only [Slave.batches, Slave.accepted, List.length_map] using fewer)

theorem answered_listed (p : Deployment) (writeRate : Nat) (d : Database) (x c : Nat) (w : WireTx)
    (reachable : (database p writeRate).Reachable d) (replica : p.IsSlave x) (connection : p.IsConnection x c)
    (submitted : w ∈ (d.intake.conn (x, c)).client.submitted) :
    (d.intake.conn (x, c)).client.pc = .waiting ∧ w = (d.intake.conn (x, c)).client.sendTx.wire ∨
      w ∈ (d.replicas.sequencers.slave x).writeTxBuffer.entered.flatMap Batch.wire := by
  have exec := (database_nodes_inv p writeRate d reachable).replicas x (.inr replica)
  have own : d.replicas.sequencers.queue x = (d.replicas.sequencers.slave x).writeTxBuffer :=
    if_neg (Nat.ne_of_gt replica.1)
  refine ((submitted_applied_reachable p writeRate d x c reachable connection).applied w submitted).imp_right fun done => ?_
  obtain ⟨k, i, applied⟩ := done
  rw [← own]
  exact (executed_queue _ _ exec).subset (List.mem_of_getElem? applied.executed)

theorem region_recovers (p : Deployment) (writeRate : Nat) (d : Database) (region : Int) (method : p.exp = .proposedMethod)
    (reachable : (database p writeRate).Reachable d) :
    ∃ t, (database p writeRate).Leads (DatabaseAct.ofSlaves (d.serves p region) d.replicas.sequencers.net) d
        { d with replicas := { d.replicas with sequencers := t } } ∧
      Recovered p d region t := by
  have inner := Machine.projects_reachable _ _ _ (replicas_projects p) d.replicas
    (database_replicas_reachable p writeRate d reachable)
  have inv := sequencers_inv_reachable p d.replicas.sequencers inner
  obtain ⟨up, serving⟩ : ∃ up : List Nat, ∀ r, r ∈ up ↔ d.serves p region r := by
    refine ⟨(List.range p.replicaNum).filter (fun r => d.serves p region r), fun r => ?_⟩
    simp only [List.mem_filter, List.mem_range, decide_eq_true_eq, and_iff_right_iff_imp]
    exact fun serves => serves.1.2
  by_cases some_up : ∃ r, d.serves p region r
  · obtain ⟨one, one_up⟩ := some_up
    obtain ⟨q, member, most⟩ := up.toFinset.exists_max_image d.replicas.sequencers.accepted
      ⟨one, List.mem_toFinset.mpr ((serving one).mpr one_up)⟩
    have foremost := (serving q).mp (List.mem_toFinset.mp member)
    obtain ⟨t, leads, reached, level⟩ := region_levels p up d.replicas.sequencers.net q (d.replicas.sequencers.accepted q)
      d.replicas.sequencers method (List.mem_toFinset.mp member)
      (fun r inside => ⟨((serving r).mp inside).1, ((serving r).mp inside).2.1.trans foremost.2.1.symm⟩)
      ⟨List.prefix_rfl, inner, fun r inside => replica_works p writeRate r d reachable ((serving r).mp inside).1
        ((serving r).mp inside).2.2.1 ((serving r).mp inside).2.2.2, fun r inside => most r (List.mem_toFinset.mpr inside), rfl⟩
    have leads := Machine.leads_weaken _ _ (slavesOf (d.serves p region) d.replicas.sequencers.net) _ t
      (fun act kind => by rwa [show d.serves p region = (· ∈ up) from funext fun r => propext (serving r).symm]) leads
    have untouched := slaves_untouched p _ _ _ t leads
    have after := sequencers_inv_reachable p t reached
    have before : ∀ x, p.IsSlave x → SlaveInv t.master.confirmed (d.replicas.sequencers.slave x) := by
      intro x replica
      rw [untouched.master]
      exact inv.slave x replica
    have all : ∀ r x, d.serves p region r → d.serves p region x →
        (d.replicas.sequencers.slave x).batches <+: (t.slave r).batches := by
      intro r x serves other
      have bound := most x (List.mem_toFinset.mpr ((serving x).mpr other))
      exact fewer_batches _ _ _ (before x other.1) (after.slave r serves.1)
        (Nat.le_trans bound (Nat.le_of_eq (level r ((serving r).mpr serves)).symm))
    refine ⟨t, database_slaves_lead p writeRate _ _ d t (fun r serves => serves.2.2.1) leads, untouched, all,
      fun r serves => ⟨q, foremost, ?_⟩, fun r serves k c inside found => (after.slave r serves.1).logged k c inside found,
      fun r x c serves other connection w submitted => ?_⟩
    · refine List.IsPrefix.eq_of_length_le (fewer_batches _ _ _ (after.slave r serves.1) (before q foremost.1) ?_)
        (all r q serves foremost).length_le
      exact Nat.le_of_eq (level r ((serving r).mpr serves))
    · refine (answered_listed p writeRate d x c w reachable other.1 connection submitted).imp_right fun listed => ?_
      exact (content_flat_grows _ _ (all r x serves other)).subset listed
  · have nobody : ∀ r, ¬ d.serves p region r := fun r serves => some_up ⟨r, serves⟩
    exact ⟨d.replicas.sequencers, Machine.leads_refl _ _ d, ⟨rfl, rfl, fun _ _ => rfl⟩,
      fun r x serves => absurd serves (nobody r), fun r serves => absurd serves (nobody r),
      fun r serves => absurd serves (nobody r), fun r x c serves => absurd serves (nobody r)⟩

-- The master is asked to finish when slave 1 alone has got its first batch.
def masterLeaves : List DatabaseAct := firstAnswered ++ [.finish 0]

theorem region_recovers_first_batch : ∃ d, afterActs masterLeaves = some d ∧
    (d.replicas.sequencers.slave 1).nextBatchEpochId = 1 ∧ (d.replicas.sequencers.slave 2).nextBatchEpochId = 0 ∧
      ∃ t, (database (configuration .proposedMethod) 50).Leads
          (DatabaseAct.ofSlaves (d.serves (configuration .proposedMethod) 0) d.replicas.sequencers.net) d
          { d with replicas := { d.replicas with sequencers := t } } ∧
        Recovered (configuration .proposedMethod) d 0 t := by
  have ends : (afterActs masterLeaves).map (fun d =>
      ((d.replicas.sequencers.slave 1).nextBatchEpochId, (d.replicas.sequencers.slave 2).nextBatchEpochId)) =
        some (1, 0) := by
    decide +kernel
  obtain ⟨d, ran, ends⟩ := Option.map_eq_some_iff.mp ends
  obtain ⟨one, two⟩ := Prod.mk.inj ends
  exact ⟨d, ran, one, two, region_recovers (configuration .proposedMethod) 50 d 0 rfl
    (Machine.reachable_exec _ masterLeaves _ d .init ran)⟩

end EpochReplication
