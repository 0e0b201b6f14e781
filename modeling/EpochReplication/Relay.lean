import EpochReplication.SendInvariant

set_option autoImplicit false

namespace EpochReplication

-- A batch goes on to the next node: the buffers it passes through with what they
-- held before, the log of that node, and the replies of the kernel on both ends.
structure Hop where
  sendMsg : Buf
  readIo : LogIo
  replicaId : Nat
  recvMsg : Buf
  batchLog : Option File
  appendIo : LogIo

def relayHop (epochId : Int) (file : File) (hop : Hop) : Outcome File :=
  match readLog (some file) hop.sendMsg epochId hop.readIo with
  | .exited => .exited
  | .blocked => .blocked
  | .returned (sendMsg, sendMsgLen) =>
      let received := udpSvReceiveMsg hop.recvMsg batchLogSize ⟨.slaveSequencer hop.replicaId, sendMsg, sendMsgLen.toNat⟩
      appendLog hop.batchLog received.1 received.2 (getEpochIdFromBatchMeg received.1) hop.appendIo

def relay (epochId : Int) : File → List Hop → Outcome File
  | file, [] => .returned file
  | file, hop :: rest =>
      match relayHop epochId file hop with
      | .exited => .exited
      | .blocked => .blocked
      | .returned next => relay epochId next rest

def logBatch (batch : Batch) (batchMsg : Buf) (log : Option File) (io : LogIo) : Outcome File :=
  let (msg, len) := createBatchMsg batch batchMsg
  appendLog log msg len batch.epochId.toInt io

structure Hop.Succeeds (hop : Hop) : Prop where
  read : hop.readIo.Succeeds
  append : hop.appendIo.Succeeds

theorem append_log_natural (log : Option File) (msg : Buf) (len epochId : Int) (io : LogIo) (file : File)
    (done : appendLog log msg len epochId io = .returned file) : ∃ epoch : Nat, epochId = epoch := by
  by_cases negative : epochId < 0
  · rw [append_log_negative log msg len epochId io negative] at done
    cases done
  · exact Int.eq_ofNat_of_zero_le (by omega)

theorem log_batch_carries (batch : Batch) (batchMsg : Buf) (log : Option File) (io : LogIo) (file : File)
    (done : logBatch batch batchMsg log io = .returned file) :
    ∃ epoch : Nat, batch.epochId.toInt = epoch ∧ LogCarries batchLogSize (some file) epoch batch := by
  obtain ⟨epoch, same⟩ := append_log_natural _ _ _ _ io file done
  have length := create_batch_length batch batchMsg
  have fits := batch_msg_fits batch
  simp only [logBatch, same] at done
  exact ⟨epoch, same, log_carries_append batchLogSize log _ _ epoch batch io file (Nat.le_refl _)
    (Nat.le_of_eq length.symm) (by unfold batchLogSize; omega) (create_batch_carries batch batchMsg) done⟩

theorem relay_hop_carries (batch : Batch) (epoch : Nat) (file next : File) (hop : Hop)
    (number : batch.epochId.toInt = epoch) (carries : LogCarries batchLogSize (some file) epoch batch)
    (done : relayHop epoch file hop = .returned next) : LogCarries batchLogSize (some next) epoch batch := by
  unfold relayHop at done
  split at done
  · cases done
  · cases done
  · rename_i sendMsg sendMsgLen read
    obtain ⟨length, content⟩ := log_carries_read batchLogSize (some file) hop.sendMsg epoch batch hop.readIo sendMsg
      sendMsgLen (Nat.le_refl _) carries read
    have arrived := receive_batch hop.recvMsg sendMsg (.slaveSequencer hop.replicaId) batch content
    simp only [length, Int.toNat_natCast, carries_batch_epoch _ _ _ arrived, number] at done
    exact log_carries_append batchLogSize hop.batchLog _ _ epoch batch hop.appendIo next (Nat.le_refl _)
      (Nat.le_trans (batch_msg_fits batch) (by decide)) (Nat.le_refl _) arrived done

theorem relay_carries (batch : Batch) (epoch : Nat) (hops : List Hop) (file last : File)
    (number : batch.epochId.toInt = epoch) (carries : LogCarries batchLogSize (some file) epoch batch)
    (done : relay epoch file hops = .returned last) : LogCarries batchLogSize (some last) epoch batch := by
  induction hops generalizing file with
  | nil =>
      cases done
      exact carries
  | cons hop rest ih =>
      rw [relay] at done
      split at done
      · cases done
      · cases done
      · rename_i next hopped
        exact ih next (relay_hop_carries batch epoch file next hop number carries hopped) done

theorem relay_hop_progress (batch : Batch) (epoch : Nat) (file : File) (hop : Hop) (number : batch.epochId.toInt = epoch)
    (carries : LogCarries batchLogSize (some file) epoch batch) (succeeds : hop.Succeeds) :
    ∃ next, relayHop epoch file hop = .returned next := by
  obtain ⟨sendMsg, read⟩ := read_log_progress (some file) hop.sendMsg epoch hop.readIo
    (log_carries_holds _ _ _ _ carries) succeeds.read
  obtain ⟨_, content⟩ := log_carries_read batchLogSize (some file) hop.sendMsg epoch batch hop.readIo sendMsg _
    (Nat.le_refl _) carries read
  have arrived := receive_batch hop.recvMsg sendMsg (.slaveSequencer hop.replicaId) batch content
  simp only [relayHop, read, Int.toNat_natCast, carries_batch_epoch _ _ _ arrived, number]
  exact append_log_progress _ _ _ epoch hop.appendIo succeeds.append

theorem relay_progress (batch : Batch) (epoch : Nat) (hops : List Hop) (file : File) (number : batch.epochId.toInt = epoch)
    (carries : LogCarries batchLogSize (some file) epoch batch) (succeeds : ∀ hop ∈ hops, hop.Succeeds) :
    ∃ last, relay epoch file hops = .returned last := by
  induction hops generalizing file with
  | nil => exact ⟨file, rfl⟩
  | cons hop rest ih =>
      obtain ⟨next, hopped⟩ := relay_hop_progress batch epoch file hop number carries (succeeds hop (by simp))
      obtain ⟨last, done⟩ := ih next (relay_hop_carries batch epoch file next hop number carries hopped)
        (fun later member => succeeds later (List.mem_cons_of_mem _ member))
      exact ⟨last, by simp only [relay, hopped, done]⟩

-- `later` is the buffer the message is decoded from: it holds the bytes of the
-- datagram, and anything after them.
def Decodes (batch : Batch) (msg : Buf) (len : Int) : Prop :=
  ∀ (later : Buf) (other : Int16), Agree len.toNat msg later →
    (getInfoFromBatchMsg later (batchCreate other)).epochId = batch.epochId ∧
      (getInfoFromBatchMsg later (batchCreate other)).wire = batch.wire

theorem relayed_message_decodes (batch : Batch) (batchMsg : Buf) (log : Option File) (io : LogIo) (hops : List Hop) :
    (∀ first last old readIo msg len, logBatch batch batchMsg log io = .returned first →
      relay batch.epochId.toInt first hops = .returned last →
      readLog (some last) old batch.epochId.toInt readIo = .returned (msg, len) → Decodes batch msg len) ∧
    (0 ≤ batch.epochId.toInt → io.Succeeds → (∀ hop ∈ hops, hop.Succeeds) →
      ∃ first last, logBatch batch batchMsg log io = .returned first ∧
        relay batch.epochId.toInt first hops = .returned last ∧
        ∀ old readIo, readIo.Succeeds →
          ∃ msg, readLog (some last) old batch.epochId.toInt readIo = .returned (msg, batchLogSize)) := by
  constructor
  · intro first last old readIo msg len logged relayed read later other agree
    obtain ⟨epoch, number, carries⟩ := log_batch_carries batch batchMsg log io first logged
    rw [number] at relayed read
    have kept := relay_carries batch epoch hops first last number carries relayed
    obtain ⟨length, content⟩ := log_carries_read batchLogSize (some last) old epoch batch readIo msg len (Nat.le_refl _)
      kept read
    rw [length, Int.toNat_natCast] at agree
    have fits := batch_msg_fits batch
    have same := carries_batch_agree msg later batch.epochId batch.wire
      (agree_mono _ _ _ _ (by unfold batchLogSize; omega) agree) content
    exact get_info_from_batch_carried later batch.epochId batch.wire (batchCreate other) same (batch_wire_fits batch) rfl
  · intro natural succeeds each
    obtain ⟨epoch, number⟩ := Int.eq_ofNat_of_zero_le natural
    obtain ⟨first, wrote⟩ := append_log_progress log (createBatchMsg batch batchMsg).1 (createBatchMsg batch batchMsg).2
      epoch io succeeds
    have logged : logBatch batch batchMsg log io = .returned first := by
      rw [logBatch, number]
      exact wrote
    obtain ⟨written, same, carries⟩ := log_batch_carries batch batchMsg log io first logged
    obtain rfl : epoch = written := by omega
    rw [number]
    obtain ⟨last, relayed⟩ := relay_progress batch epoch hops first number carries each
    have kept := relay_carries batch epoch hops first last number carries relayed
    exact ⟨first, last, logged, relayed, fun old readIo more =>
      read_log_progress (some last) old epoch readIo (log_carries_holds _ _ _ _ kept) more⟩

def sampleHop : Hop := ⟨fun _ => 170, fullIo, 1, fun _ => 187, none, fullIo⟩

theorem relayed_message_decodes_two_hops : ∃ first last msg,
    logBatch (batchAddTx (batchCreate 7) sampleTx).1 (fun _ => 255) none fullIo = .returned first ∧
      relay 7 first [sampleHop, sampleHop] = .returned last ∧
      readLog (some last) (fun _ => 204) 7 fullIo = .returned (msg, batchLogSize) ∧
      Decodes (batchAddTx (batchCreate 7) sampleTx).1 msg batchLogSize := by
  have relays := relayed_message_decodes (batchAddTx (batchCreate 7) sampleTx).1 (fun _ => 255) none fullIo
    [sampleHop, sampleHop]
  have hop : sampleHop.Succeeds := ⟨full_io_succeeds, full_io_succeeds⟩
  obtain ⟨first, last, logged, relayed, read⟩ := relays.2 (by decide) full_io_succeeds (by simpa using hop)
  obtain ⟨msg, read⟩ := read (fun _ => 204) fullIo full_io_succeeds
  exact ⟨first, last, msg, logged, relayed, read, relays.1 first last _ fullIo msg _ logged relayed read⟩

end EpochReplication
