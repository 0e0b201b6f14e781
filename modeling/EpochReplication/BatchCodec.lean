import EpochReplication.MessageCodec

set_option autoImplicit false

namespace EpochReplication

-- The significant prefix of a BATCH message: its first 5 + 11 * txs.length
-- bytes. Whatever follows them is not looked at.
structure CarriesBatch (msg : Buf) (epochId : Int16) (txs : List WireTx) : Prop where
  type : checkMsg msg .batchMessage = true
  epoch : getShortIntFromBytes msg batchEpochIdOffset = epochId
  txNum : getShortIntFromBytes msg batchTxNumOffset = Int16.ofNat txs.length
  txs : ∀ i (bound : i < txs.length), wireAt (.at (batchTxInfoOffset + batchTxInfoMessageSize * i)) msg = txs[i]

def batchMsgLength (txs : List WireTx) : Nat := batchTxInfoOffset + batchTxInfoMessageSize * txs.length

theorem batch_msg_length_le (txs : List WireTx) (fits : txs.length ≤ maxBatchSize) : batchMsgLength txs ≤ 995 := by
  simp only [maxBatchSize] at fits
  simp [batchMsgLength]
  omega

theorem carries_batch_agree (a b : Buf) (epochId : Int16) (txs : List WireTx)
    (agree : Agree (batchMsgLength txs) a b) (carries : CarriesBatch a epochId txs) : CarriesBatch b epochId txs := by
  simp only [batchMsgLength, batchTxInfoOffset, batchTxInfoMessageSize, batchTxNumOffset, batchEpochIdOffset, msgTypeOffset,
    batchTxInfoTxValueOffset, batchTxInfoTxKeyOffset, batchTxInfoTxTypeOffset, batchTxInfoTxIdOffset,
    batchTxInfoClientIdOffset, batchTxInfoReplicaIdOffset] at agree
  refine ⟨?_, ?_, ?_, ?_⟩
  · rw [← check_msg_agree _ a b _ agree (by omega)]
    exact carries.type
  · rw [← get_short_agree _ a b _ agree (by simp; omega)]
    exact carries.epoch
  · rw [← get_short_agree _ a b _ agree (by simp)]
    exact carries.txNum
  · intro i bound
    rw [← carries.txs i bound]
    apply wire_at_congr
    intro j _ high
    simp at high
    exact (agree j (by omega)).symm

theorem carries_batch_epoch (msg : Buf) (epochId : Int16) (txs : List WireTx) (carries : CarriesBatch msg epochId txs) :
    getEpochIdFromBatchMeg msg = epochId.toInt :=
  congrArg Int16.toInt carries.epoch

theorem set_batch_txs_length (msg : Buf) (offset : Nat) (txs : List Tx) :
    (setBatchTxs msg offset txs).2 = offset + batchTxInfoMessageSize * txs.length := by
  induction txs generalizing msg offset with
  | nil => rfl
  | cons tx rest ih =>
      rw [setBatchTxs, ih, List.length_cons, Nat.mul_succ]
      omega

theorem batch_info_layout (offset : Nat) : batchTxInfoLayout offset = .at offset := rfl

theorem set_batch_txs_outside (msg : Buf) (offset : Nat) (txs : List Tx) (i : Nat)
    (out : i < offset ∨ offset + batchTxInfoMessageSize * txs.length ≤ i) : (setBatchTxs msg offset txs).1 i = msg i := by
  induction txs generalizing msg offset with
  | nil => rfl
  | cons tx rest ih =>
      simp at out
      rw [setBatchTxs, ih _ _ (by simp; omega), batch_info_layout]
      exact set_tx_outside offset msg tx i (by omega)

theorem set_batch_txs_wire (msg : Buf) (offset : Nat) (txs : List Tx) (i : Nat) (bound : i < txs.length) :
    wireAt (.at (offset + batchTxInfoMessageSize * i)) (setBatchTxs msg offset txs).1 = txs[i].wire := by
  induction txs generalizing msg offset i with
  | nil => simp at bound
  | cons tx rest ih =>
      cases i with
      | zero =>
          rw [setBatchTxs, batch_info_layout, List.getElem_cons_zero, ← wire_at_set offset msg tx]
          apply wire_at_congr
          intro j low high
          exact set_batch_txs_outside _ _ rest j (by simp at high ⊢; omega)
      | succ i =>
          have next := ih (setTxToBytes (batchTxInfoLayout offset) msg tx) (offset + batchTxInfoMessageSize) i
            (by simpa using bound)
          rw [List.getElem_cons_succ, ← next, setBatchTxs, Nat.mul_succ]
          congr 2
          omega

theorem create_batch_length (batch : Batch) (msg : Buf) :
    (createBatchMsg batch msg).2 = batchMsgLength batch.wire := by
  simp only [createBatchMsg, set_batch_txs_length, batchMsgLength, Batch.wire, List.length_map]

theorem create_batch_outside (batch : Batch) (msg : Buf) (i : Nat) (out : (createBatchMsg batch msg).2 ≤ i) :
    (createBatchMsg batch msg).1 i = msg i := by
  simp only [create_batch_length, batchMsgLength, Batch.wire, List.length_map] at out
  have after : 5 ≤ i := by simp at out; omega
  rw [createBatchMsg, set_batch_txs_outside _ _ _ i (.inr out), setShortIntToBytes, setShortIntToBytes, setCharToBytes]
  simp (disch := simp; omega) only [memcpy_outside]

theorem create_batch_carries (batch : Batch) (msg : Buf) :
    CarriesBatch (createBatchMsg batch msg).1 batch.epochId batch.wire := by
  have header : Agree 5 (createBatchMsg batch msg).1
      (setShortIntToBytes (setShortIntToBytes (setCharToBytes msg 0 MessageType.batchMessage.code) 1 batch.epochId) 3
        batch.txNum) :=
    fun i bound => set_batch_txs_outside _ _ batch.txSet i (.inl (by simpa using bound))
  refine ⟨?_, ?_, ?_, ?_⟩
  · rw [check_msg_agree 5 _ _ _ header (by omega), check_msg_eq]
    simp (disch := omega) only [setShortIntToBytes, msgTypeOffset, get_type_after]
    exact get_char_set msg 0 _
  · rw [get_short_agree 5 _ _ _ header (by simp), batchEpochIdOffset, msgTypeOffset]
    rw [setShortIntToBytes, get_short_apart _ _ 3 2 _ (.inl (by omega))]
    exact get_short_set _ 1 batch.epochId
  · rw [get_short_agree 5 _ _ _ header (by simp), Batch.wire, List.length_map]
    exact get_short_set _ 3 batch.txNum
  · intro i bound
    simp only [Batch.wire, List.getElem_map]
    exact set_batch_txs_wire _ _ batch.txSet i (by simpa [Batch.wire] using bound)

theorem get_batch_txs_epoch (msg : Buf) (n offset : Nat) (batch : Batch) :
    (getBatchTxs msg n offset batch).epochId = batch.epochId := by
  induction n generalizing offset batch with
  | zero => rfl
  | succ n ih => rw [getBatchTxs, ih, batch_add_epoch]

theorem get_batch_txs_wire (msg : Buf) (n offset : Nat) (batch : Batch) (txs : List WireTx)
    (room : batch.txSet.length + n ≤ maxBatchSize) (count : txs.length = n)
    (stored : ∀ i (bound : i < txs.length), wireAt (.at (offset + batchTxInfoMessageSize * i)) msg = txs[i]) :
    (getBatchTxs msg n offset batch).wire = batch.wire ++ txs := by
  induction n generalizing offset batch txs with
  | zero =>
      rw [List.eq_nil_of_length_eq_zero count, List.append_nil]
      rfl
  | succ n ih =>
      cases txs with
      | nil => simp at count
      | cons first rest =>
          obtain ⟨added, _⟩ := batch_add_room batch (getTxFromBytes (batchTxInfoLayout offset) msg createTx) (by omega)
          have head : wireAt (.at offset) msg = first := stored 0 (by simp)
          rw [getBatchTxs, ih (offset + batchTxInfoMessageSize) _ rest]
          · rw [Batch.wire, added, List.map_append, List.map_singleton, List.append_assoc, List.singleton_append,
              get_tx_wire, batch_info_layout, head]
            rfl
          · rw [added, List.length_append, List.length_singleton]
            omega
          · simpa using count
          · intro i bound
            have later := stored (i + 1) (by simpa using bound)
            rw [List.getElem_cons_succ, Nat.mul_succ] at later
            rw [← later]
            congr 2
            omega

theorem get_info_from_batch_carried (msg : Buf) (epochId : Int16) (txs : List WireTx) (batch : Batch)
    (carries : CarriesBatch msg epochId txs) (fits : txs.length ≤ maxBatchSize) (empty : batch.txSet = []) :
    (getInfoFromBatchMsg msg batch).epochId = epochId ∧ (getInfoFromBatchMsg msg batch).wire = txs := by
  have count : (getShortIntFromBytes msg batchTxNumOffset).toInt.toNat = txs.length := by
    unfold maxBatchSize at fits
    rw [carries.txNum, Int16.toInt_ofNat_of_lt (by omega), Int.toNat_natCast]
  refine ⟨?_, ?_⟩
  · rw [getInfoFromBatchMsg, get_batch_txs_epoch]
    exact carries.epoch
  · rw [getInfoFromBatchMsg, count]
    refine (get_batch_txs_wire msg _ _ _ txs ?_ rfl carries.txs).trans ?_
    · simpa [empty] using fits
    · simp [Batch.wire, empty]

-- `later` is the buffer when it is decoded: only the bytes that create_batch_msg
-- reported are still what it wrote.
theorem batch_codec_round_trip (batch : Batch) (msg later : Buf) (other : Int16)
    (kept : Agree (createBatchMsg batch msg).2 (createBatchMsg batch msg).1 later) :
    (createBatchMsg batch msg).2 = 5 + 11 * batch.txNum.toInt ∧ (createBatchMsg batch msg).2 ≤ 995 ∧
      (∀ i, (createBatchMsg batch msg).2 ≤ i → (createBatchMsg batch msg).1 i = msg i) ∧
      (getInfoFromBatchMsg later (batchCreate other)).epochId = batch.epochId ∧
      (getInfoFromBatchMsg later (batchCreate other)).txNum = batch.txNum ∧
      (getInfoFromBatchMsg later (batchCreate other)).txSet.map Tx.wire = batch.txSet.map Tx.wire ∧
      getEpochIdFromBatchMeg later = batch.epochId.toInt := by
  have length := create_batch_length batch msg
  have fits : batch.wire.length ≤ maxBatchSize := by simpa [Batch.wire] using batch.fits
  have carries : CarriesBatch later batch.epochId batch.wire :=
    carries_batch_agree _ later batch.epochId batch.wire (length ▸ kept) (create_batch_carries batch msg)
  obtain ⟨epoch, txs⟩ := get_info_from_batch_carried later batch.epochId batch.wire (batchCreate other) carries fits rfl
  have same_number : (getInfoFromBatchMsg later (batchCreate other)).txSet.length = batch.txSet.length := by
    simpa [Batch.wire] using congrArg List.length txs
  refine ⟨?_, ?_, create_batch_outside batch msg, epoch, ?_, txs, carries_batch_epoch later _ _ carries⟩
  · rw [length, batch_tx_num, batchMsgLength, Batch.wire, List.length_map]
    simp
  · rw [length]
    exact batch_msg_length_le batch.wire fits
  · rw [Batch.txNum, Batch.txNum, same_number]

def sampleTx : Tx :=
  setClientInfoToTx (modifyToWriteTx createTx 10 (-20)) 1 2 3

theorem batch_codec_round_trip_sample :
    (getInfoFromBatchMsg (createBatchMsg (batchAddTx (batchCreate 10) sampleTx).1 (fun _ => 255)).1
      (batchCreate (-1))).epochId = 10 :=
  (batch_codec_round_trip (batchAddTx (batchCreate 10) sampleTx).1 (fun _ => 255) _ (-1) (fun _ _ => rfl)).2.2.2.1

end EpochReplication
