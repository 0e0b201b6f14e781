import EpochReplication.BatchCodec
import EpochReplication.LogRecord

set_option autoImplicit false

namespace EpochReplication

-- Record `epoch` of the log is a BATCH message for `batch`, stored with a length
-- of at most `limit`. The master stores the length it encoded the batch with, a
-- slave the 1024 bytes in which read_log has passed it on.
def LogCarries (limit : Nat) (log : Option File) (epoch : Nat) (batch : Batch) : Prop :=
  ∃ len msg, Recorded log epoch len msg ∧ batchMsgLength batch.wire ≤ len ∧ len ≤ limit ∧
    CarriesBatch msg batch.epochId batch.wire

def batchLogRoom : Nat := batchLogSize - batchLogDataOffset

theorem batch_wire_fits (batch : Batch) : batch.wire.length ≤ maxBatchSize := by
  simpa [Batch.wire] using batch.fits

theorem batch_msg_fits (batch : Batch) : batchMsgLength batch.wire ≤ 995 :=
  batch_msg_length_le batch.wire (batch_wire_fits batch)

theorem log_carries_holds (limit : Nat) (log : Option File) (epoch : Nat) (batch : Batch)
    (carries : LogCarries limit log epoch batch) :
    HoldsRecord log epoch := by
  obtain ⟨_, _, recorded, _⟩ := carries
  exact recorded.holds

theorem log_carries_length (limit : Nat) (log : Option File) (epoch : Nat) (batch : Batch) (record : limit ≤ batchLogSize)
    (carries : LogCarries limit log epoch batch) :
    ∃ len : Nat, readLogLength log epoch = some (len : Int) ∧ len ≤ limit := by
  obtain ⟨len, msg, recorded, _, small, _⟩ := carries
  exact ⟨len, recorded_length log epoch len msg (by unfold batchLogSize at record; omega) recorded, small⟩

theorem log_carries_read (limit : Nat) (log : Option File) (old : Buf) (epoch : Nat) (batch : Batch) (io : LogIo)
    (out : Buf) (result : Int) (record : limit ≤ batchLogSize) (carries : LogCarries limit log epoch batch)
    (done : readLog log old epoch io = .returned (out, result)) :
    result = batchLogSize ∧ CarriesBatch out batch.epochId batch.wire := by
  obtain ⟨len, msg, recorded, long, small, content⟩ := carries
  have fits := batch_msg_fits batch
  obtain ⟨length, agree⟩ := read_log_recorded log old epoch len msg io out result
    (by unfold batchLogSize at record; omega) recorded done
  have same : Agree (batchMsgLength batch.wire) msg out :=
    agree_symm _ _ _ (agree_mono _ _ _ _ (by omega) agree)
  exact ⟨length, carries_batch_agree msg out batch.epochId batch.wire same content⟩

theorem log_carries_append (limit : Nat) (log : Option File) (msg : Buf) (len epoch : Nat) (batch : Batch) (io : LogIo)
    (file : File) (record : limit ≤ batchLogSize) (long : batchMsgLength batch.wire ≤ len) (small : len ≤ limit)
    (content : CarriesBatch msg batch.epochId batch.wire)
    (done : appendLog log msg len epoch io = .returned file) : LogCarries limit (some file) epoch batch :=
  ⟨len, msg, append_log_records log msg len epoch io file (by unfold batchLogSize at record; omega) done, long, small,
    content⟩

theorem log_carries_kept (limit : Nat) (log : Option File) (msg : Buf) (len : Int) (epoch other : Nat) (batch : Batch)
    (io : LogIo) (file : File) (different : other ≠ epoch) (done : appendLog log msg len epoch io = .returned file)
    (carries : LogCarries limit log other batch) : LogCarries limit (some file) other batch := by
  obtain ⟨otherLen, otherMsg, recorded, long, small, content⟩ := carries
  exact ⟨otherLen, otherMsg, append_log_keeps log msg len epoch io file done other otherLen otherMsg different recorded,
    long, small, content⟩

end EpochReplication
