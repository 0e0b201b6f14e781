import EpochReplication.LogRecord

set_option autoImplicit false

namespace EpochReplication

-- The results of the calls that a loop over read(2) or write(2) makes: `reply`
-- is what an answer comes to when `total` bytes have been moved before.
def transfers (reply : Nat → Answer → Option Nat) (goalSize : Nat) : List Answer → Nat → List Nat
  | [], _ => []
  | answer :: rest, total =>
      if total = goalSize then []
      else match reply total answer with
        | none => []
        | some size => size :: transfers reply goalSize rest (total + size)

def wrSizes (goalSize : Nat) (answers : List Answer) : List Nat :=
  transfers (fun total answer => answer.transfer (goalSize - total)) goalSize answers 0

def rdSizes (file : File) (offset goalSize : Nat) (answers : List Answer) : List Nat :=
  transfers (fun total answer => file.read (offset + total) (goalSize - total) answer) goalSize answers 0

structure MovesExactly (goalSize : Nat) (sizes : List Nat) : Prop where
  whole : sizes.sum = goalSize
  positive : ∀ size ∈ sizes, 1 ≤ size
  within : ∀ k, (sizes.take k).sum ≤ goalSize

theorem transfers_positive (reply : Nat → Answer → Option Nat) (goalSize : Nat) (answers : List Answer) (total : Nat)
    (within : total ≤ goalSize)
    (bounds : ∀ sofar answer size, sofar < goalSize → reply sofar answer = some size → 1 ≤ size ∧ size ≤ goalSize - sofar) :
    ∀ size ∈ transfers reply goalSize answers total, 1 ≤ size := by
  induction answers generalizing total with
  | nil => simp [transfers]
  | cons answer rest ih =>
      rw [transfers]
      split
      · simp
      · rename_i short
        cases replied : reply total answer with
        | none => simp
        | some size =>
            obtain ⟨low, high⟩ := bounds total answer size (by omega) replied
            intro moved member
            rcases List.mem_cons.mp member with rfl | later
            · exact low
            · exact ih (total + size) (by omega) moved later

theorem moves_exactly (goalSize : Nat) (sizes : List Nat) (whole : sizes.sum = goalSize)
    (positive : ∀ size ∈ sizes, 1 ≤ size) : MovesExactly goalSize sizes := by
  refine ⟨whole, positive, fun k => ?_⟩
  have split : (sizes.take k).sum + (sizes.drop k).sum = sizes.sum := by
    rw [← List.sum_append, List.take_append_drop]
  omega

theorem write_all_total (bytes : Buf) (offset goalSize : Nat) (answers : List Answer) (total : Nat) (file result : File)
    (done : writeAll bytes offset goalSize answers total file = .returned result) :
    total + (transfers (fun sofar answer => answer.transfer (goalSize - sofar)) goalSize answers total).sum = goalSize := by
  induction answers generalizing total file with
  | nil =>
      simp only [writeAll] at done
      split at done
      · rename_i complete
        simp [transfers, complete]
      · cases done
  | cons answer rest ih =>
      rw [writeAll] at done
      split at done
      · rename_i complete
        simp [transfers, complete]
      · rename_i short
        cases replied : answer.transfer (goalSize - total) with
        | none => simp [File.write, replied] at done
        | some size =>
            simp only [File.write, replied, Option.map_some] at done
            have later := ih (total + size) _ done
            simp only [transfers, if_neg short, replied, List.sum_cons]
            omega

theorem read_all_total (file : File) (offset goalSize : Nat) (answers : List Answer) (total : Nat) (start bytes : Buf)
    (done : readAll file offset goalSize answers total start = .returned bytes) :
    total + (transfers (fun sofar answer => file.read (offset + sofar) (goalSize - sofar) answer) goalSize answers total).sum =
      goalSize := by
  induction answers generalizing total start with
  | nil =>
      simp only [readAll] at done
      split at done
      · rename_i complete
        simp [transfers, complete]
      · cases done
  | cons answer rest ih =>
      rw [readAll] at done
      split at done
      · rename_i complete
        simp [transfers, complete]
      · rename_i short
        cases replied : file.read (offset + total) (goalSize - total) answer with
        | none => simp [replied] at done
        | some size =>
            simp only [replied] at done
            have later := ih (total + size) _ done
            simp only [transfers, if_neg short, replied, List.sum_cons]
            omega

theorem wr_sizes_exact (bytes : Buf) (offset goalSize : Nat) (answers : List Answer) (file result : File)
    (done : writeAll bytes offset goalSize answers 0 file = .returned result) :
    MovesExactly goalSize (wrSizes goalSize answers) := by
  have whole := write_all_total bytes offset goalSize answers 0 file result done
  refine moves_exactly _ _ (by simpa [wrSizes] using whole) ?_
  apply transfers_positive _ goalSize answers 0 (Nat.zero_le _)
  intro sofar answer size short replied
  exact transfer_bounds (goalSize - sofar) answer size (by omega) replied

theorem rd_sizes_exact (file : File) (offset goalSize : Nat) (answers : List Answer) (start bytes : Buf)
    (holds : offset + goalSize ≤ file.size) (done : readAll file offset goalSize answers 0 start = .returned bytes) :
    MovesExactly goalSize (rdSizes file offset goalSize answers) := by
  have whole := read_all_total file offset goalSize answers 0 start bytes done
  refine moves_exactly _ _ (by simpa [rdSizes] using whole) ?_
  apply transfers_positive _ goalSize answers 0 (Nat.zero_le _)
  intro sofar answer size short replied
  have bounds := transfer_bounds (min (goalSize - sofar) (file.size - (offset + sofar))) answer size (by omega) replied
  exact ⟨bounds.1, by omega⟩

structure LogAppend where
  epochId : Int
  msg : Buf
  len : Int
  io : LogIo

structure LogAppend.Proper (call : LogAppend) : Prop where
  epoch : 0 ≤ call.epochId
  offset : batchLogSize * call.epochId ≤ 2147483647
  low : 0 ≤ call.len
  len : call.len ≤ batchLogSize - 4
  io : call.io.Succeeds

-- create_log_info removes the file: the first call finds none.
def appendLogs : Option File → List LogAppend → Outcome (Option File)
  | log, [] => .returned log
  | log, call :: rest =>
      match appendLog log call.msg call.len call.epochId call.io with
      | .returned file => appendLogs (some file) rest
      | .exited => .exited
      | .blocked => .blocked

def latestAppend (calls : List LogAppend) (epochId : Int) : Option LogAppend :=
  calls.reverse.find? (fun call => call.epochId == epochId)

def Stores (log : Option File) (calls : List LogAppend) : Prop :=
  ∀ epochId call, latestAppend calls epochId = some call →
    Recorded log epochId.toNat call.len.toNat call.msg

theorem latest_append_snoc (calls : List LogAppend) (call : LogAppend) (epochId : Int) :
    latestAppend (calls ++ [call]) epochId = if call.epochId = epochId then some call else latestAppend calls epochId := by
  simp only [latestAppend, List.reverse_append, List.reverse_singleton, List.singleton_append, List.find?_cons]
  by_cases same : call.epochId = epochId
  · simp [same]
  · simp only [if_neg same, beq_eq_false_iff_ne.mpr same]

theorem latest_append_epoch (calls : List LogAppend) (epochId : Int) (call : LogAppend)
    (latest : latestAppend calls epochId = some call) : call ∈ calls ∧ call.epochId = epochId := by
  have found := List.find?_some latest
  exact ⟨List.mem_reverse.mp (List.mem_of_find?_eq_some latest), by simpa using found⟩

theorem latest_append_exists (calls : List LogAppend) (call : LogAppend) (member : call ∈ calls) :
    ∃ latest, latestAppend calls call.epochId = some latest := by
  apply Option.isSome_iff_exists.mp
  rw [latestAppend, List.find?_isSome]
  exact ⟨call, List.mem_reverse.mpr member, by simp⟩

theorem append_log_proper (log : Option File) (call : LogAppend) (proper : call.Proper) :
    ∃ file, appendLog log call.msg call.len call.epochId call.io = .returned file ∧
      MovesExactly batchLogSize (wrSizes batchLogSize call.io.answers) := by
  obtain ⟨epoch, same⟩ := Int.eq_ofNat_of_zero_le proper.epoch
  obtain ⟨file, done⟩ := append_log_progress log call.msg call.len epoch call.io proper.io
  refine ⟨file, by rw [same]; exact done, ?_⟩
  have ahead : ¬ batchLogSize * (epoch : Int) < 0 := by unfold batchLogSize; omega
  simp only [appendLog, proper.io.opened, if_neg ahead, Bool.true_eq_false, if_false] at done
  exact wr_sizes_exact _ _ batchLogSize _ _ file done

theorem append_log_frame (log : File) (call : LogAppend) (file : File) (other : Nat) (proper : call.Proper)
    (done : appendLog (some log) call.msg call.len call.epochId call.io = .returned file)
    (holds : recordOffset (other + 1) ≤ log.size) (different : (other : Int) ≠ call.epochId) :
    ∀ i, i < batchLogSize → file.data (recordOffset other + i) = log.data (recordOffset other + i) := by
  obtain ⟨epoch, same⟩ := Int.eq_ofNat_of_zero_le proper.epoch
  rw [same] at done different
  have written := append_log_written (some log) call.msg call.len epoch call.io file done
  have apart : other < epoch ∨ epoch < other := by omega
  intro i bound
  refine written.outside _ ?_ ?_
  · simp only [Option.getD_some]
    unfold recordOffset batchLogSize at *
    omega
  · unfold recordOffset batchLogSize at *
    omega

theorem stores_append (log : Option File) (calls : List LogAppend) (call : LogAppend) (file : File)
    (proper : call.Proper) (each : ∀ earlier ∈ calls, earlier.Proper) (stores : Stores log calls)
    (done : appendLog log call.msg call.len call.epochId call.io = .returned file) :
    Stores (some file) (calls ++ [call]) := by
  intro epochId latest found
  have low := proper.low
  have small := proper.len
  obtain ⟨epoch, same⟩ := Int.eq_ofNat_of_zero_le proper.epoch
  obtain ⟨len, length⟩ := Int.eq_ofNat_of_zero_le low
  rw [same] at done
  rw [latest_append_snoc] at found
  split at found
  · rename_i here
    cases found
    rw [← here, same, length, Int.toNat_natCast, Int.toNat_natCast]
    rw [length] at done
    exact append_log_records log call.msg len epoch call.io file (by unfold batchLogSize at small; omega) done
  · rename_i elsewhere
    obtain ⟨member, number⟩ := latest_append_epoch calls epochId latest found
    have natural := (each latest member).epoch
    exact append_log_keeps log call.msg call.len epoch call.io file done epochId.toNat _ _ (by omega)
      (stores epochId latest found)

theorem append_logs_store (log : Option File) (before calls : List LogAppend) (each : ∀ call ∈ before ++ calls, call.Proper)
    (stores : Stores log before) :
    ∃ after, appendLogs log calls = .returned after ∧ Stores after (before ++ calls) := by
  induction calls generalizing log before with
  | nil => exact ⟨log, rfl, by simpa using stores⟩
  | cons call rest ih =>
      have proper := each call (by simp)
      obtain ⟨file, done, _⟩ := append_log_proper log call proper
      have more := stores_append log before call file proper
        (fun earlier member => each earlier (List.mem_append_left _ member)) stores done
      obtain ⟨after, ran, kept⟩ := ih (some file) (before ++ [call]) (by simpa using each) more
      exact ⟨after, by simp only [appendLogs, done, ran], by simpa using kept⟩

structure ReadsBack (file : File) (call : LogAppend) (old : Buf) (io : LogIo) (out : Buf) : Prop where
  done : readLog (some file) old call.epochId io = .returned (out, batchLogSize)
  copied : Agree call.len.toNat out call.msg
  kept : ∀ i : Nat, call.len ≤ i → out i = old i
  moved : MovesExactly batchLogSize (rdSizes file (recordOffset call.epochId.toNat) batchLogSize io.answers)

theorem reads_back (file : File) (call : LogAppend) (old : Buf) (io : LogIo) (proper : call.Proper)
    (recorded : Recorded (some file) call.epochId.toNat call.len.toNat call.msg) (succeeds : io.Succeeds) :
    ∃ out, ReadsBack file call old io out := by
  obtain ⟨epoch, same⟩ := Int.eq_ofNat_of_zero_le proper.epoch
  obtain ⟨len, length⟩ := Int.eq_ofNat_of_zero_le proper.low
  have small := proper.len
  rw [length] at small
  rw [same, length, Int.toNat_natCast, Int.toNat_natCast] at recorded
  have room : len ≤ 1020 := by unfold batchLogSize at small; omega
  obtain ⟨out, done⟩ := read_log_progress (some file) old epoch io recorded.holds succeeds
  obtain ⟨_, agree⟩ := read_log_recorded (some file) old epoch len call.msg io out _ (by omega) recorded done
  obtain ⟨_, bytes, copied, _⟩ := read_log_copied file old epoch len call.msg io out _ (by omega) recorded done
  refine ⟨out, by rw [same]; exact done, ?_, ?_, ?_⟩
  · rw [length, Int.toNat_natCast]
    exact agree_mono _ _ _ _ (by omega) agree
  · intro i past
    rw [copied]
    exact memcpy_outside _ _ _ _ _ (.inr (by omega))
  · obtain ⟨file', equal, inside⟩ := recorded.holds
    cases equal
    have holds : recordOffset epoch + batchLogSize ≤ file.size := by simpa [recordOffset, Nat.mul_add] using inside
    obtain ⟨read, loop⟩ := read_all_progress file (recordOffset epoch) batchLogSize io.answers 0 io.bytes
      (Nat.zero_le _) holds succeeds.enough succeeds.succeed
    rw [same, Int.toNat_natCast]
    exact rd_sizes_exact file _ batchLogSize io.answers io.bytes read holds loop

-- Any sequence of append_log calls, and what it leaves for later ones: `next` is
-- one more call, `latest` the last one made for the same epoch as `call`.
theorem log_is_record_store (calls : List LogAppend) (each : ∀ call ∈ calls, call.Proper) :
    ∃ log, appendLogs none calls = .returned log ∧
      (∀ call ∈ calls, MovesExactly batchLogSize (wrSizes batchLogSize call.io.answers)) ∧
      (∀ call ∈ calls, ∃ file latest, log = some file ∧ latestAppend calls call.epochId = some latest ∧
        ∀ old io, io.Succeeds → ∃ out, ReadsBack file latest old io out) ∧
      ∀ next : LogAppend, next.Proper →
        ∃ after, appendLog log next.msg next.len next.epochId next.io = .returned after ∧
          ∀ call ∈ calls, call.epochId ≠ next.epochId → ∃ file, log = some file ∧
            ∀ i, i < batchLogSize →
              after.data (recordOffset call.epochId.toNat + i) = file.data (recordOffset call.epochId.toNat + i) := by
  obtain ⟨log, ran, stores⟩ := append_logs_store none [] calls (by simpa using each)
    (fun epochId call found => by simp [latestAppend] at found)
  rw [List.nil_append] at stores
  have held : ∀ call ∈ calls, ∃ file latest, log = some file ∧ latestAppend calls call.epochId = some latest ∧
      latest.Proper ∧ latest.epochId = call.epochId ∧
      Recorded (some file) call.epochId.toNat latest.len.toNat latest.msg := by
    intro call member
    obtain ⟨latest, found⟩ := latest_append_exists calls call member
    obtain ⟨there, number⟩ := latest_append_epoch calls call.epochId latest found
    have recorded := stores call.epochId latest found
    obtain ⟨file, rfl, _⟩ := recorded.holds
    exact ⟨file, latest, rfl, found, each latest there, number, recorded⟩
  refine ⟨log, ran, ?_, ?_, ?_⟩
  · intro call member
    obtain ⟨_, _, moved⟩ := append_log_proper none call (each call member)
    exact moved
  · intro call member
    obtain ⟨file, latest, equal, found, proper, number, recorded⟩ := held call member
    exact ⟨file, latest, equal, found,
      fun old io succeeds => reads_back file latest old io proper (number ▸ recorded) succeeds⟩
  · intro next proper
    obtain ⟨after, done, _⟩ := append_log_proper log next proper
    refine ⟨after, done, ?_⟩
    intro call member different
    obtain ⟨file, latest, rfl, _, _, _, recorded⟩ := held call member
    obtain ⟨file', equal, inside⟩ := recorded.holds
    cases equal
    have natural := (each call member).epoch
    exact ⟨file, rfl, append_log_frame file next after call.epochId.toNat proper done inside (by omega)⟩

def sampleAppends : List LogAppend :=
  [⟨3, fun _ => 7, 20, fullIo⟩, ⟨0, fun _ => 8, 1020, fullIo⟩, ⟨3, fun _ => 9, 5, fullIo⟩]

theorem log_is_record_store_sample : ∃ log, appendLogs none sampleAppends = .returned log := by
  have each : ∀ call ∈ sampleAppends, call.Proper := by
    intro call member
    simp only [sampleAppends, List.mem_cons, List.not_mem_nil, or_false] at member
    rcases member with rfl | rfl | rfl
    · exact ⟨by decide, by decide, by decide, by decide, full_io_succeeds⟩
    · exact ⟨by decide, by decide, by decide, by decide, full_io_succeeds⟩
    · exact ⟨by decide, by decide, by decide, by decide, full_io_succeeds⟩
  obtain ⟨log, ran, _⟩ := log_is_record_store sampleAppends each
  exact ⟨log, ran⟩

end EpochReplication
