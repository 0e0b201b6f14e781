import EpochReplication.LogRecord

set_option autoImplicit false

namespace EpochReplication

-- A kernel that goes on replying for as long as the loop calls read(2). The call
-- with its first `n` replies:
def ioUpTo (bytes : Buf) (opened : Bool) (answers : Nat → Answer) (n : Nat) : LogIo :=
  ⟨bytes, opened, (List.range n).map answers⟩

-- read_all stands between the lock and the unlock of the log's mutex: a call that
-- returns has released it, and one that exits has ended the process.
def ReadLogFinishes (log : Option File) (msg : Buf) (epochId : Int) (bytes : Buf) (opened : Bool)
    (answers : Nat → Answer) : Prop :=
  ∃ n, (∃ result, readLog log msg epochId (ioUpTo bytes opened answers n) = .returned result) ∨
    readLog log msg epochId (ioUpTo bytes opened answers n) = .exited

theorem read_all_error_ends (file : File) (offset goalSize : Nat) (answers : List Answer) (total : Nat) (start : Buf)
    (error : Answer.error ∈ answers) : readAll file offset goalSize answers total start ≠ .blocked := by
  induction answers generalizing total start with
  | nil => simp at error
  | cons answer rest ih =>
      rw [readAll]
      by_cases complete : total = goalSize
      · simp [complete]
      · rw [if_neg complete]
        cases answer with
        | error => simp [File.read, Answer.transfer]
        | upTo count =>
            simp only [File.read, Answer.transfer]
            exact ih _ _ (by simpa using error)

-- Past the end of the file read(2) returns 0, and the total stays below the goal.
theorem read_all_short_blocked (file : File) (offset goalSize : Nat) (answers : List Answer) (total : Nat) (start : Buf)
    (short : file.size < offset + goalSize) (below : total < goalSize) (within : offset + total ≤ max offset file.size)
    (succeed : Answer.error ∉ answers) : readAll file offset goalSize answers total start = .blocked := by
  induction answers generalizing total start with
  | nil =>
      rw [readAll, if_neg (by omega)]
  | cons answer rest ih =>
      rw [readAll, if_neg (by omega)]
      cases answer with
      | error => simp at succeed
      | upTo count =>
          simp only [File.read, Answer.transfer]
          exact ih _ _ (by omega) (by omega) (fun member => succeed (List.mem_cons_of_mem _ member))

theorem read_log_ends_of_not_blocked (log : Option File) (msg : Buf) (epochId : Int) (bytes : Buf) (opened : Bool)
    (answers : Nat → Answer) (n : Nat) (done : readLog log msg epochId (ioUpTo bytes opened answers n) ≠ .blocked) :
    ReadLogFinishes log msg epochId bytes opened answers := by
  cases outcome : readLog log msg epochId (ioUpTo bytes opened answers n) with
  | returned result => exact ⟨n, .inl ⟨result, outcome⟩⟩
  | exited => exact ⟨n, .inr outcome⟩
  | blocked => exact absurd outcome done

theorem read_log_error_ends (file : File) (msg : Buf) (epoch : Nat) (io : LogIo) (error : Answer.error ∈ io.answers) :
    readLog (some file) msg epoch io ≠ .blocked := by
  have ahead : ¬ batchLogSize * (epoch : Int) < 0 := by unfold batchLogSize; omega
  by_cases opened : io.opened = false
  · simp [readLog, opened]
  · have ends := read_all_error_ends file (recordOffset epoch) batchLogSize io.answers 0 io.bytes error
    simp only [readLog, if_neg opened, if_neg ahead, record_offset_toNat]
    cases loop : readAll file (recordOffset epoch) batchLogSize io.answers 0 io.bytes with
    | returned bytes => simp
    | exited => simp
    | blocked => exact absurd loop ends

theorem read_log_short_blocked (file : File) (msg : Buf) (epoch : Nat) (io : LogIo)
    (short : file.size < recordOffset (epoch + 1)) (opened : io.opened = true) (succeed : Answer.error ∉ io.answers) :
    readLog (some file) msg epoch io = .blocked := by
  have ahead : ¬ batchLogSize * (epoch : Int) < 0 := by unfold batchLogSize; omega
  have loop := read_all_short_blocked file (recordOffset epoch) batchLogSize io.answers 0 io.bytes
    (by unfold recordOffset batchLogSize at *; omega) (by decide) (by omega) succeed
  simp only [readLog, opened, if_neg ahead, record_offset_toNat, loop, Bool.true_eq_false, if_false]

theorem read_log_finishes_iff (log : Option File) (msg : Buf) (epoch : Nat) (bytes : Buf) (opened : Bool)
    (answers : Nat → Answer) :
    ReadLogFinishes log msg epoch bytes opened answers ↔
      log = none ∨ opened = false ∨ HoldsRecord log epoch ∨ ∃ k, answers k = .error := by
  constructor
  · rintro ⟨n, ends⟩
    by_contra none_of_them
    simp only [not_or, not_exists] at none_of_them
    obtain ⟨exists_file, opens, incomplete, succeed⟩ := none_of_them
    obtain ⟨file, rfl⟩ := Option.ne_none_iff_exists'.mp exists_file
    have short : file.size < recordOffset (epoch + 1) := by
      by_contra long
      exact incomplete ⟨file, rfl, by omega⟩
    have blocked := read_log_short_blocked file msg epoch (ioUpTo bytes opened answers n) short (by simpa [ioUpTo] using opens)
      (by simpa [ioUpTo] using fun k _ => succeed k)
    rcases ends with ⟨result, returned⟩ | exited
    · rw [blocked] at returned
      cases returned
    · rw [blocked] at exited
      cases exited
  · rintro (rfl | rfl | holds | ⟨k, error⟩)
    · exact ⟨0, .inr rfl⟩
    · cases log with
      | none => exact ⟨0, .inr rfl⟩
      | some file => exact ⟨0, .inr (by simp [readLog, ioUpTo])⟩
    · apply read_log_ends_of_not_blocked log msg epoch bytes opened answers batchLogSize
      exact read_log_not_blocked log msg epoch _ holds (by simp [ioUpTo])
    · cases log with
      | none => exact ⟨0, .inr rfl⟩
      | some file =>
          apply read_log_ends_of_not_blocked (some file) msg epoch bytes opened answers (k + 1)
          exact read_log_error_ends file msg epoch _ (List.mem_map.mpr ⟨k, by simp, error⟩)

-- The log holds batch 0 only, and batch 1 is asked for: the file ends where its
-- record would begin.
theorem read_log_of_absent_record_spins : ∃ file, appendLog none (fun _ => 0) 5 0 fullIo = .returned file ∧
    file.size = 1024 ∧ ¬ ReadLogFinishes (some file) (fun _ => 0) 1 (fun _ => 0) true (fun _ => .upTo 1024) := by
  obtain ⟨file, done⟩ := append_log_progress none (fun _ => 0) 5 0 fullIo full_io_succeeds
  have size := append_log_size none (fun _ => 0) 5 0 fullIo file done
  replace size : file.size = 1024 := size
  refine ⟨file, done, size, ?_⟩
  rintro ⟨n, ends⟩
  have blocked : readLog (some file) (fun _ => 0) 1 (ioUpTo (fun _ => 0) true (fun _ => .upTo 1024) n) = .blocked :=
    read_log_short_blocked file (fun _ => 0) 1 _ (by rw [size]; decide) rfl (by simp [ioUpTo])
  rcases ends with ⟨result, returned⟩ | exited
  · rw [blocked] at returned
    cases returned
  · rw [blocked] at exited
    cases exited

end EpochReplication
