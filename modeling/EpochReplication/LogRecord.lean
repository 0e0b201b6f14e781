import EpochReplication.Log

set_option autoImplicit false

namespace EpochReplication

def recordOffset (epoch : Nat) : Nat := batchLogSize * epoch

def HoldsRecord (log : Option File) (epoch : Nat) : Prop :=
  ∃ file, log = some file ∧ recordOffset (epoch + 1) ≤ file.size

-- Record `epoch` was written by append_log(msg, len): at most 1020 bytes of the
-- message fit behind the stored length.
structure Recorded (log : Option File) (epoch len : Nat) (msg : Buf) : Prop where
  holds : HoldsRecord log epoch
  stored : ∀ file, log = some file → getIntFromBytes (pointerAdd file.data (recordOffset epoch)) 0 = Int32.ofInt len
  bytes : ∀ file, log = some file → Agree (min len 1020) (pointerAdd file.data (recordOffset epoch + 4)) msg

theorem record_offset_toNat (epoch : Nat) : (batchLogSize * (epoch : Int)).toNat = recordOffset epoch := by
  unfold recordOffset batchLogSize
  omega

theorem size_t_small (len : Nat) (small : len < 2147483648) : sizeT len = len := by
  unfold sizeT
  omega

theorem append_log_negative (log : Option File) (msg : Buf) (len epochId : Int) (io : LogIo) (negative : epochId < 0) :
    appendLog log msg len epochId io = .exited := by
  have before : batchLogSize * epochId < 0 := by unfold batchLogSize; omega
  simp [appendLog, before]

theorem append_log_written (log : Option File) (msg : Buf) (len : Int) (epoch : Nat) (io : LogIo) (file : File)
    (done : appendLog log msg len epoch io = .returned file) :
    Written (log.getD File.empty)
      (memcpy (setIntToBytes io.bytes batchLogDataSizeOffset (Int32.ofInt len)) batchLogDataOffset msg (sizeT len))
      (recordOffset epoch) batchLogSize batchLogSize file := by
  have ahead : ¬ batchLogSize * (epoch : Int) < 0 := by unfold batchLogSize; omega
  by_cases opened : io.opened = false
  · simp [appendLog, opened] at done
  · simp only [appendLog, if_neg opened, if_neg ahead, record_offset_toNat] at done
    refine write_all_spec (log.getD File.empty) _ _ _ io.answers 0 _ file (Nat.zero_le _) ⟨rfl, ?_, ?_⟩ done
    · intro i bound
      exact absurd bound (Nat.not_lt_zero i)
    · intro j _ _
      rfl

theorem append_log_size (log : Option File) (msg : Buf) (len : Int) (epoch : Nat) (io : LogIo) (file : File)
    (done : appendLog log msg len epoch io = .returned file) :
    file.size = max (log.getD File.empty).size (recordOffset (epoch + 1)) := by
  have size := (append_log_written log msg len epoch io file done).size
  unfold recordOffset batchLogSize at *
  rw [size, if_neg (by decide)]
  omega

theorem append_log_records (log : Option File) (msg : Buf) (len epoch : Nat) (io : LogIo) (file : File)
    (small : len < 2147483648) (done : appendLog log msg len epoch io = .returned file) :
    Recorded (some file) epoch len msg := by
  have written := append_log_written log msg len epoch io file done
  have size := append_log_size log msg len epoch io file done
  rw [size_t_small len small] at written
  refine ⟨⟨file, rfl, by omega⟩, ?_, ?_⟩
  · intro file' same
    cases same
    have copied := get_int_set io.bytes batchLogDataSizeOffset (Int32.ofInt len)
    rw [← copied, getIntFromBytes, getIntFromBytes]
    congr 2
    apply le_value_congr
    intro i _ high
    rw [pointerAdd, written.inside i (by unfold batchLogSize; omega)]
    exact memcpy_outside _ _ _ _ _ (.inl (by simpa [batchLogDataOffset, batchLogDataSizeOffset] using high))
  · intro file' same i bound
    cases same
    rw [pointerAdd, Nat.add_assoc, written.inside (4 + i) (by unfold batchLogSize; omega)]
    rw [memcpy_inside _ _ _ _ _ (by simp [batchLogDataOffset, batchLogDataSizeOffset])
      (by simp [batchLogDataOffset, batchLogDataSizeOffset]; omega)]
    simp [batchLogDataOffset, batchLogDataSizeOffset]

theorem append_log_holds (log : Option File) (msg : Buf) (len : Int) (epoch other : Nat) (io : LogIo) (file : File)
    (done : appendLog log msg len epoch io = .returned file) (holds : HoldsRecord log other) :
    HoldsRecord (some file) other := by
  obtain ⟨old, rfl, inside⟩ := holds
  have size := append_log_size (some old) msg len epoch io file done
  simp only [Option.getD_some] at size
  exact ⟨file, rfl, by omega⟩

theorem append_log_keeps (log : Option File) (msg : Buf) (len : Int) (epoch : Nat) (io : LogIo) (file : File)
    (done : appendLog log msg len epoch io = .returned file) (other otherLen : Nat) (otherMsg : Buf)
    (different : other ≠ epoch) (recorded : Recorded log other otherLen otherMsg) :
    Recorded (some file) other otherLen otherMsg := by
  have written := append_log_written log msg len epoch io file done
  have holds := append_log_holds log msg len epoch other io file done recorded.holds
  obtain ⟨old, rfl, inside⟩ := recorded.holds
  simp only [Option.getD_some] at written
  have same : ∀ i, i < batchLogSize →
      pointerAdd file.data (recordOffset other) i = pointerAdd old.data (recordOffset other) i := by
    intro i bound
    refine written.outside _ ?_ ?_
    · unfold recordOffset batchLogSize at *
      omega
    · unfold recordOffset batchLogSize at *
      omega
  refine ⟨holds, ?_, ?_⟩
  · intro file' eq
    cases eq
    rw [← recorded.stored old rfl, getIntFromBytes, getIntFromBytes]
    congr 2
    apply le_value_congr
    intro i _ high
    exact same i (by unfold batchLogSize; omega)
  · intro file' eq i bound
    cases eq
    have kept := same (4 + i) (by unfold batchLogSize; omega)
    rw [← recorded.bytes old rfl i bound]
    simpa only [pointerAdd, Nat.add_assoc] using kept

theorem read_log_copied (file : File) (old : Buf) (epoch len : Nat) (msg : Buf) (io : LogIo) (out : Buf) (result : Int)
    (small : len < 2147483648) (recorded : Recorded (some file) epoch len msg)
    (done : readLog (some file) old epoch io = .returned (out, result)) :
    result = batchLogSize ∧ ∃ bytes, out = memcpy old 0 (pointerAdd bytes batchLogDataOffset) len ∧
      ∀ i, i < batchLogSize → bytes i = file.data (recordOffset epoch + i) := by
  have ahead : ¬ batchLogSize * (epoch : Int) < 0 := by unfold batchLogSize; omega
  by_cases opened : io.opened = false
  · simp [readLog, opened] at done
  · simp only [readLog, if_neg opened, if_neg ahead, record_offset_toNat] at done
    cases loop : readAll file (recordOffset epoch) batchLogSize io.answers 0 io.bytes with
    | exited => simp [loop] at done
    | blocked => simp [loop] at done
    | returned bytes =>
        simp only [loop, Outcome.returned.injEq, Prod.mk.injEq] at done
        obtain ⟨copied, length⟩ := done
        obtain ⟨_, filled, _⟩ := read_all_spec file (recordOffset epoch) batchLogSize io.answers 0 io.bytes bytes
          (Nat.zero_le _) (fun i bound => absurd bound (Nat.not_lt_zero i)) loop (fun h => absurd h (Nat.lt_irrefl 0))
        have stored : getIntFromBytes bytes batchLogDataSizeOffset = Int32.ofInt len := by
          rw [← recorded.stored file rfl, getIntFromBytes, getIntFromBytes, batchLogDataSizeOffset]
          congr 2
          apply le_value_congr
          intro i _ high
          exact filled i (by unfold batchLogSize; omega)
        rw [stored, Int32.toInt_ofInt_of_le (by omega) (by omega), size_t_small len small] at copied
        exact ⟨length.symm, bytes, copied.symm, filled⟩

theorem read_log_recorded (log : Option File) (old : Buf) (epoch len : Nat) (msg : Buf) (io : LogIo) (out : Buf)
    (result : Int) (small : len < 2147483648) (recorded : Recorded log epoch len msg)
    (done : readLog log old epoch io = .returned (out, result)) :
    result = batchLogSize ∧ Agree (min len 1020) out msg := by
  obtain ⟨file, rfl, inside⟩ := recorded.holds
  obtain ⟨length, bytes, copied, filled⟩ := read_log_copied file old epoch len msg io out result small recorded done
  refine ⟨length, ?_⟩
  intro i bound
  rw [← recorded.bytes file rfl i bound, copied, memcpy_inside _ _ _ _ _ (Nat.zero_le i) (by omega)]
  simp only [pointerAdd, batchLogDataOffset, batchLogDataSizeOffset, Nat.sub_zero, Nat.zero_add]
  rw [filled (4 + i) (by unfold batchLogSize; omega), Nat.add_assoc]

def readLogLength (log : Option File) (epoch : Nat) : Option Int :=
  log.map (fun file => (getIntFromBytes (pointerAdd file.data (recordOffset epoch)) 0).toInt)

theorem recorded_length (log : Option File) (epoch len : Nat) (msg : Buf) (small : len < 2147483648)
    (recorded : Recorded log epoch len msg) : readLogLength log epoch = some (len : Int) := by
  obtain ⟨file, rfl, _⟩ := recorded.holds
  simp only [readLogLength, Option.map_some, recorded.stored file rfl]
  rw [Int32.toInt_ofInt_of_le (by omega) (by omega)]

theorem read_log_not_blocked (log : Option File) (old : Buf) (epoch : Nat) (io : LogIo) (holds : HoldsRecord log epoch)
    (enough : batchLogSize ≤ io.answers.length) : readLog log old epoch io ≠ .blocked := by
  obtain ⟨file, rfl, inside⟩ := holds
  have ahead : ¬ batchLogSize * (epoch : Int) < 0 := by unfold batchLogSize; omega
  by_cases opened : io.opened = false
  · simp [readLog, opened]
  · have moves := read_all_not_blocked file (recordOffset epoch) batchLogSize io.answers 0 io.bytes (Nat.zero_le _)
      (by simpa [recordOffset, Nat.mul_add] using inside) (by simpa using enough)
    simp only [readLog, if_neg opened, if_neg ahead, record_offset_toNat]
    split <;> simp_all

theorem append_log_progress (log : Option File) (msg : Buf) (len : Int) (epoch : Nat) (io : LogIo)
    (succeeds : io.Succeeds) : ∃ file, appendLog log msg len epoch io = .returned file := by
  have ahead : ¬ batchLogSize * (epoch : Int) < 0 := by unfold batchLogSize; omega
  simp only [appendLog, succeeds.opened, if_neg ahead, Bool.true_eq_false, if_false, record_offset_toNat]
  exact write_all_progress _ _ _ _ _ _ (Nat.zero_le _) succeeds.enough succeeds.succeed

theorem read_log_progress (log : Option File) (old : Buf) (epoch : Nat) (io : LogIo) (holds : HoldsRecord log epoch)
    (succeeds : io.Succeeds) : ∃ out, readLog log old epoch io = .returned (out, (batchLogSize : Int)) := by
  obtain ⟨file, rfl, inside⟩ := holds
  have ahead : ¬ batchLogSize * (epoch : Int) < 0 := by unfold batchLogSize; omega
  obtain ⟨bytes, loop⟩ := read_all_progress file (recordOffset epoch) batchLogSize io.answers 0 io.bytes (Nat.zero_le _)
    (by simpa [recordOffset, Nat.mul_add] using inside) succeeds.enough succeeds.succeed
  simp only [readLog, succeeds.opened, if_neg ahead, Bool.true_eq_false, if_false, record_offset_toNat, loop]
  exact ⟨_, rfl⟩

end EpochReplication
