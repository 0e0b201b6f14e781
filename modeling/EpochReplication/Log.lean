import EpochReplication.Bytes

set_option autoImplicit false

namespace EpochReplication

def batchLogDataSizeOffset : Nat := 0
def batchLogDataOffset : Nat := batchLogDataSizeOffset + 4
def batchLogSize : Nat := 1024

structure File where
  size : Nat
  data : Buf

def File.empty : File := ⟨0, fun _ => 0⟩

-- What write(2) leaves: bytes skipped by a seek past the end read as zero.
def File.put (file : File) (pos : Nat) (src : Buf) (n : Nat) : File :=
  ⟨max file.size (pos + n), fun i =>
    if pos ≤ i ∧ i < pos + n then src (i - pos) else if i < file.size then file.data i else 0⟩

-- The kernel's reply to one read or write of n > 0 bytes: a failure, or a
-- transfer that it may cut short at any positive count.
inductive Answer where
  | error
  | upTo (count : Nat)
deriving DecidableEq, Repr

def Answer.transfer (available : Nat) : Answer → Option Nat
  | .error => none
  | .upTo count => some (min (max count 1) available)

def File.read (file : File) (pos n : Nat) (answer : Answer) : Option Nat :=
  answer.transfer (min n (file.size - pos))

def File.write (file : File) (pos : Nat) (src : Buf) (n : Nat) (answer : Answer) : Option (File × Nat) :=
  (answer.transfer n).map (fun count => (file.put pos src count, count))

-- What a piece of code comes to: it is through, it leaves the process through
-- exit(1), or it cannot go on yet (a call is still in its loop when the replies
-- given for it run out, a thread is elsewhere or has nothing to receive).
inductive Outcome (α : Type) where
  | returned (value : α)
  | exited
  | blocked

-- What one call leaves open: the bytes its uninitialised local array starts
-- with, whether open(2) succeeds, and the replies to its reads or writes.
structure LogIo where
  bytes : Buf
  opened : Bool
  answers : List Answer

def readAll (file : File) (offset goalSize : Nat) : List Answer → Nat → Buf → Outcome Buf
  | [], totalRdSize, bytes => if totalRdSize = goalSize then .returned bytes else .blocked
  | answer :: rest, totalRdSize, bytes =>
      if totalRdSize = goalSize then .returned bytes
      else match file.read (offset + totalRdSize) (goalSize - totalRdSize) answer with
        | none => .exited
        | some rdSize =>
            readAll file offset goalSize rest (totalRdSize + rdSize)
              (memcpy bytes totalRdSize (pointerAdd file.data (offset + totalRdSize)) rdSize)

def writeAll (bytes : Buf) (offset goalSize : Nat) : List Answer → Nat → File → Outcome File
  | [], totalWrSize, file => if totalWrSize = goalSize then .returned file else .blocked
  | answer :: rest, totalWrSize, file =>
      if totalWrSize = goalSize then .returned file
      else match file.write (offset + totalWrSize) (pointerAdd bytes totalWrSize) (goalSize - totalWrSize) answer with
        | none => .exited
        | some (next, wrSize) => writeAll bytes offset goalSize rest (totalWrSize + wrSize) next

-- An int passed where memcpy takes a size_t.
def sizeT (len : Int) : Nat := (len % 18446744073709551616).toNat

-- lseek(2) refuses a negative offset.
def appendLog (log : Option File) (msg : Buf) (len epochId : Int) (io : LogIo) : Outcome File :=
  let offset := batchLogSize * epochId
  let bytes := setIntToBytes io.bytes batchLogDataSizeOffset (Int32.ofInt len)
  let bytes := memcpy bytes batchLogDataOffset msg (sizeT len)
  if io.opened = false then .exited
  else if offset < 0 then .exited
  else writeAll bytes offset.toNat batchLogSize io.answers 0 (log.getD File.empty)

def readLog (log : Option File) (msg : Buf) (epochId : Int) (io : LogIo) : Outcome (Buf × Int) :=
  let offset := batchLogSize * epochId
  match log with
  | none => .exited
  | some file =>
      if io.opened = false then .exited
      else if offset < 0 then .exited
      else match readAll file offset.toNat batchLogSize io.answers 0 io.bytes with
        | .exited => .exited
        | .blocked => .blocked
        | .returned bytes =>
            let len := (getIntFromBytes bytes batchLogDataSizeOffset).toInt
            .returned (memcpy msg 0 (pointerAdd bytes batchLogDataOffset) (sizeT len), batchLogSize)

theorem transfer_bounds (available : Nat) (answer : Answer) (count : Nat) (some_room : 0 < available)
    (done : answer.transfer available = some count) : 0 < count ∧ count ≤ available := by
  cases answer with
  | error => simp [Answer.transfer] at done
  | upTo k =>
      simp only [Answer.transfer, Option.some.injEq] at done
      omega

theorem read_all_spec (file : File) (offset goalSize : Nat) (answers : List Answer) (total : Nat) (start bytes : Buf)
    (within : total ≤ goalSize) (filled : ∀ i, i < total → start i = file.data (offset + i))
    (done : readAll file offset goalSize answers total start = .returned bytes)
    (holds : 0 < total → offset + total ≤ file.size) :
    (0 < goalSize → offset + goalSize ≤ file.size) ∧ (∀ i, i < goalSize → bytes i = file.data (offset + i)) ∧
      ∀ i, goalSize ≤ i → bytes i = start i := by
  induction answers generalizing total start with
  | nil =>
      simp only [readAll] at done
      split at done
      · rename_i complete
        cases done
        subst complete
        exact ⟨holds, filled, fun _ _ => rfl⟩
      · cases done
  | cons answer rest ih =>
      rw [readAll] at done
      split at done
      · rename_i complete
        cases done
        subst complete
        exact ⟨holds, filled, fun _ _ => rfl⟩
      · cases reply : file.read (offset + total) (goalSize - total) answer with
        | none => simp [reply] at done
        | some count =>
            simp only [reply] at done
            have moved : count ≤ goalSize - total ∧ count ≤ file.size - (offset + total) := by
              cases answer with
              | error => simp [File.read, Answer.transfer] at reply
              | upTo k =>
                  simp only [File.read, Answer.transfer, Option.some.injEq] at reply
                  omega
            have more : ∀ i, i < total + count →
                memcpy start total (pointerAdd file.data (offset + total)) count i = file.data (offset + i) := by
              intro i bound
              by_cases fresh : total ≤ i
              · rw [memcpy_inside _ _ _ _ _ fresh bound, pointerAdd]
                congr 1
                omega
              · rw [memcpy_outside _ _ _ _ _ (by omega)]
                exact filled i (by omega)
            obtain ⟨holds', filled', kept⟩ := ih (total + count) _ (by omega) more done (by omega)
            refine ⟨holds', filled', ?_⟩
            intro i high
            rw [kept i high, memcpy_outside _ _ _ _ _ (by omega)]

theorem read_all_progress (file : File) (offset goalSize : Nat) (answers : List Answer) (total : Nat) (start : Buf)
    (within : total ≤ goalSize) (holds : offset + goalSize ≤ file.size)
    (enough : goalSize - total ≤ answers.length) (succeed : Answer.error ∉ answers) :
    ∃ bytes, readAll file offset goalSize answers total start = .returned bytes := by
  induction answers generalizing total start with
  | nil =>
      have complete : total = goalSize := by simp at enough; omega
      exact ⟨start, by simp [readAll, complete]⟩
  | cons answer rest ih =>
      rw [readAll]
      by_cases complete : total = goalSize
      · exact ⟨start, by simp [complete]⟩
      · rw [if_neg complete]
        cases answer with
        | error => simp at succeed
        | upTo k =>
            simp only [List.length_cons] at enough
            simp only [File.read, Answer.transfer]
            exact ih _ _ (by omega) (by omega) (fun member => succeed (List.mem_cons_of_mem _ member))

theorem read_all_not_blocked (file : File) (offset goalSize : Nat) (answers : List Answer) (total : Nat) (start : Buf)
    (within : total ≤ goalSize) (holds : offset + goalSize ≤ file.size)
    (enough : goalSize - total ≤ answers.length) :
    readAll file offset goalSize answers total start ≠ .blocked := by
  induction answers generalizing total start with
  | nil =>
      have complete : total = goalSize := by simp at enough; omega
      simp [readAll, complete]
  | cons answer rest ih =>
      rw [readAll]
      by_cases complete : total = goalSize
      · simp [complete]
      · rw [if_neg complete]
        cases answer with
        | error => simp [File.read, Answer.transfer]
        | upTo k =>
            simp only [List.length_cons] at enough
            simp only [File.read, Answer.transfer]
            exact ih _ _ (by omega) (by omega)

structure Written (old : File) (bytes : Buf) (offset goalSize total : Nat) (file : File) : Prop where
  size : file.size = if total = 0 then old.size else max old.size (offset + total)
  inside : ∀ i, i < total → file.data (offset + i) = bytes i
  outside : ∀ j, j < old.size → j < offset ∨ offset + goalSize ≤ j → file.data j = old.data j

theorem write_all_spec (old : File) (bytes : Buf) (offset goalSize : Nat) (answers : List Answer) (total : Nat)
    (file result : File) (within : total ≤ goalSize) (sofar : Written old bytes offset goalSize total file)
    (done : writeAll bytes offset goalSize answers total file = .returned result) :
    Written old bytes offset goalSize goalSize result := by
  induction answers generalizing total file with
  | nil =>
      simp only [writeAll] at done
      split at done
      · rename_i complete
        cases done
        exact complete ▸ sofar
      · cases done
  | cons answer rest ih =>
      rw [writeAll] at done
      split at done
      · rename_i complete
        cases done
        exact complete ▸ sofar
      · rename_i short
        cases reply : answer.transfer (goalSize - total) with
        | none => simp [File.write, reply] at done
        | some count =>
            simp only [File.write, reply, Option.map_some] at done
            obtain ⟨positive, fits⟩ := transfer_bounds (goalSize - total) answer count (by omega) reply
            refine ih (total + count) _ (by omega) ⟨?_, ?_, ?_⟩ done
            · have size := sofar.size
              simp only [File.put]
              split at size <;> split <;> omega
            · intro i bound
              simp only [File.put]
              by_cases fresh : total ≤ i
              · rw [if_pos (by omega), pointerAdd]
                congr 1
                omega
              · have size := sofar.size
                rw [if_neg (by omega), if_pos (by split at size <;> omega)]
                exact sofar.inside i (by omega)
            · intro j old_byte out
              have size := sofar.size
              simp only [File.put]
              rw [if_neg (by omega), if_pos (by split at size <;> omega)]
              exact sofar.outside j old_byte out

theorem write_all_progress (bytes : Buf) (offset goalSize : Nat) (answers : List Answer) (total : Nat) (file : File)
    (within : total ≤ goalSize) (enough : goalSize - total ≤ answers.length) (succeed : Answer.error ∉ answers) :
    ∃ result, writeAll bytes offset goalSize answers total file = .returned result := by
  induction answers generalizing total file with
  | nil =>
      have complete : total = goalSize := by simp at enough; omega
      exact ⟨file, by simp [writeAll, complete]⟩
  | cons answer rest ih =>
      rw [writeAll]
      by_cases complete : total = goalSize
      · exact ⟨file, by simp [complete]⟩
      · rw [if_neg complete]
        cases answer with
        | error => simp at succeed
        | upTo k =>
            simp only [List.length_cons] at enough
            simp only [File.write, Answer.transfer, Option.map_some]
            exact ih _ _ (by omega) (by omega) (fun member => succeed (List.mem_cons_of_mem _ member))

structure LogIo.Succeeds (io : LogIo) : Prop where
  opened : io.opened = true
  succeed : Answer.error ∉ io.answers
  enough : batchLogSize ≤ io.answers.length

def fullIo : LogIo := ⟨fun _ => 0, true, List.replicate batchLogSize (.upTo 1)⟩

theorem full_io_succeeds : fullIo.Succeeds := ⟨rfl, by simp [fullIo], by simp [fullIo]⟩

end EpochReplication
