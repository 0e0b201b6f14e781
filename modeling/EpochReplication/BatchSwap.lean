import EpochReplication.Replicated

set_option autoImplicit false

namespace EpochReplication

-- The epoch loop with its pointers. `encoding` comes after the swap, `appending`
-- after create_batch_msg and `counting` after append_log.
inductive MemoryPc where
  | barrier
  | loop
  | checking (currentEpochId : Int)
  | filling (currentEpochId : Int)
  | encoding (currentEpochId : Int) (revBatch : Nat)
  | appending (currentEpochId : Int) (revBatch len : Nat)
  | counting (currentEpochId : Int) (revBatch : Nat)
  | enqueueing (currentEpochId : Int) (revBatch : Nat)
  | returned
deriving DecidableEq, Repr

-- What the threads of the sequencer share: the batches in memory, numbered in the
-- order of their malloc, and the pointer `batch` to the one being filled.
structure MasterMemory where
  memory : Nat → Batch
  allocated : Nat
  batch : Nat
  pc : MemoryPc
  determinedEpochId : Int
  batchLog : Option File
  batchMsg : Buf
  writeTxBuffer : List Nat

inductive MemoryAct where
  | barrier
  | loop
  | check
  | swap
  | encode
  | append (io : LogIo)
  | count
  | enqueue
  | addWriteTx (tx : Tx)

namespace MasterMemory

-- One call of sequencer_add_write_tx_to_batch, from lock to unlock.
def addWriteTx (s : MasterMemory) (tx : Tx) : MasterMemory × Int :=
  let (batch, ret) := sequencerAddWriteTxToBatch (s.memory s.batch) tx
  ({ s with memory := Function.update s.memory s.batch batch }, ret)

def step (s : MasterMemory) (act : Int × MemoryAct) : Option MasterMemory :=
  let (systemFinishRequest, act) := act
  match s.pc, act with
  | _, .addWriteTx tx => some (s.addWriteTx tx).1
  | .barrier, .barrier => if systemFinishRequest ≠ 0 then some s else some { s with pc := .loop }
  | .loop, .loop =>
      if systemFinishRequest = 0 then some { s with pc := .checking (s.determinedEpochId + 1) }
      else some { s with pc := .returned }
  | .checking cur, .check =>
      if systemFinishRequest = 1 then some { s with pc := .returned } else some { s with pc := .filling cur }
  | .filling cur, .swap =>
      some { s with
        pc := .encoding cur s.batch
        memory := Function.update s.memory s.allocated (batchCreate (Int16.ofInt (cur + 1)))
        allocated := s.allocated + 1
        batch := s.allocated }
  | .encoding cur rev, .encode =>
      let (batchMsg, len) := createBatchMsg (s.memory rev) s.batchMsg
      some { s with pc := .appending cur rev len, batchMsg := batchMsg }
  | .appending cur rev len, .append io =>
      match appendLog s.batchLog s.batchMsg len (s.memory rev).epochId.toInt io with
      | .returned file => some { s with pc := .counting cur rev, batchLog := some file }
      | _ => none
  | .counting cur rev, .count =>
      some { s with pc := .enqueueing cur rev, determinedEpochId := s.determinedEpochId + 1 }
  | .enqueueing _ rev, .enqueue => some { s with pc := .loop, writeTxBuffer := s.writeTxBuffer ++ [rev] }
  | _, _ => none

def initial (uninitialised : Buf) : MasterMemory where
  memory := fun _ => batchCreate 0
  allocated := 1
  batch := 0
  pc := .barrier
  determinedEpochId := -1
  batchLog := none
  batchMsg := uninitialised
  writeTxBuffer := []

end MasterMemory

def masterMemory (uninitialised : Buf) : Machine MasterMemory (Int × MemoryAct) :=
  ⟨.initial uninitialised, MasterMemory.step⟩

def acceptedIn (run : List (MasterMemory × (Int × MemoryAct))) : List Tx :=
  run.filterMap (fun x =>
    match x.2.2 with
    | .addWriteTx tx => if (x.1.addWriteTx tx).2 = 1 then some tx else none
    | _ => none)

def swappedIn (run : List (MasterMemory × (Int × MemoryAct))) : List (Nat × Batch) :=
  run.filterMap (fun x =>
    match x.2.2 with
    | .swap => some (x.1.batch, x.1.memory x.1.batch)
    | _ => none)

def appendsIn (run : List (MasterMemory × (Int × MemoryAct))) : Nat :=
  run.countP (fun x => match x.2.2 with | .append _ => true | _ => false)

inductive MemoryStep (s : MasterMemory) : Int × MemoryAct → MasterMemory → Prop where
  | addWriteTx (flag : Int) (tx : Tx) : MemoryStep s (flag, .addWriteTx tx) (s.addWriteTx tx).1
  | spin (flag : Int) (pc : s.pc = .barrier) : MemoryStep s (flag, .barrier) s
  | start (flag : Int) (pc : s.pc = .barrier) (zero : flag = 0) : MemoryStep s (flag, .barrier) { s with pc := .loop }
  | enter (flag : Int) (pc : s.pc = .loop) (zero : flag = 0) :
      MemoryStep s (flag, .loop) { s with pc := .checking (s.determinedEpochId + 1) }
  | leave (flag : Int) (pc : s.pc = .loop) (stopped : flag ≠ 0) : MemoryStep s (flag, .loop) { s with pc := .returned }
  | stop (flag cur : Int) (pc : s.pc = .checking cur) (one : flag = 1) :
      MemoryStep s (flag, .check) { s with pc := .returned }
  | check (flag cur : Int) (pc : s.pc = .checking cur) (running : flag ≠ 1) :
      MemoryStep s (flag, .check) { s with pc := .filling cur }
  | swap (flag cur : Int) (pc : s.pc = .filling cur) :
      MemoryStep s (flag, .swap)
        { s with
          pc := .encoding cur s.batch
          memory := Function.update s.memory s.allocated (batchCreate (Int16.ofInt (cur + 1)))
          allocated := s.allocated + 1
          batch := s.allocated }
  | encode (flag cur : Int) (rev : Nat) (pc : s.pc = .encoding cur rev) :
      MemoryStep s (flag, .encode)
        { s with
          pc := .appending cur rev (createBatchMsg (s.memory rev) s.batchMsg).2
          batchMsg := (createBatchMsg (s.memory rev) s.batchMsg).1 }
  | append (flag cur : Int) (rev len : Nat) (io : LogIo) (file : File) (pc : s.pc = .appending cur rev len)
      (done : appendLog s.batchLog s.batchMsg len (s.memory rev).epochId.toInt io = .returned file) :
      MemoryStep s (flag, .append io) { s with pc := .counting cur rev, batchLog := some file }
  | count (flag cur : Int) (rev : Nat) (pc : s.pc = .counting cur rev) :
      MemoryStep s (flag, .count) { s with pc := .enqueueing cur rev, determinedEpochId := s.determinedEpochId + 1 }
  | enqueue (flag cur : Int) (rev : Nat) (pc : s.pc = .enqueueing cur rev) :
      MemoryStep s (flag, .enqueue) { s with pc := .loop, writeTxBuffer := s.writeTxBuffer ++ [rev] }

theorem memory_step_of_some (s t : MasterMemory) (act : Int × MemoryAct) (taken : s.step act = some t) :
    MemoryStep s act t := by
  obtain ⟨flag, act⟩ := act
  unfold MasterMemory.step at taken
  simp only at taken
  split at taken
  · rename_i tx
    cases taken
    exact .addWriteTx flag tx
  · rename_i pc
    split at taken
    · cases taken
      exact .spin flag pc
    · rename_i zero
      cases taken
      exact .start flag pc (by omega)
  · rename_i pc
    split at taken
    · rename_i zero
      cases taken
      exact .enter flag pc zero
    · rename_i stopped
      cases taken
      exact .leave flag pc stopped
  · rename_i cur pc
    split at taken
    · rename_i one
      cases taken
      exact .stop flag cur pc one
    · rename_i running
      cases taken
      exact .check flag cur pc running
  · rename_i cur pc
    cases taken
    exact .swap flag cur pc
  · rename_i cur rev pc
    cases taken
    exact .encode flag cur rev pc
  · rename_i cur rev len io pc
    split at taken
    · rename_i file done
      cases taken
      exact .append flag cur rev len io file pc done
    · cases taken
  · rename_i cur rev pc
    cases taken
    exact .count flag cur rev pc
  · rename_i cur rev pc
    cases taken
    exact .enqueue flag cur rev pc
  · cases taken

-- Where the loop stands between the last swap and the next: `logged` and
-- `enqueued` batches are out, `s.batch` have been swapped.
def SwapPosition (s : MasterMemory) (logged : Nat) : Prop :=
  match s.pc with
  | .barrier | .loop | .returned =>
      logged = s.batch ∧ s.writeTxBuffer = List.range s.batch ∧ s.determinedEpochId + 1 = s.batch
  | .checking cur | .filling cur =>
      cur = s.batch ∧ logged = s.batch ∧ s.writeTxBuffer = List.range s.batch ∧ s.determinedEpochId + 1 = s.batch
  | .encoding _ rev =>
      rev + 1 = s.batch ∧ logged = rev ∧ s.writeTxBuffer = List.range rev ∧ s.determinedEpochId + 1 = rev
  | .appending _ rev len =>
      rev + 1 = s.batch ∧ logged = rev ∧ s.writeTxBuffer = List.range rev ∧ s.determinedEpochId + 1 = rev ∧
        len = batchMsgLength (s.memory rev).wire ∧ CarriesBatch s.batchMsg (s.memory rev).epochId (s.memory rev).wire
  | .counting _ rev =>
      rev + 1 = s.batch ∧ logged = s.batch ∧ s.writeTxBuffer = List.range rev ∧ s.determinedEpochId + 1 = rev
  | .enqueueing _ rev =>
      rev + 1 = s.batch ∧ logged = s.batch ∧ s.writeTxBuffer = List.range rev ∧ s.determinedEpochId + 1 = s.batch

structure SwapInv (swapped : List (Nat × Batch)) (accepted : List Tx) (logged : Nat) (s : MasterMemory) : Prop where
  fresh : s.allocated = s.batch + 1
  pointer : s.batch = swapped.length
  frozen : ∀ e x, swapped[e]? = some x → x.1 = e ∧ s.memory e = x.2
  epochs : ∀ (e : Nat) (x : Nat × Batch), swapped[e]? = some x → x.2.epochId = Int16.ofInt e
  filling : (s.memory s.batch).epochId = Int16.ofInt s.batch
  flow : swapped.flatMap (fun x => x.2.txSet) ++ (s.memory s.batch).txSet = accepted
  fits : logged ≤ 32768
  records : ∀ e x, swapped[e]? = some x → e < logged → LogCarries batchLogRoom s.batchLog e x.2
  position : SwapPosition s logged

theorem swap_inv_moves (swapped : List (Nat × Batch)) (accepted : List Tx) (logged : Nat) (s t : MasterMemory)
    (inv : SwapInv swapped accepted logged s) (memory : t.memory = s.memory) (allocated : t.allocated = s.allocated)
    (batch : t.batch = s.batch) (log : t.batchLog = s.batchLog) (position : SwapPosition t logged) :
    SwapInv swapped accepted logged t := by
  refine ⟨by rw [allocated, batch]; exact inv.fresh, by rw [batch]; exact inv.pointer, ?_, inv.epochs, ?_, ?_, inv.fits, ?_,
    position⟩
  · rw [memory]
    exact inv.frozen
  · rw [memory, batch]
    exact inv.filling
  · rw [memory, batch]
    exact inv.flow
  · rw [log]
    exact inv.records

theorem swapped_apart (swapped : List (Nat × Batch)) (accepted : List Tx) (logged : Nat) (s : MasterMemory)
    (inv : SwapInv swapped accepted logged s) (e : Nat) (x : Nat × Batch) (found : swapped[e]? = some x) : e < s.batch := by
  have inside := (List.getElem?_eq_some_iff.mp found).1
  rw [inv.pointer]
  exact inside

theorem swap_position_kept (s t : MasterMemory) (logged : Nat) (pc : t.pc = s.pc) (batch : t.batch = s.batch)
    (list : t.writeTxBuffer = s.writeTxBuffer) (determined : t.determinedEpochId = s.determinedEpochId)
    (msg : t.batchMsg = s.batchMsg) (memory : ∀ e, e < s.batch → t.memory e = s.memory e)
    (position : SwapPosition s logged) : SwapPosition t logged := by
  unfold SwapPosition at position ⊢
  rw [pc, batch, list, determined, msg]
  cases at_pc : s.pc with
  | appending cur rev len =>
      simp only [at_pc] at position ⊢
      rw [memory rev (by omega)]
      exact position
  | barrier | loop | checking | filling | encoding | counting | enqueueing | returned =>
      simpa only [at_pc] using position

theorem swap_inv_add (swapped : List (Nat × Batch)) (accepted : List Tx) (logged : Nat) (s : MasterMemory) (tx : Tx)
    (inv : SwapInv swapped accepted logged s) :
    SwapInv swapped (accepted ++ (if (s.addWriteTx tx).2 = 1 then [tx] else [])) logged (s.addWriteTx tx).1 := by
  have kept : ∀ other, other ≠ s.batch → (s.addWriteTx tx).1.memory other = s.memory other :=
    fun other apart => Function.update_of_ne apart _ _
  have here : (s.addWriteTx tx).1.memory s.batch = (sequencerAddWriteTxToBatch (s.memory s.batch) tx).1 :=
    Function.update_self _ _ _
  have epoch : ((s.addWriteTx tx).1.memory s.batch).epochId = (s.memory s.batch).epochId := by
    rw [here]
    rcases add_returns (s.memory s.batch) tx with ⟨full, _⟩ | ⟨_, _, same⟩
    · rw [full]
    · exact same
  refine ⟨inv.fresh, inv.pointer, ?_, inv.epochs, epoch.trans inv.filling, ?_, inv.fits, inv.records, ?_⟩
  · intro e x found
    have apart := swapped_apart swapped accepted logged s inv e x found
    rw [kept e (by omega)]
    exact inv.frozen e x found
  · change swapped.flatMap (fun x => x.2.txSet) ++ ((s.addWriteTx tx).1.memory s.batch).txSet = _
    rw [here, ← inv.flow]
    rcases add_returns (s.memory s.batch) tx with ⟨full, _⟩ | ⟨one, added, _⟩
    · simp [MasterMemory.addWriteTx, full]
    · simp [MasterMemory.addWriteTx, one, added]
  · exact swap_position_kept s _ logged rfl rfl rfl rfl rfl (fun e below => kept e (by omega)) inv.position

theorem swap_inv_swap (swapped : List (Nat × Batch)) (accepted : List Tx) (logged : Nat) (s : MasterMemory) (cur : Int)
    (inv : SwapInv swapped accepted logged s) (pc : s.pc = .filling cur) :
    SwapInv (swapped ++ [(s.batch, s.memory s.batch)]) accepted logged
      { s with
        pc := .encoding cur s.batch
        memory := Function.update s.memory s.allocated (batchCreate (Int16.ofInt (cur + 1)))
        allocated := s.allocated + 1
        batch := s.allocated } := by
  have fresh := inv.fresh
  have pointer := inv.pointer
  have position := inv.position
  simp only [SwapPosition, pc] at position
  obtain ⟨number, complete, queued, determined⟩ := position
  have kept : ∀ e, e < s.allocated →
      Function.update s.memory s.allocated (batchCreate (Int16.ofInt (cur + 1))) e = s.memory e :=
    fun e below => Function.update_of_ne (by omega) _ _
  have last : ∀ (e : Nat) (x : Nat × Batch), (swapped ++ [(s.batch, s.memory s.batch)])[e]? = some x →
      swapped[e]? = some x ∨ e = s.batch ∧ x = (s.batch, s.memory s.batch) := by
    intro e x found
    rw [List.getElem?_append] at found
    split at found
    · exact .inl found
    · rw [List.getElem?_singleton] at found
      split at found
      · cases found
        exact .inr ⟨by omega, rfl⟩
      · cases found
  refine ⟨rfl, ?_, ?_, ?_, ?_, ?_, inv.fits, ?_, ?_⟩
  · simp only [List.length_append, List.length_singleton]
    omega
  · intro e x found
    rcases last e x found with earlier | ⟨rfl, rfl⟩
    · obtain ⟨address, same⟩ := inv.frozen e x earlier
      have below := swapped_apart swapped accepted logged s inv e x earlier
      exact ⟨address, (kept e (by omega)).trans same⟩
    · exact ⟨rfl, kept s.batch (by omega)⟩
  · intro e x found
    rcases last e x found with earlier | ⟨rfl, rfl⟩
    · exact inv.epochs e x earlier
    · exact inv.filling
  · simp only [Function.update_self, batch_create_epoch]
    rw [number, fresh]
    rfl
  · simp only [Function.update_self, batch_create_txs, List.append_nil, List.flatMap_append, List.flatMap_cons,
      List.flatMap_nil]
    exact inv.flow
  · intro e x found early
    rcases last e x found with earlier | ⟨rfl, rfl⟩
    · exact inv.records e x earlier early
    · omega
  · exact ⟨fresh.symm, complete, queued, determined⟩

theorem swap_inv_encode (swapped : List (Nat × Batch)) (accepted : List Tx) (logged : Nat) (s : MasterMemory) (cur : Int)
    (rev : Nat) (inv : SwapInv swapped accepted logged s) (pc : s.pc = .encoding cur rev) :
    SwapInv swapped accepted logged
      { s with
        pc := .appending cur rev (createBatchMsg (s.memory rev) s.batchMsg).2
        batchMsg := (createBatchMsg (s.memory rev) s.batchMsg).1 } := by
  have position := inv.position
  simp only [SwapPosition, pc] at position
  obtain ⟨before, complete, queued, determined⟩ := position
  exact swap_inv_moves swapped accepted logged s _ inv rfl rfl rfl rfl
    ⟨before, complete, queued, determined, create_batch_length (s.memory rev) s.batchMsg,
      create_batch_carries (s.memory rev) s.batchMsg⟩

theorem swap_inv_append (swapped : List (Nat × Batch)) (accepted : List Tx) (logged : Nat) (s : MasterMemory) (cur : Int)
    (rev len : Nat) (io : LogIo) (file : File) (inv : SwapInv swapped accepted logged s) (pc : s.pc = .appending cur rev len)
    (done : appendLog s.batchLog s.batchMsg len (s.memory rev).epochId.toInt io = .returned file) :
    SwapInv swapped accepted (logged + 1) { s with pc := .counting cur rev, batchLog := some file } := by
  have pointer := inv.pointer
  have fits := inv.fits
  have position := inv.position
  simp only [SwapPosition, pc] at position
  obtain ⟨before, rfl, queued, determined, length, content⟩ := position
  have inside : logged < swapped.length := by omega
  have found := List.getElem?_eq_getElem inside
  obtain ⟨address, same⟩ := inv.frozen logged _ found
  have named := inv.epochs logged _ found
  rw [same] at content length done
  rw [named] at done
  obtain ⟨small, decoded⟩ := append_log_epoch _ _ _ logged io file fits done
  rw [decoded] at done
  have room := batch_msg_fits swapped[logged].2
  refine ⟨inv.fresh, pointer, inv.frozen, inv.epochs, inv.filling, inv.flow, by omega, ?_, before, before, queued,
    determined⟩
  intro e x other early
  by_cases now : e = logged
  · subst now
    have equal := found.symm.trans other
    cases equal
    exact log_carries_append batchLogRoom s.batchLog s.batchMsg len e swapped[e].2 io file (by decide)
      (Nat.le_of_eq length.symm)
      (by unfold batchLogRoom batchLogDataOffset batchLogDataSizeOffset batchLogSize; omega) content done
  · exact log_carries_kept _ _ _ _ _ e x.2 io file now done (inv.records e x other (by omega))

theorem swap_inv_step (run : List (MasterMemory × (Int × MemoryAct))) (s t : MasterMemory) (act : Int × MemoryAct)
    (inv : SwapInv (swappedIn run) (acceptedIn run) (appendsIn run) s) (taken : s.step act = some t) :
    SwapInv (swappedIn (run ++ [(s, act)])) (acceptedIn (run ++ [(s, act)])) (appendsIn (run ++ [(s, act)])) t := by
  have position := inv.position
  cases memory_step_of_some s t act taken with
  | addWriteTx flag tx =>
      have added := swap_inv_add _ _ _ s tx inv
      by_cases one : (s.addWriteTx tx).2 = 1
      · simpa [swappedIn, acceptedIn, appendsIn, one] using added
      · simpa [swappedIn, acceptedIn, appendsIn, one] using added
  | swap flag cur pc => simpa [swappedIn, acceptedIn, appendsIn] using swap_inv_swap _ _ _ s cur inv pc
  | encode flag cur rev pc => simpa [swappedIn, acceptedIn, appendsIn] using swap_inv_encode _ _ _ s cur rev inv pc
  | append flag cur rev len io file pc done =>
      simpa [swappedIn, acceptedIn, appendsIn] using swap_inv_append _ _ _ s cur rev len io file inv pc done
  | spin flag pc => simpa [swappedIn, acceptedIn, appendsIn] using inv
  | start flag pc zero =>
      simp only [SwapPosition, pc] at position
      simpa [swappedIn, acceptedIn, appendsIn] using
        swap_inv_moves _ _ _ s { s with pc := .loop } inv rfl rfl rfl rfl position
  | enter flag pc zero =>
      simp only [SwapPosition, pc] at position
      simpa [swappedIn, acceptedIn, appendsIn] using
        swap_inv_moves _ _ _ s { s with pc := .checking (s.determinedEpochId + 1) } inv rfl rfl rfl rfl
          ⟨position.2.2, position⟩
  | leave flag pc stopped =>
      simp only [SwapPosition, pc] at position
      simpa [swappedIn, acceptedIn, appendsIn] using
        swap_inv_moves _ _ _ s { s with pc := .returned } inv rfl rfl rfl rfl position
  | stop flag cur pc one =>
      simp only [SwapPosition, pc] at position
      simpa [swappedIn, acceptedIn, appendsIn] using
        swap_inv_moves _ _ _ s { s with pc := .returned } inv rfl rfl rfl rfl position.2
  | check flag cur pc running =>
      simp only [SwapPosition, pc] at position
      simpa [swappedIn, acceptedIn, appendsIn] using
        swap_inv_moves _ _ _ s { s with pc := .filling cur } inv rfl rfl rfl rfl position
  | count flag cur rev pc =>
      simp only [SwapPosition, pc] at position
      obtain ⟨before, complete, queued, determined⟩ := position
      have kept := swap_inv_moves _ _ _ s { s with pc := .enqueueing cur rev, determinedEpochId := s.determinedEpochId + 1 }
        inv rfl rfl rfl rfl ⟨before, complete, queued, by simp only; omega⟩
      simpa [swappedIn, acceptedIn, appendsIn] using kept
  | enqueue flag cur rev pc =>
      simp only [SwapPosition, pc] at position
      obtain ⟨before, complete, queued, determined⟩ := position
      have kept := swap_inv_moves _ _ _ s { s with pc := .loop, writeTxBuffer := s.writeTxBuffer ++ [rev] }
        inv rfl rfl rfl rfl ⟨complete, by rw [queued, ← before, List.range_succ], determined⟩
      simpa [swappedIn, acceptedIn, appendsIn] using kept

theorem swap_inv_trace (uninitialised : Buf) (run : List (MasterMemory × (Int × MemoryAct))) (s : MasterMemory)
    (trace : (masterMemory uninitialised).Trace run s) : SwapInv (swappedIn run) (acceptedIn run) (appendsIn run) s := by
  induction trace with
  | init =>
      refine ⟨rfl, rfl, ?_, ?_, rfl, rfl, Nat.zero_le _, ?_, rfl, rfl, rfl⟩
      · simp [swappedIn]
      · simp [swappedIn]
      · simp [swappedIn]
  | step run s t act before taken ih => exact swap_inv_step run s t act ih taken

structure KeepsWrites (run : List (MasterMemory × (Int × MemoryAct))) (s : MasterMemory) : Prop where
  concatenation :
    (swappedIn run).flatMap (fun x => (s.memory x.1).txSet) ++ (s.memory s.batch).txSet = acceptedIn run
  numbered : ∀ (e : Nat) (x : Nat × Batch), (swappedIn run)[e]? = some x →
    x.1 ≠ s.batch ∧ (s.memory x.1).epochId = Int16.ofInt e
  bounded : ∀ address, (s.memory address).txSet.length ≤ maxBatchSize
  refused : ∀ tx, (s.addWriteTx tx).2 = 0 → (s.addWriteTx tx).1 = s
  frozen : ∀ x ∈ swappedIn run, s.memory x.1 = x.2
  encoded : ∀ cur rev len, s.pc = .appending cur rev len → ∃ x ∈ swappedIn run, rev = x.1 ∧
    len = batchMsgLength x.2.wire ∧ CarriesBatch s.batchMsg x.2.epochId x.2.wire
  logged : ∀ e x, (swappedIn run)[e]? = some x → e < appendsIn run → LogCarries batchLogRoom s.batchLog e x.2
  enqueued : ∀ (e address : Nat), s.writeTxBuffer[e]? = some address →
    ∃ x, (swappedIn run)[e]? = some x ∧ address = x.1 ∧ s.memory address = x.2

theorem queued_range (s : MasterMemory) (logged : Nat) (position : SwapPosition s logged) :
    ∃ n, n ≤ s.batch ∧ s.writeTxBuffer = List.range n := by
  unfold SwapPosition at position
  cases pc : s.pc with
  | barrier | loop | returned =>
      simp only [pc] at position
      exact ⟨s.batch, Nat.le_refl _, position.2.1⟩
  | checking cur | filling cur =>
      simp only [pc] at position
      exact ⟨s.batch, Nat.le_refl _, position.2.2.1⟩
  | encoding cur rev | appending cur rev len | counting cur rev | enqueueing cur rev =>
      simp only [pc] at position
      exact ⟨rev, by omega, position.2.2.1⟩

theorem no_write_lost (uninitialised : Buf) (run : List (MasterMemory × (Int × MemoryAct))) (s : MasterMemory)
    (trace : (masterMemory uninitialised).Trace run s) : KeepsWrites run s := by
  have inv := swap_inv_trace uninitialised run s trace
  have pointer := inv.pointer
  have frozen : ∀ x ∈ swappedIn run, s.memory x.1 = x.2 := by
    intro x member
    obtain ⟨e, found⟩ := List.getElem?_of_mem member
    obtain ⟨address, same⟩ := inv.frozen e x found
    rw [address, same]
  refine ⟨?_, ?_, fun address => (s.memory address).fits, ?_, frozen, ?_, inv.records, ?_⟩
  · rw [← inv.flow]
    congr 1
    simp only [List.flatMap]
    congr 1
    exact List.map_congr_left (fun x member => by rw [frozen x member])
  · intro e x found
    obtain ⟨address, same⟩ := inv.frozen e x found
    have below := swapped_apart _ _ _ s inv e x found
    rw [address, same]
    exact ⟨by omega, inv.epochs e x found⟩
  · intro tx refused
    rcases add_returns (s.memory s.batch) tx with ⟨full, _⟩ | ⟨one, _, _⟩
    · simp only [MasterMemory.addWriteTx, full, Function.update_eq_self]
    · simp [MasterMemory.addWriteTx, one] at refused
  · intro cur rev len pc
    have position := inv.position
    simp only [SwapPosition, pc] at position
    obtain ⟨before, _, _, _, length, content⟩ := position
    have found := List.getElem?_eq_getElem (show rev < (swappedIn run).length by omega)
    obtain ⟨address, same⟩ := inv.frozen rev _ found
    rw [same] at length content
    exact ⟨_, List.mem_of_getElem? found, address.symm, length, content⟩
  · intro e address found
    obtain ⟨n, bound, list⟩ := queued_range s _ inv.position
    rw [list] at found
    obtain ⟨inside, same⟩ := List.getElem?_eq_some_iff.mp found
    rw [List.length_range] at inside
    rw [List.getElem_range] at same
    subst same
    have there := List.getElem?_eq_getElem (show e < (swappedIn run).length by omega)
    obtain ⟨first, second⟩ := inv.frozen e _ there
    exact ⟨_, there, first.symm, second⟩

def writeWhileLogging (tx : Tx) : List (Int × MemoryAct) :=
  [(0, .barrier), (0, .loop), (0, .check), (0, .addWriteTx tx), (0, .swap), (0, .addWriteTx tx), (0, .encode),
    (0, .addWriteTx tx), (0, .append wholeIo), (0, .count), (0, .enqueue)]

theorem no_write_lost_while_logging : ∃ run s, (masterMemory (fun _ => 0)).Trace run s ∧ s.writeTxBuffer = [0] ∧
    KeepsWrites run s := by
  have ran : ((masterMemory (fun _ => 0)).exec (.initial (fun _ => 0)) (writeWhileLogging sampleTx)).map
      (fun s => s.writeTxBuffer) = some [0] := by decide +kernel
  obtain ⟨s, ran, list⟩ := Option.map_eq_some_iff.mp ran
  obtain ⟨run, trace⟩ := Machine.reachable_trace _ s (Machine.reachable_exec _ (writeWhileLogging sampleTx) _ s .init ran)
  exact ⟨run, s, trace, list, no_write_lost (fun _ => 0) run s trace⟩

end EpochReplication
