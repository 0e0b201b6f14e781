import EpochReplication.MasterHeap

set_option autoImplicit false

namespace EpochReplication

def HeapPc.pointer : HeapPc → List Nat
  | .encoding _ rev | .appending _ rev _ | .counting _ rev | .enqueueing _ rev => [rev]
  | _ => []

def HeapPc.memoryPc (rev : Nat) : HeapPc → MemoryPc
  | .barrier => .barrier
  | .loop | .printing _ _ => .loop
  | .checking cur => .checking cur
  | .filling cur => .filling cur
  | .encoding cur _ => .encoding cur rev
  | .appending cur _ len => .appending cur rev len
  | .counting cur _ => .counting cur rev
  | .enqueueing cur _ => .enqueueing cur rev
  | .returned => .returned

def ExecutePc.pointer : ExecutePc → List Nat
  | .executing batch _ | .freeing batch _ _ => [batch]
  | _ => []

def ExecutePc.executed : ExecutePc → Nat
  | .executing _ i => i
  | .freeing _ i _ => i + 1
  | _ => 0

def ExecutePc.freed : ExecutePc → Nat
  | .executing _ i | .freeing _ i _ => i
  | _ => 0

namespace MasterMemory

def contents (m : MasterMemory) (first n : Nat) : List Batch := (List.range' first n).map m.memory

def assigned (m : MasterMemory) (e : Nat) : List Tx :=
  (m.memory e).txSet.map (fun tx => setAssignedEpochIdToTx tx (Int16.ofInt e))

end MasterMemory

structure Holds (txs : Nat → Option Tx) (cell : BatchCell) (batch : Batch) : Prop where
  epochId : cell.epochId = batch.epochId
  txSet : Reads txs cell.txSet batch.txSet

inductive AtHand (s : MasterHeap) (batch : Batch) : List BatchCell → Prop where
  | idle (pointer : s.scheduler.pointer = []) : AtHand s batch []
  | executing (address i : Nat) (cell : BatchCell) (pc : s.scheduler = .executing address i)
      (read : s.batches address = some cell) (length : cell.txSet.length = batch.txSet.length) (bound : i ≤ cell.txSet.length)
      (rest : Reads s.txs (cell.txSet.drop i) (batch.txSet.drop i)) : AtHand s batch [cell]
  | freeing (address i tx : Nat) (value : Tx) (cell : BatchCell) (pc : s.scheduler = .freeing address i tx)
      (read : s.batches address = some cell) (length : cell.txSet.length = batch.txSet.length)
      (found : cell.txSet[i]? = some tx) (here : s.txs tx = some value)
      (rest : Reads s.txs (cell.txSet.drop (i + 1)) (batch.txSet.drop (i + 1))) : AtHand s batch [cell]

def owned (s : MasterHeap) (hand cells : List BatchCell) : List Nat :=
  (hand.flatMap BatchCell.txSet).drop s.scheduler.freed ++ cells.flatMap BatchCell.txSet

structure HeldApart (s : MasterHeap) (used : List Nat) (thread : Nat × Nat) (address : Nat) : Prop where
  allocated : ∃ tx, s.txs address = some tx
  unused : address ∉ used
  own : ∀ other, s.held other = some address → other = thread

-- The batches are numbered in the order of their creation: `left` have been
-- executed and freed, then comes the one at hand, `front` are those in the list
-- and the one of the epoch loop, and `last` is the one being filled.
structure HeapInv (s : MasterHeap) (m : MasterMemory) (left : Nat) (hand front : List BatchCell) (last : BatchCell) : Prop where
  fine : s.faulted = false
  apart : (s.scheduler.pointer ++ s.writeTxBuffer ++ s.pc.pointer ++ [s.batch]).Nodup
  atHand : AtHand s (m.memory left) hand
  reads : Reads s.batches (s.writeTxBuffer ++ s.pc.pointer) front
  holds : List.Forall₂ (Holds s.txs) front (m.contents (left + hand.length) front.length)
  filling : s.batches s.batch = some last
  current : Holds s.txs last (m.memory m.batch)
  number : m.batch = left + hand.length + front.length
  allocated : m.allocated = m.batch + 1
  txs : (owned s hand (front ++ [last])).Nodup
  held : ∀ thread address, s.held thread = some address → HeldApart s (owned s hand (front ++ [last])) thread address
  pc : m.pc = s.pc.memoryPc (m.batch - 1)
  determined : m.determinedEpochId = s.determinedEpochId
  log : m.batchLog = s.batchLog
  msg : m.batchMsg = s.batchMsg
  queue : m.writeTxBuffer = List.range (left + hand.length + s.writeTxBuffer.length)
  epoch : s.epoch = left
  written : s.written = (List.range left).flatMap m.assigned ++ (m.assigned left).take s.scheduler.executed
  printing : ∀ cur rev, s.pc = .printing cur rev → (s.scheduler.pointer ++ s.writeTxBuffer).getLast? = some rev ∨
    s.scheduler.pointer = [] ∧ s.writeTxBuffer = [] ∧ s.batches rev = none

section Holds

variable (txs : Nat → Option Tx)

theorem holds_load (cell : BatchCell) (batch : Batch) (holds : Holds txs cell batch) : cell.load txs = some batch := by
  have loaded := reads_all txs cell.txSet batch.txSet holds.txSet
  unfold BatchCell.load
  rw [loaded, Option.bind_some, dif_pos batch.fits, holds.epochId]

theorem holds_kept (next : Nat → Option Tx) (cells : List BatchCell) (batches : List Batch)
    (same : ∀ address ∈ cells.flatMap BatchCell.txSet, next address = txs address)
    (holds : List.Forall₂ (Holds txs) cells batches) : List.Forall₂ (Holds next) cells batches := by
  induction holds with
  | nil => exact .nil
  | cons here _ ih =>
      rw [List.flatMap_cons] at same
      exact .cons ⟨here.epochId, reads_kept txs next _ _ (fun address member => same address (List.mem_append_left _ member))
        here.txSet⟩ (ih fun address member => same address (List.mem_append_right _ member))

theorem holds_allocated (cells : List BatchCell) (batches : List Batch) (holds : List.Forall₂ (Holds txs) cells batches)
    (address : Nat) (member : address ∈ cells.flatMap BatchCell.txSet) : ∃ tx, txs address = some tx := by
  induction holds with
  | nil => cases member
  | cons here _ ih =>
      rcases List.mem_append.mp member with first | later
      · exact reads_member txs _ _ here.txSet address first
      · exact ih later

theorem holds_at (m : MasterMemory) (cells : List BatchCell) (first n : Nat) (j : Nat) (cell : BatchCell)
    (holds : List.Forall₂ (Holds txs) cells (m.contents first n)) (found : cells[j]? = some cell) :
    Holds txs cell (m.memory (first + j)) := by
  induction cells generalizing first n j with
  | nil => cases found
  | cons head cells ih =>
      cases n with
      | zero => cases holds
      | succ n =>
          rw [MasterMemory.contents, List.range'_succ, List.map_cons] at holds
          obtain ⟨here, rest⟩ := List.forall₂_cons.mp holds
          cases j with
          | zero =>
              cases found
              exact here
          | succ j =>
              have later := ih (first + 1) n j rest found
              rwa [Nat.add_assoc, Nat.add_comm 1 j] at later

end Holds

theorem contents_snoc (m : MasterMemory) (first n : Nat) : m.contents first (n + 1) = m.contents first n ++ [m.memory (first + n)] := by
  rw [MasterMemory.contents, MasterMemory.contents, List.range'_concat, List.map_append, Nat.one_mul, List.map_singleton]

theorem contents_kept (m t : MasterMemory) (first n : Nat) (same : ∀ e, e < first + n → t.memory e = m.memory e) :
    t.contents first n = m.contents first n := by
  refine List.map_congr_left fun e member => same e ?_
  have inside := List.mem_range'_1.mp member
  omega

theorem assigned_kept (m t : MasterMemory) (left n : Nat) (same : ∀ e, e < left → t.memory e = m.memory e)
    (here : n = 0 ∨ t.memory left = m.memory left) :
    (List.range left).flatMap t.assigned ++ (t.assigned left).take n =
      (List.range left).flatMap m.assigned ++ (m.assigned left).take n := by
  have before : (List.range left).flatMap t.assigned = (List.range left).flatMap m.assigned := by
    simp only [List.flatMap]
    congr 1
    refine List.map_congr_left fun e member => ?_
    rw [MasterMemory.assigned, same e (List.mem_range.mp member), MasterMemory.assigned]
  rcases here with rfl | here
  · rw [before, List.take_zero, List.take_zero]
  · rw [before, MasterMemory.assigned, here, MasterMemory.assigned]

theorem at_hand_kept (s t : MasterHeap) (batch : Batch) (hand : List BatchCell) (scheduler : t.scheduler = s.scheduler)
    (batches : ∀ address ∈ s.scheduler.pointer, t.batches address = s.batches address)
    (txs : ∀ address ∈ (hand.flatMap BatchCell.txSet).drop s.scheduler.freed, t.txs address = s.txs address)
    (atHand : AtHand s batch hand) : AtHand t batch hand := by
  cases atHand with
  | idle pointer => exact .idle (by rw [scheduler]; exact pointer)
  | executing address i cell pc read length bound rest =>
      rw [pc] at batches txs
      simp only [List.flatMap_cons, List.flatMap_nil, List.append_nil, ExecutePc.freed] at txs
      exact .executing address i cell (scheduler.trans pc) ((batches address List.mem_cons_self).trans read) length bound
        (reads_kept _ _ _ _ txs rest)
  | freeing address i tx value cell pc read length found here rest =>
      rw [pc] at batches txs
      simp only [List.flatMap_cons, List.flatMap_nil, List.append_nil, ExecutePc.freed] at txs
      obtain ⟨inside, own⟩ := List.getElem?_eq_some_iff.mp found
      rw [List.drop_eq_getElem_cons inside, own] at txs
      exact .freeing address i tx value cell (scheduler.trans pc) ((batches address List.mem_cons_self).trans read) length found
        ((txs tx List.mem_cons_self).trans here)
        (reads_kept _ _ _ _ (fun other member => txs other (List.mem_cons_of_mem _ member)) rest)

theorem at_hand_length (s : MasterHeap) (batch : Batch) (hand : List BatchCell) (atHand : AtHand s batch hand) :
    hand.length = s.scheduler.pointer.length := by
  cases atHand with
  | idle pointer => rw [pointer]; rfl
  | executing address i cell pc => rw [pc]; rfl
  | freeing address i tx value cell pc => rw [pc]; rfl

theorem at_hand_reads (s : MasterHeap) (batch : Batch) (hand : List BatchCell) (atHand : AtHand s batch hand) :
    Reads s.batches s.scheduler.pointer hand := by
  cases atHand with
  | idle pointer => rw [pointer]; exact .nil
  | executing address i cell pc read => rw [pc]; exact .cons read .nil
  | freeing address i tx value cell pc read => rw [pc]; exact .cons read .nil

theorem at_hand_allocated (s : MasterHeap) (batch : Batch) (hand : List BatchCell) (atHand : AtHand s batch hand) (address : Nat)
    (member : address ∈ (hand.flatMap BatchCell.txSet).drop s.scheduler.freed) : ∃ tx, s.txs address = some tx := by
  cases atHand with
  | idle pointer => simp at member
  | executing batch i cell pc read length bound rest =>
      simp only [pc, List.flatMap_cons, List.flatMap_nil, List.append_nil, ExecutePc.freed] at member
      exact reads_member s.txs _ _ rest address member
  | freeing batch i tx value cell pc read length found here rest =>
      simp only [pc, List.flatMap_cons, List.flatMap_nil, List.append_nil, ExecutePc.freed] at member
      obtain ⟨inside, own⟩ := List.getElem?_eq_some_iff.mp found
      rw [List.drop_eq_getElem_cons inside, own] at member
      rcases List.mem_cons.mp member with rfl | later
      · exact ⟨value, here⟩
      · exact reads_member s.txs _ _ rest address later

theorem idle_counts (pc : ExecutePc) (idle : pc.pointer = []) : pc.executed = 0 ∧ pc.freed = 0 := by
  cases pc with
  | loop | taking | returned => exact ⟨rfl, rfl⟩
  | executing | freeing => cases idle

theorem still_held (held : Nat × Nat → Option Nat) (thread other : Nat × Nat) (address : Nat)
    (holds : Function.update held thread none other = some address) : other ≠ thread ∧ held other = some address := by
  by_cases here : other = thread
  · rw [here, Function.update_self] at holds
    cases holds
  · rw [Function.update_of_ne here] at holds
    exact ⟨here, holds⟩

theorem mem_front (s : MasterHeap) (hand front : List BatchCell) (last : BatchCell) (address : Nat)
    (member : address ∈ front.flatMap BatchCell.txSet) : address ∈ owned s hand (front ++ [last]) := by
  rw [owned, List.flatMap_append]
  exact List.mem_append_right _ (List.mem_append_left _ member)

theorem mem_last (s : MasterHeap) (hand front : List BatchCell) (last : BatchCell) (address : Nat)
    (member : address ∈ last.txSet) : address ∈ owned s hand (front ++ [last]) := by
  rw [owned, List.flatMap_append, List.flatMap_singleton]
  exact List.mem_append_right _ (List.mem_append_right _ member)

section HeapInv

variable (s : MasterHeap) (m : MasterMemory) (left : Nat) (hand front : List BatchCell) (last : BatchCell)
  (inv : HeapInv s m left hand front last)

include inv

theorem cells_hold : List.Forall₂ (Holds s.txs) (front ++ [last])
    (m.contents (left + hand.length) front.length ++ [m.memory m.batch]) :=
  List.rel_append inv.holds (.cons inv.current .nil)

theorem owned_allocated (address : Nat) (member : address ∈ owned s hand (front ++ [last])) : ∃ tx, s.txs address = some tx := by
  rcases List.mem_append.mp member with now | later
  · exact at_hand_allocated s _ hand inv.atHand address now
  · exact holds_allocated s.txs _ _ (cells_hold s m left hand front last inv) address later

theorem pointers_allocated (address : Nat)
    (member : address ∈ s.scheduler.pointer ++ s.writeTxBuffer ++ s.pc.pointer ++ [s.batch]) :
    ∃ cell, s.batches address = some cell := by
  rw [List.append_assoc s.scheduler.pointer] at member
  rcases List.mem_append.mp member with before | last
  · rcases List.mem_append.mp before with now | waiting
    · exact reads_member s.batches _ _ (at_hand_reads s _ hand inv.atHand) address now
    · exact reads_member s.batches _ _ inv.reads address waiting
  · rw [List.mem_singleton.mp last]
    exact ⟨_, inv.filling⟩

theorem rev_holds (rev : Nat) (pointer : s.pc.pointer = [rev]) :
    1 ≤ m.batch ∧ ∃ cell, s.batches rev = some cell ∧ Holds s.txs cell (m.memory (m.batch - 1)) := by
  have reads := inv.reads
  have number := inv.number
  rw [pointer] at reads
  obtain ⟨cells, rest, rfl, _, one⟩ := reads_split s.batches _ _ front reads
  obtain ⟨cell, rfl, here⟩ := reads_last s.batches rev rest one
  have found : (cells ++ [cell])[cells.length]? = some cell := by
    rw [List.getElem?_append_right (Nat.le_refl _), Nat.sub_self]
    rfl
  have holds := holds_at s.txs m _ _ _ cells.length cell inv.holds found
  rw [List.length_append, List.length_singleton] at number
  rw [show left + hand.length + cells.length = m.batch - 1 by omega] at holds
  exact ⟨by omega, cell, here, holds⟩

theorem heap_inv_moves (n : MasterMemory) (pc : HeapPc) (determined : Int) (log : Option File) (msg : Buf)
    (pointer : pc.pointer = s.pc.pointer) (quiet : ∀ cur rev, pc ≠ .printing cur rev) (memory : n.memory = m.memory)
    (number : n.batch = m.batch) (allocated : n.allocated = m.allocated) (queue : n.writeTxBuffer = m.writeTxBuffer)
    (moved : n.pc = pc.memoryPc (m.batch - 1)) (counted : n.determinedEpochId = determined) (logged : n.batchLog = log)
    (filled : n.batchMsg = msg) :
    HeapInv { s with pc := pc, determinedEpochId := determined, batchLog := log, batchMsg := msg } n left hand front last where
  fine := inv.fine
  apart := by rw [pointer]; exact inv.apart
  atHand := by
    rw [memory]
    exact at_hand_kept s _ _ hand rfl (fun _ _ => rfl) (fun _ _ => rfl) inv.atHand
  reads := by rw [pointer]; exact inv.reads
  holds := by
    rw [contents_kept m n _ _ (fun e _ => by rw [memory])]
    exact inv.holds
  filling := inv.filling
  current := by
    rw [memory, number]
    exact inv.current
  number := number.trans inv.number
  allocated := by rw [allocated, number]; exact inv.allocated
  txs := inv.txs
  held := fun thread address holds => ⟨(inv.held thread address holds).allocated, (inv.held thread address holds).unused,
    (inv.held thread address holds).own⟩
  pc := by rw [number]; exact moved
  determined := counted
  log := logged
  msg := filled
  queue := queue.trans inv.queue
  epoch := inv.epoch
  written := inv.written.trans (assigned_kept m n left _ (fun e _ => by rw [memory]) (.inr (by rw [memory]))).symm
  printing := fun cur rev printing => absurd printing (quiet cur rev)

theorem heap_inv_enqueue (cur : Int) (rev : Nat) (pc : s.pc = .enqueueing cur rev) :
    HeapInv { s with pc := .printing cur rev, writeTxBuffer := s.writeTxBuffer ++ [rev] }
      { m with pc := .loop, writeTxBuffer := m.writeTxBuffer ++ [m.batch - 1] } left hand front last := by
  have apart := inv.apart
  have reads := inv.reads
  have number := inv.number
  rw [pc] at apart reads
  have length := reads_length s.batches _ _ reads
  simp only [HeapPc.pointer, List.length_append, List.length_singleton] at length
  refine { inv with
    apart := ?_
    atHand := at_hand_kept s _ _ hand rfl (fun _ _ => rfl) (fun _ _ => rfl) inv.atHand
    reads := ?_
    held := fun thread address holds => ⟨(inv.held thread address holds).allocated, (inv.held thread address holds).unused,
      (inv.held thread address holds).own⟩
    pc := rfl
    queue := ?_
    printing := ?_ }
  · simpa only [HeapPc.pointer, List.append_nil, List.append_assoc] using apart
  · simpa only [HeapPc.pointer, List.append_nil] using reads
  · simp only [List.length_append, List.length_singleton]
    rw [inv.queue, ← Nat.add_assoc, List.range_succ, show m.batch - 1 = left + hand.length + s.writeTxBuffer.length by omega]
  · intro other last same
    cases same
    exact .inl (by rw [← List.append_assoc, List.getLast?_concat])

theorem heap_inv_print (cur : Int) (rev : Nat) (pc : s.pc = .printing cur rev) :
    HeapInv { s with pc := .loop } m left hand front last :=
  heap_inv_moves s m left hand front last inv m .loop s.determinedEpochId s.batchLog s.batchMsg (by rw [pc]; rfl)
    (by simp) rfl rfl rfl rfl (by rw [inv.pc, pc]; rfl) inv.determined inv.log inv.msg

theorem heap_inv_swap (cur : Int) (address : Nat) (pc : s.pc = .filling cur) (room : s.Unallocated address) :
    HeapInv
      { s with
        pc := .encoding cur s.batch
        batches := Function.update s.batches address (some ⟨Int16.ofInt (cur + 1), []⟩)
        batch := address }
      { m with
        pc := .encoding cur m.batch
        memory := Function.update m.memory m.allocated (batchCreate (Int16.ofInt (cur + 1)))
        allocated := m.allocated + 1
        batch := m.allocated } left hand (front ++ [last]) ⟨Int16.ofInt (cur + 1), []⟩ := by
  have number := inv.number
  have allocated := inv.allocated
  have apart := inv.apart
  have reads := inv.reads
  rw [pc] at apart reads
  simp only [HeapPc.pointer, List.append_nil] at apart reads
  have fresh : address ∉ s.scheduler.pointer ++ s.writeTxBuffer ++ [s.batch] := by
    intro member
    obtain ⟨cell, here⟩ := pointers_allocated s m left hand front last inv address
      (by rw [pc]; simpa only [HeapPc.pointer, List.append_nil] using member)
    rw [room.1] at here
    cases here
  have kept : ∀ other ∈ s.scheduler.pointer ++ s.writeTxBuffer ++ [s.batch],
      Function.update s.batches address (some ⟨Int16.ofInt (cur + 1), []⟩) other = s.batches other :=
    update_away s.batches _ address _ fresh
  have memory : ∀ e, e < m.allocated →
      Function.update m.memory m.allocated (batchCreate (Int16.ofInt (cur + 1))) e = m.memory e :=
    fun e below => Function.update_of_ne (Nat.ne_of_lt below) _ _
  have flat : (front ++ [last] ++ [(⟨Int16.ofInt (cur + 1), []⟩ : BatchCell)]).flatMap BatchCell.txSet =
      (front ++ [last]).flatMap BatchCell.txSet := by
    rw [List.flatMap_append, List.flatMap_singleton, List.append_nil]
  refine { inv with
    apart := ?_
    atHand := ?_
    reads := ?_
    holds := ?_
    filling := Function.update_self ..
    current := ?_
    number := ?_
    allocated := rfl
    txs := ?_
    held := ?_
    pc := ?_
    written := ?_
    printing := ?_ }
  · simp only [HeapPc.pointer]
    rw [← List.concat_eq_append]
    exact apart.concat fresh
  · dsimp only
    rw [memory left (by omega)]
    exact at_hand_kept s _ _ hand rfl (fun other member => kept other (by simp [member])) (fun _ _ => rfl) inv.atHand
  · refine reads_kept s.batches _ _ _ (fun other member => kept other ?_)
      (reads_append s.batches _ _ _ _ reads (.cons inv.filling .nil))
    rw [List.append_assoc]
    exact List.mem_append_right _ member
  · rw [List.length_append, List.length_singleton, contents_kept m _ _ _ (fun e below => memory e (by omega)), contents_snoc,
      ← number]
    exact cells_hold s m left hand front last inv
  · simp only [Function.update_self]
    exact ⟨rfl, .nil⟩
  · dsimp only
    rw [List.length_append, List.length_singleton]
    omega
  · rw [owned, flat]
    exact inv.txs
  · intro thread held holds
    have before := inv.held thread held holds
    refine ⟨before.allocated, ?_, before.own⟩
    rw [owned, flat]
    exact before.unused
  · rw [show m.allocated - 1 = m.batch by omega]
    rfl
  · exact inv.written.trans (assigned_kept m _ left _ (fun e below => memory e (by omega)) (.inr (memory left (by omega)))).symm
  · intro other rev same
    cases same

theorem heap_inv_create (thread : Nat × Nat) (address : Nat) (tx : Tx) (room : s.Unallocated address) :
    HeapInv
      { s with
        txs := Function.update s.txs address (some tx)
        held := Function.update s.held thread (some address) } m left hand front last := by
  have fresh : address ∉ owned s hand (front ++ [last]) := by
    intro member
    obtain ⟨other, here⟩ := owned_allocated s m left hand front last inv address member
    rw [room.2] at here
    cases here
  have kept : ∀ other ∈ owned s hand (front ++ [last]), Function.update s.txs address (some tx) other = s.txs other :=
    update_away s.txs _ address _ fresh
  refine { inv with
    atHand := at_hand_kept s _ _ hand rfl (fun _ _ => rfl) (fun other member => kept other (List.mem_append_left _ member))
      inv.atHand
    holds := holds_kept s.txs _ _ _ (fun other member => kept other (mem_front s hand front last other member)) inv.holds
    current := ⟨inv.current.epochId, reads_kept s.txs _ _ _ (fun other member => kept other (mem_last s hand front last other member))
      inv.current.txSet⟩
    held := ?_ }
  have unheld : ∀ other, s.held other ≠ some address := by
    intro other holds
    obtain ⟨value, here⟩ := (inv.held other address holds).allocated
    rw [room.2] at here
    cases here
  intro other held holds
  simp only [Function.update_apply] at holds ⊢
  by_cases here : other = thread
  · rw [if_pos here] at holds
    cases holds
    refine ⟨⟨tx, by simp⟩, fresh, fun third holds => ?_⟩
    simp only [Function.update_apply] at holds
    by_cases also : third = thread
    · rw [also, here]
    · rw [if_neg also] at holds
      exact absurd holds (unheld third)
  · rw [if_neg here] at holds
    have before := inv.held other held holds
    have different : held ≠ address := by
      rintro rfl
      exact unheld other holds
    refine ⟨?_, before.unused, fun third holds => ?_⟩
    · simp only [Function.update_of_ne different]
      exact before.allocated
    · simp only [Function.update_apply] at holds
      by_cases also : third = thread
      · rw [if_pos also] at holds
        cases holds
        exact absurd rfl different
      · rw [if_neg also] at holds
        exact before.own third holds

theorem heap_inv_discard (thread : Nat × Nat) :
    HeapInv { s with held := Function.update s.held thread none } m left hand front last := by
  refine { inv with
    atHand := at_hand_kept s _ _ hand rfl (fun _ _ => rfl) (fun _ _ => rfl) inv.atHand
    held := fun other address holds => ?_ }
  have before := inv.held other address (still_held s.held thread other address holds).2
  exact ⟨before.allocated, before.unused, fun third also => before.own third (still_held s.held thread third address also).2⟩

theorem heap_inv_add (thread : Nat × Nat) (address : Nat) (tx : Tx) (holds : s.held thread = some address)
    (here : s.txs address = some tx) (room : last.txSet.length < maxBatchSize) :
    (m.addWriteTx tx).2 = 1 ∧
    HeapInv
      { s with
        batches := Function.update s.batches s.batch (some { last with txSet := last.txSet ++ [address] })
        held := Function.update s.held thread none
        accepted := s.accepted ++ [tx] } (m.addWriteTx tx).1 left hand front
      { last with txSet := last.txSet ++ [address] } := by
  have number := inv.number
  have full := reads_length s.txs _ _ inv.current.txSet
  obtain ⟨one, added, epoch⟩ : (sequencerAddWriteTxToBatch (m.memory m.batch) tx).2 = 1 ∧
      (sequencerAddWriteTxToBatch (m.memory m.batch) tx).1.txSet = (m.memory m.batch).txSet ++ [tx] ∧
      (sequencerAddWriteTxToBatch (m.memory m.batch) tx).1.epochId = (m.memory m.batch).epochId := by
    rcases add_returns (m.memory m.batch) tx with ⟨_, same⟩ | done
    · omega
    · exact done
  have apart := inv.apart
  rw [← List.concat_eq_append, List.nodup_concat] at apart
  have kept : ∀ other ∈ s.scheduler.pointer ++ s.writeTxBuffer ++ s.pc.pointer,
      Function.update s.batches s.batch (some { last with txSet := last.txSet ++ [address] }) other = s.batches other :=
    update_away s.batches _ s.batch _ apart.1
  have memory : ∀ e, e < m.batch → (m.addWriteTx tx).1.memory e = m.memory e :=
    fun e below => Function.update_of_ne (Nat.ne_of_lt below) _ _
  have flat : owned s hand (front ++ [{ last with txSet := last.txSet ++ [address] }]) =
      owned s hand (front ++ [last]) ++ [address] := by
    simp only [owned, List.flatMap_append, List.flatMap_singleton, List.append_assoc]
  have own := inv.held thread address holds
  have idle : hand = [] ∨ left < m.batch := by
    cases hand with
    | nil => exact .inl rfl
    | cons => exact .inr (by simp only [List.length_cons] at number; omega)
  refine ⟨one, { inv with
    atHand := ?_
    reads := reads_kept s.batches _ _ _ (fun other member => kept other ?_) inv.reads
    holds := ?_
    filling := Function.update_self ..
    current := ?_
    txs := ?_
    held := ?_
    written := ?_
    printing := ?_ }⟩
  · rcases idle with rfl | below
    · exact .idle (List.length_eq_zero_iff.mp (at_hand_length s _ _ inv.atHand).symm)
    · rw [memory left below]
      exact at_hand_kept s _ _ hand rfl (fun other member => kept other (by simp [member])) (fun _ _ => rfl) inv.atHand
  · rw [List.append_assoc]
    exact List.mem_append_right _ member
  · rw [contents_kept m _ _ _ (fun e below => memory e (by omega))]
    exact inv.holds
  · simp only [MasterMemory.addWriteTx, Function.update_self]
    refine ⟨inv.current.epochId.trans epoch.symm, ?_⟩
    rw [added]
    exact reads_append s.txs _ _ _ _ inv.current.txSet (.cons here .nil)
  · change (owned s hand (front ++ [{ last with txSet := last.txSet ++ [address] }])).Nodup
    rw [flat, ← List.concat_eq_append]
    exact inv.txs.concat own.unused
  · intro other held also
    obtain ⟨different, holds_other⟩ := still_held s.held thread other held also
    have before := inv.held other held holds_other
    refine ⟨before.allocated, ?_, fun third holds => before.own third (still_held s.held thread third held holds).2⟩
    change held ∉ owned s hand (front ++ [{ last with txSet := last.txSet ++ [address] }])
    rw [flat]
    refine List.not_mem_append before.unused ?_
    rw [List.mem_singleton]
    rintro rfl
    exact different (own.own other holds_other)
  · refine inv.written.trans (assigned_kept m _ left _ (fun e below => memory e (by omega)) ?_).symm
    rcases idle with rfl | below
    · exact .inl (idle_counts s.scheduler (List.length_eq_zero_iff.mp (at_hand_length s _ _ inv.atHand).symm)).1
    · exact .inr (memory left below)
  · intro cur rev pc
    refine (inv.printing cur rev pc).imp_right fun freed => ⟨freed.1, freed.2.1, ?_⟩
    have different : rev ≠ s.batch := by
      rintro rfl
      rw [inv.filling] at freed
      cases freed.2.2
    exact (Function.update_of_ne different _ _).trans freed.2.2

end HeapInv

end EpochReplication
