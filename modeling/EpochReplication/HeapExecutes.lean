import EpochReplication.HeapRefines

set_option autoImplicit false

namespace EpochReplication

theorem owned_next (s : MasterHeap) (cell : BatchCell) (cells : List BatchCell) (i address : Nat)
    (freed : s.scheduler.freed = i) (found : cell.txSet[i]? = some address) :
    owned s [cell] cells = address :: (cell.txSet.drop (i + 1) ++ cells.flatMap BatchCell.txSet) := by
  obtain ⟨inside, own⟩ := List.getElem?_eq_some_iff.mp found
  rw [owned, freed, List.flatMap_singleton, List.drop_eq_getElem_cons inside, own, List.cons_append]

section HeapInv

variable (s : MasterHeap) (m : MasterMemory) (left : Nat) (hand front : List BatchCell) (last : BatchCell)
  (inv : HeapInv s m left hand front last)

include inv

theorem hand_none (idle : s.scheduler.pointer = []) : hand = [] :=
  List.length_eq_zero_iff.mp ((at_hand_length s _ _ inv.atHand).trans (by rw [idle]; rfl))

theorem heap_inv_idle (pc : ExecutePc) (idle : s.scheduler.pointer = []) (pointer : pc.pointer = []) :
    HeapInv { s with scheduler := pc } m left hand front last := by
  have same : pc.executed = s.scheduler.executed ∧ pc.freed = s.scheduler.freed := by
    rw [(idle_counts pc pointer).1, (idle_counts pc pointer).2, (idle_counts s.scheduler idle).1, (idle_counts s.scheduler idle).2]
    exact ⟨rfl, rfl⟩
  have used : owned { s with scheduler := pc } hand (front ++ [last]) = owned s hand (front ++ [last]) := by
    simp only [owned, same.2]
  refine { inv with
    apart := ?_
    atHand := ?_
    txs := ?_
    held := fun thread address holds => ⟨(inv.held thread address holds).allocated, ?_, (inv.held thread address holds).own⟩
    written := ?_
    printing := ?_ }
  · rw [pointer.trans idle.symm]
    exact inv.apart
  · rw [hand_none s m left hand front last inv idle]
    exact .idle pointer
  · rw [used]
    exact inv.txs
  · rw [used]
    exact (inv.held thread address holds).unused
  · simp only [same.1]
    exact inv.written
  · rw [pointer.trans idle.symm]
    exact inv.printing

theorem heap_inv_take (batch : Nat) (rest : List Nat) (pc : s.scheduler = .taking) (list : s.writeTxBuffer = batch :: rest) :
    ∃ cell cells, HeapInv { s with scheduler := .executing batch 0, writeTxBuffer := rest } m left [cell] cells last := by
  have idle : s.scheduler.pointer = [] := by rw [pc]; rfl
  obtain rfl := hand_none s m left hand front last inv idle
  have apart := inv.apart
  have reads := inv.reads
  have holds := inv.holds
  have number := inv.number
  have printing := inv.printing
  rw [idle, list] at apart printing
  rw [list] at reads
  cases reads with
  | cons here reads =>
      rename_i cell cells
      rw [MasterMemory.contents, List.length_cons, List.range'_succ, List.map_cons] at holds
      obtain ⟨first, holds⟩ := List.forall₂_cons.mp holds
      simp only [List.length_nil, Nat.add_zero] at first holds number
      rw [List.length_cons] at number
      have used : owned { s with scheduler := .executing batch 0, writeTxBuffer := rest } [cell] (cells ++ [last]) =
          owned s [] (cell :: cells ++ [last]) := by
        simp [owned, ExecutePc.freed]
      refine ⟨cell, cells, { inv with
        apart := apart
        atHand := .executing batch 0 cell rfl here (reads_length s.txs _ _ first.txSet) (Nat.zero_le _) first.txSet
        reads := reads
        holds := holds
        number := ?_
        txs := ?_
        held := fun thread address holds =>
          ⟨(inv.held thread address holds).allocated, ?_, (inv.held thread address holds).own⟩
        queue := ?_
        written := ?_
        printing := ?_ }⟩
      · simp only [List.length_singleton]
        omega
      · rw [used]
        exact inv.txs
      · rw [used]
        exact (inv.held thread address holds).unused
      · rw [inv.queue, list]
        simp only [List.length_nil, List.length_cons, Nat.add_zero]
        congr 1
        omega
      · rw [inv.written, pc]
        rfl
      · intro cur rev at_print
        refine .inl ?_
        rcases printing cur rev at_print with newest | ⟨_, no, _⟩
        · exact newest
        · cases no

theorem hand_executing (batch i : Nat) (pc : s.scheduler = .executing batch i) :
    ∃ cell, hand = [cell] ∧ s.batches batch = some cell ∧ cell.txSet.length = (m.memory left).txSet.length ∧
      i ≤ cell.txSet.length ∧ Reads s.txs (cell.txSet.drop i) ((m.memory left).txSet.drop i) := by
  have atHand := inv.atHand
  cases atHand with
  | idle pointer =>
      rw [pc] at pointer
      cases pointer
  | freeing _ _ _ _ _ other =>
      rw [pc] at other
      cases other
  | executing _ _ cell here read length bound rest =>
      rw [pc] at here
      cases here
      exact ⟨cell, rfl, read, length, bound, rest⟩

theorem hand_freeing (batch i address : Nat) (pc : s.scheduler = .freeing batch i address) :
    ∃ cell tx, hand = [cell] ∧ s.batches batch = some cell ∧ cell.txSet.length = (m.memory left).txSet.length ∧
      cell.txSet[i]? = some address ∧ s.txs address = some tx ∧
      Reads s.txs (cell.txSet.drop (i + 1)) ((m.memory left).txSet.drop (i + 1)) := by
  have atHand := inv.atHand
  cases atHand with
  | idle pointer =>
      rw [pc] at pointer
      cases pointer
  | executing _ _ _ other =>
      rw [pc] at other
      cases other
  | freeing _ _ _ tx cell same read length found here rest =>
      rw [pc] at same
      cases same
      exact ⟨cell, tx, rfl, read, length, found, here, rest⟩

theorem heap_inv_execute (batch i address : Nat) (cell : BatchCell) (tx : Tx) (pc : s.scheduler = .executing batch i)
    (read : s.batches batch = some cell) (found : cell.txSet[i]? = some address) (load : s.txs address = some tx) :
    HeapInv
      { s with
        txs := Function.update s.txs address (some (setAssignedEpochIdToTx tx (Int16.ofInt s.epoch)))
        scheduler := .freeing batch i address
        written := s.written ++ [setAssignedEpochIdToTx tx (Int16.ofInt s.epoch)] } m left hand front last := by
  have txs := inv.txs
  obtain ⟨same, rfl, here, length, bound, rest⟩ := hand_executing s m left hand front last inv batch i pc
  rw [read] at here
  cases here
  obtain ⟨inside, own⟩ := List.getElem?_eq_some_iff.mp found
  have below : i < (m.memory left).txSet.length := by omega
  rw [List.drop_eq_getElem_cons inside, List.drop_eq_getElem_cons below, own] at rest
  obtain ⟨value, rest⟩ := List.forall₂_cons.mp rest
  rw [load] at value
  cases value
  have used := owned_next s cell (front ++ [last]) i address (by rw [pc]; rfl) found
  have fresh := txs
  rw [used] at fresh
  obtain ⟨away, _⟩ := List.nodup_cons.mp fresh
  have kept : ∀ other ∈ cell.txSet.drop (i + 1) ++ (front ++ [last]).flatMap BatchCell.txSet,
      Function.update s.txs address (some (setAssignedEpochIdToTx (m.memory left).txSet[i] (Int16.ofInt s.epoch))) other =
        s.txs other := update_away s.txs _ address _ away
  refine { inv with
    apart := ?_
    atHand := .freeing batch i address _ cell rfl read length found (Function.update_self ..)
      (reads_kept s.txs _ _ _ (fun other member => kept other (List.mem_append_left _ member)) rest)
    holds := holds_kept s.txs _ _ _ (fun other member => kept other (by simp [member])) inv.holds
    current := ⟨inv.current.epochId, reads_kept s.txs _ _ _ (fun other member => kept other (by simp [member]))
      inv.current.txSet⟩
    txs := ?_
    held := ?_
    written := ?_
    printing := ?_ }
  · have apart := inv.apart
    rw [pc] at apart
    exact apart
  · rw [owned, pc] at txs
    exact txs
  · intro thread held holds
    have before := inv.held thread held holds
    have unused := before.unused
    have different : held ≠ address := by
      rintro rfl
      exact unused (by rw [used]; exact List.mem_cons_self)
    refine ⟨?_, ?_, before.own⟩
    · simp only [Function.update_of_ne different]
      exact before.allocated
    · rw [owned, pc] at unused
      exact unused
  · rw [inv.written, pc, inv.epoch, List.append_assoc]
    simp only [ExecutePc.executed, MasterMemory.assigned]
    rw [List.take_add_one, List.getElem?_map, List.getElem?_eq_getElem below]
    rfl
  · have printing := inv.printing
    rw [pc] at printing
    exact printing

theorem heap_inv_free_tx (batch i address : Nat) (pc : s.scheduler = .freeing batch i address) :
    HeapInv { s with txs := Function.update s.txs address none, scheduler := .executing batch (i + 1) } m left hand front
      last := by
  have txs := inv.txs
  obtain ⟨cell, tx, rfl, read, length, found, here, rest⟩ := hand_freeing s m left hand front last inv batch i address pc
  obtain ⟨inside, own⟩ := List.getElem?_eq_some_iff.mp found
  have used := owned_next s cell (front ++ [last]) i address (by rw [pc]; rfl) found
  have left_over : owned { s with txs := Function.update s.txs address none, scheduler := .executing batch (i + 1) } [cell]
      (front ++ [last]) = cell.txSet.drop (i + 1) ++ (front ++ [last]).flatMap BatchCell.txSet := by
    rw [owned, List.flatMap_singleton]
    rfl
  rw [used] at txs
  obtain ⟨away, fresh⟩ := List.nodup_cons.mp txs
  have kept : ∀ other ∈ cell.txSet.drop (i + 1) ++ (front ++ [last]).flatMap BatchCell.txSet,
      Function.update s.txs address none other = s.txs other := update_away s.txs _ address _ away
  refine { inv with
    apart := ?_
    atHand := .executing batch (i + 1) cell rfl read length inside
      (reads_kept s.txs _ _ _ (fun other member => kept other (List.mem_append_left _ member)) rest)
    holds := holds_kept s.txs _ _ _ (fun other member => kept other (by simp [member])) inv.holds
    current := ⟨inv.current.epochId, reads_kept s.txs _ _ _ (fun other member => kept other (by simp [member]))
      inv.current.txSet⟩
    txs := ?_
    held := ?_
    written := ?_
    printing := ?_ }
  · have apart := inv.apart
    rw [pc] at apart
    exact apart
  · rw [left_over]
    exact fresh
  · intro thread held holds
    have before := inv.held thread held holds
    have unused := before.unused
    rw [used, List.mem_cons, not_or] at unused
    refine ⟨?_, ?_, before.own⟩
    · simp only [Function.update_of_ne unused.1]
      exact before.allocated
    · rw [left_over]
      exact unused.2
  · rw [inv.written, pc]
    rfl
  · have printing := inv.printing
    rw [pc] at printing
    exact printing

theorem heap_inv_free_batch (batch i : Nat) (cell : BatchCell) (pc : s.scheduler = .executing batch i)
    (read : s.batches batch = some cell) (done : cell.txSet.length ≤ i) :
    HeapInv
      { s with
        batches := Function.update s.batches batch none
        scheduler := .loop
        epoch := s.epoch + 1 } m (left + 1) [] front last := by
  have apart := inv.apart
  have number := inv.number
  obtain ⟨same, rfl, here, length, bound, rest⟩ := hand_executing s m left hand front last inv batch i pc
  rw [read] at here
  cases here
  rw [pc] at apart
  simp only [ExecutePc.pointer, List.cons_append, List.nil_append] at apart
  obtain ⟨away, apart⟩ := List.nodup_cons.mp apart
  have kept : ∀ other ∈ s.writeTxBuffer ++ s.pc.pointer ++ [s.batch], Function.update s.batches batch none other =
      s.batches other := update_away s.batches _ batch _ away
  have used : ∀ t : MasterHeap, t.scheduler = .loop → owned t [] (front ++ [last]) = owned s [cell] (front ++ [last]) := by
    intro t idle
    have flat : [cell].flatMap BatchCell.txSet = cell.txSet := List.flatMap_singleton _ _
    rw [owned, owned, idle, pc, flat]
    simp only [ExecutePc.freed, List.drop_eq_nil_of_le done, List.flatMap_nil, List.drop_nil]
  simp only [List.length_singleton] at number
  refine { inv with
    apart := apart
    atHand := .idle rfl
    reads := reads_kept s.batches _ _ _ (fun other member => kept other (List.mem_append_left _ member)) inv.reads
    filling := (kept s.batch (by simp)).trans inv.filling
    number := ?_
    txs := ?_
    held := fun thread address holds =>
      ⟨(inv.held thread address holds).allocated, ?_, (inv.held thread address holds).own⟩
    epoch := ?_
    written := ?_
    printing := ?_ }
  · simp only [List.length_nil]
    omega
  · rw [used _ rfl]
    exact inv.txs
  · rw [used _ rfl]
    exact (inv.held thread address holds).unused
  · simp only [inv.epoch]
    omega
  · rw [inv.written, pc, List.range_succ, List.flatMap_append, List.flatMap_singleton]
    simp only [ExecutePc.executed, List.take_zero, List.append_nil]
    rw [List.take_of_length_le]
    rw [MasterMemory.assigned, List.length_map]
    omega
  · intro cur rev at_print
    have printing := inv.printing cur rev at_print
    rw [pc] at printing
    simp only [ExecutePc.pointer] at printing ⊢
    rcases printing with newest | ⟨no, _⟩
    · cases list : s.writeTxBuffer with
      | nil =>
          rw [list] at newest
          cases newest
          exact .inr ⟨trivial, rfl, Function.update_self ..⟩
      | cons first others =>
          rw [list] at newest
          exact .inl (by simpa using newest)
    · cases no

end HeapInv

end EpochReplication
