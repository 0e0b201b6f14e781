import EpochReplication.HeapExecutes

set_option autoImplicit false

namespace EpochReplication

def HeapFollows (s t : MasterHeap) (m : MasterMemory) : Prop :=
  ∃ n left hand front last, HeapInv t n left hand front last ∧
    ((n = m ∧ t.accepted = s.accepted) ∨ ∃ act, m.step act = some n ∧ t.accepted = s.accepted ++ acceptedIn [(m, act)])

def Overtaken (s : MasterHeap) : Prop :=
  (∃ cur rev, s.pc = .printing cur rev) ∧ s.scheduler.pointer = [] ∧ s.writeTxBuffer = []

theorem heap_follows (s t : MasterHeap) (m n : MasterMemory) (left : Nat) (hand front : List BatchCell) (last : BatchCell)
    (act : Int × MemoryAct) (kept : HeapInv t n left hand front last) (moved : m.step act = some n)
    (quiet : acceptedIn [(m, act)] = []) (same : t.accepted = s.accepted) : HeapFollows s t m :=
  ⟨n, left, hand, front, last, kept, .inr ⟨act, moved, by rw [quiet, List.append_nil, same]⟩⟩

section HeapInv

variable (s : MasterHeap) (m : MasterMemory) (left : Nat) (hand front : List BatchCell) (last : BatchCell)
  (inv : HeapInv s m left hand front last)

include inv

theorem epoch_loop_follows (flag : Int) (t : MasterHeap) (act : EpochLoopAct) (step : EpochLoopStep s flag act t) :
    (act = .print ∧ Overtaken s ∧ t.faulted = true) ∨ ¬ (act = .print ∧ Overtaken s) ∧ HeapFollows s t m := by
  have memory_pc := inv.pc
  have moves := heap_inv_moves s m left hand front last inv
  cases step with
  | spin pc => exact .inr ⟨by simp, m, left, hand, front, last, inv, .inl ⟨rfl, rfl⟩⟩
  | start pc zero =>
      rw [pc] at memory_pc
      exact .inr ⟨by simp, heap_follows s _ m _ left hand front last (flag, .barrier)
        (moves { m with pc := .loop } .loop _ _ _ (by rw [pc]; rfl) (by simp) rfl rfl rfl rfl rfl inv.determined inv.log inv.msg)
        (by simp only [MasterMemory.step, memory_pc, HeapPc.memoryPc, zero]; rfl) rfl rfl⟩
  | enter pc zero =>
      rw [pc] at memory_pc
      refine .inr ⟨by simp, heap_follows s _ m _ left hand front last (flag, .loop)
        (moves { m with pc := .checking (m.determinedEpochId + 1) } (.checking (s.determinedEpochId + 1)) _ _ _ (by rw [pc]; rfl)
          (by simp) rfl rfl rfl rfl (by rw [inv.determined]; rfl) inv.determined inv.log inv.msg)
        (by simp only [MasterMemory.step, memory_pc, HeapPc.memoryPc, zero]; rfl) rfl rfl⟩
  | leave pc stopped =>
      rw [pc] at memory_pc
      exact .inr ⟨by simp, heap_follows s _ m _ left hand front last (flag, .loop)
        (moves { m with pc := .returned } .returned _ _ _ (by rw [pc]; rfl) (by simp) rfl rfl rfl rfl rfl inv.determined inv.log
          inv.msg)
        (by simp only [MasterMemory.step, memory_pc, HeapPc.memoryPc, if_neg stopped]) rfl rfl⟩
  | stop cur pc one =>
      rw [pc] at memory_pc
      exact .inr ⟨by simp, heap_follows s _ m _ left hand front last (flag, .check)
        (moves { m with pc := .returned } .returned _ _ _ (by rw [pc]; rfl) (by simp) rfl rfl rfl rfl rfl inv.determined inv.log
          inv.msg)
        (by simp only [MasterMemory.step, memory_pc, HeapPc.memoryPc, one]; rfl) rfl rfl⟩
  | check cur pc running =>
      rw [pc] at memory_pc
      exact .inr ⟨by simp, heap_follows s _ m _ left hand front last (flag, .check)
        (moves { m with pc := .filling cur } (.filling cur) _ _ _ (by rw [pc]; rfl) (by simp) rfl rfl rfl rfl rfl inv.determined
          inv.log inv.msg)
        (by simp only [MasterMemory.step, memory_pc, HeapPc.memoryPc, if_neg running]) rfl rfl⟩
  | swap cur address pc room =>
      rw [pc] at memory_pc
      refine .inr ⟨by simp, _, left, hand, front ++ [last], _, heap_inv_swap s m left hand front last inv cur address pc room,
        .inr ⟨(flag, .swap), by simp only [MasterMemory.step, memory_pc, HeapPc.memoryPc], ?_⟩⟩
      simp [acceptedIn]
  | encode cur rev batch pc loaded =>
      rw [pc] at memory_pc
      obtain ⟨_, cell, read, holds⟩ := rev_holds s m left hand front last inv rev (by rw [pc]; rfl)
      rw [read, Option.bind_some, holds_load s.txs cell _ holds] at loaded
      cases loaded
      refine .inr ⟨by simp, heap_follows s _ m _ left hand front last (flag, .encode)
        (moves { m with
          pc := .appending cur (m.batch - 1) (createBatchMsg (m.memory (m.batch - 1)) m.batchMsg).2
          batchMsg := (createBatchMsg (m.memory (m.batch - 1)) m.batchMsg).1 }
          (.appending cur rev (createBatchMsg (m.memory (m.batch - 1)) s.batchMsg).2) _ _ _ (by rw [pc]; rfl) (by simp) rfl rfl rfl
          rfl (by rw [inv.msg]; rfl) inv.determined inv.log (by rw [inv.msg]))
        (by simp only [MasterMemory.step, memory_pc, HeapPc.memoryPc]) rfl rfl⟩
  | encodeFault cur rev pc lost =>
      obtain ⟨_, cell, read, holds⟩ := rev_holds s m left hand front last inv rev (by rw [pc]; rfl)
      rw [read, Option.bind_some, holds_load s.txs cell _ holds] at lost
      cases lost
  | append cur rev len cell io file pc read done =>
      rw [pc] at memory_pc
      obtain ⟨_, same, there, holds⟩ := rev_holds s m left hand front last inv rev (by rw [pc]; rfl)
      rw [read] at there
      cases there
      rw [holds.epochId, ← inv.log, ← inv.msg] at done
      refine .inr ⟨by simp, heap_follows s _ m _ left hand front last (flag, .append io)
        (moves { m with pc := .counting cur (m.batch - 1), batchLog := some file } (.counting cur rev) _ _ _ (by rw [pc]; rfl)
          (by simp) rfl rfl rfl rfl rfl inv.determined rfl inv.msg)
        (by simp only [MasterMemory.step, memory_pc, HeapPc.memoryPc, done]) rfl rfl⟩
  | appendFault cur rev len io pc lost =>
      obtain ⟨_, cell, read, _⟩ := rev_holds s m left hand front last inv rev (by rw [pc]; rfl)
      rw [read] at lost
      cases lost
  | count cur rev pc =>
      rw [pc] at memory_pc
      refine .inr ⟨by simp, heap_follows s _ m _ left hand front last (flag, .count)
        (moves { m with pc := .enqueueing cur (m.batch - 1), determinedEpochId := m.determinedEpochId + 1 } (.enqueueing cur rev) _ _ _
          (by rw [pc]; rfl) (by simp) rfl rfl rfl rfl rfl (by rw [inv.determined]) inv.log inv.msg)
        (by simp only [MasterMemory.step, memory_pc, HeapPc.memoryPc]) rfl rfl⟩
  | enqueue cur rev pc =>
      rw [pc] at memory_pc
      exact .inr ⟨by simp, heap_follows s _ m _ left hand front last (flag, .enqueue)
        (heap_inv_enqueue s m left hand front last inv cur rev pc)
        (by simp only [MasterMemory.step, memory_pc, HeapPc.memoryPc]) rfl rfl⟩
  | print cur rev cell pc read =>
      refine .inr ⟨?_, m, left, hand, front, last, heap_inv_print s m left hand front last inv cur rev pc, .inl ⟨rfl, rfl⟩⟩
      rintro ⟨-, -, idle, empty⟩
      rcases inv.printing cur rev pc with newest | ⟨_, _, lost⟩
      · rw [idle, empty] at newest
        cases newest
      · rw [read] at lost
        cases lost
  | printFault cur rev pc lost =>
      refine .inl ⟨rfl, ⟨⟨cur, rev, pc⟩, ?_⟩, rfl⟩
      rcases inv.printing cur rev pc with newest | ⟨idle, empty, _⟩
      · obtain ⟨cell, read⟩ := pointers_allocated s m left hand front last inv rev
          (List.mem_append_left _ (List.mem_append_left _ (List.mem_of_getLast? newest)))
        rw [read] at lost
        cases lost
      · exact ⟨idle, empty⟩

theorem connection_follows (flag : Int) (thread : Nat × Nat) (t : MasterHeap) (act : ConnectionAct)
    (step : ConnectionStep s thread act t) : HeapFollows s t m := by
  cases step with
  | create address tx free room =>
      exact ⟨m, left, hand, front, last, heap_inv_create s m left hand front last inv thread address tx room, .inl ⟨rfl, rfl⟩⟩
  | discard address tx holds read =>
      exact ⟨m, left, hand, front, last, heap_inv_discard s m left hand front last inv thread, .inl ⟨rfl, rfl⟩⟩
  | discardFault address holds lost =>
      obtain ⟨tx, read⟩ := (inv.held thread address holds).allocated
      rw [read] at lost
      cases lost
  | add address cell holds read room =>
      obtain ⟨tx, here⟩ := (inv.held thread address holds).allocated
      rw [inv.filling] at read
      cases read
      obtain ⟨one, kept⟩ := heap_inv_add s m left hand front last inv thread address tx holds here room
      rw [here]
      refine ⟨_, left, hand, front, _, kept, .inr ⟨(flag, .addWriteTx tx), ?_, ?_⟩⟩
      · simp only [MasterMemory.step]
      · simp [acceptedIn, one]
  | full address cell holds read full => exact ⟨m, left, hand, front, last, inv, .inl ⟨rfl, rfl⟩⟩
  | addFault address holds lost =>
      rw [inv.filling] at lost
      cases lost

theorem schedule_follows (flag : Int) (t : MasterHeap) (act : ExecuteAct) (step : ExecuteStep s flag act t) :
    HeapFollows s t m := by
  cases step with
  | enter pc | leave pc =>
      exact ⟨m, left, hand, front, last, heap_inv_idle s m left hand front last inv _ (by rw [pc]; rfl) rfl, .inl ⟨rfl, rfl⟩⟩
  | takeNone pc empty =>
      exact ⟨m, left, hand, front, last, heap_inv_idle s m left hand front last inv _ (by rw [pc]; rfl) rfl, .inl ⟨rfl, rfl⟩⟩
  | take batch rest pc list =>
      obtain ⟨cell, cells, kept⟩ := heap_inv_take s m left hand front last inv batch rest pc list
      exact ⟨m, left, [cell], cells, last, kept, .inl ⟨rfl, rfl⟩⟩
  | execute batch i address cell tx pc read found load =>
      exact ⟨m, left, hand, front, last,
        heap_inv_execute s m left hand front last inv batch i address cell tx pc read found load, .inl ⟨rfl, rfl⟩⟩
  | executeFault batch i address cell pc read found lost =>
      obtain ⟨same, _, here, _, _, rest⟩ := hand_executing s m left hand front last inv batch i pc
      obtain ⟨inside, own⟩ := List.getElem?_eq_some_iff.mp found
      rw [read] at here
      cases here
      rw [List.drop_eq_getElem_cons inside, own] at rest
      obtain ⟨tx, load⟩ := reads_member s.txs _ _ rest address List.mem_cons_self
      rw [load] at lost
      cases lost
  | batchFault batch i act pc lost =>
      obtain ⟨cell, _, read, _⟩ := hand_executing s m left hand front last inv batch i pc
      rw [read] at lost
      cases lost
  | freeTx batch i address tx pc load =>
      exact ⟨m, left, hand, front, last, heap_inv_free_tx s m left hand front last inv batch i address pc, .inl ⟨rfl, rfl⟩⟩
  | freeTxFault batch i address pc lost =>
      obtain ⟨_, tx, _, _, _, _, load, _⟩ := hand_freeing s m left hand front last inv batch i address pc
      rw [load] at lost
      cases lost
  | freeBatch batch i cell pc read done =>
      exact ⟨m, left + 1, [], front, last, heap_inv_free_batch s m left hand front last inv batch i cell pc read done,
        .inl ⟨rfl, rfl⟩⟩

theorem heap_step_follows (t : MasterHeap) (flag : Int) (act : HeapAct) (taken : s.step (flag, act) = some t) :
    (act = .epochLoop .print ∧ Overtaken s ∧ t.faulted = true) ∨
      ¬ (act = .epochLoop .print ∧ Overtaken s) ∧ HeapFollows s t m := by
  have live : ¬ s.faulted = true := by
    rw [inv.fine]
    decide
  cases act with
  | epochLoop act =>
      have step := epoch_loop_of_some s t flag act ((if_neg live).symm.trans taken)
      simpa only [HeapAct.epochLoop.injEq] using epoch_loop_follows s m left hand front last inv flag t act step
  | connection thread act =>
      exact .inr ⟨by simp, connection_follows s m left hand front last inv flag thread t act
        (connection_of_some s t thread act ((if_neg live).symm.trans taken))⟩
  | scheduler act =>
      exact .inr ⟨by simp, schedule_follows s m left hand front last inv flag t act
        (schedule_of_some s t flag act ((if_neg live).symm.trans taken))⟩

end HeapInv

theorem fine_before (s t : MasterHeap) (act : Int × HeapAct) (taken : s.step act = some t) : s.faulted = false := by
  cases done : s.faulted with
  | false => rfl
  | true =>
      have stuck : s.step act = none := if_pos done
      rw [stuck] at taken
      cases taken

theorem heap_inv_initial (uninitialised : Buf) :
    HeapInv (.initial uninitialised) (.initial uninitialised) 0 [] [] ⟨0, []⟩ where
  fine := rfl
  apart := List.nodup_singleton _
  atHand := .idle rfl
  reads := .nil
  holds := .nil
  filling := rfl
  current := ⟨rfl, .nil⟩
  number := rfl
  allocated := rfl
  txs := List.nodup_nil
  held := fun _ _ holds => by cases holds
  pc := rfl
  determined := rfl
  log := rfl
  msg := rfl
  queue := rfl
  epoch := rfl
  written := rfl
  printing := fun _ _ pc => by cases pc

theorem accepted_in_append (run more : List (MasterMemory × (Int × MemoryAct))) :
    acceptedIn (run ++ more) = acceptedIn run ++ acceptedIn more := List.filterMap_append

theorem heap_inv_reachable (uninitialised : Buf) (s : MasterHeap) (reachable : (masterHeap uninitialised).Reachable s)
    (fine : s.faulted = false) : ∃ run m left hand front last, (masterMemory uninitialised).Trace run m ∧
      acceptedIn run = s.accepted ∧ HeapInv s m left hand front last := by
  induction reachable with
  | init => exact ⟨[], _, 0, [], [], ⟨0, []⟩, .init, rfl, heap_inv_initial uninitialised⟩
  | step s t act before taken ih =>
      obtain ⟨run, m, left, hand, front, last, trace, accepted, inv⟩ := ih (fine_before s t act taken)
      obtain ⟨flag, act⟩ := act
      rcases heap_step_follows s m left hand front last inv t flag act taken with ⟨_, _, fault⟩ | ⟨_, follows⟩
      · rw [fine] at fault
        cases fault
      · obtain ⟨n, left, hand, front, last, kept, ⟨rfl, same⟩ | ⟨act, moved, same⟩⟩ := follows
        · exact ⟨run, n, left, hand, front, last, trace, accepted.trans same.symm, kept⟩
        · refine ⟨run ++ [(m, act)], n, left, hand, front, last, .step run m n act trace moved, ?_, kept⟩
          rw [accepted_in_append, accepted, same]

def PointsTo (s : MasterHeap) (m : MasterMemory) (address e : Nat) : Prop :=
  ∃ cell, s.batches address = some cell ∧ cell.load s.txs = some (m.memory e)

structure RunsAs (s : MasterHeap) (m : MasterMemory) (left : Nat) : Prop where
  pc : m.pc = s.pc.memoryPc (m.batch - 1)
  determined : m.determinedEpochId = s.determinedEpochId
  log : m.batchLog = s.batchLog
  msg : m.batchMsg = s.batchMsg
  batch : PointsTo s m s.batch m.batch
  rev : ∀ rev ∈ s.pc.pointer, PointsTo s m rev (m.batch - 1)
  queue : List.Forall₂ (PointsTo s m) s.writeTxBuffer (m.writeTxBuffer.drop (left + s.scheduler.pointer.length))
  written : s.written = (List.range left).flatMap m.assigned ++ (m.assigned left).take s.scheduler.executed

theorem points_to (s : MasterHeap) (m : MasterMemory) (addresses : List Nat) (cells : List BatchCell) (first : Nat)
    (reads : Reads s.batches addresses cells) (holds : List.Forall₂ (Holds s.txs) cells (m.contents first cells.length)) :
    List.Forall₂ (PointsTo s m) addresses (List.range' first cells.length) := by
  induction reads generalizing first with
  | nil => exact .nil
  | cons here _ ih =>
      rw [MasterMemory.contents, List.length_cons, List.range'_succ, List.map_cons] at holds
      obtain ⟨now, later⟩ := List.forall₂_cons.mp holds
      rw [List.length_cons, List.range'_succ]
      exact .cons ⟨_, here, holds_load s.txs _ _ now⟩ (ih (first + 1) later)

theorem runs_as (s : MasterHeap) (m : MasterMemory) (left : Nat) (hand front : List BatchCell) (last : BatchCell)
    (inv : HeapInv s m left hand front last) : RunsAs s m left := by
  have length := at_hand_length s _ hand inv.atHand
  have count := reads_length s.batches _ _ inv.reads
  rw [List.length_append] at count
  refine ⟨inv.pc, inv.determined, inv.log, inv.msg, ⟨last, inv.filling, holds_load s.txs last _ inv.current⟩, ?_, ?_, inv.written⟩
  · intro rev member
    have pointer : s.pc.pointer = [rev] := by
      cases pc : s.pc with
      | barrier | loop | checking | filling | printing | returned =>
          rw [pc] at member
          cases member
      | encoding | appending | counting | enqueueing =>
          rw [pc] at member
          rw [List.mem_singleton.mp member]
          rfl
    obtain ⟨_, cell, read, holds⟩ := rev_holds s m left hand front last inv rev pointer
    exact ⟨cell, read, holds_load s.txs cell _ holds⟩
  · have all := List.forall₂_take s.writeTxBuffer.length (points_to s m _ front _ inv.reads inv.holds)
    rw [List.take_left] at all
    rw [List.take_range'_of_length_ge (by omega)] at all
    rw [inv.queue, ← length, List.range_eq_range', List.drop_range', Nat.zero_add, Nat.mul_one, Nat.add_sub_cancel_left]
    exact all

theorem accepted_contents (uninitialised : Buf) (run : List (MasterMemory × (Int × MemoryAct))) (m : MasterMemory)
    (trace : (masterMemory uninitialised).Trace run m) :
    (List.range (m.batch + 1)).flatMap (fun e => (m.memory e).txSet) = acceptedIn run := by
  have inv := swap_inv_trace uninitialised run m trace
  rw [List.range_succ, List.flatMap_append, List.flatMap_singleton, ← inv.flow, inv.pointer]
  congr 1
  simp only [List.flatMap]
  congr 1
  refine List.ext_getElem (by simp) fun e below inside => ?_
  simp only [List.length_map] at inside
  obtain ⟨_, same⟩ := inv.frozen e _ (List.getElem?_eq_getElem inside)
  simp [same]

theorem written_prefix (m : MasterMemory) (left n : Nat) (below : left ≤ m.batch) :
    ((List.range left).flatMap m.assigned ++ (m.assigned left).take n).map Tx.wire <+:
      ((List.range (m.batch + 1)).flatMap (fun e => (m.memory e).txSet)).map Tx.wire := by
  have same : ∀ e, (m.assigned e).map Tx.wire = (m.memory e).txSet.map Tx.wire := by
    intro e
    rw [MasterMemory.assigned, List.map_map]
    rfl
  have part : (m.assigned left).take n <+: m.assigned left := List.take_prefix n _
  have whole : (List.range left).flatMap m.assigned ++ (m.assigned left).take n <+: (List.range (left + 1)).flatMap m.assigned := by
    rw [List.range_succ, List.flatMap_append, List.flatMap_singleton]
    exact (List.prefix_append_right_inj _).mpr part
  have split : (List.range (m.batch + 1)).flatMap m.assigned = (List.range (left + 1)).flatMap m.assigned ++
      ((List.range (m.batch - left)).map (left + 1 + ·)).flatMap m.assigned := by
    rw [← List.flatMap_append, ← List.range_add, show left + 1 + (m.batch - left) = m.batch + 1 by omega]
  have all : ((List.range (m.batch + 1)).flatMap m.assigned).map Tx.wire =
      ((List.range (m.batch + 1)).flatMap (fun e => (m.memory e).txSet)).map Tx.wire := by
    simp only [List.map_flatMap, same]
  rw [← all, split]
  exact (whole.trans (List.prefix_append _ _)).map Tx.wire

-- Only the printf behind add_node_batch_list can use memory that has been freed,
-- and it does so exactly when the scheduler has been faster.
theorem master_heap_refines (uninitialised : Buf) (s : MasterHeap) (reachable : (masterHeap uninitialised).Reachable s) :
    (s.faulted = false → ∃ run m left, (masterMemory uninitialised).Trace run m ∧ acceptedIn run = s.accepted ∧
      RunsAs s m left ∧ s.written.map Tx.wire <+: s.accepted.map Tx.wire) ∧
    ∀ flag act t, s.step (flag, act) = some t → (t.faulted = true ↔ act = .epochLoop .print ∧ Overtaken s) := by
  refine ⟨fun fine => ?_, fun flag act t taken => ?_⟩
  · obtain ⟨run, m, left, hand, front, last, trace, accepted, inv⟩ := heap_inv_reachable uninitialised s reachable fine
    have runs := runs_as s m left hand front last inv
    refine ⟨run, m, left, trace, accepted, runs, ?_⟩
    rw [runs.written, ← accepted, ← accepted_contents uninitialised run m trace]
    exact written_prefix m left _ (by rw [inv.number]; omega)
  · obtain ⟨run, m, left, hand, front, last, _, _, inv⟩ :=
      heap_inv_reachable uninitialised s reachable (fine_before s t _ taken)
    rcases heap_step_follows s m left hand front last inv t flag act taken with ⟨print, overtaken, fault⟩ | ⟨other, follows⟩
    · exact ⟨fun _ => ⟨print, overtaken⟩, fun _ => fault⟩
    · obtain ⟨n, left, hand, front, last, kept, _⟩ := follows
      refine ⟨fun fault => ?_, fun printed => absurd printed other⟩
      rw [kept.fine] at fault
      cases fault

-- One write goes through the first batch; a connection gets the address of that
-- batch for its next transaction before the loop comes to its printf.
def scheduledFirst (tx : Tx) : List (Int × HeapAct) :=
  [(0, .connection (1, 0) (.create 1 tx)), (0, .epochLoop .barrier), (0, .epochLoop .loop), (0, .connection (1, 0) .add),
    (0, .epochLoop .check), (0, .epochLoop (.swap 2)), (0, .epochLoop .encode), (0, .epochLoop (.append wholeIo)),
    (0, .epochLoop .count), (0, .epochLoop .enqueue), (0, .scheduler .loop), (0, .scheduler .take), (0, .scheduler .execute),
    (0, .scheduler .freeTx), (0, .scheduler .freeBatch), (0, .connection (1, 0) (.create 0 tx))]

theorem master_heap_refines_overtaken : ∃ s t, (masterHeap (fun _ => 0)).Reachable s ∧ s.written.length = 1 ∧
    s.step (0, .epochLoop .print) = some t ∧ t.faulted = true ∧ Overtaken s := by
  have ran : ((masterHeap (fun _ => 0)).exec (.initial (fun _ => 0)) (scheduledFirst sampleTx)).map
      (fun s => (s.written.length, (s.step (0, .epochLoop .print)).map MasterHeap.faulted)) = some (1, some true) := by
    decide +kernel
  obtain ⟨s, ran, ends⟩ := Option.map_eq_some_iff.mp ran
  simp only [Prod.mk.injEq] at ends
  obtain ⟨one, fault⟩ := ends
  obtain ⟨t, taken, fault⟩ := Option.map_eq_some_iff.mp fault
  have reachable := Machine.reachable_exec _ (scheduledFirst sampleTx) _ s .init ran
  exact ⟨s, t, reachable, one, taken, fault,
    (((master_heap_refines (fun _ => 0) s reachable).2 0 (.epochLoop .print) t taken).mp fault).2⟩

end EpochReplication
