import EpochReplication.Lib.Fifo
import EpochReplication.Lib.Linked
import EpochReplication.Lib.Machine

set_option autoImplicit false

namespace EpochReplication

-- batch_list_t and tx_list_t with their nodes in memory. The two only differ in
-- what their nodes point to, a Batch or a Tx, and no pointer put in is NULL.
structure NodeList (α : Type) where
  heap : CellHeap α
  head : Option Nat
  tail : Option Nat

namespace NodeList

variable {α : Type}

def create : NodeList α := ⟨fun _ => none, none, none⟩

def newNode (l : NodeList α) (address : Nat) (value : α) : NodeList α :=
  { l with heap := Function.update l.heap address (some ⟨value, none⟩) }

-- Between lock and unlock. There is no result where the program would follow a
-- pointer to memory that is not a node.
def addNode (l : NodeList α) (newNode : Nat) : Option (NodeList α) :=
  match l.tail with
  | none => some { l with head := some newNode, tail := some newNode }
  | some tail =>
      (l.heap tail).map (fun node =>
        { l with
          heap := Function.update l.heap tail (some { node with next := some newNode })
          tail := some newNode })

def tryDeleteNode (l : NodeList α) : Option (NodeList α × Option Nat × Option α) :=
  match l.head with
  | none => some (l, none, none)
  | some deleteNode =>
      (l.heap deleteNode).map (fun node =>
        match node.next with
        | none => ({ l with head := none, tail := none }, some deleteNode, some node.value)
        | some next => ({ l with head := some next }, some deleteNode, some node.value))

def free (l : NodeList α) : Option Nat → NodeList α
  | none => l
  | some node => { l with heap := Function.update l.heap node none }

end NodeList

def createBatchList {α : Type} : NodeList α := .create
def addNodeBatchList {α : Type} : NodeList α → Nat → Option (NodeList α) := NodeList.addNode
def tryDeleteNodeBatchList {α : Type} : NodeList α → Option (NodeList α × Option Nat × Option α) := NodeList.tryDeleteNode

def createTxList {α : Type} : NodeList α := .create
def addNodeTxList {α : Type} : NodeList α → Nat → Option (NodeList α) := NodeList.addNode
def tryDeleteNodeTxList {α : Type} : NodeList α → Option (NodeList α × Option Nat × Option α) := NodeList.tryDeleteNode

-- Where a thread stands in its use of the list: `adding` comes after the malloc
-- and before the lock, `freeing` after the unlock and before the free.
inductive ListPc (α : Type) where
  | idle
  | adding (newNode : Nat) (value : α)
  | freeing (deleteNode : Option Nat) (result : Option α)

def ListPc.owned {α : Type} : ListPc α → Option Nat
  | .idle => none
  | .adding newNode _ => some newNode
  | .freeing deleteNode _ => deleteNode

-- `operations` and `results` are history: the calls by the order in which they
-- held the mutex, and what those of try_delete_node return.
structure ListThreads (α : Type) where
  list : NodeList α
  pc : Nat → ListPc α
  operations : List (Fifo.Op α)
  results : List (Option α)

-- malloc returns any address that is not in use, also one that was freed before.
inductive ListAct (α : Type) where
  | malloc (value : α) (address : Nat)
  | add
  | tryDelete
  | free

namespace ListThreads

variable {α : Type} (addNode : NodeList α → Nat → Option (NodeList α))
  (tryDeleteNode : NodeList α → Option (NodeList α × Option Nat × Option α))

def step (s : ListThreads α) (act : Nat × ListAct α) : Option (ListThreads α) :=
  let (thread, act) := act
  match s.pc thread, act with
  | .idle, .malloc value address =>
      match s.list.heap address with
      | none =>
          some { s with
            list := s.list.newNode address value
            pc := Function.update s.pc thread (.adding address value) }
      | some _ => none
  | .adding newNode value, .add =>
      (addNode s.list newNode).map (fun list =>
        { s with
          list := list
          pc := Function.update s.pc thread .idle
          operations := s.operations ++ [.add value] })
  | .idle, .tryDelete =>
      (tryDeleteNode s.list).map (fun (list, deleteNode, result) =>
        { list := list
          pc := Function.update s.pc thread (.freeing deleteNode result)
          operations := s.operations ++ [.tryTake]
          results := s.results ++ [result] })
  | .freeing deleteNode _, .free =>
      some { s with list := s.list.free deleteNode, pc := Function.update s.pc thread .idle }
  | _, _ => none

def initial (list : NodeList α) : ListThreads α := ⟨list, fun _ => .idle, [], []⟩

end ListThreads

def batchList (α : Type) : Machine (ListThreads α) (Nat × ListAct α) :=
  ⟨.initial createBatchList, ListThreads.step addNodeBatchList tryDeleteNodeBatchList⟩

def txList (α : Type) : Machine (ListThreads α) (Nat × ListAct α) :=
  ⟨.initial createTxList, ListThreads.step addNodeTxList tryDeleteNodeTxList⟩

structure WellFormed {α : Type} (l : NodeList α) (nodes : List (Nat × α)) : Prop where
  empty : l.head = none ↔ l.tail = none
  visits : Linked l.heap l.head nodes
  distinct : (nodes.map Prod.fst).Nodup
  ends : l.tail = (nodes.map Prod.fst).getLast?
  last : ∀ tail, l.tail = some tail → ∃ value, l.heap tail = some ⟨value, none⟩

section Nodes

variable {α : Type} (l : NodeList α) (nodes : List (Nat × α))

theorem well_formed_of_linked (visits : Linked l.heap l.head nodes) (distinct : (nodes.map Prod.fst).Nodup)
    (ends : l.tail = (nodes.map Prod.fst).getLast?) : WellFormed l nodes := by
  have head := linked_head l.heap l.head nodes visits
  refine ⟨?_, visits, distinct, ends, ?_⟩
  · rw [head, ends, List.head?_eq_none_iff, List.getLast?_eq_none_iff]
  · intro tail last
    rcases List.eq_nil_or_concat nodes with rfl | ⟨front, ⟨address, value⟩, rfl⟩
    · simp [last] at ends
    · rw [List.concat_eq_append] at visits ends
      obtain rfl : tail = address := by simpa [last] using ends
      exact ⟨value, linked_last l.heap l.head front tail value visits⟩

theorem well_formed_elsewhere (formed : WellFormed l nodes) (address : Nat) (cell : Option (Cell α))
    (away : address ∉ nodes.map Prod.fst) : WellFormed { l with heap := Function.update l.heap address cell } nodes :=
  well_formed_of_linked _ nodes (linked_elsewhere l.heap l.head nodes formed.visits address cell away) formed.distinct
    formed.ends

theorem add_node_well_formed (formed : WellFormed l nodes) (newNode : Nat) (value : α)
    (read : l.heap newNode = some ⟨value, none⟩) (away : newNode ∉ nodes.map Prod.fst) :
    ∃ next, l.addNode newNode = some next ∧ WellFormed next (nodes ++ [(newNode, value)]) ∧
      ∀ other, other ∉ nodes.map Prod.fst → next.heap other = l.heap other := by
  rcases List.eq_nil_or_concat nodes with rfl | ⟨front, ⟨last, lastValue⟩, rfl⟩
  · have tail : l.tail = none := by simpa using formed.ends
    refine ⟨{ l with head := some newNode, tail := some newNode }, by simp only [NodeList.addNode, tail], ?_, ?_⟩
    · apply well_formed_of_linked
      · exact .cons newNode value none [] read .nil
      · simp
      · rfl
    · intro other _
      rfl
  · rw [List.concat_eq_append] at formed away ⊢
    have tail : l.tail = some last := by simpa using formed.ends
    have cell := linked_last l.heap l.head front last lastValue formed.visits
    refine ⟨{ l with
      heap := Function.update l.heap last (some ⟨lastValue, some newNode⟩)
      tail := some newNode }, by simp only [NodeList.addNode, tail, cell, Option.map_some], ?_, ?_⟩
    · apply well_formed_of_linked
      · exact linked_append l.heap l.head front last newNode lastValue value formed.visits formed.distinct read away
      · rw [List.map_append, List.map_singleton, List.nodup_append]
        refine ⟨formed.distinct, List.nodup_singleton _, fun a member b new same => ?_⟩
        obtain rfl : b = newNode := List.mem_singleton.mp new
        exact away (same ▸ member)
      · simp
    · intro other out
      have different : other ≠ last := by
        intro same
        exact out (by simp [same])
      exact Function.update_of_ne different _ _

theorem try_delete_node_well_formed (formed : WellFormed l nodes) :
    ∃ next, l.tryDeleteNode = some (next, (nodes.map Prod.fst).head?, (nodes.map Prod.snd).head?) ∧
      WellFormed next nodes.tail ∧ next.heap = l.heap := by
  have visits := formed.visits
  have head := linked_head l.heap l.head nodes visits
  cases nodes with
  | nil => exact ⟨l, by simp [NodeList.tryDeleteNode, head], formed, rfl⟩
  | cons first rest =>
      obtain ⟨address, value⟩ := first
      replace head : l.head = some address := head
      rw [head] at visits
      cases visits with
      | cons _ _ next _ read linked =>
          have after := linked_head l.heap next rest linked
          have distinct : (rest.map Prod.fst).Nodup := (List.nodup_cons.mp formed.distinct).2
          cases rest with
          | nil =>
              replace after : next = none := after
              subst after
              refine ⟨{ l with head := none, tail := none }, ?_, ?_, rfl⟩
              · simp [NodeList.tryDeleteNode, head, read]
              · exact well_formed_of_linked _ [] linked distinct rfl
          | cons second others =>
              replace after : next = some second.1 := after
              subst after
              refine ⟨{ l with head := some second.1 }, ?_, ?_, rfl⟩
              · simp [NodeList.tryDeleteNode, head, read]
              · refine well_formed_of_linked _ (second :: others) linked distinct ?_
                have ends := formed.ends
                simpa [List.getLast?_cons] using ends

end Nodes

def nodeList (α : Type) : Machine (ListThreads α) (Nat × ListAct α) :=
  ⟨.initial .create, ListThreads.step NodeList.addNode NodeList.tryDeleteNode⟩

inductive ListStep {α : Type} (s : ListThreads α) : Nat × ListAct α → ListThreads α → Prop where
  | malloc (thread address : Nat) (value : α) (pc : s.pc thread = .idle) (unused : s.list.heap address = none) :
      ListStep s (thread, .malloc value address)
        { s with
          list := s.list.newNode address value
          pc := Function.update s.pc thread (.adding address value) }
  | add (thread newNode : Nat) (value : α) (list : NodeList α) (pc : s.pc thread = .adding newNode value)
      (added : s.list.addNode newNode = some list) :
      ListStep s (thread, .add)
        { s with
          list := list
          pc := Function.update s.pc thread .idle
          operations := s.operations ++ [.add value] }
  | tryDelete (thread : Nat) (list : NodeList α) (deleteNode : Option Nat) (result : Option α) (pc : s.pc thread = .idle)
      (deleted : s.list.tryDeleteNode = some (list, deleteNode, result)) :
      ListStep s (thread, .tryDelete)
        { list := list
          pc := Function.update s.pc thread (.freeing deleteNode result)
          operations := s.operations ++ [.tryTake]
          results := s.results ++ [result] }
  | free (thread : Nat) (deleteNode : Option Nat) (result : Option α) (pc : s.pc thread = .freeing deleteNode result) :
      ListStep s (thread, .free)
        { s with list := s.list.free deleteNode, pc := Function.update s.pc thread .idle }

section Threads

variable {α : Type}

theorem list_step_of_some (s t : ListThreads α) (act : Nat × ListAct α) (taken : (nodeList α).step s act = some t) :
    ListStep s act t := by
  obtain ⟨thread, act⟩ := act
  simp only [nodeList, ListThreads.step] at taken
  split at taken
  · rename_i value address pc
    split at taken
    · rename_i unused
      cases taken
      exact .malloc thread address value pc unused
    · cases taken
  · rename_i newNode value pc
    obtain ⟨list, added, rfl⟩ := Option.map_eq_some_iff.mp taken
    exact .add thread newNode value list pc added
  · rename_i pc
    obtain ⟨⟨list, deleteNode, result⟩, deleted, rfl⟩ := Option.map_eq_some_iff.mp taken
    exact .tryDelete thread list deleteNode result pc deleted
  · rename_i deleteNode result pc
    cases taken
    exact .free thread deleteNode result pc
  · cases taken

structure ListInv (s : ListThreads α) (nodes : List (Nat × α)) : Prop where
  formed : WellFormed s.list nodes
  values : nodes.map Prod.snd = (Fifo.empty.run s.operations).pending
  results : s.results = Fifo.empty.answers s.operations
  fresh : ∀ thread newNode value, s.pc thread = .adding newNode value → s.list.heap newNode = some ⟨value, none⟩
  apart : ∀ thread node, (s.pc thread).owned = some node →
    node ∉ nodes.map Prod.fst ∧ s.list.heap node ≠ none
  single : ∀ thread other node, (s.pc thread).owned = some node → (s.pc other).owned = some node → thread = other

theorem list_inv_initial : ListInv (nodeList α).init [] := by
  refine ⟨well_formed_of_linked _ [] .nil List.nodup_nil rfl, rfl, rfl, ?_, ?_, ?_⟩
  · intro thread newNode value pc
    cases pc
  · intro thread node owned
    cases owned
  · intro thread other node owned _
    cases owned

theorem list_inv_malloc (s : ListThreads α) (nodes : List (Nat × α)) (inv : ListInv s nodes) (thread address : Nat)
    (value : α) (unused : s.list.heap address = none) :
    ListInv { s with
      list := s.list.newNode address value
      pc := Function.update s.pc thread (.adding address value) } nodes := by
  have away : address ∉ nodes.map Prod.fst := by
    intro member
    obtain ⟨cell, read⟩ := linked_read s.list.heap s.list.head nodes inv.formed.visits address member
    simp [read] at unused
  have other : ∀ t node, (s.pc t).owned = some node → node ≠ address := by
    rintro t node owned rfl
    exact (inv.apart t node owned).2 unused
  refine ⟨well_formed_elsewhere s.list nodes inv.formed address _ away, inv.values, inv.results, ?_, ?_, ?_⟩
  · intro t newNode added pc
    by_cases own : t = thread
    · subst own
      obtain ⟨rfl, rfl⟩ : address = newNode ∧ value = added := by simpa using pc
      exact Function.update_self _ _ _
    · replace pc : s.pc t = .adding newNode added := by simpa [Function.update_of_ne own] using pc
      have different := other t newNode (by rw [pc]; rfl)
      exact (Function.update_of_ne different _ _).trans (inv.fresh t newNode added pc)
  · intro t node owned
    by_cases own : t = thread
    · subst own
      obtain rfl : address = node := by simpa [ListPc.owned] using owned
      exact ⟨away, by simp [NodeList.newNode]⟩
    · replace owned : (s.pc t).owned = some node := by simpa [Function.update_of_ne own] using owned
      obtain ⟨outside, allocated⟩ := inv.apart t node owned
      have kept : (s.list.newNode address value).heap node = s.list.heap node :=
        Function.update_of_ne (other t node owned) _ _
      exact ⟨outside, fun gone => allocated (kept.symm.trans gone)⟩
  · intro t u node first second
    by_cases own : t = thread <;> by_cases also : u = thread
    · exact own.trans also.symm
    · subst own
      obtain rfl : address = node := by simpa [ListPc.owned] using first
      exact absurd rfl (other u address (by simpa [Function.update_of_ne also] using second))
    · subst also
      obtain rfl : address = node := by simpa [ListPc.owned] using second
      exact absurd rfl (other t address (by simpa [Function.update_of_ne own] using first))
    · exact inv.single t u node (by simpa [Function.update_of_ne own] using first)
        (by simpa [Function.update_of_ne also] using second)

theorem owned_released (s : ListThreads α) (thread t node : Nat)
    (owned : (Function.update s.pc thread .idle t).owned = some node) : t ≠ thread ∧ (s.pc t).owned = some node := by
  by_cases own : t = thread
  · subst own
    simp [ListPc.owned] at owned
  · exact ⟨own, by simpa [Function.update_of_ne own] using owned⟩

theorem adding_released (s : ListThreads α) (thread t newNode : Nat) (value : α)
    (held : Function.update s.pc thread .idle t = .adding newNode value) :
    s.pc t = .adding newNode value ∧ t ≠ thread ∧ (s.pc t).owned = some newNode := by
  have owned : (Function.update s.pc thread .idle t).owned = some newNode := by
    rw [held]
    rfl
  obtain ⟨own, was⟩ := owned_released s thread t newNode owned
  exact ⟨by simpa [Function.update_of_ne own] using held, own, was⟩

theorem list_inv_add (s : ListThreads α) (nodes : List (Nat × α)) (inv : ListInv s nodes) (thread newNode : Nat)
    (value : α) (list : NodeList α) (pc : s.pc thread = .adding newNode value)
    (added : s.list.addNode newNode = some list) :
    ListInv { s with
      list := list
      pc := Function.update s.pc thread .idle
      operations := s.operations ++ [.add value] } (nodes ++ [(newNode, value)]) := by
  have read := inv.fresh thread newNode value pc
  have mine : (s.pc thread).owned = some newNode := by rw [pc]; rfl
  obtain ⟨next, done, formed, kept⟩ :=
    add_node_well_formed s.list nodes inv.formed newNode value read (inv.apart thread newNode mine).1
  obtain rfl : next = list := Option.some.inj (done.symm.trans added)
  refine ⟨formed, ?_, ?_, ?_, ?_, ?_⟩
  · rw [Fifo.run_snoc, List.map_append, inv.values]
    exact (Fifo.pending_add _ value).symm
  · rw [Fifo.answers_snoc, inv.results]
    exact (List.append_nil _).symm
  · intro t other stored held
    obtain ⟨adding, _, was⟩ := adding_released s thread t other stored held
    rw [kept other (inv.apart t other was).1]
    exact inv.fresh t other stored adding
  · intro t node owned
    obtain ⟨own, was⟩ := owned_released s thread t node owned
    obtain ⟨outside, allocated⟩ := inv.apart t node was
    refine ⟨?_, by rw [kept node outside]; exact allocated⟩
    rw [List.map_append, List.mem_append, not_or]
    refine ⟨outside, fun same => own ?_⟩
    cases List.mem_singleton.mp same
    exact inv.single t thread newNode was mine
  · intro t u node first second
    exact inv.single t u node (owned_released s thread t node first).2 (owned_released s thread u node second).2

theorem list_inv_try_delete (s : ListThreads α) (nodes : List (Nat × α)) (inv : ListInv s nodes) (thread : Nat)
    (list : NodeList α) (deleteNode : Option Nat) (result : Option α)
    (deleted : s.list.tryDeleteNode = some (list, deleteNode, result)) :
    ListInv
      { list := list
        pc := Function.update s.pc thread (.freeing deleteNode result)
        operations := s.operations ++ [.tryTake]
        results := s.results ++ [result] } nodes.tail := by
  obtain ⟨next, done, formed, kept⟩ := try_delete_node_well_formed s.list nodes inv.formed
  have same := done.symm.trans deleted
  simp only [Option.some.injEq, Prod.mk.injEq] at same
  obtain ⟨rfl, rfl, rfl⟩ := same
  have others : ∀ t node, t ≠ thread → (Function.update s.pc thread
      (.freeing (nodes.map Prod.fst).head? (nodes.map Prod.snd).head?) t).owned = some node → (s.pc t).owned = some node := by
    intro t node own owned
    simpa [Function.update_of_ne own] using owned
  have mine : ∀ node, (Function.update s.pc thread
      (.freeing (nodes.map Prod.fst).head? (nodes.map Prod.snd).head?) thread).owned = some node →
      (nodes.map Prod.fst).head? = some node := by
    intro node owned
    simpa [ListPc.owned] using owned
  have first : ∀ node, (nodes.map Prod.fst).head? = some node → node ∈ nodes.map Prod.fst := by
    intro node head
    exact List.mem_of_mem_head? (Option.mem_def.mpr head)
  refine ⟨formed, ?_, ?_, ?_, ?_, ?_⟩
  · rw [Fifo.run_snoc, Fifo.pending_after_take, ← inv.values, List.map_tail]
  · rw [Fifo.answers_snoc, Fifo.answer_oldest, inv.results, inv.values]
  · intro t newNode value held
    rw [kept]
    by_cases own : t = thread
    · subst own
      simp at held
    · exact inv.fresh t newNode value (by simpa [Function.update_of_ne own] using held)
  · intro t node owned
    rw [kept]
    by_cases own : t = thread
    · subst own
      have head := mine node owned
      obtain ⟨cell, read⟩ := linked_read s.list.heap s.list.head nodes inv.formed.visits node (first node head)
      refine ⟨?_, by simp [read]⟩
      cases nodes with
      | nil => simp
      | cons cell rest =>
          obtain rfl : cell.1 = node := by simpa using head
          exact (List.nodup_cons.mp inv.formed.distinct).1
    · obtain ⟨outside, allocated⟩ := inv.apart t node (others t node own owned)
      refine ⟨fun member => outside ?_, allocated⟩
      rw [List.map_tail] at member
      exact List.mem_of_mem_tail member
  · intro t u node held also
    by_cases own : t = thread <;> by_cases its : u = thread
    · exact own.trans its.symm
    · subst own
      exact absurd (first node (mine node held)) (inv.apart u node (others u node its also)).1
    · subst its
      exact absurd (first node (mine node also)) (inv.apart t node (others t node own held)).1
    · exact inv.single t u node (others t node own held) (others u node its also)

theorem list_inv_free (s : ListThreads α) (nodes : List (Nat × α)) (inv : ListInv s nodes) (thread : Nat)
    (deleteNode : Option Nat) (result : Option α) (pc : s.pc thread = .freeing deleteNode result) :
    ListInv { s with list := s.list.free deleteNode, pc := Function.update s.pc thread .idle } nodes := by
  have kept : ∀ t node, t ≠ thread → (s.pc t).owned = some node → (s.list.free deleteNode).heap node = s.list.heap node := by
    intro t node own owned
    cases deleteNode with
    | none => rfl
    | some freed =>
        refine Function.update_of_ne ?_ _ _
        rintro rfl
        exact own (inv.single t thread node owned (by rw [pc]; rfl))
  refine ⟨?_, inv.values, inv.results, ?_, ?_, ?_⟩
  · cases deleteNode with
    | none => exact inv.formed
    | some freed => exact well_formed_elsewhere s.list nodes inv.formed freed none (inv.apart thread freed (by rw [pc]; rfl)).1
  · intro t newNode value held
    obtain ⟨adding, own, was⟩ := adding_released s thread t newNode value held
    rw [kept t newNode own was]
    exact inv.fresh t newNode value adding
  · intro t node owned
    obtain ⟨own, was⟩ := owned_released s thread t node owned
    rw [kept t node own was]
    exact inv.apart t node was
  · intro t u node first second
    exact inv.single t u node (owned_released s thread t node first).2 (owned_released s thread u node second).2

theorem list_inv_step (s t : ListThreads α) (nodes : List (Nat × α)) (act : Nat × ListAct α) (inv : ListInv s nodes)
    (step : ListStep s act t) : ∃ next, ListInv t next := by
  cases step with
  | malloc thread address value _ unused => exact ⟨nodes, list_inv_malloc s nodes inv thread address value unused⟩
  | add thread newNode value list pc added => exact ⟨_, list_inv_add s nodes inv thread newNode value list pc added⟩
  | tryDelete thread list deleteNode result _ deleted =>
      exact ⟨_, list_inv_try_delete s nodes inv thread list deleteNode result deleted⟩
  | free thread deleteNode result pc => exact ⟨nodes, list_inv_free s nodes inv thread deleteNode result pc⟩

theorem list_inv_reachable (s : ListThreads α) (reachable : (nodeList α).Reachable s) : ∃ nodes, ListInv s nodes := by
  apply (nodeList α).invariant_reachable (fun s => ∃ nodes, ListInv s nodes) ⟨[], list_inv_initial⟩ ?_ s reachable
  rintro s act t ⟨nodes, inv⟩ taken
  exact list_inv_step s t nodes act inv (list_step_of_some s t act taken)

structure FifoQueue (m : Machine (ListThreads α) (Nat × ListAct α)) (s : ListThreads α) (nodes : List (Nat × α)) : Prop where
  formed : WellFormed s.list nodes
  results : s.results = Fifo.empty.answers s.operations
  order : s.results.reduceOption ++ nodes.map Prod.snd = s.operations.filterMap Fifo.Op.added
  add : ∀ thread newNode value, s.pc thread = .adding newNode value →
    ∃ t, m.step s (thread, .add) = some t ∧ t.results = s.results ∧ t.operations = s.operations ++ [.add value]
  tryDelete : ∀ thread, s.pc thread = .idle →
    ∃ t, m.step s (thread, .tryDelete) = some t ∧ t.results = s.results ++ [(nodes.map Prod.snd).head?]

theorem fifo_queue_of_inv (s : ListThreads α) (nodes : List (Nat × α)) (inv : ListInv s nodes) :
    FifoQueue (nodeList α) s nodes := by
  refine ⟨inv.formed, inv.results, ?_, ?_, ?_⟩
  · have order := Fifo.answers_in_order Fifo.empty s.operations
    rw [inv.results, inv.values]
    exact order.symm
  · intro thread newNode value pc
    have mine : (s.pc thread).owned = some newNode := by rw [pc]; rfl
    obtain ⟨next, done, _⟩ := add_node_well_formed s.list nodes inv.formed newNode value
      (inv.fresh thread newNode value pc) (inv.apart thread newNode mine).1
    refine ⟨{ s with
      list := next
      pc := Function.update s.pc thread .idle
      operations := s.operations ++ [.add value] }, ?_, rfl, rfl⟩
    simp only [nodeList, ListThreads.step, pc, done, Option.map_some]
  · intro thread pc
    obtain ⟨next, done, _⟩ := try_delete_node_well_formed s.list nodes inv.formed
    refine ⟨{
      list := next
      pc := Function.update s.pc thread (.freeing (nodes.map Prod.fst).head? (nodes.map Prod.snd).head?)
      operations := s.operations ++ [.tryTake]
      results := s.results ++ [(nodes.map Prod.snd).head?] }, ?_, rfl⟩
    simp only [nodeList, ListThreads.step, pc, done, Option.map_some]

end Threads

theorem lists_are_fifo_queues (α β : Type) :
    (∀ s, (batchList α).Reachable s → ∃ nodes, FifoQueue (batchList α) s nodes) ∧
      ∀ s, (txList β).Reachable s → ∃ nodes, FifoQueue (txList β) s nodes := by
  refine ⟨fun s reachable => ?_, fun s reachable => ?_⟩
  · obtain ⟨nodes, inv⟩ := list_inv_reachable s reachable
    exact ⟨nodes, fifo_queue_of_inv s nodes inv⟩
  · obtain ⟨nodes, inv⟩ := list_inv_reachable s reachable
    exact ⟨nodes, fifo_queue_of_inv s nodes inv⟩

-- Threads 0 and 1 add while thread 2 takes; the second malloc is before the first
-- add, and the third gets the address of a node that has been freed.
def sampleCalls : List (Nat × ListAct Nat) :=
  [(0, .malloc 10 5), (1, .malloc 20 6), (1, .add), (0, .add), (2, .tryDelete), (2, .free), (0, .malloc 30 6),
    (2, .tryDelete), (0, .add), (2, .free), (2, .tryDelete), (2, .free), (2, .tryDelete)]

theorem lists_are_fifo_queues_sample : ∃ s, (batchList Nat).exec (batchList Nat).init sampleCalls = some s ∧
    s.results = [some 20, some 10, some 30, none] ∧ ∃ nodes, FifoQueue (batchList Nat) s nodes := by
  have ran : ((batchList Nat).exec (batchList Nat).init sampleCalls).map ListThreads.results =
      some [some 20, some 10, some 30, none] := by decide
  obtain ⟨s, ran, results⟩ := Option.map_eq_some_iff.mp ran
  exact ⟨s, ran, results, (lists_are_fifo_queues Nat Nat).1 s
    ((batchList Nat).reachable_exec sampleCalls _ s .init ran)⟩

end EpochReplication
