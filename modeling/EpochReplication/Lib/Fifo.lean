import Mathlib.Data.List.ReduceOption
import Mathlib.Tactic.Common

set_option autoImplicit false

namespace EpochReplication

-- A queue that remembers: everything ever put in, and how much of it was taken
-- out again. What it holds now is the rest.
structure Fifo (α : Type) where
  entered : List α
  left : Nat
  le : left ≤ entered.length

namespace Fifo

variable {α : Type}

def empty : Fifo α := ⟨[], 0, Nat.le_refl 0⟩

def add (q : Fifo α) (a : α) : Fifo α :=
  ⟨q.entered ++ [a], q.left, Nat.le_trans q.le (by simp)⟩

def tryTake (q : Fifo α) : Option (α × Fifo α) :=
  if more : q.left < q.entered.length then some (q.entered[q.left], ⟨q.entered, q.left + 1, more⟩) else none

@[simp] theorem entered_empty : (empty : Fifo α).entered = [] := rfl

@[simp] theorem left_empty : (empty : Fifo α).left = 0 := rfl

@[simp] theorem entered_add (q : Fifo α) (a : α) : (q.add a).entered = q.entered ++ [a] := rfl

@[simp] theorem left_add (q : Fifo α) (a : α) : (q.add a).left = q.left := rfl

theorem try_take_some (q next : Fifo α) (a : α) (taken : q.tryTake = some (a, next)) :
    q.entered[q.left]? = some a ∧ next.entered = q.entered ∧ next.left = q.left + 1 := by
  unfold tryTake at taken
  split at taken
  · rename_i more
    cases taken
    exact ⟨List.getElem?_eq_getElem more, rfl, rfl⟩
  · cases taken

def pending (q : Fifo α) : List α := q.entered.drop q.left

@[simp] theorem pending_empty : (empty : Fifo α).pending = [] := rfl

@[simp] theorem pending_add (q : Fifo α) (a : α) : (q.add a).pending = q.pending ++ [a] :=
  List.drop_append_of_le_length q.le

theorem try_take_pending (q next : Fifo α) (a : α) (taken : q.tryTake = some (a, next)) :
    q.pending = a :: next.pending := by
  obtain ⟨found, entered, left⟩ := try_take_some q next a taken
  obtain ⟨inside, same⟩ := List.getElem?_eq_some_iff.mp found
  rw [pending, pending, entered, left, List.drop_eq_getElem_cons inside, same]

theorem try_take_none (q : Fifo α) (nothing : q.tryTake = none) : q.pending = [] := by
  unfold tryTake at nothing
  split at nothing
  · cases nothing
  · rename_i all
    exact List.drop_eq_nil_of_le (by omega)

inductive Op (α : Type) where
  | add (a : α)
  | tryTake

def Op.added : Op α → Option α
  | .add a => some a
  | .tryTake => none

def after (q : Fifo α) : Op α → Fifo α
  | .add a => q.add a
  | .tryTake => (q.tryTake.map Prod.snd).getD q

def answer (q : Fifo α) : Op α → List (Option α)
  | .add _ => []
  | .tryTake => [q.tryTake.map Prod.fst]

def run (q : Fifo α) (ops : List (Op α)) : Fifo α := ops.foldl after q

def answers : Fifo α → List (Op α) → List (Option α)
  | _, [] => []
  | q, op :: rest => q.answer op ++ (q.after op).answers rest

theorem run_snoc (q : Fifo α) (ops : List (Op α)) (op : Op α) : q.run (ops ++ [op]) = (q.run ops).after op := by
  simp only [run, List.foldl_append, List.foldl_cons, List.foldl_nil]

theorem answers_snoc (q : Fifo α) (ops : List (Op α)) (op : Op α) :
    q.answers (ops ++ [op]) = q.answers ops ++ (q.run ops).answer op := by
  induction ops generalizing q with
  | nil => simp [answers, run]
  | cons first rest ih =>
      simp only [List.cons_append, answers, ih, List.append_assoc]
      rfl

theorem answer_pending (q : Fifo α) (op : Op α) :
    q.pending ++ op.added.toList = (q.answer op).reduceOption ++ (q.after op).pending := by
  cases op with
  | add a => simp [Op.added, answer, after]
  | tryTake =>
      cases taken : q.tryTake with
      | none => simp [Op.added, answer, after, taken, try_take_none q taken, List.reduceOption]
      | some pair =>
          obtain ⟨a, next⟩ := pair
          simp [Op.added, answer, after, taken, try_take_pending q next a taken, List.reduceOption]

theorem answers_in_order (q : Fifo α) (ops : List (Op α)) :
    q.pending ++ ops.filterMap Op.added = (q.answers ops).reduceOption ++ (q.run ops).pending := by
  induction ops generalizing q with
  | nil => simp [answers, run]
  | cons op rest ih =>
      have first : (op :: rest).filterMap Op.added = op.added.toList ++ rest.filterMap Op.added := by
        rw [List.filterMap_cons]
        cases op.added <;> rfl
      rw [first, ← List.append_assoc, answer_pending, List.append_assoc, ih, answers, List.reduceOption_append,
        List.append_assoc]
      rfl

theorem answer_oldest (q : Fifo α) : q.answer .tryTake = [q.pending.head?] := by
  cases taken : q.tryTake with
  | none => simp [answer, taken, try_take_none q taken]
  | some pair => simp [answer, taken, try_take_pending q pair.2 pair.1 taken]

theorem pending_after_take (q : Fifo α) : (q.after .tryTake).pending = q.pending.tail := by
  cases taken : q.tryTake with
  | none => simp [after, taken, try_take_none q taken]
  | some pair => simp [after, taken, try_take_pending q pair.2 pair.1 taken]

end Fifo

end EpochReplication
