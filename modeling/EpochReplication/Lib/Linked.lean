import Mathlib.Data.List.Nodup
import Mathlib.Logic.Function.Basic
import Mathlib.Tactic.Common

set_option autoImplicit false

namespace EpochReplication

-- Cells in memory, each with a value and a pointer to the next one. An address
-- that is not allocated holds none.
structure Cell (α : Type) where
  value : α
  next : Option Nat
deriving DecidableEq, Repr

abbrev CellHeap (α : Type) := Nat → Option (Cell α)

-- Following `next` from a pointer meets just these cells, and then NULL.
inductive Linked {α : Type} (heap : CellHeap α) : Option Nat → List (Nat × α) → Prop where
  | nil : Linked heap none []
  | cons (address : Nat) (value : α) (next : Option Nat) (rest : List (Nat × α))
      (read : heap address = some ⟨value, next⟩) (linked : Linked heap next rest) :
      Linked heap (some address) ((address, value) :: rest)

section Linked

variable {α : Type} (heap : CellHeap α)

theorem linked_head (head : Option Nat) (cells : List (Nat × α)) (linked : Linked heap head cells) :
    head = (cells.map Prod.fst).head? := by
  cases linked <;> rfl

theorem linked_read (head : Option Nat) (cells : List (Nat × α)) (linked : Linked heap head cells) (address : Nat)
    (member : address ∈ cells.map Prod.fst) : ∃ cell, heap address = some cell := by
  induction linked with
  | nil => simp at member
  | cons first value next rest read _ ih =>
      rcases List.mem_cons.mp member with same | later
      · exact ⟨⟨value, next⟩, same ▸ read⟩
      · exact ih later

theorem linked_elsewhere (head : Option Nat) (cells : List (Nat × α)) (linked : Linked heap head cells) (address : Nat)
    (cell : Option (Cell α)) (away : address ∉ cells.map Prod.fst) :
    Linked (Function.update heap address cell) head cells := by
  induction linked with
  | nil => exact .nil
  | cons first value next rest read _ ih =>
      simp only [List.map_cons, List.mem_cons, not_or] at away
      obtain ⟨different, later⟩ := away
      exact .cons first value next rest ((Function.update_of_ne (Ne.symm different) _ _).trans read) (ih later)

theorem linked_last (head : Option Nat) (front : List (Nat × α)) (last : Nat) (value : α)
    (linked : Linked heap head (front ++ [(last, value)])) : heap last = some ⟨value, none⟩ := by
  induction front generalizing head with
  | nil =>
      cases linked with
      | cons _ _ next _ read rest =>
          cases rest
          exact read
  | cons first front ih =>
      cases linked with
      | cons _ _ next _ _ rest => exact ih next rest

theorem linked_append (head : Option Nat) (front : List (Nat × α)) (last fresh : Nat) (value added : α)
    (linked : Linked heap head (front ++ [(last, value)])) (distinct : ((front ++ [(last, value)]).map Prod.fst).Nodup)
    (read : heap fresh = some ⟨added, none⟩) (away : fresh ∉ (front ++ [(last, value)]).map Prod.fst) :
    Linked (Function.update heap last (some ⟨value, some fresh⟩)) head (front ++ [(last, value)] ++ [(fresh, added)]) := by
  induction front generalizing head with
  | nil =>
      cases linked with
      | cons _ _ next _ _ _ =>
          have different : fresh ≠ last := by simpa using away
          have kept := (Function.update_of_ne different (some ⟨value, some fresh⟩) heap).trans read
          exact .cons last value _ _ (Function.update_self _ _ _) (.cons fresh added none [] kept .nil)
  | cons first front ih =>
      simp only [List.cons_append, List.map_cons, List.nodup_cons] at distinct
      simp only [List.cons_append, List.map_cons, List.mem_cons, not_or] at away
      cases linked with
      | cons address first next _ held rest =>
          have different : address ≠ last := by
            intro same
            exact distinct.1 (by simp [same])
          exact .cons address first next _ ((Function.update_of_ne different _ _).trans held)
            (ih next rest distinct.2 away.2)

end Linked

end EpochReplication
