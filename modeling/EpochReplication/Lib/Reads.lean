import Mathlib.Data.List.Forall2
import Mathlib.Data.List.Nodup
import Mathlib.Logic.Function.Basic
import Mathlib.Tactic.Common

set_option autoImplicit false

namespace EpochReplication

-- A heap of one kind of cells: an address that is not allocated holds none. The
-- addresses of a list hold these values, one by one.
def Reads {α : Type} (heap : Nat → Option α) (addresses : List Nat) (values : List α) : Prop :=
  List.Forall₂ (fun address value => heap address = some value) addresses values

section Reads

variable {α : Type} (heap : Nat → Option α)

theorem reads_length (addresses : List Nat) (values : List α) (reads : Reads heap addresses values) :
    addresses.length = values.length := List.Forall₂.length_eq reads

theorem reads_append (first rest : List Nat) (values more : List α) (front : Reads heap first values)
    (back : Reads heap rest more) : Reads heap (first ++ rest) (values ++ more) := List.rel_append front back

theorem reads_split (first rest : List Nat) (values : List α) (reads : Reads heap (first ++ rest) values) :
    ∃ front back, values = front ++ back ∧ Reads heap first front ∧ Reads heap rest back := by
  induction first generalizing values with
  | nil => exact ⟨[], values, rfl, .nil, reads⟩
  | cons address first ih =>
      cases reads with
      | cons here others =>
          obtain ⟨front, back, rfl, reads, more⟩ := ih _ others
          exact ⟨_ :: front, back, rfl, .cons here reads, more⟩

theorem reads_last (address : Nat) (values : List α) (reads : Reads heap [address] values) :
    ∃ value, values = [value] ∧ heap address = some value := by
  cases reads with
  | cons here none =>
      cases none
      exact ⟨_, rfl, here⟩

theorem reads_member (addresses : List Nat) (values : List α) (reads : Reads heap addresses values) (address : Nat)
    (member : address ∈ addresses) : ∃ value, heap address = some value := by
  induction reads with
  | nil => cases member
  | cons here _ ih =>
      rcases List.mem_cons.mp member with rfl | later
      · exact ⟨_, here⟩
      · exact ih later

theorem reads_kept (next : Nat → Option α) (addresses : List Nat) (values : List α)
    (same : ∀ address ∈ addresses, next address = heap address) (reads : Reads heap addresses values) :
    Reads next addresses values := by
  induction reads with
  | nil => exact .nil
  | cons here _ ih =>
      exact .cons ((same _ List.mem_cons_self).trans here) (ih fun address member => same address (List.mem_cons_of_mem _ member))

theorem update_away (addresses : List Nat) (address : Nat) (cell : Option α) (away : address ∉ addresses) :
    ∀ other ∈ addresses, Function.update heap address cell other = heap other := by
  intro other member
  have different : other ≠ address := by
    rintro rfl
    exact away member
  exact Function.update_of_ne different _ _

theorem reads_all (addresses : List Nat) (values : List α) (reads : Reads heap addresses values) :
    addresses.mapM heap = some values := by
  induction reads with
  | nil => rfl
  | cons here _ ih => simp [List.mapM_cons, here, ih]

end Reads

end EpochReplication
