import Mathlib.Tactic.Common

set_option autoImplicit false

namespace EpochReplication

def storageSize : Nat := 124

def StorageKey (key : Int16) : Prop := 0 ≤ key.toInt ∧ key.toInt < storageSize

instance (key : Int16) : Decidable (StorageKey key) := inferInstanceAs (Decidable (_ ∧ _))

-- The array behind Storage; storage_size is its length.
structure Storage where
  records : List Int16
deriving DecidableEq, Repr

def newStorage (storageSize : Nat) : Storage := ⟨List.replicate storageSize 0⟩

-- A short indexes the array. Outside of it the program has no defined meaning.
def recordIndex (storage : Storage) (key : Int16) : Option Nat :=
  if 0 ≤ key.toInt ∧ key.toInt.toNat < storage.records.length then some key.toInt.toNat else none

def readFromStorage (storage : Storage) (key : Int16) : Option Int :=
  (recordIndex storage key).bind (fun i => storage.records[i]?.map Int16.toInt)

-- records[key].value++: the value given is not used.
def writeToStorage (storage : Storage) (key _value : Int16) : Option Storage :=
  (recordIndex storage key).map (fun i => ⟨storage.records.modify i (· + 1)⟩)

theorem read_from_storage_record (storage : Storage) (key : Int16) (value : Int)
    (found : readFromStorage storage key = some value) :
    0 ≤ key.toInt ∧ ∃ record, storage.records[key.toInt.toNat]? = some record ∧ record.toInt = value := by
  obtain ⟨i, index, stored⟩ := Option.bind_eq_some_iff.mp found
  unfold recordIndex at index
  split at index
  · rename_i inside
    cases index
    exact ⟨inside.1, Option.map_eq_some_iff.mp stored⟩
  · cases index

theorem write_to_storage_length (storage next : Storage) (key value : Int16)
    (done : writeToStorage storage key value = some next) : next.records.length = storage.records.length := by
  obtain ⟨i, _, rfl⟩ := Option.map_eq_some_iff.mp done
  simp only [List.length_modify]

theorem write_to_storage_some (storage : Storage) (key value : Int16) (low : 0 ≤ key.toInt)
    (high : key.toInt < storage.records.length) : ∃ next, writeToStorage storage key value = some next := by
  have inside : 0 ≤ key.toInt ∧ key.toInt.toNat < storage.records.length := ⟨low, by omega⟩
  exact ⟨_, by rw [writeToStorage, recordIndex, if_pos inside]; rfl⟩

end EpochReplication
