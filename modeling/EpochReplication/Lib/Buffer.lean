import Mathlib.Algebra.Ring.Nat
import Mathlib.Tactic.Common

set_option autoImplicit false

namespace EpochReplication

-- Memory seen from a `char *`: a byte at every offset. The length of the array
-- behind the pointer is not part of the value, so bytes past its end are
-- whatever happens to lie there.
abbrev Buf := Nat → UInt8

def memcpy (dst : Buf) (offset : Nat) (src : Buf) (n : Nat) : Buf :=
  fun i => if offset ≤ i ∧ i < offset + n then src (i - offset) else dst i

def pointerAdd (buf : Buf) (offset : Nat) : Buf := fun i => buf (offset + i)

def Agree (n : Nat) (a b : Buf) : Prop := ∀ i, i < n → a i = b i

def leBytes (value : Nat) : Buf := fun i => UInt8.ofNat (value / 256 ^ i)

def leValue (buf : Buf) (offset : Nat) : Nat → Nat
  | 0 => 0
  | n + 1 => (buf offset).toNat + 256 * leValue buf (offset + 1) n

theorem memcpy_inside (dst src : Buf) (offset n i : Nat) (low : offset ≤ i) (high : i < offset + n) :
    memcpy dst offset src n i = src (i - offset) := by
  simp [memcpy, low, high]

theorem memcpy_outside (dst src : Buf) (offset n i : Nat) (out : i < offset ∨ offset + n ≤ i) :
    memcpy dst offset src n i = dst i := by
  have miss : ¬ (offset ≤ i ∧ i < offset + n) := by omega
  simp only [memcpy, if_neg miss]

theorem agree_symm (n : Nat) (a b : Buf) (agree : Agree n a b) : Agree n b a :=
  fun i bound => (agree i bound).symm

theorem agree_mono (m n : Nat) (a b : Buf) (le : m ≤ n) (agree : Agree n a b) : Agree m a b :=
  fun i bound => agree i (Nat.lt_of_lt_of_le bound le)

theorem memcpy_agree (dst src : Buf) (n : Nat) : Agree n (memcpy dst 0 src n) src := by
  intro i bound
  simpa using memcpy_inside dst src 0 n i (Nat.zero_le i) (by omega)

theorem le_value_congr (a b : Buf) (offset n : Nat) (same : ∀ i, offset ≤ i → i < offset + n → a i = b i) :
    leValue a offset n = leValue b offset n := by
  induction n generalizing offset with
  | zero => rfl
  | succ n ih =>
      have rest := ih (offset + 1) (fun i low high => same i (by omega) (by omega))
      simp only [leValue, rest, same offset (Nat.le_refl offset) (by omega)]

theorem le_value_of_bytes (buf : Buf) (offset n value : Nat)
    (stored : ∀ i, i < n → buf (offset + i) = UInt8.ofNat (value / 256 ^ i)) :
    leValue buf offset n = value % 256 ^ n := by
  induction n generalizing offset value with
  | zero => simp [leValue, Nat.mod_one]
  | succ n ih =>
      have head : (buf offset).toNat = value % 256 := by
        have first := stored 0 (by omega)
        simp only [Nat.add_zero, Nat.pow_zero, Nat.div_one] at first
        simp [first]
      have tail : leValue buf (offset + 1) n = value / 256 % 256 ^ n := by
        apply ih
        intro i bound
        have next := stored (i + 1) (by omega)
        rw [Nat.pow_succ, Nat.mul_comm, ← Nat.div_div_eq_div_mul] at next
        rw [Nat.add_assoc, Nat.add_comm 1 i]
        exact next
      rw [leValue, head, tail, Nat.pow_succ, Nat.mul_comm (256 ^ n) 256, Nat.mod_mul]

theorem le_value_stored (dst : Buf) (offset n value : Nat) :
    leValue (memcpy dst offset (leBytes value) n) offset n = value % 256 ^ n := by
  apply le_value_of_bytes
  intro i bound
  rw [memcpy_inside dst _ offset n (offset + i) (by omega) (by omega), Nat.add_sub_cancel_left]
  rfl

theorem le_value_apart (dst src : Buf) (offset n other m : Nat)
    (apart : other + m ≤ offset ∨ offset + n ≤ other) :
    leValue (memcpy dst offset src n) other m = leValue dst other m := by
  apply le_value_congr
  intro i low high
  exact memcpy_outside dst src offset n i (by omega)

end EpochReplication
