import EpochReplication.Lib.Buffer

set_option autoImplicit false

namespace EpochReplication

-- utils/bytes.c on a little-endian host with 32-bit int and 16-bit short. A
-- `char` is kept as its byte: the program only compares chars with enumerators
-- below 128, so its signedness is never observed.
def setIntToBytes (bytes : Buf) (offset : Nat) (value : Int32) : Buf :=
  memcpy bytes offset (leBytes value.toUInt32.toNat) 4

def getIntFromBytes (bytes : Buf) (offset : Nat) : Int32 :=
  (UInt32.ofNat (leValue bytes offset 4)).toInt32

def setShortIntToBytes (bytes : Buf) (offset : Nat) (value : Int16) : Buf :=
  memcpy bytes offset (leBytes value.toUInt16.toNat) 2

def getShortIntFromBytes (bytes : Buf) (offset : Nat) : Int16 :=
  (UInt16.ofNat (leValue bytes offset 2)).toInt16

def setCharToBytes (bytes : Buf) (offset : Nat) (value : UInt8) : Buf :=
  memcpy bytes offset (leBytes value.toNat) 1

def getCharFromBytes (bytes : Buf) (offset : Nat) : UInt8 :=
  UInt8.ofNat (leValue bytes offset 1)

theorem get_int_set (bytes : Buf) (offset : Nat) (value : Int32) :
    getIntFromBytes (setIntToBytes bytes offset value) offset = value := by
  have fits : value.toUInt32.toNat % 256 ^ 4 = value.toUInt32.toNat := Nat.mod_eq_of_lt value.toUInt32.toNat_lt
  rw [getIntFromBytes, setIntToBytes, le_value_stored, fits, UInt32.ofNat_toNat, Int32.toInt32_toUInt32]

theorem get_short_set (bytes : Buf) (offset : Nat) (value : Int16) :
    getShortIntFromBytes (setShortIntToBytes bytes offset value) offset = value := by
  have fits : value.toUInt16.toNat % 256 ^ 2 = value.toUInt16.toNat := Nat.mod_eq_of_lt value.toUInt16.toNat_lt
  rw [getShortIntFromBytes, setShortIntToBytes, le_value_stored, fits, UInt16.ofNat_toNat, Int16.toInt16_toUInt16]

theorem get_char_set (bytes : Buf) (offset : Nat) (value : UInt8) :
    getCharFromBytes (setCharToBytes bytes offset value) offset = value := by
  have fits : value.toNat % 256 ^ 1 = value.toNat := Nat.mod_eq_of_lt value.toNat_lt
  rw [getCharFromBytes, setCharToBytes, le_value_stored, fits, UInt8.ofNat_toNat]

theorem get_char_eq (bytes : Buf) (offset : Nat) : getCharFromBytes bytes offset = bytes offset := by
  simp [getCharFromBytes, leValue]

theorem get_char_of_short (bytes : Buf) (offset : Nat) (value : UInt8) :
    getCharFromBytes (setShortIntToBytes bytes offset value.toUInt16.toInt16) offset = value := by
  rw [get_char_eq, setShortIntToBytes, memcpy_inside _ _ _ _ _ (Nat.le_refl offset) (by omega)]
  simp [leBytes]

theorem get_short_apart (bytes src : Buf) (offset n other : Nat)
    (apart : other + 2 ≤ offset ∨ offset + n ≤ other) :
    getShortIntFromBytes (memcpy bytes offset src n) other = getShortIntFromBytes bytes other := by
  simp only [getShortIntFromBytes, le_value_apart bytes src offset n other 2 apart]

theorem get_char_apart (bytes src : Buf) (offset n other : Nat)
    (apart : other + 1 ≤ offset ∨ offset + n ≤ other) :
    getCharFromBytes (memcpy bytes offset src n) other = getCharFromBytes bytes other := by
  simp only [getCharFromBytes, le_value_apart bytes src offset n other 1 apart]

theorem get_short_agree (n : Nat) (a b : Buf) (offset : Nat) (agree : Agree n a b) (inside : offset + 2 ≤ n) :
    getShortIntFromBytes a offset = getShortIntFromBytes b offset := by
  have same := le_value_congr a b offset 2 (fun i _ high => agree i (by omega))
  simp only [getShortIntFromBytes, same]

theorem get_char_agree (n : Nat) (a b : Buf) (offset : Nat) (agree : Agree n a b) (inside : offset + 1 ≤ n) :
    getCharFromBytes a offset = getCharFromBytes b offset := by
  have same := le_value_congr a b offset 1 (fun i _ high => agree i (by omega))
  simp only [getCharFromBytes, same]

end EpochReplication
