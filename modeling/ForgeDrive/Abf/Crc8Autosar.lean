/-
**The lookup table of the frame protocol is CRC-8/AUTOSAR** (`ABFStream.cpp`).

The standard reads a message bit by bit through a register of eight bits (`autosar`). The table
holds what each byte leaves of the division by the polynomial `0x2F` (`lookup_eq_divide`), which is
what the register does with eight zero bits (`toBitVec_lookup`). So the table-driven loop, with its
byte counter, computes the standard checksum of every string that its length argument can describe.
-/

import ForgeDrive.Abf.Crc8
import ForgeDrive.Library.ShiftRegister

namespace ForgeDrive.Abf

open Checksum (Exclusive checksum)
open ShiftRegister (Crc clock table bits)

/-! ### The standard -/

/-- CRC-8/AUTOSAR. -/
def crc8Autosar : Crc 8 where
  polynomial := 0x2F
  init := 0xFF
  xorOut := 0xFF

/-- CRC-8/AUTOSAR of a string of bytes, by its bit-serial definition. -/
def autosar (data : List UInt8) : UInt8 :=
  UInt8.ofBitVec (crc8Autosar.ofBits (data.flatMap fun byte => bits byte.toBitVec))

/-- The check value: the checksum of the digits `123456789`. -/
example : autosar [0x31, 0x32, 0x33, 0x34, 0x35, 0x36, 0x37, 0x38, 0x39] = 0xDF := by
  decide +kernel

/-! ### The table -/

/-- Exclusive or of bytes. -/
theorem xor_exclusive : Exclusive (fun a b : UInt8 => a ^^^ b) 0 where
  assoc := UInt8.xor_assoc
  comm := UInt8.xor_comm
  zero_op _ := UInt8.zero_xor
  self _ := UInt8.xor_self

/-- A table look-up. -/
def lookup (byte : UInt8) : UInt8 := crc8AutosarLut.get ⟨byte.toNat, UInt8.toNat_lt _⟩

/-- One step of the division by the generator polynomial `0x2F`. -/
def divideStep (crc : UInt8) : UInt8 :=
  if crc.toBitVec.msb then (crc <<< 1) ^^^ 0x2F else crc <<< 1

/-- The eight steps for a byte. -/
def divide (crc : UInt8) : UInt8 := divideStep^[8] crc

/-- **The table holds the remainders** of the division by the generator. -/
theorem lookup_eq_divide (byte : UInt8) : lookup byte = divide byte := by
  have table : crc8AutosarLut.toList = (List.range 256).map fun i => divide (UInt8.ofNat i) := by
    decide +kernel
  have entry : crc8AutosarLut.toList[byte.toNat]? = some (lookup byte) := by
    rw [List.getElem?_eq_getElem (by rw [Vector.length_toList]; exact UInt8.toNat_lt _)]
    exact congrArg some (Vector.getElem_toList _)
  rw [table, List.getElem?_map, List.getElem?_range (UInt8.toNat_lt _), Option.map_some,
    UInt8.ofNat_toNat] at entry
  exact (Option.some.inj entry).symm

/-- A step of the division is a zero bit. -/
theorem toBitVec_divideStep (crc : UInt8) :
    (divideStep crc).toBitVec = clock crc8Autosar.polynomial crc.toBitVec := by
  unfold divideStep clock ShiftRegister.feed
  rw [Bool.xor_false]
  split
  · rfl
  · rfl

theorem toBitVec_iterate (n : Nat) (crc : UInt8) :
    (divideStep^[n] crc).toBitVec = (clock crc8Autosar.polynomial)^[n] crc.toBitVec := by
  induction n with
  | zero => rfl
  | succ n ih =>
    rw [Function.iterate_succ_apply', Function.iterate_succ_apply', toBitVec_divideStep, ih]

/-- **An entry of the table** is what the register makes of its index with eight zero bits. -/
theorem toBitVec_lookup (byte : UInt8) :
    (lookup byte).toBitVec = table crc8Autosar.polynomial byte.toBitVec := by
  rw [lookup_eq_divide]
  exact toBitVec_iterate 8 byte

theorem lookup_xor (a b : UInt8) : lookup (a ^^^ b) = lookup a ^^^ lookup b := by
  apply UInt8.toBitVec_inj.mp
  rw [UInt8.toBitVec_xor, toBitVec_lookup, toBitVec_lookup, toBitVec_lookup, UInt8.toBitVec_xor]
  exact ShiftRegister.table_additive _ _ _

/-! ### Strings of bytes -/

/-- The checksum is a fold of additive look-ups. -/
theorem crc8Calculate_eq (data : List UInt8) :
    crc8Calculate data = checksum (fun a b => a ^^^ b) lookup 0xFF data ^^^ 0xFF := rfl

/-- The look-ups for a string, from a remainder on, are the table-driven register. -/
theorem toBitVec_checksum (crc : UInt8) (data : List UInt8) :
    (checksum (fun a b => a ^^^ b) lookup crc data).toBitVec =
      checksum (fun a b => a ^^^ b) (table crc8Autosar.polynomial) crc.toBitVec
        (data.map UInt8.toBitVec) := by
  induction data generalizing crc with
  | nil => rfl
  | cons byte data ih =>
    have next := toBitVec_lookup (crc ^^^ byte)
    rw [UInt8.toBitVec_xor] at next
    show (checksum _ lookup (lookup (crc ^^^ byte)) data).toBitVec = checksum _ _
      (table _ (crc.toBitVec ^^^ byte.toBitVec)) (data.map UInt8.toBitVec)
    rw [ih, next]

/-- **The table-driven checksum of a string of bytes is the bit-serial one.** -/
theorem crc8Calculate_eq_bitSerial (data : List UInt8) : crc8Calculate data = autosar data := by
  apply UInt8.toBitVec_inj.mp
  have bitwise : (data.flatMap fun byte => bits byte.toBitVec) =
      (data.map UInt8.toBitVec).flatMap bits := (List.flatMap_map _ _ _).symm
  unfold autosar
  rw [crc8Calculate_eq, UInt8.toBitVec_xor, toBitVec_checksum, bitwise,
    ShiftRegister.Crc.ofBits_flatMap]
  rfl

/-! ### The loop -/

theorem toNat_next {i len : UInt8} (below : i < len) : (i + 1).toNat = i.toNat + 1 := by
  have limit : len.toNat < 2 ^ 8 := UInt8.toNat_lt len
  have below' : i.toNat < len.toNat := UInt8.lt_iff_toNat_lt.mp below
  rw [UInt8.toNat_add]
  exact Nat.mod_eq_of_lt (show i.toNat + 1 < 2 ^ 8 by omega)

/-- The loop of `Stream::crc8Calculate`, from a counter and a remainder on. -/
def crc8Loop (data : Nat → UInt8) (len i crc : UInt8) : UInt8 :=
  if i < len then crc8Loop data len (i + 1) (lookup (crc ^^^ data i.toNat)) else crc
termination_by len.toNat - i.toNat
decreasing_by
  rename_i below
  have below' : i.toNat < len.toNat := UInt8.lt_iff_toNat_lt.mp below
  rw [toNat_next below]
  omega

/-- `Stream::crc8Calculate`. -/
def Stream.crc8Calculate (data : Nat → UInt8) (len : UInt8) : UInt8 :=
  crc8Loop data len 0 0xFF ^^^ 0xFF

/-- The loop reads the bytes from its counter to the length: the counter stays below the length and
does not wrap. -/
theorem crc8Loop_eq (data : Nat → UInt8) (len i crc : UInt8) :
    crc8Loop data len i crc = checksum (fun a b => a ^^^ b) lookup crc
      ((List.range' i.toNat (len.toNat - i.toNat)).map data) := by
  fun_induction crc8Loop data len i crc with
  | case1 i crc below ih =>
    have below' : i.toNat < len.toNat := UInt8.lt_iff_toNat_lt.mp below
    have turns : len.toNat - i.toNat = len.toNat - (i.toNat + 1) + 1 := by omega
    rw [ih, toNat_next below, turns, List.range'_succ]
    rfl
  | case2 i crc done =>
    have turns : len.toNat - i.toNat = 0 :=
      Nat.sub_eq_zero_of_le (Nat.le_of_not_lt fun below => done (UInt8.lt_iff_toNat_lt.mpr below))
    rw [turns]
    rfl

/-- The function reads the first `len` bytes. -/
theorem Stream.crc8Calculate_eq (data : Nat → UInt8) (len : UInt8) :
    Stream.crc8Calculate data len = Abf.crc8Calculate ((List.range len.toNat).map data) := by
  unfold Stream.crc8Calculate
  rw [crc8Loop_eq, Abf.crc8Calculate_eq, List.range_eq_range']
  rfl

/-- **`crc8Calculate` is CRC-8/AUTOSAR** of the `len` bytes at `data`, for every `len` from `0` to
`255`. -/
theorem Stream.crc8Calculate_eq_autosar (data : Nat → UInt8) (len : UInt8) :
    Stream.crc8Calculate data len = autosar ((List.range len.toNat).map data) := by
  rw [Stream.crc8Calculate_eq, crc8Calculate_eq_bitSerial]

end ForgeDrive.Abf
