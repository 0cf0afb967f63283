/-
**Residuals of the DAQ codec** (`DAQCodec.h`): second differences, zigzag numbers, and their bytes.

A channel is coded by the differences of its differences, in wrapping 16 bit arithmetic. A residual
is written as its zigzag number in one, two or three bytes.

* `dodDecode_dodEncode`, `unzigzag_zigzag` — both steps are undone exactly;
* `Misread` — the residuals whose two bytes begin with `240`, which the reader does not take for the
  first of two.
-/

import Mathlib.Data.List.Basic
import Mathlib.Tactic.Linarith

namespace ForgeDrive.Daq

/-! ### Differences -/

/-- `ChannelState`: `dod_state[0]` and `dod_state[1]`. -/
structure ChannelState where
  sample : Int16
  delta : Int16
  deriving DecidableEq, Repr

/-- `Writer::dod_encode`: the state of the channel, and the residual. -/
def dodEncode (state : ChannelState) (sample : Int16) : ChannelState × Int16 :=
  let delta := sample - state.sample
  let dod := delta - state.delta
  (⟨sample, delta⟩, dod)

/-- `Reader::dod_decode`: the state of the channel, and the sample. -/
def dodDecode (state : ChannelState) (dod : Int16) : ChannelState × Int16 :=
  let delta := dod + state.delta
  let sample := delta + state.sample
  (⟨sample, delta⟩, sample)

/-- **The reader undoes the differences.** -/
theorem dodDecode_dodEncode (state : ChannelState) (sample : Int16) :
    dodDecode state (dodEncode state sample).2 = ((dodEncode state sample).1, sample) := by
  simp only [dodDecode, dodEncode, Int16.sub_add_cancel]

/-! ### Zigzag numbers -/

/-- `VIRTUAL_BITS_START`. -/
def virtualBitsStart : UInt8 := 240

/-- `VIRTUAL_BITS_END`. -/
def virtualBitsEnd : UInt8 := 247

/-- `Escape::LARGE16`. -/
def large16 : UInt8 := 0xFE

/-- `(uint16_t)dod_val >> 15`. -/
def sign (dod : Int16) : UInt16 := dod.toUInt16 >>> 15

/-- `sign ? -dod_val : dod_val`. -/
def mag (dod : Int16) : UInt16 := if sign dod ≠ 0 then 0 - dod.toUInt16 else dod.toUInt16

/-- `(mag << 1) - sign`. -/
def zigzag (dod : Int16) : UInt16 := (mag dod <<< 1) - sign dod

/-- The bytes pushed for a residual. -/
def residualBytes (dod : Int16) : List UInt8 :=
  let zz := zigzag dod
  if (mag dod).toNat < virtualBitsStart.toNat / 2 then [zz.toUInt8]
  else
    let highBits := (zz >>> 8).toUInt8
    if highBits < 8 then [virtualBitsStart + highBits, zz.toUInt8]
    else [large16, highBits, zz.toUInt8]

/-- `Reader::unzigzag`. -/
def unzigzag (val : UInt16) : Int16 := ((val >>> 1) ^^^ (0 - (val &&& 1))).toInt16

/-- Two bytes as a 16 bit number, `high << 8 | low`. -/
def word (high low : UInt8) : UInt16 := high.toUInt16 <<< 8 ||| low.toUInt16

theorem sign_toNat (dod : Int16) : (sign dod).toNat = dod.toUInt16.toNat / 32768 := by
  rw [sign, UInt16.toNat_shiftRight, Nat.shiftRight_eq_div_pow]
  rfl

theorem mag_toNat (dod : Int16) : (mag dod).toNat =
    if dod.toUInt16.toNat < 32768 then dod.toUInt16.toNat else 65536 - dod.toUInt16.toNat := by
  have bound := dod.toUInt16.toNat_lt
  have signed := sign_toNat dod
  have zero : (0 : UInt16).toNat = 0 := rfl
  unfold mag
  split
  case isTrue negative =>
    have signNat : (sign dod).toNat ≠ 0 := fun same => negative (UInt16.toNat_inj.mp same)
    rw [if_neg (by omega), UInt16.toNat_sub, zero]
    omega
  case isFalse positive =>
    have signNat : (sign dod).toNat = 0 := by rw [not_not.mp positive]; rfl
    rw [if_pos (by omega)]

theorem zigzag_toNat (dod : Int16) : (zigzag dod).toNat =
    if dod.toUInt16.toNat < 32768 then 2 * dod.toUInt16.toNat
    else 131071 - 2 * dod.toUInt16.toNat := by
  have bound := dod.toUInt16.toNat_lt
  have signed := sign_toNat dod
  have magnitude := mag_toNat dod
  have shifted : (mag dod <<< 1).toNat = 2 * (mag dod).toNat % 65536 := by
    rw [UInt16.toNat_shiftLeft, Nat.shiftLeft_eq]
    show (mag dod).toNat * 2 % 65536 = _
    rw [Nat.mul_comm]
  rw [zigzag, UInt16.toNat_sub, shifted]
  split at magnitude
  case isTrue small =>
    have plus : (sign dod).toNat = 0 := by omega
    rw [if_pos small, plus, magnitude]
    omega
  case isFalse large =>
    have minus : (sign dod).toNat = 1 := by omega
    rw [if_neg large, minus, magnitude]
    omega

theorem unzigzag_toUInt16 (val : UInt16) : (unzigzag val).toUInt16.toNat =
    if val.toNat % 2 = 0 then val.toNat / 2 else 65535 - val.toNat / 2 := by
  have bound := val.toNat_lt
  have low : (val &&& 1).toNat = val.toNat % 2 := by
    rw [UInt16.toNat_and]
    exact Nat.and_one_is_mod _
  have half : (val >>> 1).toNat = val.toNat / 2 := by
    rw [UInt16.toNat_shiftRight]
    exact Nat.shiftRight_eq_div_pow _ 1
  have back : (unzigzag val).toUInt16 = (val >>> 1) ^^^ (0 - (val &&& 1)) :=
    UInt16.toUInt16_toInt16 _
  rw [back]
  split
  case isTrue even =>
    have zero : val &&& 1 = 0 := UInt16.toNat_inj.mp (low.trans even)
    rw [zero, UInt16.sub_zero, UInt16.xor_zero, half]
  case isFalse odd =>
    have one : val &&& 1 = 1 := UInt16.toNat_inj.mp (low.trans (by show _ = 1; omega))
    have ones : (0 : UInt16) - 1 = -1 := rfl
    rw [one, ones, UInt16.xor_neg_one, UInt16.toNat_not, half]
    rfl

/-- **The reader undoes the zigzag.** -/
theorem unzigzag_zigzag (dod : Int16) : unzigzag (zigzag dod) = dod := by
  have bound := dod.toUInt16.toNat_lt
  have zz := zigzag_toNat dod
  have back := unzigzag_toUInt16 (zigzag dod)
  have same : (unzigzag (zigzag dod)).toUInt16 = dod.toUInt16 := by
    rw [← UInt16.toNat_inj, back, zz]
    split <;> split <;> omega
  exact congrArg UInt16.toInt16 same

/-! ### Bytes -/

theorem word_toNat (high low : UInt8) : (word high low).toNat = 256 * high.toNat + low.toNat := by
  have highBound := high.toNat_lt
  have lowBound := low.toNat_lt
  have shifted : (high.toUInt16 <<< 8).toNat = high.toNat <<< 8 := by
    rw [UInt16.toNat_shiftLeft, UInt8.toNat_toUInt16, Nat.shiftLeft_eq, Nat.shiftLeft_eq]
    show high.toNat * 256 % 65536 = high.toNat * 256
    omega
  rw [word, UInt16.toNat_or, shifted, UInt8.toNat_toUInt16,
    ← Nat.shiftLeft_add_eq_or_of_lt lowBound, Nat.shiftLeft_eq, Nat.mul_comm]

/-- The two bytes of a number. -/
theorem high_toNat (value : UInt16) : (value >>> 8).toUInt8.toNat = value.toNat / 256 := by
  have bound := value.toNat_lt
  rw [UInt16.toNat_toUInt8, UInt16.toNat_shiftRight, Nat.shiftRight_eq_div_pow]
  show value.toNat / 256 % 256 = _
  omega

theorem word_bytes (value : UInt16) : word (value >>> 8).toUInt8 value.toUInt8 = value := by
  rw [← UInt16.toNat_inj, word_toNat, high_toNat, UInt16.toNat_toUInt8]
  omega

/-- The residuals that are written as `240` and a low byte. -/
def Misread (dod : Int16) : Prop := 239 ≤ (zigzag dod).toNat ∧ (zigzag dod).toNat < 256

instance (dod : Int16) : Decidable (Misread dod) := inferInstanceAs (Decidable (_ ∧ _))

/-- As numbers: `-128 … -120` and `120 … 127`. -/
theorem misread_iff (dod : Int16) : Misread dod ↔
    (-128 ≤ dod.toInt ∧ dod.toInt ≤ -120) ∨ (120 ≤ dod.toInt ∧ dod.toInt ≤ 127) := by
  have zz := zigzag_toNat dod
  have bound := dod.toUInt16.toNat_lt
  have value : dod.toInt = if 2 * dod.toUInt16.toNat < 65536 then (dod.toUInt16.toNat : Int)
      else (dod.toUInt16.toNat : Int) - 65536 := BitVec.toInt_eq_toNat_cond _
  unfold Misread
  split at zz <;> split at value <;> omega

/-- The ways a residual is written, and its number in the bytes. -/
inductive Written (dod : Int16) : Prop
  | one (byte : UInt8) (bytes : residualBytes dod = [byte]) (small : byte.toNat < 240)
      (value : byte.toUInt16 = zigzag dod)
  | two (high low : UInt8) (bytes : residualBytes dod = [virtualBitsStart + high, low])
      (positive : 0 < high.toNat) (small : high.toNat < 8) (value : word high low = zigzag dod)
  | three (high low : UInt8) (bytes : residualBytes dod = [large16, high, low])
      (value : word high low = zigzag dod)

theorem written {dod : Int16} (clear : ¬ Misread dod) : Written dod := by
  have bound := dod.toUInt16.toNat_lt
  have zz := zigzag_toNat dod
  have magnitude := mag_toNat dod
  have half : virtualBitsStart.toNat / 2 = 120 := rfl
  have eight : (8 : UInt8).toNat = 8 := rfl
  have high := high_toNat (zigzag dod)
  have zzLt : 120 ≤ (mag dod).toNat → 239 ≤ (zigzag dod).toNat := by
    intro large
    split at zz <;> split at magnitude <;> omega
  unfold Misread at clear
  by_cases small : (mag dod).toNat < 120
  · have zzSmall : (zigzag dod).toNat < 240 := by split at zz <;> split at magnitude <;> omega
    have byte : (zigzag dod).toUInt8.toNat = (zigzag dod).toNat := by
      rw [UInt16.toNat_toUInt8]
      omega
    refine .one (zigzag dod).toUInt8 ?_ (byte.trans_lt zzSmall) ?_
    · rw [residualBytes, half, if_pos small]
    · rw [← UInt16.toNat_inj, UInt8.toNat_toUInt16, byte]
  · by_cases virtual : (zigzag dod >>> 8).toUInt8 < 8
    · have virtualNat := UInt8.lt_iff_toNat_lt.mp virtual
      refine .two (zigzag dod >>> 8).toUInt8 (zigzag dod).toUInt8 ?_ (by omega) (by omega)
        (word_bytes _)
      rw [residualBytes, half, if_neg small, if_pos virtual]
    · refine .three (zigzag dod >>> 8).toUInt8 (zigzag dod).toUInt8 ?_ (word_bytes _)
      rw [residualBytes, half, if_neg small, if_neg virtual]

end ForgeDrive.Daq
