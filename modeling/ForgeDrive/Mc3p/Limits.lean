/-
**The limits of the duties** (`driver/stm32f4/fd_mc3p.c`, `PmsmControl/PmsmControl.cpp`).

`fd_mc3p_write_phase_duty` is to saturate each duty to `[duty_min_q15, duty_max_q15]` and to scale it
to the period. `SATURATE` takes a duty below the lower limit to zero instead.

* `Driver.compare_mono` — a larger duty never gets a smaller compare value;
* `Driver.saturated_iff` — a duty is saturated exactly if it is not below the lower limit, or if the
  lower limit is less than one count of the timer;
* `Core.configured_run` — what every accepted configuration makes of the limits stays so, whatever is
  called;
* `saturates_iff` — so for all three ways to write the bridge.
-/

import Mathlib.Algebra.Order.Ring.Nat
import ForgeDrive.Mc3p.Trigger

namespace ForgeDrive.Mc3p

/-! ### One duty -/

/-- The compare value of a duty in `[duty_min_q15, duty_max_q15]`. -/
def Driver.scaled (d : Driver) (q15 : Nat) : Nat := q15 * d.timerMax.toNat / 2 ^ 15

/-- A duty saturated to `[duty_min_q15, duty_max_q15]`. -/
def Driver.clamp (d : Driver) (duty : Int16) : Nat :=
  (max (d.dutyMin.toNat : Int) (min d.dutyMax.toNat duty.toInt)).toNat

/-- **The compare value is that of the saturated duty**, and between those of the limits. -/
def Driver.Saturated (d : Driver) (duty : Int16) (ccr : UInt32) : Prop :=
  ccr.toNat = d.scaled (d.clamp duty) ∧
    d.scaled d.dutyMin.toNat ≤ ccr.toNat ∧ ccr.toNat ≤ d.scaled d.dutyMax.toNat

/-- The duty is not below the lower limit, or that is less than one count of the timer. -/
def Driver.Above (d : Driver) (duty : Int16) : Prop :=
  d.dutyMin.toNat ≤ duty.toInt ∨ d.dutyMin.toNat * d.timerMax.toNat < 2 ^ 15

/-- The limits are in order, and the period is that of a timer of 16 bits. -/
structure Driver.Limited (d : Driver) : Prop where
  ordered : d.dutyMin.toNat ≤ d.dutyMax.toNat
  short : d.timerMax.toNat < 2 ^ 16

section Duty

variable {d : Driver} {duty other : Int16}

theorem saturate_nonneg (value : Int) (min max : UInt16) :
    0 ≤ saturate value min max ∧ saturate value min max ≤ max.toNat := by
  unfold saturate
  split_ifs <;> omega

/-- The product of a duty and a period of 16 bits has 32 bits. -/
theorem Driver.compare_toNat (short : d.timerMax.toNat < 2 ^ 16) (duty : Int16) :
    (d.compare duty).toNat = d.scaled (saturate duty.toInt d.dutyMin d.dutyMax).toNat := by
  obtain ⟨nonneg, small⟩ := saturate_nonneg duty.toInt d.dutyMin d.dutyMax
  have limit := d.dutyMax.toNat_lt
  unfold Driver.compare Driver.scaled
  generalize saturate duty.toInt d.dutyMin d.dutyMax = q15 at nonneg small ⊢
  have word : (UInt32.ofInt q15).toNat = q15.toNat := by
    show (UInt32.ofNat (q15 % 2 ^ 32).toNat).toNat = _
    rw [UInt32.toNat_ofNat']
    omega
  have product : q15.toNat * d.timerMax.toNat ≤ 65535 * 65535 :=
    Nat.mul_le_mul (by omega) (by omega)
  rw [UInt32.toNat_shiftRight, UInt32.toNat_mul, word, Nat.shiftRight_eq_div_pow]
  rw [Nat.mod_eq_of_lt (show q15.toNat * d.timerMax.toNat < 2 ^ 32 by omega)]
  rfl

theorem Driver.scaled_mono {first second : Nat} (le : first ≤ second) :
    d.scaled first ≤ d.scaled second := Nat.div_le_div_right (Nat.mul_le_mul_right _ le)

/-- `SATURATE` does not turn the order of two values around. -/
theorem saturate_mono {first second : Int} (le : first ≤ second) (min max : UInt16) :
    saturate first min max ≤ saturate second min max := by
  unfold saturate
  split_ifs <;> omega

/-- **A larger duty never gets a smaller compare value.** -/
theorem Driver.compare_mono (short : d.timerMax.toNat < 2 ^ 16) (le : duty ≤ other) :
    d.compare duty ≤ d.compare other := by
  rw [UInt32.le_iff_toNat_le, compare_toNat short, compare_toNat short]
  exact scaled_mono (Int.toNat_le_toNat
    (saturate_mono (Int16.le_iff_toInt_le.mp le) _ _))

/-- Below the lower limit a duty is taken to zero, and else it is saturated. -/
theorem saturate_eq (d : Driver) (limited : d.Limited) (duty : Int16) :
    (saturate duty.toInt d.dutyMin d.dutyMax).toNat =
      if duty.toInt < d.dutyMin.toNat then 0 else d.clamp duty := by
  have ordered := limited.ordered
  unfold saturate Driver.clamp
  split_ifs <;> omega

/-- **A duty is saturated exactly if it is not below the lower limit**, or if that is less than one
count of the timer. -/
theorem Driver.saturated_iff (limited : d.Limited) (duty : Int16) :
    d.Saturated duty (d.compare duty) ↔ d.Above duty := by
  have ordered := limited.ordered
  have bounds : d.dutyMin.toNat ≤ d.clamp duty ∧ d.clamp duty ≤ d.dutyMax.toNat := by
    unfold Driver.clamp
    omega
  rw [Saturated, compare_toNat limited.short, saturate_eq d limited, Above]
  by_cases below : duty.toInt < d.dutyMin.toNat
  · have low : d.clamp duty = d.dutyMin.toNat := by
      unfold Driver.clamp
      omega
    have zero : d.scaled 0 = 0 := by
      unfold Driver.scaled
      rw [Nat.zero_mul, Nat.zero_div]
    have none_ : d.scaled d.dutyMin.toNat = 0 ↔ d.dutyMin.toNat * d.timerMax.toNat < 2 ^ 15 :=
      Nat.div_eq_zero_iff_lt (by decide)
    rw [if_pos below, low, zero, or_iff_right (Int.not_le.mpr below), ← none_]
    constructor
    · exact fun ⟨same, _⟩ => same.symm
    · exact fun same => ⟨same.symm, Nat.le_of_eq same, Nat.zero_le _⟩
  · rw [if_neg below]
    exact iff_of_true ⟨rfl, scaled_mono bounds.1, scaled_mono bounds.2⟩ (Or.inl (Int.not_lt.mp below))

end Duty

/-! ### Writing the bridge -/

/-- The compare values written are those of the duties `u`, `v` and `w`, saturated. -/
def Driver.WritesSaturated (d : Driver) (u v w : Int16) : Prop :=
  d.Saturated u d.ccr1 ∧ d.Saturated v d.ccr2 ∧ d.Saturated w d.ccr3

/-- The compare values are those of the duties of the handle. -/
def Driver.Carries (d : Driver) : Prop :=
  d.ccr1 = d.compare d.dutyU ∧ d.ccr2 = d.compare d.dutyV ∧ d.ccr3 = d.compare d.dutyW

theorem Driver.Limited.same {d d' : Driver} (limited : d.Limited) (same : d.SameLimits d') :
    d'.Limited := by
  obtain ⟨dutyMin, dutyMax, timerMax⟩ := same
  refine ⟨?_, ?_⟩
  · rw [dutyMin, dutyMax]
    exact limited.ordered
  · rw [timerMax]
    exact limited.short

section Writes

variable {d : Driver}

theorem Driver.writesSaturated_iff (limited : d.Limited) (u v w : Int16) :
    (d.writePhaseDuty u v w).WritesSaturated u v w ↔ d.Above u ∧ d.Above v ∧ d.Above w :=
  and_congr (saturated_iff limited u) (and_congr (saturated_iff limited v) (saturated_iff limited w))

/-- **A bridge that carries the duties of the handle** has them saturated if none is too low. -/
theorem Driver.Carries.saturated_iff (carries : d.Carries) (limited : d.Limited) :
    d.WritesSaturated d.dutyU d.dutyV d.dutyW ↔ d.Above d.dutyU ∧ d.Above d.dutyV ∧
      d.Above d.dutyW := by
  obtain ⟨ccr1, ccr2, ccr3⟩ := carries
  rw [WritesSaturated, ccr1, ccr2, ccr3, Driver.saturated_iff limited, Driver.saturated_iff limited,
    Driver.saturated_iff limited]

theorem Driver.writeSvm_carries (d : Driver) (alpha beta : Int16) :
    (d.writeSvm alpha beta).Carries := by
  unfold Driver.writeSvm
  split_ifs <;> exact ⟨rfl, rfl, rfl⟩

theorem Driver.writeTrap_carries (d : Driver) {sector : Sector} (isTrap : sector.isTrap = true)
    (duty : UInt16) : (d.writeTrap sector duty).Carries := by
  cases sector <;> first | exact absurd isTrap (by decide) | exact ⟨rfl, rfl, rfl⟩

end Writes

/-! ### Under an accepted configuration -/

section Configured

variable {Number : Type} [LinearOrder Number] {p : Platform Number} {cfg : ConfigPwm Number}

/-- What the checks of `configPwm` say of the limits. -/
theorem ConfigPwm.check_ok (accepted : cfg.check p = .ok) :
    p.zero ≤ cfg.dutyMin ∧ cfg.dutyMin ≤ cfg.dutyMax ∧ cfg.dutyMax ≤ p.maxDuty := by
  unfold ConfigPwm.check at accepted
  split_ifs at accepted with frequency deadtime largest least order
  exact ⟨le_of_not_gt fun low => least (Or.inl low), le_of_not_gt order,
    le_of_not_gt fun high => largest (Or.inr high)⟩

/-- `(uint16_t)(duty * 0x7FFF)` does not turn the order of two duties around that can be limits. -/
def Platform.KeepsOrder (p : Platform Number) : Prop :=
  ∀ x y, p.zero ≤ x → x ≤ y → y ≤ p.maxDuty →
    (p.conversions.dutyQ15 x).toNat ≤ (p.conversions.dutyQ15 y).toNat

/-- **An accepted configuration** puts the limits in order. -/
theorem Core.limited_configPwm (keepsOrder : p.KeepsOrder) (s : Core Number)
    (accepted : cfg.check p = .ok) :
    (s.configPwm p cfg).1.mc3p.Limited := by
  obtain ⟨least, ordered, largest⟩ := ConfigPwm.check_ok accepted
  rw [Core.configPwm, accepted]
  refine ⟨keepsOrder _ _ least ordered largest, ?_⟩
  show (p.reload cfg.pwmFreqHz).toUInt32.toNat < 2 ^ 16
  rw [UInt16.toNat_toUInt32]
  exact UInt16.toNat_lt _

/-- **What every accepted configuration makes of the limits** holds from the first one on, whatever
is called. -/
theorem Core.configured_run {motive : Driver → Prop}
    (configured : ∀ (s : Core Number) (cfg : ConfigPwm Number), cfg.check p = .ok →
      motive (s.configPwm p cfg).1.mc3p)
    (same : ∀ d d', d.SameLimits d' → motive d → motive d')
    (s : Core Number) (accepted : cfg.check p = .ok) (calls : List (ControlCall Number)) :
    motive (calls.foldl (Core.step p) (s.configPwm p cfg).1).mc3p := by
  refine List.foldlRecOn calls (Core.step p) (motive := fun s => motive s.mc3p)
    (configured s cfg accepted) fun s holds call _ => ?_
  cases call with
  | driver call => exact same _ _ (s.mc3p.call_sameLimits call) holds
  | configPwm cfg =>
    show motive (s.configPwm p cfg).1.mc3p
    cases checked : cfg.check p with
    | ok => exact configured s cfg checked
    | _ =>
      rw [Core.configPwm, checked]
      exact holds

/-- **The duties are saturated to the limits** exactly if none of them is below the lower limit, or
if that is less than one count of the timer: by `fd_mc3p_write_phase_duty`, and so by the three
functions that call it; and they are never turned around. -/
theorem saturates_iff (keepsOrder : p.KeepsOrder) (s : Core Number)
    (accepted : cfg.check p = .ok) (calls : List (ControlCall Number)) :
    let d := (calls.foldl (Core.step p) (s.configPwm p cfg).1).mc3p
    (∀ u v w, (d.writePhaseDuty u v w).WritesSaturated u v w ↔
      d.Above u ∧ d.Above v ∧ d.Above w) ∧
    (∀ alpha beta, let after := d.writeSvm alpha beta
      after.WritesSaturated after.dutyU after.dutyV after.dutyW ↔
        after.Above after.dutyU ∧ after.Above after.dutyV ∧ after.Above after.dutyW) ∧
    (∀ sector duty, sector.isTrap = true → let after := d.writeTrap sector duty
      after.WritesSaturated after.dutyU after.dutyV after.dutyW ↔
        after.Above after.dutyU ∧ after.Above after.dutyV ∧ after.Above after.dutyW) ∧
    (d.writeFloat.WritesSaturated 0 0 0 ↔ d.Above 0) ∧
    ∀ duty other, duty ≤ other → d.compare duty ≤ d.compare other := by
  intro d
  have limited : d.Limited := Core.configured_run (fun s _ => Core.limited_configPwm keepsOrder s)
    (fun _ _ same limited => limited.same same) s accepted calls
  refine ⟨Driver.writesSaturated_iff limited, fun alpha beta => ?_, fun sector duty isTrap => ?_,
    ?_, fun _ _ => Driver.compare_mono limited.short⟩
  · exact (d.writeSvm_carries alpha beta).saturated_iff
      (limited.same (d.writeSvm_sameLimits alpha beta))
  · exact (d.writeTrap_carries isTrap duty).saturated_iff
      (limited.same (d.writeTrap_sameLimits sector duty))
  · exact (Driver.writesSaturated_iff limited 0 0 0).trans
      ⟨fun all => all.1, fun above => ⟨above, above, above⟩⟩

end Configured

/-- On the board limits in thousandths keep their order. -/
theorem board_keepsOrder : board.KeepsOrder := by
  intro x y _ le small
  have largest : y ≤ 950 := small
  show (UInt16.ofNat (x * 32767 / 1000)).toNat ≤ (UInt16.ofNat (y * 32767 / 1000)).toNat
  have order : x * 32767 / 1000 ≤ y * 32767 / 1000 :=
    Nat.div_le_div_right (Nat.mul_le_mul_right _ le)
  have word : y * 32767 / 1000 < 2 ^ 16 := by omega
  rw [UInt16.toNat_ofNat', UInt16.toNat_ofNat', Nat.mod_eq_of_lt word,
    Nat.mod_eq_of_lt (lt_of_le_of_lt order word)]
  exact order

/-- With a lower limit of a twentieth, duties above it: the last is above the upper limit as well. -/
theorem saturates_board :
    ((slow.configPwm board ⟨8000, 1000, 50, 950⟩).1.mc3p.writePhaseDuty 2000 16384
      32767).WritesSaturated 2000 16384 32767 :=
  ((saturates_iff board_keepsOrder slow
    (show ConfigPwm.check ⟨8000, 1000, 50, 950⟩ board = .ok by decide) []).1 2000 16384 32767).mpr
    ⟨Or.inl (by decide), Or.inl (by decide), Or.inl (by decide)⟩

/-- **A duty below the lower limit is not saturated**: with a lower limit of a twentieth, half of the
phases of a vector, and the bridge that floats, are driven with zero. -/
theorem not_saturates :
    ConfigPwm.check ⟨8000, 1000, 50, 950⟩ board = .ok ∧
      ¬ (slow.configPwm board ⟨8000, 1000, 50, 950⟩).1.mc3p.writeFloat.WritesSaturated 0 0 0 ∧
      let after := (slow.configPwm board ⟨8000, 1000, 50, 950⟩).1.mc3p.writeSvm 32767 0
      ¬ after.WritesSaturated after.dutyU after.dutyV after.dutyW := by
  refine ⟨by decide, ?_, ?_⟩
  · exact fun saturated => absurd saturated.1.1 (by decide)
  · exact fun saturated => absurd saturated.2.1.1 (by decide)

end ForgeDrive.Mc3p
