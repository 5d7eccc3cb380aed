import Mathlib.Data.Nat.Log
import Mathlib.Tactic.Linarith

/- A number is rounded to its leading bits, a tie to the even side. Products of doubles are rounded so. -/

namespace NimbleBrain.Library.Rounding

/-- How many units are nearest to the value. A tie goes to the even count. -/
def nearest (unit value : Nat) : Nat :=
  if 2 * (value % unit) < unit ∨ 2 * (value % unit) = unit ∧ value / unit % 2 = 0 then value / unit
  else value / unit + 1

/-- The place value of the last bit that is kept. -/
def lastUnit (bits value : Nat) : Nat := 2 ^ (Nat.log 2 value + 1 - bits)

def roundBits (bits value : Nat) : Nat := nearest (lastUnit bits value) value * lastUnit bits value

variable {unit low high value : Nat}

theorem nearest_between (unit value : Nat) : value / unit ≤ nearest unit value ∧ nearest unit value ≤ value / unit + 1 := by
  unfold nearest
  split <;> omega

theorem nearest_mono (below : low ≤ high) : nearest unit low ≤ nearest unit high := by
  rcases (Nat.div_le_div_right (c := unit) below).lt_or_eq with less | same
  · have first := (nearest_between unit low).2
    have second := (nearest_between unit high).1
    omega
  · have rest : low % unit ≤ high % unit := by
      have lowParts := Nat.div_add_mod low unit
      have highParts := Nat.div_add_mod high unit
      rw [same] at lowParts
      omega
    unfold nearest
    rw [same]
    split <;> split <;> omega

/-- Rounding moves a value by half a unit at most. -/
theorem nearest_close (positive : 0 < unit) (value : Nat) : 2 * (nearest unit value * unit) ≤ 2 * value + unit := by
  have parts := Nat.div_add_mod value unit
  have rest := Nat.mod_lt value positive
  have scaled : value / unit * unit = unit * (value / unit) := Nat.mul_comm _ _
  unfold nearest
  split
  · omega
  · rw [Nat.add_mul]
    omega

theorem nearest_one (value : Nat) : nearest 1 value = value := by
  simp [nearest, Nat.mod_one]

variable {bits : Nat}

theorem lastUnit_pos (bits value : Nat) : 0 < lastUnit bits value := Nat.two_pow_pos _

/-- A value within the bits is kept. -/
theorem roundBits_small (positive : 0 < bits) (small : value < 2 ^ bits) : roundBits bits value = value := by
  have unit : lastUnit bits value = 1 := by
    have bound : Nat.log 2 value < bits := Nat.log_lt_of_lt_pow' positive.ne' small
    rw [lastUnit, show Nat.log 2 value + 1 - bits = 0 by omega, Nat.pow_zero]
  rw [roundBits, unit, nearest_one, Nat.mul_one]

/-- Values with less leading bits round below the power of two between them. -/
theorem roundBits_mono (positive : 0 < bits) (below : low ≤ high) : roundBits bits low ≤ roundBits bits high := by
  have logs : Nat.log 2 low ≤ Nat.log 2 high := Nat.log_mono_right below
  rcases Nat.lt_or_ge (Nat.log 2 low + 1 - bits) (Nat.log 2 high + 1 - bits) with less | more
  · have lowBound : low < 2 ^ bits * lastUnit bits low := by
      refine (Nat.lt_pow_succ_log_self Nat.one_lt_two low).trans_le ?_
      rw [lastUnit, ← Nat.pow_add]
      exact Nat.pow_le_pow_right (by omega) (by omega)
    have highBound : 2 ^ (bits - 1) * lastUnit bits high ≤ high := by
      have some : high ≠ 0 := by
        rintro rfl
        rw [Nat.log_zero_right] at less
        omega
      refine le_trans ?_ (Nat.pow_log_le_self 2 some)
      rw [lastUnit, ← Nat.pow_add]
      exact Nat.pow_le_pow_right (by omega) (by omega)
    have between : 2 ^ bits * lastUnit bits low ≤ 2 ^ (bits - 1) * lastUnit bits high := by
      unfold lastUnit
      rw [← Nat.pow_add, ← Nat.pow_add]
      exact Nat.pow_le_pow_right (by omega) (by omega)
    have first : roundBits bits low ≤ 2 ^ bits * lastUnit bits low := by
      refine Nat.mul_le_mul_right _ ((nearest_between _ low).2.trans ?_)
      exact Nat.div_lt_of_lt_mul (by rwa [Nat.mul_comm] at lowBound)
    have second : 2 ^ (bits - 1) * lastUnit bits high ≤ roundBits bits high := by
      refine Nat.mul_le_mul_right _ (le_trans ?_ (nearest_between _ high).1)
      exact (Nat.le_div_iff_mul_le (lastUnit_pos bits high)).mpr highBound
    exact first.trans (between.trans second)
  · have same : lastUnit bits low = lastUnit bits high := by
      unfold lastUnit
      rw [show Nat.log 2 low + 1 - bits = Nat.log 2 high + 1 - bits by omega]
    unfold roundBits
    rw [same]
    exact Nat.mul_le_mul_right _ (nearest_mono below)

/-- Rounding up moves a value by less than its last bit. -/
theorem roundBits_close (positive : 0 < bits) (value : Nat) : roundBits bits value * 2 ^ bits ≤ value * (2 ^ bits + 1) := by
  rcases Nat.lt_or_ge value (2 ^ bits) with small | large
  · rw [roundBits_small positive small]
    exact Nat.mul_le_mul_left _ (Nat.le_succ _)
  · have some : value ≠ 0 := (Nat.two_pow_pos bits |>.trans_le large).ne'
    have bound : bits ≤ Nat.log 2 value := (Nat.le_log_iff_pow_le Nat.one_lt_two some).mpr large
    have unit : lastUnit bits value * 2 ^ bits ≤ 2 * value := by
      rw [lastUnit, ← Nat.pow_add, show Nat.log 2 value + 1 - bits + bits = Nat.log 2 value + 1 by omega, Nat.pow_succ]
      have power := Nat.pow_log_le_self 2 some
      omega
    have close := Nat.mul_le_mul_right (2 ^ bits) (nearest_close (lastUnit_pos bits value) value)
    rw [Nat.add_mul] at close
    unfold roundBits
    nlinarith

end NimbleBrain.Library.Rounding
