import Mathlib.Data.Int.Log
import Mathlib.Data.Rat.Floor
import Mathlib.Tactic.FieldSimp
import Mathlib.Tactic.Positivity

/-!
# Binary rounding of rationals

A finite binary floating-point number is an integer below `2 ^ precision` times a power
of two. Every operation rounds its exact result to the nearest such number, ties going
to the even integer. Infinities are not represented.
-/

namespace Quagga.Foundation

open Int

/-- The nearest integer, the even one of two equally near. -/
def nearestEven (value : ℚ) : ℤ :=
  let below := ⌊value⌋
  if value - below < 1 / 2 then below
  else if 1 / 2 < value - below then below + 1
  else if below % 2 = 0 then below
  else below + 1

/-- The exponent of the last place of the format at a value. -/
def lastPlace (precision : ℕ) (lowest : ℤ) (value : ℚ) : ℤ :=
  max (Int.log 2 |value| + 1 - precision) lowest

def roundBinary (precision : ℕ) (lowest : ℤ) (value : ℚ) : ℚ :=
  let place := lastPlace precision lowest value
  nearestEven (value / 2 ^ place) * 2 ^ place

def binary32 : ℚ → ℚ := roundBinary 24 (-149)

def truncate (value : ℚ) : ℤ := value.num.tdiv value.den

@[simp] theorem nearestEven_intCast (value : ℤ) : nearestEven value = value := by
  simp [nearestEven]

@[simp] theorem truncate_intCast (value : ℤ) : truncate value = value := by
  simp [truncate]

theorem truncate_of_nonneg {value : ℚ} (nonnegative : 0 ≤ value) : truncate value = ⌊value⌋ := by
  rw [truncate, tdiv_eq_ediv_of_nonneg (Rat.num_nonneg.mpr nonnegative), Rat.floor_def']

theorem roundBinary_intCast (precision : ℕ) (lowest : ℤ) (whole : lowest ≤ 0) (value : ℤ)
    (fits : |value| < 2 ^ precision) : roundBinary precision lowest value = value := by
  rcases eq_or_ne value 0 with rfl | nonzero
  · simpa [roundBinary] using .inl (nearestEven_intCast 0)
  have positive : (0 : ℚ) < |(value : ℚ)| := by positivity
  have bounded : |(value : ℚ)| < ((2 : ℕ) : ℚ) ^ (precision : ℤ) := by
    exact_mod_cast fits
  have logarithm := (lt_zpow_iff_log_lt Nat.one_lt_two positive).mp bounded
  have grid : lastPlace precision lowest value ≤ 0 := max_le (by omega) whole
  -- At a place below the units the quotient is an integer again.
  rcases eq_ofNat_of_zero_le (neg_nonneg.mpr grid) with ⟨shift, places⟩
  have place : lastPlace precision lowest value = -(shift : ℤ) := by omega
  have quotient : (value : ℚ) / 2 ^ (-(shift : ℤ)) = ((value * 2 ^ shift : ℤ) : ℚ) := by
    simp
  simp only [roundBinary, place, quotient, nearestEven_intCast]
  push_cast
  rw [zpow_neg, zpow_natCast]
  field_simp

theorem binary32_intCast {value : ℤ} (fits : |value| < 2 ^ 24) : binary32 value = value :=
  roundBinary_intCast 24 (-149) (by decide) value fits

/-! ## Rounding keeps the order -/

theorem floor_le_nearestEven (value : ℚ) : ⌊value⌋ ≤ nearestEven value := by
  simp only [nearestEven]
  split_ifs <;> omega

theorem nearestEven_le_floor_add_one (value : ℚ) : nearestEven value ≤ ⌊value⌋ + 1 := by
  simp only [nearestEven]
  split_ifs <;> omega

theorem nearestEven_mono {lower upper : ℚ} (ordered : lower ≤ upper) :
    nearestEven lower ≤ nearestEven upper := by
  rcases (floor_mono ordered).lt_or_eq with apart | together
  · calc nearestEven lower ≤ ⌊lower⌋ + 1 := nearestEven_le_floor_add_one lower
      _ ≤ ⌊upper⌋ := apart
      _ ≤ nearestEven upper := floor_le_nearestEven upper
  · -- between the same two integers the larger value is not rounded further down
    simp only [nearestEven, together]
    split_ifs <;> first | omega | (exfalso; linarith)

section

variable {precision : ℕ} {lowest : ℤ} {value : ℚ}

theorem lastPlace_pos : (0 : ℚ) < 2 ^ lastPlace precision lowest value := zpow_pos two_pos _

theorem roundBinary_le {multiple : ℤ}
    (bound : value ≤ multiple * 2 ^ lastPlace precision lowest value) :
    roundBinary precision lowest value ≤ multiple * 2 ^ lastPlace precision lowest value := by
  have rounded := nearestEven_mono ((div_le_iff₀ lastPlace_pos).mpr bound)
  rw [nearestEven_intCast] at rounded
  exact mul_le_mul_of_nonneg_right (by exact_mod_cast rounded) lastPlace_pos.le

theorem le_roundBinary {multiple : ℤ}
    (bound : multiple * 2 ^ lastPlace precision lowest value ≤ value) :
    multiple * 2 ^ lastPlace precision lowest value ≤ roundBinary precision lowest value := by
  have rounded := nearestEven_mono ((le_div_iff₀ lastPlace_pos).mpr bound)
  rw [nearestEven_intCast] at rounded
  exact mul_le_mul_of_nonneg_right (by exact_mod_cast rounded) lastPlace_pos.le

theorem zpow_eq_multiple {exponent : ℤ} (coarse : lastPlace precision lowest value ≤ exponent) :
    ∃ multiple : ℤ, (2 : ℚ) ^ exponent = multiple * 2 ^ lastPlace precision lowest value := by
  rcases eq_ofNat_of_zero_le (sub_nonneg.mpr coarse) with ⟨shift, difference⟩
  refine ⟨2 ^ shift, ?_⟩
  have sum : exponent = shift + lastPlace precision lowest value := by omega
  rw [sum, zpow_add₀ two_ne_zero]
  simp

theorem roundBinary_nonneg (nonneg : 0 ≤ value) : 0 ≤ roundBinary precision lowest value := by
  have bound : ((0 : ℤ) : ℚ) * 2 ^ lastPlace precision lowest value ≤ value := by simpa
  simpa using le_roundBinary bound

theorem roundBinary_mono (precise : 1 ≤ precision) {lower upper : ℚ} (nonneg : 0 ≤ lower)
    (ordered : lower ≤ upper) :
    roundBinary precision lowest lower ≤ roundBinary precision lowest upper := by
  rcases nonneg.eq_or_lt with rfl | positive
  · have zero : roundBinary precision lowest 0 = 0 := by
      simpa [roundBinary] using Or.inl (nearestEven_intCast 0)
    rw [zero]
    exact roundBinary_nonneg ordered
  have upperPositive := positive.trans_le ordered
  have logarithms : log 2 |lower| ≤ log 2 |upper| := by
    rw [abs_of_pos positive, abs_of_pos upperPositive]
    exact log_mono_right positive ordered
  have places : lastPlace precision lowest lower ≤ lastPlace precision lowest upper := by
    simp only [lastPlace]
    omega
  rcases places.lt_or_eq with finer | same
  · -- a power of two lies between the two values, and on the grid of both
    have strict : log 2 |lower| + 1 ≤ log 2 |upper| ∧
        lastPlace precision lowest upper ≤ log 2 |upper| := by
      simp only [lastPlace] at finer ⊢
      omega
    rw [abs_of_pos positive, abs_of_pos upperPositive] at strict
    have below : lower ≤ 2 ^ log 2 upper := by
      calc lower ≤ ((2 : ℕ) : ℚ) ^ (log 2 lower + 1) :=
            (lt_zpow_succ_log_self Nat.one_lt_two lower).le
        _ ≤ 2 ^ log 2 upper := by
            exact zpow_le_zpow_right₀ one_le_two strict.1
    have above : (2 : ℚ) ^ log 2 upper ≤ upper := by
      simpa using zpow_log_le_self Nat.one_lt_two upperPositive
    rcases zpow_eq_multiple (places.trans strict.2) with ⟨lowerMultiple, lowerGrid⟩
    rcases zpow_eq_multiple strict.2 with ⟨upperMultiple, upperGrid⟩
    calc roundBinary precision lowest lower ≤ 2 ^ log 2 upper := by
          rw [lowerGrid] at below ⊢
          exact roundBinary_le below
      _ ≤ roundBinary precision lowest upper := by
          rw [upperGrid] at above ⊢
          exact le_roundBinary above
  · simp only [roundBinary, same]
    have unit : (0 : ℚ) < 2 ^ lastPlace precision lowest upper := lastPlace_pos
    have rounded := nearestEven_mono (div_le_div_of_nonneg_right ordered unit.le)
    exact mul_le_mul_of_nonneg_right (by exact_mod_cast rounded) unit.le

theorem roundBinary_ne_zero (precise : 1 ≤ precision) (whole : lowest ≤ 0) (large : 1 ≤ |value|) :
    roundBinary precision lowest value ≠ 0 := by
  have positive : 0 < |value| := lt_of_lt_of_le one_pos large
  have logarithm : 0 ≤ log 2 |value| := by
    have := log_mono_right (b := 2) one_pos large
    simpa using this
  have coarse : lastPlace precision lowest value ≤ log 2 |value| := by
    simp only [lastPlace]
    omega
  have below : (2 : ℚ) ^ log 2 |value| ≤ |value| := by
    simpa using zpow_log_le_self Nat.one_lt_two positive
  have unit : (0 : ℚ) < 2 ^ log 2 |value| := zpow_pos two_pos _
  rcases zpow_eq_multiple coarse with ⟨multiple, grid⟩
  rw [grid] at below unit
  rcases le_total 0 value with nonneg | nonpos
  · rw [abs_of_nonneg nonneg] at below
    exact (unit.trans_le (le_roundBinary below)).ne'
  · rw [abs_of_nonpos nonpos] at below
    have bound : value ≤ ((-multiple : ℤ) : ℚ) * 2 ^ lastPlace precision lowest value := by
      push_cast
      linarith
    have rounded := roundBinary_le bound
    push_cast at rounded
    intro zero
    linarith

end

theorem binary32_nonneg {value : ℚ} (nonneg : 0 ≤ value) : 0 ≤ binary32 value :=
  roundBinary_nonneg nonneg

theorem binary32_mono {lower upper : ℚ} (nonneg : 0 ≤ lower) (ordered : lower ≤ upper) :
    binary32 lower ≤ binary32 upper :=
  roundBinary_mono (by decide) nonneg ordered

theorem binary32_intCast_ne_zero {value : ℤ} (nonzero : value ≠ 0) : binary32 value ≠ 0 := by
  apply roundBinary_ne_zero (by decide) (by decide)
  exact_mod_cast one_le_abs nonzero

end Quagga.Foundation
