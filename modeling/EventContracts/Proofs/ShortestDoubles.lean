import EventContracts.Proofs.DecimalDigits
import Mathlib.Algebra.Order.Field.Power
import Mathlib.Tactic.Linarith
import Mathlib.Tactic.NormNum
import Mathlib.Tactic.Positivity

/-! The shortest digits of a double lie among the numbers that round to it. The search for them
succeeds, because a grid whose steps are smaller than half the distance to the next double has a
point there; and no number rounds to two doubles, so the digits tell which double it is. -/

namespace EventContracts

namespace Double

/-- Whether a double is in the unique form of its format. -/
structure Regular (d : Double) : Prop where
  most : d.mantissa < 2 ^ 53
  least : d.mantissa < 2 ^ 52 → d.exponent = leastExponent
  exponent : leastExponent ≤ d.exponent

/-- How far down the numbers that round to a double go, in units of its last place. -/
def reach (d : Double) : ℚ :=
  if d.mantissa = 2 ^ 52 ∧ d.exponent > leastExponent then 1 / 4 else 1 / 2

/-- Whether a magnitude rounds to a double. Both ends belong to the interval when the significand is
even. -/
def RoundsFrom (d : Double) (x : ℚ) : Prop :=
  let low := ((d.mantissa : ℚ) - d.reach) * 2 ^ d.exponent
  let high := ((d.mantissa : ℚ) + 1 / 2) * 2 ^ d.exponent
  if d.mantissa % 2 = 0 then low ≤ x ∧ x ≤ high else low < x ∧ x < high

variable {d e : Double} {x : ℚ}

lemma reach_le (d : Double) : d.reach ≤ 1 / 2 := by
  rw [reach]
  split <;> norm_num

lemma reach_pos (d : Double) : 0 < d.reach := by
  rw [reach]
  split <;> norm_num

lemma RoundsFrom.bounds (rounds : d.RoundsFrom x) :
    ((d.mantissa : ℚ) - d.reach) * 2 ^ d.exponent ≤ x ∧
      x ≤ ((d.mantissa : ℚ) + 1 / 2) * 2 ^ d.exponent := by
  rw [RoundsFrom] at rounds
  split at rounds
  · exact rounds
  · exact ⟨rounds.1.le, rounds.2.le⟩

/-- The order of doubles: by the exponent, and then by the significand. -/
def Before (d e : Double) : Prop :=
  d.exponent < e.exponent ∨ d.exponent = e.exponent ∧ d.mantissa < e.mantissa

/-- The intervals of two doubles have at most an end in common, and then one of the significands is
odd. -/
lemma Before.apart (before : d.Before e) (regular : d.Regular) (also : e.Regular) :
    ((d.mantissa : ℚ) + 1 / 2) * 2 ^ d.exponent ≤ ((e.mantissa : ℚ) - e.reach) * 2 ^ e.exponent ∧
      (((d.mantissa : ℚ) + 1 / 2) * 2 ^ d.exponent =
          ((e.mantissa : ℚ) - e.reach) * 2 ^ e.exponent →
        ¬(d.mantissa % 2 = 0 ∧ e.mantissa % 2 = 0)) := by
  have unit : (0 : ℚ) < 2 ^ d.exponent := by positivity
  rcases before with exponents | ⟨exponents, mantissas⟩
  · have large : 2 ^ 52 ≤ e.mantissa := by
      by_contra small
      have := also.least (by omega)
      have := regular.exponent
      omega
    have twice : (2 : ℚ) * 2 ^ d.exponent ≤ 2 ^ e.exponent := by
      rw [← zpow_one_add₀ (by norm_num)]
      exact zpow_le_zpow_right₀ (by norm_num) (by omega)
    have most : (d.mantissa : ℚ) + 1 / 2 ≤ 2 ^ 53 - 1 / 2 := by
      have : d.mantissa + 1 ≤ 2 ^ 53 := regular.most
      have : (d.mantissa : ℚ) + 1 ≤ 2 ^ 53 := by exact_mod_cast this
      linarith
    have least : (2 : ℚ) ^ 53 - 1 / 2 ≤ 2 * ((e.mantissa : ℚ) - e.reach) := by
      have big : (2 : ℚ) ^ 52 ≤ e.mantissa := by exact_mod_cast large
      rw [reach]
      split
      · linarith
      · rename_i other
        have : 2 ^ 52 + 1 ≤ e.mantissa := by
          have := regular.exponent
          by_contra least
          exact other ⟨by omega, by omega⟩
        have : (2 : ℚ) ^ 52 + 1 ≤ e.mantissa := by exact_mod_cast this
        linarith
    have nonneg : 0 ≤ (e.mantissa : ℚ) - e.reach := by linarith
    have step : ((e.mantissa : ℚ) - e.reach) * (2 * 2 ^ d.exponent) ≤
        ((e.mantissa : ℚ) - e.reach) * 2 ^ e.exponent := mul_le_mul_of_nonneg_left twice nonneg
    have first : ((d.mantissa : ℚ) + 1 / 2) * 2 ^ d.exponent ≤
        (2 * ((e.mantissa : ℚ) - e.reach)) * 2 ^ d.exponent :=
      mul_le_mul_of_nonneg_right (most.trans least) unit.le
    refine ⟨by linarith, ?_⟩
    rintro same ⟨even, -⟩
    -- an end in common leaves no room, so the significand of the earlier one is the largest
    have tight : (2 * ((e.mantissa : ℚ) - e.reach)) * 2 ^ d.exponent ≤
        ((d.mantissa : ℚ) + 1 / 2) * 2 ^ d.exponent := by linarith
    have : (2 : ℚ) ^ 53 - 1 / 2 ≤ (d.mantissa : ℚ) + 1 / 2 :=
      least.trans (le_of_mul_le_mul_right tight unit)
    have : (2 : ℚ) ^ 53 ≤ (d.mantissa : ℚ) + 1 := by linarith
    have : 2 ^ 53 ≤ d.mantissa + 1 := by exact_mod_cast this
    have := regular.most
    omega
  · rw [exponents]
    have unit : (0 : ℚ) < 2 ^ e.exponent := by positivity
    have next : (d.mantissa : ℚ) + 1 ≤ e.mantissa := by exact_mod_cast mantissas
    have half := reach_le e
    refine ⟨mul_le_mul_of_nonneg_right (by linarith) unit.le, ?_⟩
    rintro same ⟨even, too⟩
    have same := mul_right_cancel₀ unit.ne' same
    have : (e.mantissa : ℚ) ≤ d.mantissa + 1 := by linarith
    have : e.mantissa ≤ d.mantissa + 1 := by exact_mod_cast this
    omega

lemma Before.not_both (before : d.Before e) (regular : d.Regular) (also : e.Regular)
    (rounds : d.RoundsFrom x) (other : e.RoundsFrom x) : False := by
  obtain ⟨apart, ends⟩ := before.apart regular also
  obtain ⟨-, high⟩ := rounds.bounds
  obtain ⟨low, -⟩ := other.bounds
  refine ends (by linarith) ⟨?_, ?_⟩
  · by_contra odd
    rw [RoundsFrom, if_neg odd] at rounds
    linarith [rounds.2]
  · by_contra odd
    rw [RoundsFrom, if_neg odd] at other
    linarith [other.1]

/-- A number rounds to one double, apart from the sign. -/
theorem RoundsFrom.unique (regular : d.Regular) (also : e.Regular) (rounds : d.RoundsFrom x)
    (other : e.RoundsFrom x) : d.mantissa = e.mantissa ∧ d.exponent = e.exponent := by
  by_contra differ
  have ordered : d.Before e ∨ e.Before d := by
    simp only [Before]
    omega
  rcases ordered with before | before
  · exact before.not_both regular also rounds other
  · exact before.not_both also regular other rounds

end Double

namespace Double

lemma scaleRatio_eq (num den : Nat) (power : Int) :
    ((scaleRatio num den power).1 : ℚ) / (scaleRatio num den power).2 =
      (num : ℚ) / den * 2 ^ power := by
  rw [scaleRatio]
  split
  · rename_i nonneg
    have : (power.toNat : Int) = power := Int.toNat_of_nonneg nonneg
    conv_rhs => rw [← this, zpow_natCast]
    simp only [Nat.pow_eq]
    push_cast
    ring
  · rename_i negative
    have : -((-power).toNat : Int) = power := by omega
    conv_rhs => rw [← this, zpow_neg, zpow_natCast]
    simp only [Nat.pow_eq]
    push_cast
    rw [div_mul_eq_div_div, div_eq_mul_inv _ ((2 : ℚ) ^ _)]

lemma scaleRatio_pos {num den : Nat} (positive : 0 < num) (also : 0 < den) (power : Int) :
    0 < (scaleRatio num den power).1 ∧ 0 < (scaleRatio num den power).2 := by
  rw [scaleRatio]
  split
  · exact ⟨Nat.mul_pos positive (Nat.pow_pos (by omega)), also⟩
  · exact ⟨positive, Nat.mul_pos also (Nat.pow_pos (by omega))⟩

end Double

namespace Digits

open Number

namespace Interval

variable {i : Interval} {n : Nat} {power : Int}

/-- Whether a number lies between the ends of an interval, or on them if they belong to it. -/
def Holds (i : Interval) (x : ℚ) : Prop :=
  if i.closed then (i.lower : ℚ) / i.den ≤ x ∧ x ≤ (i.upper : ℚ) / i.den
  else (i.lower : ℚ) / i.den < x ∧ x < (i.upper : ℚ) / i.den

/-- The comparisons of a grid point with a bound, over a common denominator. -/
lemma compare_point (den : Nat) (positive : 0 < den) (n bound : Nat) (power : Int) :
    let a := if power ≥ 0 then n * Nat.pow 10 power.toNat * den else n * den
    let unit := if power ≥ 0 then 1 else Nat.pow 10 (-power).toNat
    (bound * unit ≤ a ↔ (bound : ℚ) / den ≤ n * 10 ^ power) ∧
      (a ≤ bound * unit ↔ (n : ℚ) * 10 ^ power ≤ (bound : ℚ) / den) := by
  intro a unit
  have divisor : (0 : ℚ) < den := by exact_mod_cast positive
  have unit_pos : (0 : ℚ) < unit := by
    simp only [unit]
    split
    · norm_num
    · simp only [Nat.pow_eq]
      positivity
  have same : (n : ℚ) * 10 ^ power * (den * unit) = (a : ℚ) := by
    simp only [a, unit]
    split
    · rename_i nonneg
      have : (power.toNat : Int) = power := Int.toNat_of_nonneg nonneg
      conv_lhs => rw [← this, zpow_natCast]
      simp only [Nat.pow_eq]
      push_cast
      ring
    · have tenth : (10 : ℚ) ^ power = ((10 : ℚ) ^ (-power).toNat)⁻¹ := by
        rw [← zpow_natCast, ← zpow_neg]
        congr 1
        omega
      rw [tenth]
      simp only [Nat.pow_eq]
      push_cast
      have : (10 : ℚ) ^ (-power).toNat ≠ 0 := by positivity
      field_simp
  have bound_eq : (bound : ℚ) / den * (den * unit) = ((bound * unit : Nat) : ℚ) := by
    push_cast
    field_simp
  have scale : (0 : ℚ) < den * unit := mul_pos divisor unit_pos
  constructor
  · rw [← mul_le_mul_iff_of_pos_right scale, same, bound_eq, Nat.cast_le]
  · rw [← mul_le_mul_iff_of_pos_right scale, same, bound_eq, Nat.cast_le]

lemma contains_iff (positive : 0 < i.den) :
    i.contains n power = true ↔ i.Holds (n * 10 ^ power) := by
  obtain ⟨low, above⟩ := compare_point i.den positive n i.lower power
  obtain ⟨below, high⟩ := compare_point i.den positive n i.upper power
  rw [contains, Holds]
  split
  · simp only [decide_eq_true_eq]
    exact and_congr low high
  · simp only [decide_eq_true_eq, ← not_le]
    exact and_congr (not_congr above) (not_congr below)

lemma best?_holds (positive : 0 < i.den) (h : i.best? power = some n) :
    i.Holds (n * 10 ^ power) ∧ n ≠ 0 := by
  rw [best?] at h
  rcases neighbour : i.neighbour power with ⟨below, side⟩
  rw [neighbour] at h
  dsimp only at h
  have low (fits : (i.contains below power && below != 0) = true) :
      i.Holds (below * 10 ^ power) ∧ below ≠ 0 := by
    simp only [Bool.and_eq_true, bne_iff_ne] at fits
    exact ⟨(contains_iff positive).mp fits.1, fits.2⟩
  have high (fits : i.contains (below + 1) power = true) :
      i.Holds ((below + 1 : Nat) * 10 ^ power) ∧ below + 1 ≠ 0 :=
    ⟨(contains_iff positive).mp fits, by omega⟩
  split at h
  · cases h
  · obtain rfl := Option.some.inj h
    exact low ‹_›
  · obtain rfl := Option.some.inj h
    exact high ‹_›
  · split at h
    · obtain rfl := Option.some.inj h
      exact low ‹_›
    · obtain rfl := Option.some.inj h
      exact high ‹_›
    · obtain rfl := Option.some.inj h
      split
      · exact low ‹_›
      · exact high ‹_›

lemma search_holds (positive : 0 < i.den) (fuel : Nat) (start : Int)
    (found : ∃ steps < fuel, (i.best? (start - steps)).isSome) :
    i.Holds ((search i fuel start).1 * 10 ^ (search i fuel start).2) ∧
      (search i fuel start).1 ≠ 0 := by
  induction fuel generalizing start with
  | zero =>
    obtain ⟨steps, none, -⟩ := found
    omega
  | succ fuel ih =>
    rw [search]
    split
    · exact best?_holds positive ‹_›
    · rename_i missing
      obtain ⟨steps, few, found⟩ := found
      refine ih (start - 1) ⟨steps - 1, ?_, ?_⟩
      all_goals
        have some_step : steps ≠ 0 := by
          rintro rfl
          simp [missing] at found
      · omega
      · have : start - 1 - ((steps - 1 : Nat) : Int) = start - steps := by omega
        rw [this]
        exact found

variable (power) in
/-- The value lies between its two neighbours on a grid. -/
lemma neighbour_around (positive : 0 < i.den) :
    ((i.neighbour power).1 : ℚ) * 10 ^ power ≤ (i.value : ℚ) / i.den ∧
      (i.value : ℚ) / i.den < ((i.neighbour power).1 + 1 : Nat) * 10 ^ power := by
  obtain ⟨-, above⟩ := compare_point i.den positive (i.neighbour power).1 i.value power
  obtain ⟨-, next⟩ := compare_point i.den positive ((i.neighbour power).1 + 1) i.value power
  rw [← above, ← not_le, ← next, not_le]
  simp only [neighbour]
  split
  · have unit : 0 < i.den * Nat.pow 10 power.toNat :=
      Nat.mul_pos positive (Nat.pow_pos (by omega))
    have parts := Nat.div_add_mod i.value (i.den * Nat.pow 10 power.toNat)
    have small := Nat.mod_lt i.value unit
    generalize i.value / (i.den * Nat.pow 10 power.toNat) = q at parts ⊢
    have product : q * Nat.pow 10 power.toNat * i.den = i.den * Nat.pow 10 power.toNat * q := by
      ring
    have further : (q + 1) * Nat.pow 10 power.toNat * i.den =
        i.den * Nat.pow 10 power.toNat * q + i.den * Nat.pow 10 power.toNat := by ring
    rw [product, further]
    omega
  · have parts := Nat.div_add_mod (i.value * Nat.pow 10 (-power).toNat) i.den
    have small := Nat.mod_lt (i.value * Nat.pow 10 (-power).toNat) positive
    generalize i.value * Nat.pow 10 (-power).toNat / i.den = q at parts ⊢
    have product : q * i.den = i.den * q := by ring
    have further : (q + 1) * i.den = i.den * q + i.den := by ring
    rw [product, further]
    omega

/-- A grid whose steps are shorter than the way up has a point in the interval. -/
lemma best?_of_fine (positive : 0 < i.den) (rises : i.lower ≤ i.value)
    (fine : (10 : ℚ) ^ power < ((i.upper : ℚ) - i.value) / i.den) :
    (i.best? power).isSome := by
  rcases neighbour : i.neighbour power with ⟨below, side⟩
  have divisor : (0 : ℚ) < i.den := by exact_mod_cast positive
  have step : (0 : ℚ) < 10 ^ power := by positivity
  obtain ⟨low, next⟩ := neighbour_around power positive
  rw [neighbour] at low next
  have fits : i.Holds ((below + 1 : Nat) * 10 ^ power) := by
    have least : (i.lower : ℚ) / i.den ≤ (i.value : ℚ) / i.den := by
      have : (i.lower : ℚ) ≤ i.value := by exact_mod_cast rises
      exact div_le_div_of_nonneg_right this divisor.le
    have most : ((below + 1 : Nat) : ℚ) * 10 ^ power < (i.upper : ℚ) / i.den := by
      rw [sub_div] at fine
      push_cast
      push_cast at low
      linarith
    rw [Holds]
    split
    · exact ⟨(least.trans_lt next).le, most.le⟩
    · exact ⟨least.trans_lt next, most⟩
  rw [best?, neighbour]
  dsimp only
  rw [(contains_iff positive).mpr fits]
  cases i.contains below power && below != 0
  · rfl
  · cases side <;> rfl

variable {d : Double}

variable (d) in
lemma den_interval : 0 < (interval d).den :=
  (Double.scaleRatio_pos (by omega) (by omega) d.exponent).2

/-- The interval of a double is made of the numbers that round to it. -/
lemma holds_interval {x : ℚ} (positive : d.mantissa ≠ 0) (holds : (interval d).Holds x) :
    d.RoundsFrom x := by
  have quarter := Double.scaleRatio_eq 1 4 d.exponent
  have divisor : ((Double.scaleRatio 1 4 d.exponent).2 : ℚ) ≠ 0 := by
    exact_mod_cast (Double.scaleRatio_pos (by omega) (by omega) d.exponent).2.ne'
  have scaled (n : Nat) : ((n * (Double.scaleRatio 1 4 d.exponent).1 : Nat) : ℚ) /
      (Double.scaleRatio 1 4 d.exponent).2 = (n : ℚ) / 4 * 2 ^ d.exponent := by
    push_cast
    rw [mul_div_assoc, quarter]
    push_cast
    ring
  have low : ((interval d).lower : ℚ) / (interval d).den =
      ((d.mantissa : ℚ) - d.reach) * 2 ^ d.exponent := by
    simp only [interval]
    rw [scaled]
    congr 1
    rw [Double.reach]
    have power : Nat.pow 2 52 = 2 ^ 52 := rfl
    by_cases narrow : d.mantissa = 2 ^ 52 ∧ d.exponent > Double.leastExponent
    · rw [if_pos narrow, if_pos (by simpa [power] using narrow), Nat.cast_sub (by omega)]
      push_cast
      ring
    · rw [if_neg narrow, if_neg (by simpa [power] using narrow), Nat.cast_sub (by omega)]
      push_cast
      ring
  have high : ((interval d).upper : ℚ) / (interval d).den =
      ((d.mantissa : ℚ) + 1 / 2) * 2 ^ d.exponent := by
    simp only [interval]
    rw [scaled]
    congr 1
    push_cast
    ring
  rw [Holds, low, high] at holds
  rw [Double.RoundsFrom]
  by_cases even : d.mantissa % 2 = 0
  · rw [if_pos (by simp [interval, even])] at holds
    rw [if_pos even]
    exact holds
  · rw [if_neg (by simp [interval, even])] at holds
    rw [if_neg even]
    exact holds

/-- The bound of the search is at most two places above the value. -/
lemma pointBound_le (positive : 0 < i.den) (also : 0 < i.value) :
    (10 : ℚ) ^ (i.pointBound - 2) < (i.value : ℚ) / i.den := by
  have size_value : 0 < (Nat.toDigits 10 i.value).length := Nat.length_toDigits_pos
  have size_den : 0 < (Nat.toDigits 10 i.den).length := Nat.length_toDigits_pos
  have least : 10 ^ ((Nat.toDigits 10 i.value).length - 1) ≤ i.value := by
    by_cases single : (Nat.toDigits 10 i.value).length = 1
    · rw [single]
      exact also
    · by_contra less
      have := (Nat.length_toDigits_le_iff (by omega) (by omega)).mpr (Nat.lt_of_not_le less)
      omega
  have most : i.den < 10 ^ (Nat.toDigits 10 i.den).length :=
    (Nat.length_toDigits_le_iff (by omega) size_den).mp le_rfl
  have divisor : (0 : ℚ) < i.den := by exact_mod_cast positive
  rw [lt_div_iff₀ divisor, pointBound]
  have exponent :
      ((Nat.toDigits 10 i.value).length : Int) - (Nat.toDigits 10 i.den).length + 1 - 2 =
        (((Nat.toDigits 10 i.value).length - 1 : Nat) : Int) - (Nat.toDigits 10 i.den).length := by
    omega
  rw [exponent, zpow_sub₀ (by norm_num), zpow_natCast, zpow_natCast]
  have ten : (0 : ℚ) < 10 ^ (Nat.toDigits 10 i.den).length := by positivity
  calc (10 : ℚ) ^ ((Nat.toDigits 10 i.value).length - 1) /
        10 ^ (Nat.toDigits 10 i.den).length * i.den
      < (10 : ℚ) ^ ((Nat.toDigits 10 i.value).length - 1) /
        10 ^ (Nat.toDigits 10 i.den).length * 10 ^ (Nat.toDigits 10 i.den).length := by
          refine mul_lt_mul_of_pos_left ?_ (by positivity)
          exact_mod_cast most
    _ = 10 ^ ((Nat.toDigits 10 i.value).length - 1) := div_mul_cancel₀ _ ten.ne'
    _ ≤ i.value := by exact_mod_cast least

/-- Seventeen digits suffice: half the distance to the next double is more than the value divided
by `10^17`. -/
lemma best?_interval (regular : d.Regular) (positive : d.mantissa ≠ 0) :
    ((interval d).best? ((interval d).pointBound - (19 : Nat))).isSome := by
  have num : 0 < (Double.scaleRatio 1 4 d.exponent).1 :=
    (Double.scaleRatio_pos (by omega) (by omega) d.exponent).1
  have value : 0 < (interval d).value := by
    simp only [interval]
    exact Nat.mul_pos (by omega) num
  refine best?_of_fine (den_interval d) ?_ ?_
  · simp only [interval]
    refine Nat.mul_le_mul_right _ ?_
    split <;> omega
  have bound := pointBound_le (den_interval d) value
  have divisor : (0 : ℚ) < (interval d).den := by exact_mod_cast den_interval d
  have width : ((interval d).upper : ℚ) - (interval d).value =
      (interval d).value / (2 * d.mantissa) := by
    have : (d.mantissa : ℚ) ≠ 0 := by exact_mod_cast positive
    simp only [interval]
    push_cast
    field_simp
    ring
  have digits : (2 : ℚ) * d.mantissa ≤ 10 ^ 17 := by
    have : (d.mantissa : ℚ) ≤ 2 ^ 53 := by exact_mod_cast regular.most.le
    linarith
  have twice : (0 : ℚ) < 2 * d.mantissa := by
    have : 0 < d.mantissa := Nat.pos_of_ne_zero positive
    positivity
  have split : (10 : ℚ) ^ ((interval d).pointBound - (19 : Nat)) =
      10 ^ ((interval d).pointBound - 2) / 10 ^ 17 := by
    rw [← zpow_natCast (10 : ℚ) 17, ← zpow_sub₀ (by norm_num)]
    congr 1
    push_cast
    ring
  rw [split, width, div_right_comm]
  calc (10 : ℚ) ^ ((interval d).pointBound - 2) / 10 ^ 17
      < ((interval d).value : ℚ) / (interval d).den / 10 ^ 17 := by
        exact div_lt_div_of_pos_right bound (by positivity)
    _ ≤ ((interval d).value : ℚ) / (interval d).den / (2 * d.mantissa) := by
        exact div_le_div_of_nonneg_left (by positivity) twice digits

end Interval

variable {d : Double}

/-- Dropping zeros at the end does not change a decimal. -/
lemma number_ofNat (n : Nat) (power : Int) :
    number ⟨trimZeros (ofNat n), power + (ofNat n).length⟩ = n * 10 ^ power := by
  obtain ⟨count, length, digits⟩ := ofDigits_trimZeros (ofNat n)
  rw [ofDigits_ofNat] at digits
  have shift : power + (ofNat n).length - (trimZeros (ofNat n)).length = count + power := by
    omega
  rw [number, shift, zpow_add₀ (by norm_num), zpow_natCast, ← mul_assoc]
  congr 1
  exact_mod_cast digits.symm

/-- The shortest digits of a double round to it. -/
theorem shortest_rounds (regular : d.Regular) : d.RoundsFrom (shortest d).number := by
  rw [shortest]
  split
  · rename_i zero
    have unit : (0 : ℚ) < 2 ^ d.exponent := by positivity
    have := Double.reach_pos d
    rw [Double.RoundsFrom, zero, if_pos rfl]
    simp only [number, ofDigits]
    constructor
    · norm_num
      positivity
    · norm_num
      exact unit.le
  · rename_i positive
    obtain ⟨holds, -⟩ := Interval.search_holds (Interval.den_interval d) 20
      (interval d).pointBound ⟨19, by omega, Interval.best?_interval regular positive⟩
    rw [number_ofNat]
    exact Interval.holds_interval positive holds

lemma shortest_decimal (d : Double) : Decimal (shortest d).digits := by
  rw [shortest]
  split
  · simp [Decimal]
  · exact decimal_trimZeros (decimal_ofNat _)

lemma shortest_nonempty (regular : d.Regular) : (shortest d).digits ≠ [] := by
  rw [shortest]
  split
  · simp
  · rename_i positive
    obtain ⟨-, nonzero⟩ := Interval.search_holds (Interval.den_interval d) 20
      (interval d).pointBound ⟨19, by omega, Interval.best?_interval regular positive⟩
    intro empty
    obtain ⟨count, -, digits⟩ := ofDigits_trimZeros
      (ofNat (search (interval d) 20 (interval d).pointBound).1)
    dsimp only at empty
    rw [empty, ofDigits_ofNat] at digits
    exact nonzero (by simpa using digits)

end Digits

end EventContracts
