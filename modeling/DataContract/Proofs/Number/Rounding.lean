/-
# Rounding to the nearest number

What a quotient is rounded to depends on its rational value alone. The value lies
between two powers of two, which fixes the exponent, and its distance to a mantissa at
that exponent decides which one is taken. So every rational number within half a gap of
a normalised number is rounded to it, also where the number begins a new power of two
and the gap below it is half of the gap above.
-/

import DataContract.Proofs.Number.Exact
import Mathlib.Tactic.Linarith
import Mathlib.Tactic.Positivity
import Mathlib.Tactic.Ring
import Mathlib.Tactic.NormNum
import Mathlib.Tactic.FieldSimp
import Mathlib.Algebra.Order.Field.Rat

set_option autoImplicit false

namespace DataContract.Binary64

open Extended (cast_twoPow)

/-! ### Quotients of natural numbers -/

/-- A mantissa within half of a quotient is what the quotient is rounded to; at exactly
half only an even one is. -/
theorem roundQuotient_eq {num den m : Nat} (positive : 0 < den)
    (low : 2 * (m * den) ≤ 2 * num + den) (high : 2 * num ≤ 2 * (m * den) + den)
    (strict : m % 2 = 1 → 2 * (m * den) ≠ 2 * num + den ∧ 2 * num ≠ 2 * (m * den) + den) :
    roundQuotient num den = m := by
  have whole : num = num / den * den + num % den := by
    rw [Nat.mul_comm]
    exact (Nat.div_add_mod num den).symm
  have part : num % den < den := Nat.mod_lt _ positive
  have most : num / den < m + 1 := by
    rw [Nat.div_lt_iff_lt_mul positive, Nat.add_mul]
    omega
  have least : m < num / den + 2 := by
    by_contra above
    have : (num / den + 2) * den ≤ m * den := Nat.mul_le_mul_right den (by omega)
    rw [Nat.add_mul] at this
    omega
  rw [roundQuotient]
  rcases (by omega : num / den = m ∨ num / den + 1 = m) with floor | floor
  · rw [floor] at whole ⊢
    simp only [show ¬den < 2 * (num % den) by omega, if_false]
    split
    · rfl
    · have even : m % 2 = 0 := by
        by_contra odd
        exact (strict (by omega)).2 (by omega)
      rw [even]
      rfl
  · have product : m * den = num / den * den + den := by rw [← floor, Nat.add_mul, Nat.one_mul]
    simp only [show ¬2 * (num % den) < den by omega, if_false]
    split
    · exact floor
    · have even : m % 2 = 0 := by
        by_contra odd
        exact (strict (by omega)).1 (by omega)
      omega

/-- A quotient divided by a power, as a quotient. -/
def perPower (base num den : Nat) (e : Int) : Nat × Nat :=
  if 0 ≤ e then (num, den * base ^ e.toNat) else (num * base ^ (-e).toNat, den)

theorem perPower_pos {base num den : Nat} (hbase : 0 < base) (hden : 0 < den) (e : Int) :
    0 < (perPower base num den e).2 := by
  rw [perPower]
  split
  · exact Nat.mul_pos hden (Nat.pow_pos hbase)
  · exact hden

/-- A power with a natural exponent, as a rational number. -/
theorem cast_pow_toNat (base : Nat) {e : Int} (natural : 0 ≤ e) :
    ((base ^ e.toNat : Nat) : ℚ) = (base : ℚ) ^ e := by
  rw [Nat.cast_pow, ← zpow_natCast, Int.toNat_of_nonneg natural]

theorem cast_perPower (base num den : Nat) (e : Int) :
    ((perPower base num den e).1 : ℚ) / (perPower base num den e).2 =
      num / den / (base : ℚ) ^ e := by
  rw [perPower]
  split
  case isTrue natural => rw [Nat.cast_mul, cast_pow_toNat base natural, div_div]
  case isFalse negative =>
    rw [Nat.cast_mul, cast_pow_toNat base (by omega), zpow_neg, ← div_eq_mul_inv, div_right_comm]

/-- A number of bits, as a rational power of two. -/
theorem cast_twoPow_zpow (k : Nat) : ((twoPow k : Nat) : ℚ) = 2 ^ (k : Int) := by
  rw [cast_twoPow, zpow_natCast]

theorem twoPow_pos (k : Nat) : 0 < twoPow k := Nat.two_pow_pos k

/-! ### The exponent of a quotient -/

/-- An exponent at which a rational number has a mantissa of 53 bits, or the least one. -/
structure IsExponent (q : ℚ) (e : Int) : Prop where
  least : leastExponent ≤ e
  upper : q < 2 ^ (53 + e)
  lower : e = leastExponent ∨ 2 ^ (52 + e) ≤ q

/-- There is only one such exponent. -/
theorem IsExponent.unique {q : ℚ} {e f : Int} (he : IsExponent q e) (hf : IsExponent q f) :
    e = f := by
  have ordered {a b : Int} (ha : IsExponent q a) (hb : IsExponent q b) : b ≤ a := by
    by_contra less
    have filled : (2 : ℚ) ^ (52 + b) ≤ q := by
      rcases hb.lower with isLeast | filled
      · have := ha.least
        omega
      · exact filled
    have : (2 : ℚ) ^ (53 + a) ≤ 2 ^ (52 + b) := zpow_le_zpow_right₀ one_le_two (by omega)
    exact absurd (ha.upper.trans_le (this.trans filled)) (lt_irrefl q)
  exact le_antisymm (ordered hf he) (ordered he hf)

/-- The number of bits bounds a natural number. -/
theorem log2_bounds {n : Nat} (positive : 0 < n) :
    (2 : ℚ) ^ (n.log2 : Int) ≤ n ∧ (n : ℚ) < 2 ^ ((n.log2 : Int) + 1) := by
  constructor
  · rw [zpow_natCast]
    exact_mod_cast Nat.log2_self_le positive.ne'
  · have := @Nat.lt_log2_self n
    have power : (2 : ℚ) ^ ((n.log2 : Int) + 1) = ((2 ^ (n.log2 + 1) : Nat) : ℚ) := by
      rw [Nat.cast_pow, Nat.cast_ofNat, ← zpow_natCast, Nat.cast_add_one]
    rw [power]
    exact_mod_cast this

/-- A quotient lies within a factor of two of the quotient of the leading bits. -/
theorem quotient_bounds {num den : Nat} (hnum : 0 < num) (hden : 0 < den) :
    (2 : ℚ) ^ ((num.log2 : Int) - den.log2 - 1) < num / den ∧
      (num / den : ℚ) < 2 ^ ((num.log2 : Int) - den.log2 + 1) := by
  obtain ⟨numLow, numHigh⟩ := log2_bounds hnum
  obtain ⟨denLow, denHigh⟩ := log2_bounds hden
  have cast : (0 : ℚ) < den := by exact_mod_cast hden
  constructor
  · rw [lt_div_iff₀ cast]
    calc (2 : ℚ) ^ ((num.log2 : Int) - den.log2 - 1) * den
        < 2 ^ ((num.log2 : Int) - den.log2 - 1) * 2 ^ ((den.log2 : Int) + 1) :=
          mul_lt_mul_of_pos_left denHigh (by positivity)
      _ = 2 ^ (num.log2 : Int) := by
          rw [← zpow_add₀ two_ne_zero]
          congr 1
          omega
      _ ≤ num := numLow
  · rw [div_lt_iff₀ cast]
    calc (num : ℚ) < 2 ^ ((num.log2 : Int) + 1) := numHigh
      _ = 2 ^ ((num.log2 : Int) - den.log2 + 1) * 2 ^ (den.log2 : Int) := by
          rw [← zpow_add₀ two_ne_zero]
          congr 1
          omega
      _ ≤ 2 ^ ((num.log2 : Int) - den.log2 + 1) * den :=
          mul_le_mul_of_nonneg_left denLow (by positivity)

/-- The exponent before it is known whether the quotient fills one more bit. -/
def roughExponent (num den : Nat) : Int :=
  max ((num.log2 : Int) - den.log2 - 53) leastExponent

theorem mantissaExponent_eq (num den : Nat) :
    mantissaExponent num den =
      (let p := perPower 2 num den (roughExponent num den)
       if p.1 / p.2 < twoPow 53 then roughExponent num den else roughExponent num den + 1) := rfl

/-- The mantissa at an exponent has at most 53 bits exactly if the number is that small. -/
theorem perPower_lt_iff {num den : Nat} (hden : 0 < den) (e : Int) :
    (perPower 2 num den e).1 / (perPower 2 num den e).2 < twoPow 53 ↔
      (num / den : ℚ) < 2 ^ (53 + e) := by
  have positive : 0 < (perPower 2 num den e).2 := perPower_pos two_pos hden e
  have cast : (0 : ℚ) < (perPower 2 num den e).2 := by exact_mod_cast positive
  have bits : ((twoPow 53 : Nat) : ℚ) = 2 ^ (53 : Int) := cast_twoPow_zpow 53
  have scale : (0 : ℚ) < 2 ^ e := by positivity
  rw [Nat.div_lt_iff_lt_mul positive, ← Nat.cast_lt (α := ℚ), Nat.cast_mul, bits,
    ← div_lt_iff₀ cast, cast_perPower,
    Nat.cast_ofNat, div_lt_iff₀ scale, ← zpow_add₀ two_ne_zero]

theorem isExponent_mantissaExponent {num den : Nat} (hnum : 0 < num) (hden : 0 < den) :
    IsExponent (num / den) (mantissaExponent num den) := by
  obtain ⟨low, high⟩ := quotient_bounds hnum hden
  have most : (num / den : ℚ) < 2 ^ (54 + roughExponent num den) :=
    high.trans_le (zpow_le_zpow_right₀ one_le_two (by simp only [roughExponent]; omega))
  have least : leastExponent ≤ roughExponent num den := le_max_right _ _
  rw [mantissaExponent_eq]
  simp only [perPower_lt_iff hden]
  split
  case isTrue fits =>
    refine ⟨least, fits, ?_⟩
    rcases max_choice ((num.log2 : Int) - den.log2 - 53) leastExponent with isRough | isLeast
    · right
      refine le_trans (zpow_le_zpow_right₀ one_le_two ?_) low.le
      simp only [roughExponent, isRough]
      omega
    · exact .inl isLeast
  case isFalse above =>
    refine ⟨by omega, ?_, .inr ?_⟩
    · rwa [show 53 + (roughExponent num den + 1) = 54 + roughExponent num den by omega]
    · rw [show 52 + (roughExponent num den + 1) = 53 + roughExponent num den by omega]
      exact not_lt.1 above

/-! ### Numbers and what is near them -/

/-- A mantissa and an exponent of a positive number in its normal form: the mantissa
fills 53 bits unless the exponent is the least one. -/
structure Normal (m : Nat) (e : Int) : Prop where
  positive : 0 < m
  bits : m < twoPow 53
  least : leastExponent ≤ e
  greatest : e ≤ greatestExponent
  filled : twoPow 52 ≤ m ∨ e = leastExponent

/-- Half of the gap below a number, in quarters of the gap above it. -/
def halfGapBelow (m : Nat) (e : Int) : Nat := if m = twoPow 52 ∧ leastExponent < e then 1 else 2

/-- The rational numbers within half a gap of `m · 2 ^ e`, with the ends if the
mantissa is even. -/
structure Near (m : Nat) (e : Int) (q : ℚ) : Prop where
  low : (4 * m - halfGapBelow m e) * 2 ^ (e - 2) ≤ q
  high : q ≤ (4 * m + 2) * 2 ^ (e - 2)
  strict : m % 2 = 1 → (4 * m - halfGapBelow m e) * 2 ^ (e - 2) ≠ q ∧ q ≠ (4 * m + 2) * 2 ^ (e - 2)

theorem halfGapBelow_le_two (m : Nat) (e : Int) : halfGapBelow m e ≤ 2 := by
  rw [halfGapBelow]
  split <;> omega

/-- What is within half a gap, in units of the gap above. -/
theorem Near.scaled {m : Nat} {e : Int} {q : ℚ} (near : Near m e q) :
    (4 * m - halfGapBelow m e) / 4 ≤ q / 2 ^ e ∧ q / 2 ^ e ≤ (4 * m + 2) / 4 ∧
      (m % 2 = 1 → (4 * m - halfGapBelow m e) / 4 ≠ q / 2 ^ e ∧ q / 2 ^ e ≠ (4 * m + 2) / 4) := by
  have scale : (0 : ℚ) < 2 ^ e := by positivity
  have quarter (x : ℚ) : x * 2 ^ (e - 2) = x / 4 * 2 ^ e := by
    rw [zpow_sub₀ two_ne_zero]
    ring
  obtain ⟨low, high, strict⟩ := near
  rw [quarter] at low high strict
  rw [quarter] at strict
  refine ⟨(le_div_iff₀ scale).2 low, (div_le_iff₀ scale).2 high, fun odd => ?_⟩
  exact ⟨fun same => (strict odd).1 ((eq_div_iff scale.ne').1 same),
    fun same => (strict odd).2 ((div_eq_iff scale.ne').1 same)⟩

theorem Near.positive {m : Nat} {e : Int} {q : ℚ} (near : Near m e q) (positive : 0 < m) :
    0 < q := by
  have least : (1 : ℚ) ≤ m := by exact_mod_cast positive
  have gap : (halfGapBelow m e : ℚ) ≤ 2 := by exact_mod_cast halfGapBelow_le_two m e
  exact lt_of_lt_of_le (mul_pos (by linarith) (by positivity)) near.low

/-! ### What is near a number is rounded to it -/

/-- The mantissa that a rational number is rounded to, from its distance. -/
theorem roundQuotient_of_cast {num den m : Nat} (positive : 0 < den) {y : ℚ}
    (value : (num / den : ℚ) = y) (low : (4 * m - 2) / 4 ≤ y) (high : y ≤ (4 * m + 2) / 4)
    (strict : m % 2 = 1 → ((4 * m - 2) / 4 : ℚ) ≠ y ∧ y ≠ (4 * m + 2) / 4) :
    roundQuotient num den = m := by
  have cast : (0 : ℚ) < den := by exact_mod_cast positive
  have whole : (num : ℚ) = y * den := (div_eq_iff cast.ne').1 value
  apply roundQuotient_eq positive
  · have : (2 * (m * den) : ℚ) ≤ 2 * num + den := by
      rw [whole]
      nlinarith
    exact_mod_cast this
  · have : (2 * num : ℚ) ≤ 2 * (m * den) + den := by
      rw [whole]
      nlinarith
    exact_mod_cast this
  · intro odd
    obtain ⟨above, under⟩ := strict odd
    constructor
    · intro same
      have equal : (2 * (m * den) : ℚ) = 2 * num + den := by exact_mod_cast same
      rw [whole] at equal
      exact above (mul_right_cancel₀ cast.ne' (by linarith))
    · intro same
      have equal : (2 * num : ℚ) = 2 * (m * den) + den := by exact_mod_cast same
      rw [whole] at equal
      exact under (mul_right_cancel₀ cast.ne' (by linarith))

/-- The number with a mantissa at an exponent; a mantissa of one bit too many moves on to
the next exponent. -/
def ofMantissa (negative : Bool) (m : Nat) (e : Int) : Binary64 :=
  let p := if m = twoPow 53 then (twoPow 52, e + 1) else (m, e)
  if p.1 = 0 then .finite negative 0 0
  else if greatestExponent < p.2 then .infinity negative
  else .finite negative p.1 p.2

theorem round_eq {num : Nat} (positive : 0 < num) (negative : Bool) (den : Nat) :
    round negative num den =
      (let p := perPower 2 num den (mantissaExponent num den)
       ofMantissa negative (roundQuotient p.1 p.2) (mantissaExponent num den)) := by
  rw [round, if_neg positive.ne']
  rfl

/-- A quotient is rounded at the exponent that its value determines. -/
theorem round_of_isExponent {num den m : Nat} {e : Int} (hnum : 0 < num) (hden : 0 < den)
    (exponent : IsExponent (num / den) e) (negative : Bool)
    (low : ((4 * m - 2) / 4 : ℚ) ≤ num / den / 2 ^ e)
    (high : (num / den / 2 ^ e : ℚ) ≤ (4 * m + 2) / 4)
    (strict : m % 2 = 1 →
      ((4 * m - 2) / 4 : ℚ) ≠ num / den / 2 ^ e ∧ (num / den / 2 ^ e : ℚ) ≠ (4 * m + 2) / 4) :
    round negative num den = ofMantissa negative m e := by
  rw [round_eq hnum, (isExponent_mantissaExponent hnum hden).unique exponent]
  simp only
  rw [roundQuotient_of_cast (perPower_pos two_pos hden e) (cast_perPower 2 num den e) low high
    strict]

theorem ofMantissa_of_normal {m : Nat} {e : Int} (normal : Normal m e) (negative : Bool) :
    ofMantissa negative m e = .finite negative m e := by
  rw [ofMantissa, if_neg normal.bits.ne]
  simp only [if_neg normal.positive.ne', if_neg (not_lt.2 normal.greatest)]

/-- A full mantissa at the exponent below is the beginning of a power of two. -/
theorem ofMantissa_of_full {e : Int} (greatest : e ≤ greatestExponent) (negative : Bool) :
    ofMantissa negative (twoPow 53) (e - 1) = .finite negative (twoPow 52) e := by
  rw [ofMantissa, if_pos rfl, Int.sub_add_cancel]
  simp only [if_neg (twoPow_pos 52).ne', if_neg (not_lt.2 greatest)]

/-- The value of a mantissa of some bits, seen at its exponent. -/
theorem lt_of_scaled {q : ℚ} {e k : Int} (less : q / 2 ^ e < 2 ^ k) : q < 2 ^ (k + e) := by
  rwa [div_lt_iff₀ (by positivity), ← zpow_add₀ two_ne_zero] at less

theorem le_of_scaled {q : ℚ} {e k : Int} (least : 2 ^ k ≤ q / 2 ^ e) : 2 ^ (k + e) ≤ q := by
  rwa [le_div_iff₀ (by positivity), ← zpow_add₀ two_ne_zero] at least

/-- What is near a number, but below the power of two at which its exponent begins, is seen at
the exponent below: there it is at most half a unit under a mantissa of one bit too many. -/
theorem Near.below {m : Nat} {e : Int} {q : ℚ} (near : Near m e q) (normal : Normal m e)
    (more : e ≠ leastExponent) (under : q / 2 ^ e < 2 ^ (52 : Int)) :
    m = twoPow 52 ∧ (4 * (twoPow 53 : Nat) - 2) / 4 ≤ q / 2 ^ (e - 1) ∧
      q / 2 ^ (e - 1) < (twoPow 53 : Nat) := by
  obtain ⟨low, -, -⟩ := near.scaled
  have gap : (halfGapBelow m e : ℚ) ≤ 2 := by exact_mod_cast halfGapBelow_le_two m e
  have least : twoPow 52 ≤ m := normal.filled.resolve_right more
  have begins : m = twoPow 52 := by
    have : (m : ℚ) < (twoPow 52 : Nat) + 1 := by
      rw [cast_twoPow_zpow, Nat.cast_ofNat]
      linarith
    have : m < twoPow 52 + 1 := by exact_mod_cast this
    omega
  have exponentLeast := normal.least
  have half : halfGapBelow m e = 1 := if_pos ⟨begins, by omega⟩
  have value : (m : ℚ) = 2 ^ (52 : Int) := begins ▸ cast_twoPow_zpow 52
  have double : q / 2 ^ (e - 1) = 2 * (q / 2 ^ e) := by
    rw [zpow_sub₀ two_ne_zero, zpow_one]
    field_simp
  have full : ((twoPow 53 : Nat) : ℚ) = 2 * 2 ^ (52 : Int) := by
    rw [cast_twoPow]
    norm_num
  rw [half, value] at low
  rw [double, full]
  refine ⟨begins, ?_, by linarith⟩
  norm_num at low ⊢
  linarith

/-- Such a quotient is rounded up to the power of two. -/
theorem round_of_near_below {m : Nat} {e : Int} (normal : Normal m e) {num den : Nat}
    (hnum : 0 < num) (hden : 0 < den) (near : Near m e (num / den)) (more : e ≠ leastExponent)
    (under : (num / den / 2 ^ e : ℚ) < 2 ^ (52 : Int)) (negative : Bool) :
    round negative num den = .finite negative m e := by
  obtain ⟨begins, low, high⟩ := near.below normal more under
  have exponentLeast := normal.least
  have full : (2 : ℚ) ^ (52 : Int) ≤ (4 * (twoPow 53 : Nat) - 2) / 4 := by
    rw [cast_twoPow]
    norm_num
  have exponent : IsExponent (num / den) (e - 1) := by
    refine ⟨by omega, ?_, .inr (le_of_scaled (full.trans low))⟩
    convert lt_of_scaled under using 2
    omega
  have even : twoPow 53 % 2 = 0 := rfl
  rw [round_of_isExponent hnum hden exponent negative low (by linarith) fun odd => absurd odd
    (by rw [even]; decide), begins]
  exact ofMantissa_of_full normal.greatest negative

/-- What is within half a gap of a number is rounded to that number. -/
theorem round_of_near {m : Nat} {e : Int} (normal : Normal m e) {num den : Nat} (hden : 0 < den)
    (near : Near m e (num / den)) (negative : Bool) :
    round negative num den = .finite negative m e := by
  have hnum : 0 < num := by
    have quotient := near.positive normal.positive
    by_contra zero
    rw [Nat.eq_zero_of_not_pos zero, Nat.cast_zero, zero_div] at quotient
    exact lt_irrefl _ quotient
  by_cases filled : e = leastExponent ∨ 2 ^ (52 + e) ≤ (num / den : ℚ)
  · obtain ⟨low, high, strict⟩ := near.scaled
    have gap : (halfGapBelow m e : ℚ) ≤ 2 := by exact_mod_cast halfGapBelow_le_two m e
    have bits : (m : ℚ) + 1 ≤ 2 ^ (53 : Int) := by
      have := normal.bits
      calc (m : ℚ) + 1 ≤ (twoPow 53 : Nat) := by exact_mod_cast this
        _ = 2 ^ (53 : Int) := cast_twoPow_zpow 53
    have exponent : IsExponent (num / den) e :=
      ⟨normal.least, lt_of_scaled (by linarith), filled⟩
    rw [round_of_isExponent hnum hden exponent negative (by linarith) high fun odd =>
      ⟨fun same => (strict odd).1 (le_antisymm low (by linarith)), (strict odd).2⟩]
    exact ofMantissa_of_normal normal negative
  · obtain ⟨more, less⟩ := not_or.1 filled
    apply round_of_near_below normal hnum hden near more _ negative
    rw [div_lt_iff₀ (by positivity), ← zpow_add₀ two_ne_zero]
    exact not_le.1 less

/-! ### What rounding gives is in normal form -/

/-- Whether a number is finite and in normal form; zero has exponent zero. -/
def IsNormal : Binary64 → Prop
  | .finite _ m e => m = 0 ∧ e = 0 ∨ Normal m e
  | _ => False

theorem roundQuotient_bounds (num den : Nat) :
    num / den ≤ roundQuotient num den ∧ roundQuotient num den ≤ num / den + 1 := by
  rw [roundQuotient]
  split
  · omega
  · split <;> omega

theorem le_perPower {num den : Nat} (hden : 0 < den) {e : Int}
    (filled : 2 ^ (52 + e) ≤ (num / den : ℚ)) :
    twoPow 52 ≤ (perPower 2 num den e).1 / (perPower 2 num den e).2 := by
  have positive : 0 < (perPower 2 num den e).2 := perPower_pos two_pos hden e
  have cast : (0 : ℚ) < (perPower 2 num den e).2 := by exact_mod_cast positive
  have scale : (0 : ℚ) < 2 ^ e := by positivity
  rwa [Nat.le_div_iff_mul_le positive, ← Nat.cast_le (α := ℚ), Nat.cast_mul, cast_twoPow_zpow,
    ← le_div_iff₀ cast, cast_perPower, Nat.cast_ofNat, Nat.cast_ofNat, le_div_iff₀ scale,
    ← zpow_add₀ two_ne_zero]

theorem isNormal_ofMantissa {m : Nat} {e : Int} (bits : m ≤ twoPow 53)
    (least : leastExponent ≤ e) (filled : twoPow 52 ≤ m ∨ e = leastExponent) (negative : Bool)
    (finite : (ofMantissa negative m e).isFinite = true) :
    IsNormal (ofMantissa negative m e) := by
  rcases Nat.lt_or_eq_of_le bits with fits | full
  · rw [ofMantissa, if_neg fits.ne] at finite ⊢
    dsimp only at finite ⊢
    split
    · exact .inl ⟨rfl, rfl⟩
    · next positive =>
        rw [if_neg positive] at finite
        split at finite
        · cases finite
        · next greatest =>
            rw [if_neg greatest]
            exact .inr ⟨Nat.pos_of_ne_zero positive, fits, least, not_lt.1 greatest, filled⟩
  · rw [ofMantissa, if_pos full] at finite ⊢
    simp only [if_neg (twoPow_pos 52).ne'] at finite ⊢
    split at finite
    · cases finite
    · next greatest =>
        rw [if_neg greatest]
        exact .inr ⟨twoPow_pos 52, by decide, by omega, not_lt.1 greatest, .inl le_rfl⟩

/-- Every finite number that a quotient is rounded to is in normal form. -/
theorem isNormal_round {den : Nat} (hden : 0 < den) (negative : Bool) (num : Nat)
    (finite : (round negative num den).isFinite = true) :
    IsNormal (round negative num den) := by
  rcases num.eq_zero_or_pos with rfl | hnum
  · exact .inl ⟨rfl, rfl⟩
  · have exponent := isExponent_mantissaExponent hnum hden
    rw [round_eq hnum] at finite ⊢
    obtain ⟨floor, ceil⟩ := roundQuotient_bounds
      (perPower 2 num den (mantissaExponent num den)).1
      (perPower 2 num den (mantissaExponent num den)).2
    have bits := (perPower_lt_iff hden _).2 exponent.upper
    exact isNormal_ofMantissa (by omega) exponent.least
      (exponent.lower.elim .inr fun filled => .inl ((le_perPower hden filled).trans floor))
      negative finite

end DataContract.Binary64
