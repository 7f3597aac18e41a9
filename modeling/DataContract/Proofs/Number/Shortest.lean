/-
# The shortest decimal of a number

The search for the shortest decimal goes through finer and finer grids. What it takes
lies within half a gap of the number, and the grid of seventeen digits has a decimal
that does, because its step is less than the gap. So the search succeeds, and the
decimal that it finds is rounded to the number again, whatever its digits are.
-/

import DataContract.Number.Decimal
import DataContract.Proofs.Number.Rounding
import DataContract.Proofs.Text.Numeral

set_option autoImplicit false

namespace DataContract.Binary64

open Extended (cast_twoPow)

/-! ### Comparing decimals with numbers -/

theorem tenPow_pos (k : Nat) : 0 < tenPow k := Nat.pow_pos (by decide)

theorem cast_tenPow (k : Nat) : ((tenPow k : Nat) : ℚ) = 10 ^ k := by
  have power : tenPow k = 10 ^ k := rfl
  rw [power, Nat.cast_pow, Nat.cast_ofNat]

/-- A power is split into its natural part and the inverse of another. -/
theorem zpow_mul_toNat_neg {x : ℚ} (hx : x ≠ 0) (k : Int) :
    x ^ k * x ^ (-k).toNat = x ^ k.toNat := by
  rw [← zpow_natCast x (-k).toNat, ← zpow_natCast x k.toNat, ← zpow_add₀ hx]
  congr 1
  omega

/-- The two products that are compared are the two numbers times a common factor. -/
theorem compareScaled_eq (a : Nat) (k : Int) (b : Nat) (e : Int) :
    ∃ x y : Nat, compareScaled a k b e = compare x y ∧ ∃ c : ℚ, 0 < c ∧
      (x : ℚ) = a * 10 ^ k * c ∧ (y : ℚ) = b * 2 ^ e * c := by
  refine ⟨_, _, rfl, 10 ^ (-k).toNat * 2 ^ (-e).toNat, by positivity, ?_, ?_⟩
  · rw [Nat.cast_mul, Nat.cast_mul, cast_tenPow, cast_twoPow,
      ← zpow_mul_toNat_neg (by norm_num : (10 : ℚ) ≠ 0) k]
    ring
  · rw [Nat.cast_mul, Nat.cast_mul, cast_tenPow, cast_twoPow,
      ← zpow_mul_toNat_neg (by norm_num : (2 : ℚ) ≠ 0) e]
    ring

theorem compareScaled_isGE (a : Nat) (k : Int) (b : Nat) (e : Int) :
    (compareScaled a k b e).isGE = true ↔ (b * 2 ^ e : ℚ) ≤ a * 10 ^ k := by
  obtain ⟨x, y, same, c, positive, hx, hy⟩ := compareScaled_eq a k b e
  rw [same, Nat.isGE_compare, ← Nat.cast_le (α := ℚ), hx, hy, mul_le_mul_iff_left₀ positive]

theorem compareScaled_isLE (a : Nat) (k : Int) (b : Nat) (e : Int) :
    (compareScaled a k b e).isLE = true ↔ (a * 10 ^ k : ℚ) ≤ b * 2 ^ e := by
  obtain ⟨x, y, same, c, positive, hx, hy⟩ := compareScaled_eq a k b e
  rw [same, Nat.isLE_compare, ← Nat.cast_le (α := ℚ), hx, hy, mul_le_mul_iff_left₀ positive]

/-- A decimal is taken for a number exactly if it lies within half a gap of it. -/
theorem readsBackAs_iff {m : Nat} (positive : 0 < m) (e : Int) (digits : Nat) (k : Int) :
    readsBackAs m e digits k = true ↔ Near m e (digits * 10 ^ k) := by
  have gap := halfGapBelow_le_two m e
  have low : ((4 * m - halfGapBelow m e : Nat) : ℚ) = 4 * m - halfGapBelow m e := by
    rw [Nat.cast_sub (by omega), Nat.cast_mul, Nat.cast_ofNat]
  have high : ((4 * m + 2 : Nat) : ℚ) = 4 * m + 2 := by
    rw [Nat.cast_add, Nat.cast_mul, Nat.cast_ofNat, Nat.cast_ofNat]
  have unfolded : readsBackAs m e digits k =
      (let low := compareScaled digits k (4 * m - halfGapBelow m e) (e - 2)
       let high := compareScaled digits k (4 * m + 2) (e - 2)
       if m % 2 = 0 then low.isGE && high.isLE else low.isGT && high.isLT) := rfl
  have isGT (o : Ordering) : o.isGT = !o.isLE := by cases o <;> rfl
  have isLT (o : Ordering) : o.isLT = !o.isGE := by cases o <;> rfl
  rw [unfolded]
  dsimp only
  split
  case isTrue even =>
    rw [Bool.and_eq_true, compareScaled_isGE, compareScaled_isLE, low, high]
    exact ⟨fun ⟨least, most⟩ => ⟨least, most, fun odd => by omega⟩,
      fun near => ⟨near.low, near.high⟩⟩
  case isFalse odd =>
    rw [isGT, isLT, Bool.and_eq_true, Bool.not_eq_true', Bool.not_eq_true', ← Bool.not_eq_true,
      ← Bool.not_eq_true, compareScaled_isGE, compareScaled_isLE, low, high, not_le, not_le]
    exact ⟨fun ⟨least, most⟩ => ⟨least.le, most.le, fun _ => ⟨least.ne, most.ne⟩⟩,
      fun near => ⟨lt_of_le_of_ne near.low (near.strict (by omega)).1,
        lt_of_le_of_ne near.high (near.strict (by omega)).2⟩⟩

/-- What is closer than half of the gap below is near. -/
theorem near_of_close {m : Nat} {e : Int} {q : ℚ}
    (close : |q - m * 2 ^ e| < halfGapBelow m e * 2 ^ (e - 2)) : Near m e q := by
  have unit : (m * 2 ^ e : ℚ) = 4 * m * 2 ^ (e - 2) := by
    rw [zpow_sub₀ two_ne_zero]
    ring
  have gap : (halfGapBelow m e : ℚ) * 2 ^ (e - 2) ≤ 2 * 2 ^ (e - 2) :=
    mul_le_mul_of_nonneg_right (by exact_mod_cast halfGapBelow_le_two m e) (by positivity)
  rw [unit, abs_lt] at close
  refine ⟨?_, ?_, fun _ => ⟨?_, ?_⟩⟩
  · rw [sub_mul]
    linarith
  · rw [add_mul]
    linarith
  · rw [sub_mul]
    exact fun same => by linarith
  · rw [add_mul]
    exact fun same => by linarith

/-! ### The leading digit -/

theorem cast_scaleByPowerOfTwo (n : Nat) (e : Int) :
    ((scaleByPowerOfTwo n e).1 : ℚ) / (scaleByPowerOfTwo n e).2 = n * 2 ^ e ∧
      0 < (scaleByPowerOfTwo n e).2 := by
  rw [scaleByPowerOfTwo]
  split
  case isTrue natural =>
    refine ⟨?_, Nat.one_pos⟩
    rw [Nat.cast_mul, cast_twoPow, ← zpow_natCast, Int.toNat_of_nonneg natural, Nat.cast_one,
      div_one]
  case isFalse negative =>
    refine ⟨?_, twoPow_pos _⟩
    rw [cast_twoPow, ← zpow_natCast, Int.toNat_of_nonneg (by omega), zpow_neg, div_inv_eq_mul]

/-- The power of ten of the leading digit is not above the number. -/
theorem pow_leadingExponent_le {num den : Nat} (hnum : 0 < num) (hden : 0 < den) :
    (10 : ℚ) ^ leadingExponent num den ≤ num / den := by
  have cast : (0 : ℚ) < den := by exact_mod_cast hden
  have castNum : (0 : ℚ) < num := by exact_mod_cast hnum
  rw [leadingExponent]
  split
  case isTrue whole =>
    have positive : 0 < num / den := Nat.div_pos whole hden
    have digits := Text.pow_length_toDigits_le positive
    have length : ((toString (num / den)).length : Int) - 1 =
        ((Nat.toDigits 10 (num / den)).length - 1 : Nat) := by
      have := Nat.length_toDigits_pos (b := 10) (n := num / den)
      rw [Text.length_toString]
      omega
    have product : 10 ^ ((Nat.toDigits 10 (num / den)).length - 1) * den ≤ num :=
      (Nat.mul_le_mul_right den digits).trans (Nat.div_mul_le_self num den)
    rw [length, zpow_natCast, le_div_iff₀ cast]
    exact_mod_cast product
  case isFalse part =>
    dsimp only
    have below := Text.lt_pow_length_toDigits (den / num)
    rw [← Text.length_toString, Nat.div_lt_iff_lt_mul hnum] at below
    split
    case isTrue power =>
      have value : (den : ℚ) = num * 10 ^ ((toString (den / num)).length - 1) := by
        rw [← cast_tenPow, ← Nat.cast_mul, ← power]
      have length : -(((toString (den / num)).length : Int) - 1) =
          -(((toString (den / num)).length - 1 : Nat) : Int) := by
        have := Nat.length_toDigits_pos (b := 10) (n := den / num)
        rw [Text.length_toString]
        omega
      rw [length, zpow_neg, zpow_natCast, value, ← div_div, div_self castNum.ne', one_div]
    case isFalse inexact =>
      have value : (den : ℚ) ≤ 10 ^ (toString (den / num)).length * num := by
        exact_mod_cast below.le
      rw [zpow_neg, zpow_natCast, le_div_iff₀ cast, inv_mul_le_iff₀ (by positivity)]
      exact value

/-! ### The search -/

/-- The number in units of the step of a grid, as a quotient. -/
def onGrid (m : Nat) (e k : Int) : Nat × Nat :=
  perPower 10 (scaleByPowerOfTwo m e).1 (scaleByPowerOfTwo m e).2 k

theorem cast_onGrid (m : Nat) (e k : Int) :
    ((onGrid m e k).1 : ℚ) / (onGrid m e k).2 = m * 2 ^ e / 10 ^ k ∧ 0 < (onGrid m e k).2 := by
  obtain ⟨value, positive⟩ := cast_scaleByPowerOfTwo m e
  refine ⟨?_, perPower_pos (by decide) positive k⟩
  rw [onGrid, cast_perPower, value, Nat.cast_ofNat]

/-- What the search takes from a grid is one of the two neighbours of the number, and it
reads back; it takes none only if neither does. -/
theorem nearestOnGrid_cases (m : Nat) (e k : Int) :
    let lower := (onGrid m e k).1 / (onGrid m e k).2
    (∃ digits, nearestOnGrid m e k = some (digits, k) ∧ readsBackAs m e digits k = true) ∨
      nearestOnGrid m e k = none ∧ readsBackAs m e lower k = false ∧
        readsBackAs m e (lower + 1) k = false := by
  have grid : (if 0 ≤ k then
        ((scaleByPowerOfTwo m e).1, (scaleByPowerOfTwo m e).2 * tenPow k.toNat)
      else ((scaleByPowerOfTwo m e).1 * tenPow (-k).toNat, (scaleByPowerOfTwo m e).2)) =
      onGrid m e k := rfl
  dsimp only
  rw [nearestOnGrid]
  simp only [grid]
  generalize (onGrid m e k).1 / (onGrid m e k).2 = lower
  cases below : readsBackAs m e lower k <;> cases above : readsBackAs m e (lower + 1) k
  · exact .inr ⟨rfl, rfl, rfl⟩
  · exact .inl ⟨_, rfl, above⟩
  · exact .inl ⟨_, rfl, below⟩
  · left
    dsimp only
    split
    · exact ⟨_, rfl, below⟩
    · split
      · exact ⟨_, rfl, above⟩
      · refine ⟨_, rfl, ?_⟩
        split <;> assumption

/-- A grid whose step is less than the gap has a decimal that reads back. -/
theorem nearestOnGrid_of_fine {m : Nat} (positive : 0 < m) {e k : Int}
    (fine : (10 : ℚ) ^ k < 2 * (halfGapBelow m e * 2 ^ (e - 2))) : nearestOnGrid m e k ≠ none := by
  intro missed
  obtain ⟨value, hden⟩ := cast_onGrid m e k
  have cast : (0 : ℚ) < (onGrid m e k).2 := by exact_mod_cast hden
  have step : (0 : ℚ) < 10 ^ k := by positivity
  have found := nearestOnGrid_cases m e k
  rw [missed] at found
  generalize floor : (onGrid m e k).1 / (onGrid m e k).2 = lower at found
  obtain ⟨-, below, above⟩ := found.resolve_left (by rintro ⟨_, none, _⟩; cases none)
  rw [← Bool.not_eq_true, readsBackAs_iff positive] at below above
  have least : (lower : ℚ) * 10 ^ k ≤ m * 2 ^ e := by
    rw [← le_div_iff₀ step, ← value, le_div_iff₀ cast, ← floor]
    exact_mod_cast Nat.div_mul_le_self _ _
  have most : (m * 2 ^ e : ℚ) < (lower + 1) * 10 ^ k := by
    rw [← div_lt_iff₀ step, ← value, div_lt_iff₀ cast, ← floor]
    exact_mod_cast Nat.lt_mul_of_div_lt (Nat.lt_succ_self _) hden
  rcases le_or_gt (m * 2 ^ e - lower * 10 ^ k : ℚ) (10 ^ k / 2) with nearer | farther
  · apply below
    apply near_of_close
    rw [abs_lt]
    constructor <;> linarith
  · apply above
    apply near_of_close
    rw [Nat.cast_add_one, abs_lt]
    constructor <;> linarith

/-- Sixteen places after the leading digit, the step of the grid is less than the gap. -/
theorem seventeen_digits_fine {m : Nat} {e k : Int} (normal : Normal m e)
    (lead : (10 : ℚ) ^ k ≤ m * 2 ^ e) :
    (10 : ℚ) ^ (k - 16) < 2 * (halfGapBelow m e * 2 ^ (e - 2)) := by
  have unit : (m * 2 ^ e : ℚ) = 4 * m * 2 ^ (e - 2) := by
    rw [zpow_sub₀ two_ne_zero]
    ring
  have mantissa : (4 * m : ℚ) < 2 * halfGapBelow m e * 10 ^ 16 := by
    have bits := normal.bits
    have numbers : 4 * m < 2 * halfGapBelow m e * 10 ^ 16 := by
      rw [halfGapBelow]
      split
      case isTrue begins =>
        rw [begins.1]
        decide
      case isFalse =>
        have : twoPow 53 = 9007199254740992 := rfl
        omega
    exact_mod_cast numbers
  have scale : (0 : ℚ) < 2 ^ (e - 2) := by positivity
  rw [zpow_sub₀ (by norm_num), div_lt_iff₀ (by positivity)]
  calc (10 : ℚ) ^ k ≤ 4 * m * 2 ^ (e - 2) := unit ▸ lead
    _ < 2 * halfGapBelow m e * 10 ^ 16 * 2 ^ (e - 2) := mul_lt_mul_of_pos_right mantissa scale
    _ = 2 * (halfGapBelow m e * 2 ^ (e - 2)) * 10 ^ (16 : Int) := by
        rw [show ((10 : ℚ) ^ (16 : Int)) = 10 ^ 16 from zpow_ofNat 10 16]
        ring

/-- The shortest decimal is read back, unless the finest grid has none that is; then the exact
value stands for it. -/
theorem shortest_cases (m : Nat) (e : Int) :
    readsBackAs m e (shortest m e).1 (shortest m e).2 = true ∨
      (nearestOnGrid m e
          (leadingExponent (scaleByPowerOfTwo m e).1 (scaleByPowerOfTwo m e).2 - 16) = none ∧
        shortest m e = ((scaleByPowerOfTwo m e).1, 0)) := by
  have unfolded : shortest m e =
      ((List.range 17).findSome? fun places : Nat => nearestOnGrid m e
        (leadingExponent (scaleByPowerOfTwo m e).1 (scaleByPowerOfTwo m e).2 - places)).getD
        ((scaleByPowerOfTwo m e).1, 0) := rfl
  rw [unfolded]
  generalize leadingExponent (scaleByPowerOfTwo m e).1 (scaleByPowerOfTwo m e).2 = lead
  cases search :
    (List.range 17).findSome? fun places : Nat => nearestOnGrid m e (lead - places) with
  | none => exact .inr ⟨List.findSome?_eq_none_iff.mp search 16 (by decide), rfl⟩
  | some found =>
      obtain ⟨places, -, taken⟩ := List.exists_of_findSome?_eq_some search
      obtain ⟨digits, same, reads⟩ | ⟨none, -⟩ := nearestOnGrid_cases m e (lead - places)
      · rw [same] at taken
        cases taken
        exact .inl reads
      · rw [none] at taken
        cases taken

/-- The shortest decimal of a number that is not zero has a digit that is not zero. -/
theorem shortest_pos {m : Nat} (nonzero : 0 < m) (e : Int) : 0 < (shortest m e).1 := by
  rcases shortest_cases m e with reads | ⟨-, exactly⟩
  · have near := ((readsBackAs_iff nonzero e _ _).1 reads).positive nonzero
    have quotient : (0 : ℚ) < (shortest m e).1 := pos_of_mul_pos_left near (by positivity)
    exact_mod_cast quotient
  · rw [exactly, scaleByPowerOfTwo]
    split
    · exact Nat.mul_pos nonzero (Nat.pow_pos (by decide))
    · exact nonzero

/-- The shortest decimal of a number is near it. -/
theorem near_shortest {m : Nat} {e : Int} (normal : Normal m e) :
    Near m e ((shortest m e).1 * 10 ^ (shortest m e).2) := by
  obtain ⟨value, hden⟩ := cast_scaleByPowerOfTwo m e
  have hnum : 0 < (scaleByPowerOfTwo m e).1 := by
    by_contra zero
    rw [Nat.eq_zero_of_not_pos zero, Nat.cast_zero, zero_div] at value
    have : (0 : ℚ) < m * 2 ^ e := mul_pos (by exact_mod_cast normal.positive) (by positivity)
    linarith
  have lead := pow_leadingExponent_le hnum hden
  rw [value] at lead
  have fine := nearestOnGrid_of_fine normal.positive (seventeen_digits_fine normal lead)
  exact (readsBackAs_iff normal.positive e _ _).1
    ((shortest_cases m e).resolve_right fun exactly => fine exactly.1)

/-! ### Reading a decimal -/

/-- What is near a number is within the range of the format, give or take a few bits. -/
theorem Near.range {m : Nat} {e : Int} {q : ℚ} (near : Near m e q) (normal : Normal m e) :
    2 ^ (-1075 : Int) ≤ q ∧ q ≤ 2 ^ (1025 : Int) := by
  obtain ⟨positive, bits, least, greatest, -⟩ := normal
  rw [leastExponent] at least
  rw [greatestExponent] at greatest
  constructor
  · have gap : (halfGapBelow m e : ℚ) ≤ 2 := by exact_mod_cast halfGapBelow_le_two m e
    have mantissa : (1 : ℚ) ≤ m := by exact_mod_cast positive
    calc (2 : ℚ) ^ (-1075 : Int) = 2 * 2 ^ (-1076 : Int) := (zpow_one_add₀ two_ne_zero (-1076))
      _ ≤ (4 * m - halfGapBelow m e) * 2 ^ (e - 2) :=
          mul_le_mul (by linarith) (zpow_le_zpow_right₀ one_le_two (by omega)) (by positivity)
            (by linarith)
      _ ≤ q := near.low
  · have mantissa : (4 * m + 2 : ℚ) ≤ 2 ^ (56 : Int) := by
      have : twoPow 53 = 9007199254740992 := rfl
      have numbers : 4 * m + 2 ≤ 2 ^ 56 := by omega
      exact_mod_cast numbers
    calc q ≤ (4 * m + 2) * 2 ^ (e - 2) := near.high
      _ ≤ 2 ^ (56 : Int) * 2 ^ (969 : Int) :=
          mul_le_mul mantissa (zpow_le_zpow_right₀ one_le_two (by omega)) (by positivity)
            (by positivity)
      _ = 2 ^ (1025 : Int) := (zpow_add₀ two_ne_zero 56 969).symm

/-- Three bits are less than a decimal digit. -/
theorem two_pow_le_ten_pow (k : Nat) : (2 : ℚ) ^ (3 * k) ≤ 10 ^ k := by
  rw [pow_mul]
  exact pow_le_pow_left₀ (by norm_num) (by norm_num) k

/-- Decimals that are near a number are far from the bounds beyond which exponents are
not looked at. -/
theorem near_magnitude {m : Nat} {e : Int} (normal : Normal m e) {digits : Nat} {k : Int}
    (near : Near m e (digits * 10 ^ k)) :
    -400 ≤ ((toString digits).length : Int) + k ∧ ((toString digits).length : Int) + k ≤ 400 := by
  obtain ⟨low, high⟩ := near.range normal
  have step : (0 : ℚ) < 10 ^ k := by positivity
  have positive : 0 < digits := by
    have quotient : (0 : ℚ) < digits := pos_of_mul_pos_left (near.positive normal.positive) step.le
    exact_mod_cast quotient
  rw [Text.length_toString]
  have nonempty := Nat.length_toDigits_pos (b := 10) (n := digits)
  have digitsLow := Text.pow_length_toDigits_le positive
  have digitsHigh := Text.lt_pow_length_toDigits digits
  generalize (Nat.toDigits 10 digits).length = count at nonempty digitsLow digitsHigh ⊢
  constructor
  · by_contra tiny
    have value : (digits * 10 ^ k : ℚ) < 10 ^ ((count : Int) + k) := by
      rw [zpow_add₀ (by norm_num), zpow_natCast]
      exact mul_lt_mul_of_pos_right (by exact_mod_cast digitsHigh) step
    have bound : (10 : ℚ) ^ ((count : Int) + k) ≤ 2 ^ (-1075 : Int) := by
      calc (10 : ℚ) ^ ((count : Int) + k) ≤ 10 ^ (-(400 : Nat) : Int) :=
            zpow_le_zpow_right₀ (by norm_num) (by omega)
        _ = (10 ^ 400)⁻¹ := by rw [zpow_neg, zpow_natCast]
        _ ≤ (2 ^ (3 * 400))⁻¹ := inv_anti₀ (by positivity) (two_pow_le_ten_pow 400)
        _ ≤ (2 ^ 1075)⁻¹ := inv_anti₀ (by positivity) (pow_le_pow_right₀ one_le_two (by decide))
        _ = 2 ^ (-1075 : Int) := by rw [zpow_neg, zpow_ofNat]
    exact absurd (low.trans_lt value) (not_lt.2 bound)
  · by_contra huge
    have value : (10 : ℚ) ^ ((count : Int) - 1 + k) ≤ digits * 10 ^ k := by
      rw [zpow_add₀ (by norm_num), show (count : Int) - 1 = (count - 1 : Nat) by omega,
        zpow_natCast]
      exact mul_le_mul_of_nonneg_right (by exact_mod_cast digitsLow) step.le
    have bound : (2 : ℚ) ^ (1025 : Int) < 10 ^ ((count : Int) - 1 + k) := by
      calc (2 : ℚ) ^ (1025 : Int) = 2 ^ 1025 := zpow_ofNat 2 1025
        _ < 2 ^ (3 * 400) := pow_lt_pow_right₀ one_lt_two (by decide)
        _ ≤ 10 ^ 400 := two_pow_le_ten_pow 400
        _ = 10 ^ ((400 : Nat) : Int) := (zpow_natCast 10 400).symm
        _ ≤ 10 ^ ((count : Int) - 1 + k) := zpow_le_zpow_right₀ (by norm_num) (by omega)
    exact absurd (bound.trans_le (value.trans high)) (lt_irrefl _)

/-- A decimal that is near a number is read as that number. -/
theorem ofDecimal_of_near {m : Nat} {e : Int} (normal : Normal m e) {digits : Nat} {k : Int}
    (near : Near m e (digits * 10 ^ k)) (negative : Bool) :
    ofDecimal negative digits k = .finite negative m e := by
  obtain ⟨least, most⟩ := near_magnitude normal near
  have nonzero : digits ≠ 0 := by
    rintro rfl
    have := near.positive normal.positive
    rw [Nat.cast_zero, zero_mul] at this
    exact lt_irrefl _ this
  rw [ofDecimal, if_neg (by omega), if_neg (by omega)]
  split
  case isTrue natural =>
    apply round_of_near normal Nat.one_pos
    rwa [Nat.cast_mul, cast_tenPow, ← zpow_natCast, Int.toNat_of_nonneg natural, Nat.cast_one,
      div_one]
  case isFalse fraction =>
    apply round_of_near normal (tenPow_pos _)
    rwa [cast_tenPow, ← zpow_natCast, Int.toNat_of_nonneg (by omega), zpow_neg, div_inv_eq_mul]

end DataContract.Binary64
