import NexaHR.Core.Numbers
import NexaHR.Foundations.Rounding

/-! # Numbers with few decimals

What the two roundings of `Core.Numbers` do, in terms of the numbers that they lead to.

* `IsDecimal n`: the numbers with `n` decimals.
* `roundTo_eq_self_iff`, `numeric_of_isDecimal`: both roundings leave them alone.
* `roundTo_eq_of_nearest`: the number that is nearest is the one that `roundTo` gives.
* `numeric_bounds`, `numeric_le_of_le`: a stored number is near the given one, in the same order.
-/

namespace NexaHR

open Foundations

set_option autoImplicit false

/-! ## Half to even -/

theorem roundHalfEven_spec (x : Rat) : NearestEven x (roundHalfEven x) := by
  have hle : ((x.floor : Int) : Rat) ≤ x := Rat.floor_le x
  have hlt : x < ((x.floor : Int) : Rat) + 1 := by exact_mod_cast Rat.lt_floor_add_one x
  have hrest : ((x.floor : Int) : Rat) + (x - x.floor) = x := add_sub_cancel _ _
  unfold roundHalfEven
  simp only
  split
  next h =>
    have hbelow := nearestEven_rest_below (k := x.floor) (sub_nonneg.mpr hle) h
    rwa [hrest] at hbelow
  next h =>
    split
    next h' =>
      have habove := nearestEven_rest_above (k := x.floor) h' (sub_lt_iff_lt_add'.mpr hlt)
      rwa [hrest] at habove
    next h' =>
      have htie : x - x.floor = 1 / 2 := le_antisymm (not_lt.mp h') (not_lt.mp h)
      rw [htie] at hrest
      split
      next heven =>
        have hdown : NearestEven (((x.floor : Int) : Rat) + 1 / 2) x.floor :=
          nearestEven_rest_tie_even (Int.even_iff.mpr heven)
        rwa [hrest] at hdown
      next hodd =>
        have hodd' : x.floor % 2 = 1 := by omega
        have hup : NearestEven (((x.floor : Int) : Rat) + 1 / 2) (x.floor + 1) :=
          nearestEven_rest_tie_odd (Int.odd_iff.mpr hodd')
        rwa [hrest] at hup

theorem roundHalfEven_eq_iff {x : Rat} {m : Int} : roundHalfEven x = m ↔ NearestEven x m := by
  constructor
  · rintro rfl
    exact roundHalfEven_spec x
  · intro h
    exact (roundHalfEven_spec x).unique h

/-! ## Decimals -/

/-- The number is written with `n` decimals. -/
def IsDecimal (n : Nat) (x : Rat) : Prop := ∃ k : Int, x * 10 ^ n = k

section

variable {n : Nat} {x y : Rat}

theorem ten_pow_pos (n : Nat) : (0 : Rat) < 10 ^ n := by positivity

theorem isDecimal_iff_exists : IsDecimal n x ↔ ∃ k : Int, x = k / 10 ^ n := by
  unfold IsDecimal
  constructor
  · rintro ⟨k, hk⟩
    exact ⟨k, (eq_div_iff (ten_pow_pos n).ne').mpr hk⟩
  · rintro ⟨k, hk⟩
    exact ⟨k, (eq_div_iff (ten_pow_pos n).ne').mp hk⟩

theorem isDecimal_zero : IsDecimal n 0 := ⟨0, by simp⟩

theorem IsDecimal.add (hx : IsDecimal n x) (hy : IsDecimal n y) : IsDecimal n (x + y) := by
  obtain ⟨k, hk⟩ := hx
  obtain ⟨l, hl⟩ := hy
  refine ⟨k + l, ?_⟩
  rw [add_mul, hk, hl]
  push_cast
  rfl

theorem IsDecimal.sub (hx : IsDecimal n x) (hy : IsDecimal n y) : IsDecimal n (x - y) := by
  obtain ⟨k, hk⟩ := hx
  obtain ⟨l, hl⟩ := hy
  refine ⟨k - l, ?_⟩
  rw [sub_mul, hk, hl]
  push_cast
  rfl

theorem isDecimal_natCast (k : Nat) : IsDecimal n (k : Rat) := by
  refine ⟨k * 10 ^ n, ?_⟩
  push_cast
  rfl

theorem IsDecimal.max (hx : IsDecimal n x) (hy : IsDecimal n y) : IsDecimal n (max x y) := by
  rcases max_choice x y with h | h
  · rw [h]
    exact hx
  · rw [h]
    exact hy

theorem IsDecimal.min (hx : IsDecimal n x) (hy : IsDecimal n y) : IsDecimal n (min x y) := by
  rcases min_choice x y with h | h
  · rw [h]
    exact hx
  · rw [h]
    exact hy

theorem IsDecimal.succ (hx : IsDecimal n x) : IsDecimal (n + 1) x := by
  obtain ⟨k, hk⟩ := hx
  refine ⟨k * 10, ?_⟩
  rw [pow_succ, ← mul_assoc, hk]
  push_cast
  rfl

/-! ## The two roundings -/

theorem roundTo_isDecimal (n : Nat) (x : Rat) : IsDecimal n (roundTo n x) :=
  isDecimal_iff_exists.mpr ⟨_, rfl⟩

/-- The number with `n` decimals that is nearest. -/
theorem roundTo_eq_of_nearest {k : Int} (h : NearestEven (x * 10 ^ n) k) : roundTo n x = k / 10 ^ n := by
  unfold roundTo
  rw [roundHalfEven_eq_iff.mpr h]

theorem roundTo_eq_self_iff : roundTo n x = x ↔ IsDecimal n x := by
  constructor
  · intro h
    rw [← h]
    exact roundTo_isDecimal n x
  · rintro ⟨k, hk⟩
    have hnear : NearestEven (x * 10 ^ n) k := by
      rw [hk]
      exact nearestEven_intCast k
    rw [roundTo_eq_of_nearest hnear, ← hk, mul_div_cancel_right₀ _ (ten_pow_pos n).ne']

theorem roundTo_mono (h : x ≤ y) : roundTo n x ≤ roundTo n y := by
  have hscaled := mul_le_mul_of_nonneg_right h (ten_pow_pos n).le
  have hle := (roundHalfEven_spec (x * 10 ^ n)).mono (roundHalfEven_spec (y * 10 ^ n)) hscaled
  unfold roundTo
  exact div_le_div_of_nonneg_right (by exact_mod_cast hle) (ten_pow_pos n).le

theorem le_roundTo (hx : IsDecimal n x) (h : x ≤ y) : x ≤ roundTo n y := by
  have hmono := roundTo_mono (n := n) h
  rwa [roundTo_eq_self_iff.mpr hx] at hmono

theorem roundTo_le (hy : IsDecimal n y) (h : x ≤ y) : roundTo n x ≤ y := by
  have hmono := roundTo_mono (n := n) h
  rwa [roundTo_eq_self_iff.mpr hy] at hmono

/-- A number with one decimal less is an even number of units, so it can be added before or after. -/
theorem roundTo_add (hx : IsDecimal n x) : roundTo (n + 1) (x + y) = x + roundTo (n + 1) y := by
  obtain ⟨k, hk⟩ := hx
  have hunits : x * 10 ^ (n + 1) = ((k * 10 : Int) : Rat) := by
    rw [pow_succ, ← mul_assoc, hk]
    push_cast
    rfl
  have heven : Even (k * 10) := Int.even_mul.mpr (Or.inr (by decide))
  have hnear := (roundHalfEven_spec (y * 10 ^ (n + 1))).add_even heven
  rw [← hunits, ← add_mul] at hnear
  rw [roundTo_eq_of_nearest hnear]
  unfold roundTo
  rw [Int.cast_add, ← hunits, add_div, mul_div_cancel_right₀ _ (ten_pow_pos (n + 1)).ne']

theorem roundTo_neg (n : Nat) (x : Rat) : roundTo n (-x) = -roundTo n x := by
  have hnear : NearestEven (-x * 10 ^ n) (-roundHalfEven (x * 10 ^ n)) := by
    rw [neg_mul]
    exact (roundHalfEven_spec _).neg
  rw [roundTo_eq_of_nearest hnear]
  unfold roundTo
  push_cast
  rw [neg_div]

theorem numeric_of_nonneg (hx : 0 ≤ x) : numeric n x = ((x * 10 ^ n + 1 / 2).floor : Rat) / 10 ^ n := by
  unfold numeric
  rw [if_neg (not_lt.mpr hx)]

/-- What a column stores of a number that is not negative lies within half a unit of it. -/
theorem numeric_bounds (hx : 0 ≤ x) :
    numeric n x * 10 ^ n - 1 / 2 ≤ x * 10 ^ n ∧ x * 10 ^ n < numeric n x * 10 ^ n + 1 / 2 := by
  have hle : (((x * 10 ^ n + 1 / 2).floor : Int) : Rat) ≤ x * 10 ^ n + 1 / 2 := Rat.floor_le _
  have hlt : x * 10 ^ n + 1 / 2 < (((x * 10 ^ n + 1 / 2).floor : Int) : Rat) + 1 := by
    have := Rat.lt_floor_add_one (x * 10 ^ n + 1 / 2)
    push_cast at this
    exact this
  rw [numeric_of_nonneg hx, div_mul_cancel₀ _ (ten_pow_pos n).ne']
  constructor <;> linarith

theorem numeric_isDecimal (hx : 0 ≤ x) : IsDecimal n (numeric n x) := by
  rw [numeric_of_nonneg hx]
  exact isDecimal_iff_exists.mpr ⟨_, rfl⟩

theorem numeric_nonneg (hx : 0 ≤ x) : 0 ≤ numeric n x := by
  have hpos := ten_pow_pos n
  have hfloor : (0 : Int) ≤ (x * 10 ^ n + 1 / 2).floor := by
    apply Rat.le_floor_iff.mpr
    have := mul_nonneg hx hpos.le
    push_cast
    linarith
  rw [numeric_of_nonneg hx]
  have hcast : (0 : Rat) ≤ (x * 10 ^ n + 1 / 2).floor := by exact_mod_cast hfloor
  positivity

/-- A number with `n` decimals below the given one is not above what is stored, and likewise above. -/
theorem le_numeric_of_le (hx : 0 ≤ x) (hy : IsDecimal n y) (h : y ≤ x) : y ≤ numeric n x := by
  obtain ⟨k, hk⟩ := hy
  have hpos := ten_pow_pos n
  have hfloor : k ≤ (x * 10 ^ n + 1 / 2).floor := by
    apply Rat.le_floor_iff.mpr
    rw [← hk]
    have := mul_le_mul_of_nonneg_right h hpos.le
    linarith
  rw [numeric_of_nonneg hx, le_div_iff₀ hpos, hk]
  exact_mod_cast hfloor

theorem numeric_le_of_le (hx : 0 ≤ x) (hy : IsDecimal n y) (h : x ≤ y) : numeric n x ≤ y := by
  obtain ⟨k, hk⟩ := hy
  have hpos := ten_pow_pos n
  have hfloor : (x * 10 ^ n + 1 / 2).floor < k + 1 := by
    apply Rat.floor_lt_iff.mpr
    have := mul_le_mul_of_nonneg_right h hpos.le
    rw [hk] at this
    push_cast
    linarith
  rw [numeric_of_nonneg hx, div_le_iff₀ hpos, hk]
  exact_mod_cast Int.lt_add_one_iff.mp hfloor

theorem numeric_of_isDecimal (hx : 0 ≤ x) (hdec : IsDecimal n x) : numeric n x = x :=
  le_antisymm (numeric_le_of_le hx hdec le_rfl) (le_numeric_of_le hx hdec le_rfl)

end

end NexaHR
