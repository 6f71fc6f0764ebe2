import Mathlib.Algebra.Order.Floor.Ring
import Mathlib.Algebra.Ring.Int.Parity
import Mathlib.Algebra.Order.Field.Basic
import Mathlib.Tactic.FieldSimp
import Mathlib.Tactic.Linarith
import Mathlib.Tactic.Positivity
import Mathlib.Tactic.Ring

/-! # Rounding to integers

Two ways to round to the nearest integer, as relations, and what becomes of one of them when the other
was applied on a finer grid before.

* `NearestEven`: the nearest integer, the even one of two.
* `NearestUp`: the nearest integer, the larger one of two.
* `Misled`: the numbers that a finer grid carries onto a tie from the wrong side.
* `nearestEven_through_iff`: rounding on the finer grid first is harmless exactly for the others.
-/

namespace NexaHR.Foundations

set_option autoImplicit false

variable {α : Type*} [Field α] [LinearOrder α]

/-! ## To the nearest integer -/

/-- `m` is nearest to `y`, and even where two integers are. -/
def NearestEven (y : α) (m : ℤ) : Prop := |y - m| < 1 / 2 ∨ (|y - m| = 1 / 2 ∧ Even m)

/-- `m` is nearest to `y`, and the larger one where two integers are. -/
def NearestUp (y : α) (m : ℤ) : Prop := m - 1 / 2 ≤ y ∧ y < m + 1 / 2

theorem NearestEven.dist_le {y : α} {m : ℤ} (h : NearestEven y m) : |y - m| ≤ 1 / 2 := by
  rcases h with hlt | ⟨heq, -⟩
  · exact hlt.le
  · exact heq.le

theorem NearestEven.neg {y : α} {m : ℤ} (h : NearestEven y m) : NearestEven (-y) (-m) := by
  have habs : |-y - ((-m : ℤ) : α)| = |y - m| := by
    rw [Int.cast_neg, ← neg_sub', abs_neg]
  unfold NearestEven
  rw [habs, even_neg]
  exact h

variable [IsStrictOrderedRing α]

theorem nearestEven_intCast (m : ℤ) : NearestEven (m : α) m := by
  left
  rw [sub_self, abs_zero]
  positivity

/-- Two integers that are both nearest are neighbours, and of two neighbours one is odd. -/
theorem NearestEven.unique {y : α} {m m' : ℤ} (h : NearestEven y m) (h' : NearestEven y m') : m = m' := by
  have hle := abs_le.mp h.dist_le
  have hle' := abs_le.mp h'.dist_le
  have hupper : (m : α) ≤ ((m' + 1 : ℤ) : α) := by
    push_cast
    linarith [hle.1, hle'.2]
  have hlower : (m' : α) ≤ ((m + 1 : ℤ) : α) := by
    push_cast
    linarith [hle'.1, hle.2]
  have hupper := Int.cast_le.mp hupper
  have hlower := Int.cast_le.mp hlower
  by_contra hne
  have hstrict : ∀ {a b : ℤ}, a = b + 1 → NearestEven y a → NearestEven y b → Even a ∧ Even b := by
    intro a b hab ha hb
    have hsum : (a : α) = b + 1 := by rw [hab]; push_cast; rfl
    have ha' := abs_le.mp ha.dist_le
    have hb' := abs_le.mp hb.dist_le
    constructor
    · rcases ha with hlt | ⟨-, heven⟩
      · have := abs_lt.mp hlt
        linarith [this.1, hb'.2]
      · exact heven
    · rcases hb with hlt | ⟨-, heven⟩
      · have := abs_lt.mp hlt
        linarith [this.2, ha'.1]
      · exact heven
  have hcase : m = m' + 1 ∨ m' = m + 1 := by omega
  rcases hcase with hm | hm
  · obtain ⟨hodd, heven⟩ := hstrict hm h h'
    rw [hm] at hodd
    exact Int.not_even_iff_odd.mpr heven.add_one hodd
  · obtain ⟨hodd, heven⟩ := hstrict hm h' h
    rw [hm] at hodd
    exact Int.not_even_iff_odd.mpr heven.add_one hodd

theorem NearestEven.mono {x y : α} {m k : ℤ} (hx : NearestEven x m) (hy : NearestEven y k) (hle : x ≤ y) :
    m ≤ k := by
  by_contra hlt
  have hstep : (k : α) + 1 ≤ m := by exact_mod_cast (by omega : k + 1 ≤ m)
  have hx' := (abs_le.mp hx.dist_le).1
  have hy' := (abs_le.mp hy.dist_le).2
  have hsame : x = y := by linarith
  rw [hsame] at hx
  exact hlt (hx.unique hy).le

omit [IsStrictOrderedRing α] in
/-- A shift by an even integer keeps the parity of a tie. -/
theorem NearestEven.add_even {y : α} {m k : ℤ} (h : NearestEven y m) (hk : Even k) :
    NearestEven (k + y) (k + m) := by
  have hshift : (k : α) + y - ((k + m : ℤ) : α) = y - m := by
    push_cast
    ring
  unfold NearestEven
  rw [hshift]
  rcases h with hlt | ⟨heq, heven⟩
  · exact Or.inl hlt
  · exact Or.inr ⟨heq, hk.add heven⟩

/-! ### An integer and a rest -/

section

variable {k : ℤ} {t : α}

theorem nearestEven_rest_below (hnonneg : 0 ≤ t) (h : t < 1 / 2) : NearestEven (k + t) k := by
  refine Or.inl ?_
  rw [add_sub_cancel_left, abs_of_nonneg hnonneg]
  exact h

theorem nearestEven_rest_above (h : 1 / 2 < t) (hlt : t < 1) : NearestEven (k + t) (k + 1) := by
  refine Or.inl ?_
  push_cast
  rw [add_sub_add_left_eq_sub, abs_lt]
  constructor <;> linarith

theorem nearestEven_rest_tie_even (hk : Even k) : NearestEven ((k : α) + 1 / 2) k := by
  refine Or.inr ⟨?_, hk⟩
  rw [add_sub_cancel_left]
  norm_num

theorem nearestEven_rest_tie_odd (hk : Odd k) : NearestEven ((k : α) + 1 / 2) (k + 1) := by
  refine Or.inr ⟨?_, hk.add_one⟩
  push_cast
  rw [add_sub_add_left_eq_sub]
  norm_num [abs_of_neg]

end

theorem nearestUp_floor [FloorRing α] (y : α) : NearestUp y ⌊y + 1 / 2⌋ := by
  have hle := Int.floor_le (y + 1 / 2)
  have hlt := Int.lt_floor_add_one (y + 1 / 2)
  constructor <;> linarith

theorem NearestUp.unique {y : α} {m m' : ℤ} (h : NearestUp y m) (h' : NearestUp y m') : m = m' := by
  have hupper : (m : α) < ((m' + 1 : ℤ) : α) := by
    push_cast
    linarith [h.1, h'.2]
  have hlower : (m' : α) < ((m + 1 : ℤ) : α) := by
    push_cast
    linarith [h'.1, h.2]
  have hupper := Int.cast_lt.mp hupper
  have hlower := Int.cast_lt.mp hlower
  omega

/-! ## On a finer grid first -/

/-- Rounded up on the grid of mesh `1 / n`, the number becomes a tie, and lies on the other side of it
than the even integer. -/
def Misled (n : ℕ) (y : α) : Prop :=
  ∃ k : ℤ, (Even k ∧ k + 1 / 2 < y ∧ y < k + 1 / 2 + 1 / (2 * n)) ∨
    (Odd k ∧ k + 1 / 2 - 1 / (2 * n) ≤ y ∧ y < k + 1 / 2)

section

variable {n : ℕ} {y : α} {i m : ℤ}

/-- In units of the grid, the distance of a point that rounds to the grid point `i`. -/
theorem NearestUp.bounds (hn : 0 < n) (h : NearestUp (y * n) i) :
    (i : α) / n - 1 / (2 * n) ≤ y ∧ y < i / n + 1 / (2 * n) := by
  have hpos : (0 : α) < n := Nat.cast_pos.mpr hn
  have hhalf : (1 : α) / (2 * n) = 1 / 2 / n := by
    rw [div_div]
  rw [hhalf, ← sub_div, ← add_div, div_le_iff₀ hpos, lt_div_iff₀ hpos]
  exact h

/-- A tie that a number rounds to on the grid. -/
theorem tie_of_misled {h : ℕ} (hh : 0 < h) (hn : n = h + h) (hup : NearestUp (y * n) i) {k : ℤ}
    (hlow : (k : α) + 1 / 2 - 1 / (2 * n) ≤ y) (hhigh : y < k + 1 / 2 + 1 / (2 * n)) :
    i = (2 * k + 1) * h := by
  have hpos : (0 : α) < h := Nat.cast_pos.mpr hh
  have hcast : (n : α) = 2 * h := by
    rw [hn]
    push_cast
    ring
  have htie : NearestUp (y * n) ((2 * k + 1) * h) := by
    have hunit : (1 : α) / (2 * n) * n = 1 / 2 := by
      rw [hcast]
      field_simp
    have hlow' := mul_le_mul_of_nonneg_right hlow (by rw [hcast]; positivity : (0 : α) ≤ n)
    have hhigh' := mul_lt_mul_of_pos_right hhigh (by rw [hcast]; positivity : (0 : α) < n)
    rw [sub_mul, hunit] at hlow'
    rw [add_mul, hunit] at hhigh'
    have hpoint : ((k : α) + 1 / 2) * n = (((2 * k + 1) * h : ℤ) : α) := by
      rw [hcast]
      push_cast
      ring
    rw [hpoint] at hlow' hhigh'
    exact ⟨hlow', hhigh'⟩
  exact hup.unique htie

theorem Misled.tie {h : ℕ} (hh : 0 < h) (hn : n = h + h) (hup : NearestUp (y * n) i)
    (hmis : Misled n y) : ∃ k : ℤ, i = (2 * k + 1) * h ∧
      ((Even k ∧ (k : α) + 1 / 2 < y) ∨ (Odd k ∧ y < (k : α) + 1 / 2)) := by
  have hmesh : (0 : α) < 1 / (2 * n) := by
    have hpos : (0 : α) < n := Nat.cast_pos.mpr (by omega)
    positivity
  obtain ⟨k, ⟨heven, hlow, hhigh⟩ | ⟨hodd, hlow, hhigh⟩⟩ := hmis
  · exact ⟨k, tie_of_misled hh hn hup (by linarith) hhigh, Or.inl ⟨heven, hlow⟩⟩
  · exact ⟨k, tie_of_misled hh hn hup hlow (by linarith), Or.inr ⟨hodd, hhigh⟩⟩

/-- An integer is not misled. -/
theorem not_misled_intCast (hn : 1 < n) (m : ℤ) : ¬Misled n (m : α) := by
  have htwo : (2 : α) ≤ n := by exact_mod_cast hn
  have hmesh : (1 : α) / (2 * n) ≤ 1 / 4 := by
    apply one_div_le_one_div_of_le (by norm_num)
    linarith
  rintro ⟨k, hk⟩
  have hbounds : (k : α) < m ∧ (m : α) < k + 1 := by
    rcases hk with ⟨-, hlow, hhigh⟩ | ⟨-, hlow, hhigh⟩
    · constructor <;> linarith
    · constructor <;> linarith
  have hlow := Int.cast_lt.mp hbounds.1
  have hhigh : (m : α) < ((k + 1 : ℤ) : α) := by
    push_cast
    exact hbounds.2
  have hhigh := Int.cast_lt.mp hhigh
  omega

/-- A fraction with a denominator below the grid's keeps its distance from a tie. -/
theorem not_misled_fraction {a : ℤ} {b : ℕ} (hb : 0 < b) (hbn : b < n) : ¬Misled n ((a : α) / b) := by
  have hbpos : (0 : α) < b := Nat.cast_pos.mpr hb
  have hnpos : (0 : α) < n := Nat.cast_pos.mpr (by omega)
  have hmesh : (b : α) * (1 / (2 * n)) < 1 / 2 := by
    have hlt : (b : α) < n := Nat.cast_lt.mpr hbn
    rw [mul_one_div, div_lt_div_iff₀ (by positivity) (by norm_num)]
    linarith
  have hscale : (a : α) / b * b = a := div_mul_cancel₀ _ hbpos.ne'
  rintro ⟨k, hk⟩
  have hdistance : (a : α) / b ≠ k + 1 / 2 ∧ |(a : α) / b - (k + 1 / 2)| ≤ 1 / (2 * n) := by
    rw [abs_le]
    rcases hk with ⟨-, hlow, hhigh⟩ | ⟨-, hlow, hhigh⟩
    · exact ⟨hlow.ne', by linarith, by linarith⟩
    · exact ⟨hhigh.ne, by linarith, by linarith [(by positivity : (0 : α) < 1 / (2 * n))]⟩
  obtain ⟨hne, hle⟩ := hdistance
  -- twice the distance, in units of the denominator, is an integer below 1
  have hint : ((2 * a - (2 * k + 1) * b : ℤ) : α) = 2 * (b * ((a : α) / b - (k + 1 / 2))) := by
    push_cast
    rw [mul_sub, mul_comm (b : α), hscale]
    ring
  have habs : |((2 * a - (2 * k + 1) * b : ℤ) : α)| < 1 := by
    rw [hint, abs_mul, abs_mul, abs_of_pos hbpos, abs_of_pos (by norm_num : (0 : α) < 2)]
    have hmul := mul_le_mul_of_nonneg_left hle hbpos.le
    linarith
  have hzero : 2 * a - (2 * k + 1) * b = 0 := by
    have habs' : |2 * a - (2 * k + 1) * (b : ℤ)| < 1 := by exact_mod_cast habs
    exact Int.abs_lt_one_iff.mp habs'
  apply hne
  rw [hzero, Int.cast_zero] at hint
  have hprod := (mul_eq_zero.mp hint.symm).resolve_left (by norm_num)
  exact sub_eq_zero.mp ((mul_eq_zero.mp hprod).resolve_left hbpos.ne')

/-- A small number is far from the first tie. -/
theorem not_misled_small (hn : 1 < n) (hnonneg : 0 ≤ y) (hsmall : y < 1 / 4) : ¬Misled n y := by
  have htwo : (2 : α) ≤ n := by exact_mod_cast hn
  have hmesh : (1 : α) / (2 * n) ≤ 1 / 4 := by
    apply one_div_le_one_div_of_le (by norm_num)
    linarith
  rintro ⟨k, hk⟩
  have hbounds : (k : α) < 0 ∧ (-1 : α) < k := by
    rcases hk with ⟨-, hlow, hhigh⟩ | ⟨-, hlow, hhigh⟩
    · constructor <;> linarith
    · constructor <;> linarith
  have hlow : k < 0 := by exact_mod_cast hbounds.1
  have hhigh : -1 < k := by exact_mod_cast hbounds.2
  omega

/-- At a tie the even neighbour is nearest to the grid point. -/
theorem nearestEven_tie {k : ℤ} (hm : NearestEven ((k : α) + 1 / 2) m) :
    (Even k ∧ m = k) ∨ (Odd k ∧ m = k + 1) := by
  rcases Int.even_or_odd k with heven | hodd
  · refine Or.inl ⟨heven, hm.unique (Or.inr ⟨?_, heven⟩)⟩
    rw [add_sub_cancel_left, abs_of_pos (by positivity)]
  · refine Or.inr ⟨hodd, hm.unique (Or.inr ⟨?_, hodd.add_one⟩)⟩
    rw [Int.cast_add, Int.cast_one, add_sub_add_left_eq_sub]
    norm_num [abs_of_neg]

/-- Just beside a tie above an even integer, that integer is nearest on the near side of the tie. -/
theorem nearestEven_beside_even {k : ℤ} (hk : Even k) (hlow : (k : α) ≤ y) :
    NearestEven y k ↔ y ≤ k + 1 / 2 := by
  constructor
  · intro hnear
    have := (abs_le.mp hnear.dist_le).2
    linarith
  · intro hle
    rcases hle.lt_or_eq with hlt | heq
    · exact Or.inl (abs_lt.mpr ⟨by linarith, by linarith⟩)
    · refine Or.inr ⟨?_, hk⟩
      rw [heq, add_sub_cancel_left, abs_of_pos (by positivity)]

/-- The same above an odd integer. -/
theorem nearestEven_beside_odd {k : ℤ} (hk : Odd k) (hhigh : y ≤ k + 1) :
    NearestEven y (k + 1) ↔ k + 1 / 2 ≤ y := by
  have hcast : ((k + 1 : ℤ) : α) = k + 1 := by
    push_cast
    rfl
  constructor
  · intro hnear
    have := (abs_le.mp hnear.dist_le).1
    rw [hcast] at this
    linarith
  · intro hle
    rcases hle.lt_or_eq with hlt | heq
    · refine Or.inl ?_
      rw [hcast]
      exact abs_lt.mpr ⟨by linarith, by linarith⟩
    · refine Or.inr ⟨?_, hk.add_one⟩
      rw [hcast, ← heq, add_sub_add_left_eq_sub]
      norm_num [abs_of_neg]

/-- A grid point off the ties is nearer to its integer by a whole step of the grid. -/
theorem NearestEven.dist_off_tie {h : ℕ} (hh : 0 < h) (hn : n = h + h)
    (hm : NearestEven ((i : α) / n) m) (htie : ∀ k : ℤ, i ≠ (2 * k + 1) * h) :
    |(i : α) / n - m| ≤ 1 / 2 - 1 / n := by
  have hcast : (n : α) = 2 * h := by
    rw [hn]
    push_cast
    ring
  have hpos : (0 : α) < n := Nat.cast_pos.mpr (by omega)
  have hmul : (i : α) / n - m = ((i - m * n : ℤ) : α) / n := by
    push_cast
    field_simp
  have hscaled : |(i : α) / n - m| = |((i - m * n : ℤ) : α)| / n := by
    rw [hmul, abs_div, abs_of_pos hpos]
  have hdist : |i - m * n| ≤ (h : ℤ) := by
    have hle := hm.dist_le
    rw [hscaled, div_le_iff₀ hpos, hcast, ← mul_assoc, one_div_mul_cancel two_ne_zero, one_mul] at hle
    exact_mod_cast hle
  have hne : |i - m * n| ≠ (h : ℤ) := by
    intro heq
    rcases (abs_eq (by positivity : (0 : ℤ) ≤ h)).mp heq with hup | hdown
    · apply htie m
      rw [hn] at hup
      push_cast at hup
      linarith
    · apply htie (m - 1)
      rw [hn] at hdown
      push_cast at hdown
      linarith
  have hfar : |i - m * n| ≤ (h : ℤ) - 1 := by omega
  have hfar : |((i - m * n : ℤ) : α)| ≤ h - 1 := by exact_mod_cast hfar
  rw [hscaled, div_le_iff₀ hpos]
  calc |((i - m * n : ℤ) : α)| ≤ h - 1 := hfar
    _ = (1 / 2 - 1 / n) * n := by
      rw [hcast]
      field_simp

theorem mesh_le_quarter {h : ℕ} (hh : 0 < h) (hn : n = h + h) : (1 : α) / (2 * n) ≤ 1 / 4 := by
  have hone : (1 : α) ≤ h := by exact_mod_cast hh
  have hcast : (n : α) = 2 * h := by
    rw [hn]
    push_cast
    ring
  rw [hcast]
  apply one_div_le_one_div_of_le (by norm_num)
  linarith

/-- At a tie of the finer grid the result depends on the side from which the grid point was rounded. -/
theorem nearestEven_through_tie {h : ℕ} (hh : 0 < h) (hn : n = h + h) (hup : NearestUp (y * n) i)
    (hm : NearestEven ((i : α) / n) m) {k : ℤ} (hk : i = (2 * k + 1) * h) :
    NearestEven y m ↔ ¬Misled n y := by
  have hmesh : (1 : α) / (2 * n) ≤ 1 / 4 := mesh_le_quarter hh hn
  have hh' : (h : α) ≠ 0 := by positivity
  have hpoint : (i : α) / n = k + 1 / 2 := by
    rw [hk, hn]
    push_cast
    field_simp
    ring
  have hsame : ∀ k' : ℤ, i = (2 * k' + 1) * h → k' = k := by
    intro k' hk'
    have hmul := mul_right_cancel₀ (by positivity : (h : ℤ) ≠ 0) (hk'.symm.trans hk)
    omega
  obtain ⟨hlow, hhigh⟩ := hup.bounds (by omega)
  rw [hpoint] at hm hlow hhigh
  rcases nearestEven_tie hm with ⟨hkeven, rfl⟩ | ⟨hkodd, rfl⟩
  · rw [nearestEven_beside_even hkeven (by linarith), ← not_lt, not_iff_not]
    constructor
    · intro habove
      exact ⟨m, Or.inl ⟨hkeven, habove, hhigh⟩⟩
    · intro hmis
      obtain ⟨k', hk', ⟨-, habove⟩ | ⟨hodd, -⟩⟩ := hmis.tie hh hn hup
      · rw [hsame k' hk'] at habove
        exact habove
      · rw [hsame k' hk'] at hodd
        exact absurd hkeven (Int.not_even_iff_odd.mpr hodd)
  · rw [nearestEven_beside_odd hkodd (by linarith), ← not_lt, not_iff_not]
    constructor
    · intro hbelow
      exact ⟨k, Or.inr ⟨hkodd, hlow, hbelow⟩⟩
    · intro hmis
      obtain ⟨k', hk', ⟨heven, -⟩ | ⟨-, hbelow⟩⟩ := hmis.tie hh hn hup
      · rw [hsame k' hk'] at heven
        exact absurd heven (Int.not_even_iff_odd.mpr hkodd)
      · rw [hsame k' hk'] at hbelow
        exact hbelow

/-- Rounding on a finer grid first, of an even number of steps to the unit, changes the result exactly
for the misled. -/
theorem nearestEven_through_iff (hn : 0 < n) (heven : Even n) (hup : NearestUp (y * n) i)
    (hm : NearestEven ((i : α) / n) m) : NearestEven y m ↔ ¬Misled n y := by
  obtain ⟨h, hn'⟩ := heven
  have hh : 0 < h := by omega
  by_cases htie : ∃ k : ℤ, i = (2 * k + 1) * h
  · obtain ⟨k, hk⟩ := htie
    exact nearestEven_through_tie hh hn' hup hm hk
  · have hpos : (0 : α) < n := Nat.cast_pos.mpr hn
    have hnot : ¬Misled n y := by
      intro hmis
      obtain ⟨k, hk, -⟩ := hmis.tie hh hn' hup
      exact htie ⟨k, hk⟩
    have hstep : (1 : α) / (2 * n) < 1 / n := by
      apply one_div_lt_one_div_of_lt hpos
      linarith
    obtain ⟨hlow, hhigh⟩ := hup.bounds hn
    obtain ⟨hleft, hright⟩ := abs_le.mp (hm.dist_off_tie hh hn' (not_exists.mp htie))
    exact iff_of_true (Or.inl (abs_lt.mpr ⟨by linarith, by linarith⟩)) hnot

end

end NexaHR.Foundations
