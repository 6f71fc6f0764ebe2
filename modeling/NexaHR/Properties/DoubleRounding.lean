import NexaHR.Pages.ScoreForm
import NexaHR.Properties.Preview

/-! # The page rounds every double like the server

The page rounds to twenty decimals before it rounds to one. That could turn a number beside a tie into the tie.
No double lies so near a tie without being one: a binary fraction with few digits keeps away from the odd
multiples of a twentieth.

* `round1_text`: what the page reads from the digits, as arithmetic.
* `roundsExactly_of_isDouble`: no double is misled.
* `double_round1`: the page's tenths are the server's.
-/

namespace NexaHR

open Foundations

set_option autoImplicit false

/-! ## Digits -/

namespace Rounding

def AllDigits (text : List Char) : Prop := ∀ c ∈ text, c.isDigit = true

theorem digitsValue_append (text rest : List Char) :
    digitsValue (text ++ rest) = 10 ^ rest.length * digitsValue text + digitsValue rest := by
  unfold digitsValue
  rw [Nat.ofDigitChars_append, Nat.ofDigitChars_eq_ofDigitChars_zero]

theorem digitsValue_single (c : Char) : digitsValue [c] = c.toNat - 48 := by
  unfold digitsValue
  rw [Nat.ofDigitChars_cons, Nat.ofDigitChars_nil]
  exact Nat.zero_add _

theorem digitsValue_cons (c : Char) (rest : List Char) :
    digitsValue (c :: rest) = 10 ^ rest.length * (c.toNat - 48) + digitsValue rest := by
  have h := digitsValue_append [c] rest
  rw [List.singleton_append, digitsValue_single] at h
  exact h

theorem digit_bounds {c : Char} (h : c.isDigit = true) : 48 ≤ c.toNat ∧ c.toNat ≤ 57 := Char.isDigit_iff_toNat.mp h

theorem digitsValue_lt {text : List Char} (h : AllDigits text) : digitsValue text < 10 ^ text.length := by
  induction text with
  | nil => exact Nat.one_pos
  | cons c rest ih =>
    have hrest := ih fun d hd => h d (List.mem_cons_of_mem _ hd)
    have hc := digit_bounds (h c List.mem_cons_self)
    have hdigit : c.toNat - 48 ≤ 9 := by omega
    have hmul := Nat.mul_le_mul_left (10 ^ rest.length) hdigit
    rw [digitsValue_cons, List.length_cons, Nat.pow_succ]
    omega

theorem digitsValue_eq_zero {text : List Char} (h : AllDigits text) :
    digitsValue text = 0 ↔ ∀ c ∈ text, c = '0' := by
  induction text with
  | nil => exact iff_of_true rfl fun c hc => absurd hc List.not_mem_nil
  | cons c rest ih =>
    have hc := digit_bounds (h c List.mem_cons_self)
    have hzero : c.toNat - 48 = 0 ↔ c = '0' := by
      constructor
      · intro heq
        apply Char.toNat_inj.mp
        show c.toNat = 48
        omega
      · intro heq
        rw [heq]
        rfl
    have hpos : 0 < 10 ^ rest.length := Nat.pow_pos (by omega)
    rw [digitsValue_cons, List.forall_mem_cons, ← ih fun d hd => h d (List.mem_cons_of_mem _ hd), ← hzero,
      Nat.add_eq_zero_iff, Nat.mul_eq_zero]
    omega

theorem dropTrailingZeros_eq_nil (text : List Char) : dropTrailingZeros text = [] ↔ ∀ c ∈ text, c = '0' := by
  unfold dropTrailingZeros
  rw [List.reverse_eq_nil_iff, List.dropWhile_eq_nil_iff]
  simp

theorem dropTrailingZeros_cons (c : Char) (rest : List Char) :
    dropTrailingZeros (c :: rest) =
      if dropTrailingZeros rest = [] then (if c = '0' then [] else [c]) else c :: dropTrailingZeros rest := by
  unfold dropTrailingZeros
  rw [List.reverse_cons, List.dropWhile_append]
  by_cases h : rest.reverse.dropWhile (fun c => decide (c = '0')) = []
  · rw [h]
    by_cases hc : c = '0'
    · simp [hc]
    · simp [hc]
  · simp [h]

theorem single_lt_cons {a c : Char} {l : List Char} : [a] < c :: l ↔ a < c ∨ (a = c ∧ l ≠ []) := by
  rw [List.cons_lt_cons_iff]
  cases l with
  | nil => simp
  | cons b l => simp

/-- The tail of the digits, compared with the text "5". -/
theorem tail_compare {c : Char} {rest : List Char} (h : AllDigits (c :: rest)) :
    (dropTrailingZeros (c :: rest) = ['5'] ↔ digitsValue (c :: rest) = 5 * 10 ^ rest.length) ∧
      (['5'] < dropTrailingZeros (c :: rest) ↔ 5 * 10 ^ rest.length < digitsValue (c :: rest)) := by
  have hrest : AllDigits rest := fun d hd => h d (List.mem_cons_of_mem _ hd)
  have hlt := digitsValue_lt hrest
  have hpos : 0 < 10 ^ rest.length := Nat.pow_pos (by omega)
  have hzeros := digitsValue_eq_zero hrest
  rw [← dropTrailingZeros_eq_nil] at hzeros
  rw [dropTrailingZeros_cons, digitsValue_cons]
  rcases Nat.lt_trichotomy c.toNat 53 with hc | hc | hc
  · have hne : c ≠ '5' := fun heq => by simp [heq] at hc
    have hnlt : ¬ '5' < c := fun hlt' => by
      have hlt'' : 53 < c.toNat := hlt'
      omega
    have hmul : 10 ^ rest.length * (c.toNat - 48) ≤ 10 ^ rest.length * 4 :=
      Nat.mul_le_mul_left _ (by omega)
    split
    · split
      · exact ⟨iff_of_false (by simp) (by omega), iff_of_false (by simp) (by omega)⟩
      · exact ⟨iff_of_false (by simp [hne]) (by omega),
          iff_of_false (by rw [single_lt_cons]; simp [hnlt, hne.symm]) (by omega)⟩
    · exact ⟨iff_of_false (by simp [hne]) (by omega),
        iff_of_false (by rw [single_lt_cons]; simp [hnlt, hne.symm]) (by omega)⟩
  · have heq : c = '5' := Char.toNat_inj.mp hc
    rw [hc]
    subst heq
    split
    · next hnil =>
      have hzero := hzeros.mpr hnil
      rw [if_neg (by decide)]
      exact ⟨iff_of_true rfl (by omega), iff_of_false (by simp) (by omega)⟩
    · next hnil =>
      have hnonzero : digitsValue rest ≠ 0 := fun hzero => hnil (hzeros.mp hzero)
      exact ⟨iff_of_false (by simp [hnil]) (by omega),
        iff_of_true (single_lt_cons.mpr (Or.inr ⟨rfl, hnil⟩)) (by omega)⟩
  · have hne : c ≠ '5' := fun heq => by simp [heq] at hc
    have hzero : c ≠ '0' := fun heq => by simp [heq] at hc
    have hgt : '5' < c := hc
    have hmul : 10 ^ rest.length * 6 ≤ 10 ^ rest.length * (c.toNat - 48) :=
      Nat.mul_le_mul_left _ (by omega)
    rw [if_neg hzero]
    split
    · exact ⟨iff_of_false (by simp [hne]) (by omega), iff_of_true (single_lt_cons.mpr (Or.inl hgt)) (by omega)⟩
    · exact ⟨iff_of_false (by simp [hne]) (by omega), iff_of_true (single_lt_cons.mpr (Or.inl hgt)) (by omega)⟩

/-! ## What the page reads -/

theorem fixedDigits_length (digits n : Nat) : digits + 1 ≤ (fixedDigits digits n).length := by
  unfold fixedDigits
  rw [List.length_append, List.length_replicate]
  omega

theorem fixedDigits_allDigits (digits n : Nat) : AllDigits (fixedDigits digits n) := by
  intro c hc
  rcases List.mem_append.mp hc with hc | hc
  · rw [List.eq_of_mem_replicate hc]
    rfl
  · exact Nat.isDigit_of_mem_toDigits (by omega) (by omega) hc

theorem fixedDigits_value (digits n : Nat) : digitsValue (fixedDigits digits n) = n := by
  unfold fixedDigits
  rw [digitsValue_append]
  unfold digitsValue
  rw [Nat.ofDigitChars_replicate_zero, Nat.ofDigitChars_ten_toDigits]
  omega

theorem splitAtPoint_digits {text rest : List Char} (h : AllDigits text) :
    splitAtPoint (text ++ '.' :: rest) = (text, rest) := by
  have hpoint : ∀ c ∈ text, decide (c ≠ '.') = true := by
    intro c hc
    have hdigit := digit_bounds (h c hc)
    have hne : c ≠ '.' := fun heq => by simp [heq] at hdigit
    exact decide_eq_true hne
  unfold splitAtPoint
  rw [List.takeWhile_append_of_pos hpoint, List.dropWhile_append_of_pos hpoint]
  simp

/-- Of the digits behind the point the first one is kept. -/
theorem toFixed_parts (n : Nat) :
    ∃ whole first second rest, fixedDigits 20 n = whole ++ first :: second :: rest ∧ rest.length = 18 ∧
      (fixedDigits 20 n).take ((fixedDigits 20 n).length - 20) = whole ∧
      (fixedDigits 20 n).drop ((fixedDigits 20 n).length - 20) = first :: second :: rest := by
  have hlength := fixedDigits_length 20 n
  generalize hdrop : (fixedDigits 20 n).drop ((fixedDigits 20 n).length - 20) = fraction
  have hfraction : fraction.length = 20 := by
    rw [← hdrop, List.length_drop]
    omega
  match fraction, hfraction with
  | first :: second :: rest, hfraction =>
    refine ⟨_, first, second, rest, ?_, ?_, rfl, rfl⟩
    · rw [← hdrop, List.take_append_drop]
    · rw [List.length_cons, List.length_cons] at hfraction
      omega

theorem tenths_eq (x : Rat) :
    tenths x =
      (let digits := ScoreForm.toFixed20 |x|
      if digits % 10 ^ 19 = 5 * 10 ^ 18 then
        (if digits / 10 ^ 19 % 2 ≠ 0 then digits / 10 ^ 19 + 1 else digits / 10 ^ 19)
      else if 5 * 10 ^ 18 < digits % 10 ^ 19 then digits / 10 ^ 19 + 1
      else digits / 10 ^ 19) := by
  have hnonneg : 0 ≤ ScoreForm.toFixed20 |x| := by
    unfold ScoreForm.toFixed20
    apply Rat.le_floor_iff.mpr
    have habs := abs_nonneg x
    push_cast
    positivity
  obtain ⟨n, hn⟩ := Int.eq_ofNat_of_zero_le hnonneg
  obtain ⟨whole, first, second, rest, htext, hrest, htake, hdrop⟩ := toFixed_parts n
  have hdigits := fixedDigits_allDigits 20 n
  have hvalue := fixedDigits_value 20 n
  rw [htext] at hdigits hvalue
  have hwhole : AllDigits whole := fun c hc => hdigits c (List.mem_append_left _ hc)
  have htail : AllDigits (second :: rest) := fun c hc =>
    hdigits c (List.mem_append_right _ (List.mem_cons_of_mem _ hc))
  have hfixed : toFixed 20 |x| = whole ++ '.' :: first :: second :: rest := by
    have hnat : (|x| * 10 ^ 20 + 1 / 2).floor.toNat = n := by
      show (ScoreForm.toFixed20 |x|).toNat = n
      rw [hn, Int.toNat_natCast]
    unfold toFixed
    rw [hnat]
    dsimp only
    rw [htake, hdrop]
  obtain ⟨htie, habove⟩ := tail_compare htail
  have hlt := digitsValue_lt htail
  rw [digitsValue_append, List.length_cons, digitsValue_cons, List.length_cons, hrest] at hvalue
  rw [List.length_cons, hrest] at hlt
  rw [hrest] at htie habove
  have hscaled : ((digitsValue whole * 10 + digitsValue [first] : Nat) : Int) = (n : Int) / 10 ^ 19 := by
    rw [digitsValue_single]
    omega
  have hrem : ((digitsValue (second :: rest) : Nat) : Int) = (n : Int) % 10 ^ 19 := by omega
  unfold tenths
  rw [hfixed, splitAtPoint_digits hwhole, hn]
  dsimp only
  rw [List.take_succ_cons, List.take_zero, if_neg (List.cons_ne_nil first []), List.drop_one, List.tail_cons]
  have hscaled' : (digitsValue whole : Int) * 10 + (digitsValue [first] : Int) = (n : Int) / 10 ^ 19 := by
    rw [← hscaled]
    push_cast
    rfl
  have hiff : dropTrailingZeros (second :: rest) = ['5'] ↔ (n : Int) % 10 ^ 19 = 5 * 10 ^ 18 := by
    rw [htie, ← hrem]
    omega
  have hiff' : ['5'] < dropTrailingZeros (second :: rest) ↔ 5 * 10 ^ 18 < (n : Int) % 10 ^ 19 := by
    rw [habove, ← hrem]
    omega
  simp only [hscaled', hiff, hiff']

theorem round1_text (x : Rat) : round1 x = ScoreForm.round1 x := by
  unfold round1 ScoreForm.round1
  rw [tenths_eq]

end Rounding

/-! ## Doubles -/

/-- A number that a double holds: an integer of at most 53 bits times a power of two. -/
def IsDouble (x : Rat) : Prop := ∃ (mantissa : Int) (exponent : Int), |mantissa| < 2 ^ 53 ∧ x = mantissa * 2 ^ exponent

theorem IsDouble.abs {x : Rat} (hx : IsDouble x) :
    ∃ (mantissa : Nat) (exponent : Int), mantissa < 2 ^ 53 ∧ |x| = mantissa * 2 ^ exponent := by
  obtain ⟨mantissa, exponent, hbits, rfl⟩ := hx
  refine ⟨mantissa.natAbs, exponent, ?_, ?_⟩
  · rw [Int.abs_eq_natAbs] at hbits
    omega
  · rw [abs_mul, abs_of_pos (zpow_pos (by norm_num : (0 : Rat) < 2) exponent), Nat.cast_natAbs, Int.cast_abs]

/-- Beside a tie of the tenths there is room for twenty decimals, but not for a binary fraction. -/
theorem roundsExactly_of_isDouble {x : Rat} (hx : IsDouble x) : RoundsExactly x := by
  obtain ⟨mantissa, exponent, hbits, hx⟩ := hx.abs
  unfold RoundsExactly
  rw [hx]
  rcases exponent with places | places
  · have hint : (mantissa : Rat) * 2 ^ (Int.ofNat places) * 10 = ((mantissa * 2 ^ places * 10 : Int) : Rat) := by
      rw [Int.ofNat_eq_natCast, zpow_natCast]
      push_cast
      rfl
    rw [hint]
    exact not_misled_intCast (by norm_num) _
  · have hfraction : (mantissa : Rat) * 2 ^ (Int.negSucc places) * 10 =
        ((mantissa * 10 : Int) : Rat) / ((2 ^ (places + 1) : Nat) : Rat) := by
      rw [zpow_negSucc]
      push_cast
      ring
    rw [hfraction]
    rcases Nat.lt_or_ge places 63 with hplaces | hplaces
    · apply not_misled_fraction (Nat.two_pow_pos _)
      calc 2 ^ (places + 1) ≤ 2 ^ 63 := Nat.pow_le_pow_right (by omega) (by omega)
        _ < 10 ^ 19 := by norm_num
    · have hpow : (2 : Rat) ^ 64 ≤ ((2 ^ (places + 1) : Nat) : Rat) := by
        push_cast
        exact pow_le_pow_right₀ (by norm_num) (by omega)
      have hmantissa : ((mantissa * 10 : Int) : Rat) < 2 ^ 57 := by
        have hlt : (mantissa : Rat) < 2 ^ 53 := by exact_mod_cast hbits
        push_cast
        linarith
      apply not_misled_small (by norm_num)
      · positivity
      · rw [div_lt_iff₀ (by positivity)]
        linarith

/-- For a percentage the tenths of the page are the tenths of the server. -/
theorem double_round1 {x : Rat} (hx : IsDouble x) (hrange : x ∈ Set.Icc 0 100) :
    Rounding.tenths x = roundHalfEven (x * 10) ∧ Rounding.round1 x = roundTo 1 x := by
  have hround : Rounding.round1 x = roundTo 1 x := by
    rw [Rounding.round1_text]
    exact (round1_eq_iff x).mpr (roundsExactly_of_isDouble hx)
  refine ⟨?_, hround⟩
  unfold Rounding.round1 roundTo at hround
  rw [if_neg (not_lt.mpr hrange.1), pow_one, div_left_inj' (by norm_num), Int.cast_inj] at hround
  exact hround

theorem double_round1_tie : Rounding.tenths (125 / 4) = 312 ∧ Rounding.round1 (125 / 4) = 156 / 5 := by
  have hx : IsDouble (125 / 4) := ⟨125, -2, by norm_num, by norm_num⟩
  obtain ⟨htenths, hround⟩ := double_round1 hx ⟨by norm_num, by norm_num⟩
  have hserver : roundHalfEven (125 / 4 * 10) = 312 := by decide +kernel
  constructor
  · rw [htenths, hserver]
  · rw [hround]
    unfold roundTo
    rw [pow_one, hserver]
    norm_num

end NexaHR
