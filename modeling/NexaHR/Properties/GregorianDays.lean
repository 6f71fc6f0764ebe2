import NexaHR.Foundations.Numbering
import NexaHR.Pages.Jalali
import Mathlib.Tactic.IntervalCases

/-! # The day numbers of the Gregorian calendar

The pages number the days by a formula in years that begin in March. It counts the days of the Gregorian calendar
one by one, and the other formula reads the date back.

* `ValidGregorian`, `nextGregorian`: the calendar.
* `g2d_eq`: the number of a day by its year from March to February, and its place in it.
* `d2g_g2d`: the date is read back.
* `gregorian`: both together.
-/

namespace NexaHR.Jalali

open Foundations

set_option autoImplicit false

theorem div_eq {a : Int} (b : Int) (h : 0 ≤ a) : div a b = a / b := Int.tdiv_eq_ediv_of_nonneg h

theorem mod_eq {a : Int} (b : Int) (h : 0 ≤ a) : mod a b = a % b := Int.tmod_eq_emod_of_nonneg h

/-! ## The calendar -/

def monthDays (gy gm : Int) : Int := daysInMonth gy.toNat gm.toNat

structure ValidGregorian (g : GregorianDate) : Prop where
  year : 1 ≤ g.gy
  month : 1 ≤ g.gm ∧ g.gm ≤ 12
  day : 1 ≤ g.gd ∧ g.gd ≤ monthDays g.gy g.gm

def nextGregorian (g : GregorianDate) : GregorianDate :=
  if g.gd < monthDays g.gy g.gm then ⟨g.gy, g.gm, g.gd + 1⟩
  else if g.gm < 12 then ⟨g.gy, g.gm + 1, 1⟩
  else ⟨g.gy + 1, 1, 1⟩

def LeapYear (gy : Int) : Prop := gy % 4 = 0 ∧ (gy % 100 ≠ 0 ∨ gy % 400 = 0)

instance (gy : Int) : Decidable (LeapYear gy) := inferInstanceAs (Decidable (_ ∧ _))

theorem isLeapYear_iff {gy : Int} (h : 0 ≤ gy) : isLeapYear gy.toNat = true ↔ LeapYear gy := by
  unfold isLeapYear LeapYear
  rw [Bool.and_eq_true, Bool.or_eq_true, decide_eq_true_iff, decide_eq_true_iff, decide_eq_true_iff]
  omega

theorem monthDays_february {gy : Int} (h : 0 ≤ gy) : monthDays gy 2 = if LeapYear gy then 29 else 28 := by
  unfold monthDays daysInMonth
  rw [if_pos (by decide : Int.toNat 2 = 2)]
  by_cases hleap : LeapYear gy
  · rw [if_pos ((isLeapYear_iff h).mpr hleap), if_pos hleap]
    rfl
  · rw [if_neg fun heq => hleap ((isLeapYear_iff h).mp heq), if_neg hleap]
    rfl

/-- The other months have their days in every year. -/
theorem monthDays_eq {gy gm : Int} (h : 1 ≤ gm ∧ gm ≤ 12) (hgm : gm ≠ 2) :
    monthDays gy gm = if gm = 4 ∨ gm = 6 ∨ gm = 9 ∨ gm = 11 then 30 else 31 := by
  obtain ⟨hlow, hhigh⟩ := h
  unfold monthDays daysInMonth
  rw [if_neg (by omega)]
  have hmem : gm.toNat ∈ [4, 6, 9, 11] ↔ gm = 4 ∨ gm = 6 ∨ gm = 9 ∨ gm = 11 := by
    simp only [List.mem_cons, List.not_mem_nil, or_false]
    omega
  simp only [hmem]
  split
  · rfl
  · rfl

theorem monthDays_pos {gy gm : Int} (h : 1 ≤ gm ∧ gm ≤ 12) (hgy : 0 ≤ gy) :
    28 ≤ monthDays gy gm ∧ monthDays gy gm ≤ 31 := by
  by_cases hgm : gm = 2
  · rw [hgm, monthDays_february hgy]
    split
    · omega
    · omega
  · rw [monthDays_eq h hgm]
    split
    · omega
    · omega

theorem nextGregorian_valid {g : GregorianDate} (h : ValidGregorian g) : ValidGregorian (nextGregorian g) := by
  obtain ⟨hyear, hmonth, hday⟩ := h
  unfold nextGregorian
  split
  · exact ⟨hyear, hmonth, by dsimp only; omega, by dsimp only; omega⟩
  · split
    · have hpos := @monthDays_pos g.gy (g.gm + 1) (by omega) (by omega)
      exact ⟨hyear, by dsimp only; omega, by dsimp only; omega, by dsimp only; omega⟩
    · have hpos := @monthDays_pos (g.gy + 1) 1 (by omega) (by omega)
      exact ⟨by dsimp only; omega, by dsimp only; omega, by dsimp only; omega, by dsimp only; omega⟩

/-! ## Years from March to February -/

/-- The days before a year, counted from March. -/
def marchDays (year : Int) : Int := year * 1461 / 4 - year / 100 * 3 / 4

/-- The days before a month, counted from March. -/
def daysBefore (month : Int) : Int := (153 * month + 2) / 5

def marchYear (g : GregorianDate) : Int := if g.gm ≤ 2 then g.gy + 100099 else g.gy + 100100

def marchDay (g : GregorianDate) : Int := daysBefore ((g.gm + 9) % 12) + g.gd - 1

/-- The year that begins in March has its leap day at its end. -/
def LongYear (year : Int) : Prop := LeapYear (year + 1 - 100100)

instance (year : Int) : Decidable (LongYear year) := inferInstanceAs (Decidable (LeapYear _))

/-- A year in its 400 years: the century, the four years, and the year in them. -/
structure YearParts (year q p a b : Int) : Prop where
  eq : year = 400 * q + 100 * p + 4 * a + b
  century : 0 ≤ p ∧ p < 4
  four : 0 ≤ a ∧ a < 25
  rest : 0 ≤ b ∧ b < 4

theorem yearParts (year : Int) :
    YearParts year (year / 400) (year / 100 % 4) (year % 100 / 4) (year % 4) where
  eq := by omega
  century := by omega
  four := by omega
  rest := by omega

theorem marchDays_parts {year q p a b : Int} (h : YearParts year q p a b) :
    marchDays year = 146097 * q + 36525 * p - 3 * p / 4 + 1461 * a + 365 * b := by
  obtain ⟨heq, ⟨hp, hp'⟩, ⟨ha, ha'⟩, hb, hb'⟩ := h
  have hcentury : year / 100 = 4 * q + p := by omega
  unfold marchDays
  rw [hcentury, heq]
  interval_cases b
  · omega
  · omega
  · omega
  · omega

theorem longYear_parts {year q p a b : Int} (h : YearParts year q p a b) :
    LongYear year ↔ b = 3 ∧ (a < 24 ∨ p = 0) := by
  obtain ⟨heq, ⟨hp, hp'⟩, ⟨ha, ha'⟩, hb, hb'⟩ := h
  unfold LongYear LeapYear
  interval_cases b
  · omega
  · omega
  · omega
  · omega

/-- A year has 365 days, or 366. -/
theorem marchDays_succ (year : Int) :
    marchDays (year + 1) = marchDays year + 365 + if LongYear year then 1 else 0 := by
  have hparts := yearParts year
  generalize year / 400 = q at hparts
  generalize year / 100 % 4 = p at hparts
  generalize year % 100 / 4 = a at hparts
  generalize year % 4 = b at hparts
  rw [marchDays_parts hparts]
  simp only [longYear_parts hparts]
  obtain ⟨heq, hp, ha, hb⟩ := hparts
  by_cases hrest : b < 3
  · have hnext : YearParts (year + 1) q p a (b + 1) := ⟨by omega, hp, ha, by omega⟩
    rw [marchDays_parts hnext, if_neg (by omega)]
    omega
  · by_cases hfour : a < 24
    · have hnext : YearParts (year + 1) q p (a + 1) 0 := ⟨by omega, hp, by omega, by omega⟩
      rw [marchDays_parts hnext, if_pos (by omega)]
      omega
    · by_cases hcentury : p < 3
      · have hnext : YearParts (year + 1) q (p + 1) 0 0 := ⟨by omega, by omega, by omega, by omega⟩
        rw [marchDays_parts hnext]
        split
        · omega
        · omega
      · have hnext : YearParts (year + 1) (q + 1) 0 0 0 := ⟨by omega, by omega, by omega, by omega⟩
        rw [marchDays_parts hnext, if_neg (by omega)]
        omega

theorem g2d_eq {g : GregorianDate} (hyear : -100000 ≤ g.gy) (hmonth : 1 ≤ g.gm ∧ g.gm ≤ 12) :
    g2d g = marchDays (marchYear g) + marchDay g - 34839655 := by
  obtain ⟨hlow, hhigh⟩ := hmonth
  have hshift : div (g.gm - 8) 6 = if g.gm ≤ 2 then -1 else 0 := by
    generalize g.gm = gm at hlow hhigh
    interval_cases gm
    all_goals decide
  have hyear' : marchYear g = g.gy + div (g.gm - 8) 6 + 100100 := by
    rw [hshift]
    unfold marchYear
    split
    · omega
    · omega
  have hnonneg : 0 ≤ marchYear g := by
    unfold marchYear
    split
    · omega
    · omega
  have hsum : g.gy + 100100 + div (g.gm - 8) 6 = marchYear g := by omega
  have hquarter : div (marchYear g * 1461) 4 = marchYear g * 1461 / 4 := div_eq 4 (by omega)
  have hmod : mod (g.gm + 9) 12 = (g.gm + 9) % 12 := mod_eq 12 (by omega)
  have hmonths : div (153 * ((g.gm + 9) % 12) + 2) 5 = (153 * ((g.gm + 9) % 12) + 2) / 5 := div_eq 5 (by omega)
  have hcentury : div (marchYear g) 100 = marchYear g / 100 := div_eq 100 hnonneg
  have hcenturies : div (marchYear g / 100 * 3) 4 = marchYear g / 100 * 3 / 4 := div_eq 4 (by omega)
  unfold g2d
  dsimp only
  rw [hsum, hcentury, hcenturies, hmod, hmonths, ← hyear', hquarter]
  unfold marchDays marchDay daysBefore
  omega

/-! ## Reading the date back -/

/-- The day of a year tells the month and the day in it. -/
def fromMarch (year day : Int) : GregorianDate :=
  let i := day * 5 + 308
  let gm := i / 153 % 12 + 1
  ⟨year - 100100 + div (8 - gm) 6, gm, i % 153 / 5 + 1⟩

theorem d2g_eq {year day : Int} (hyear : 0 ≤ year) (hday : 0 ≤ day ∧ day ≤ 365)
    (hlast : day = 365 → LongYear year) : d2g (marchDays year + day - 34839655) = fromMarch year day := by
  have hparts := yearParts year
  generalize year / 400 = q at hparts
  generalize year / 100 % 4 = p at hparts
  generalize year % 100 / 4 = a at hparts
  generalize year % 4 = b at hparts
  have hlong := longYear_parts hparts
  have hdays := marchDays_parts hparts
  rw [hlong] at hlast
  obtain ⟨heq, hp, ha, hb⟩ := hparts
  obtain ⟨hday, hday'⟩ := hday
  generalize hjdn : marchDays year + day - 34839655 = jdn
  have hcentury : (4 * jdn + 183187720) / 146097 = 300 + 4 * q + p := by omega
  have hj : 4 * jdn + 139361631 + (300 + 4 * q + p) * 3 / 4 * 4 - 3908 = 1461 * year + (4 * day + 3 - b) := by omega
  have hyear' : (1461 * year + (4 * day + 3 - b)) / 1461 = year := by omega
  have hrest : (1461 * year + (4 * day + 3 - b)) % 1461 / 4 = day := by omega
  have hmod : mod (1461 * year + (4 * day + 3 - b)) 1461 = (1461 * year + (4 * day + 3 - b)) % 1461 :=
    mod_eq 1461 (by omega)
  unfold d2g fromMarch
  dsimp only
  rw [div_eq 146097 (by omega), hcentury, div_eq 4 (by omega), hj, hmod, div_eq 4 (by omega), hrest,
    div_eq 1461 (by omega), hyear', div_eq 153 (by omega), mod_eq 153 (by omega), mod_eq 12 (by omega),
    div_eq 5 (by omega)]

/-- The months from March on follow a formula of their own. -/
theorem fromMarch_marchDay {g : GregorianDate} (h : ValidGregorian g) :
    fromMarch (marchYear g) (marchDay g) = g := by
  obtain ⟨gy, gm, gd⟩ := g
  obtain ⟨hyear, hmonth, hday⟩ := h
  dsimp only at hyear hmonth hday
  have hle := (@monthDays_pos gy gm hmonth (by omega)).2
  have hthirty : gm = 4 ∨ gm = 6 ∨ gm = 9 ∨ gm = 11 → gd ≤ 30 := by
    intro hgm
    rw [monthDays_eq hmonth (by omega), if_pos hgm] at hday
    omega
  have hplace : marchDay ⟨gy, gm, gd⟩ * 5 + 308 = (153 * ((gm + 9) % 12) + 2) / 5 * 5 + gd * 5 + 303 := by
    unfold marchDay daysBefore
    dsimp only
    omega
  have htwo : gm = 2 → gd ≤ 29 := by
    intro hgm
    rw [hgm, monthDays_february (by omega)] at hday
    split at hday
    · omega
    · omega
  obtain ⟨hlow, hhigh⟩ := hmonth
  have hi : (marchDay ⟨gy, gm, gd⟩ * 5 + 308) / 153 = (gm + 9) % 12 + 2 ∧
      (marchDay ⟨gy, gm, gd⟩ * 5 + 308) % 153 / 5 = gd - 1 := by
    rw [hplace]
    clear hplace
    interval_cases gm
    all_goals omega
  have hmonth : ((gm + 9) % 12 + 2) % 12 + 1 = gm := by omega
  have hshift : div (8 - gm) 6 = if gm ≤ 2 then 1 else 0 := by
    clear hplace hi hmonth hthirty htwo hle hday
    interval_cases gm
    all_goals decide
  unfold fromMarch
  dsimp only
  rw [hi.1, hi.2, hmonth, hshift]
  unfold marchYear
  dsimp only
  split
  · congr 1
    · omega
    · omega
  · congr 1
    · omega
    · omega

/-- A day of a year from March to February, and when it is the last one of a long year. -/
theorem marchDay_bounds {g : GregorianDate} (h : ValidGregorian g) :
    (0 ≤ marchDay g ∧ marchDay g ≤ 365) ∧ (marchDay g = 365 → LongYear (marchYear g)) := by
  obtain ⟨gy, gm, gd⟩ := g
  obtain ⟨hyear, hmonth, hday⟩ := h
  dsimp only at hyear hmonth hday
  by_cases hgm : gm = 2
  · subst hgm
    rw [monthDays_february (by omega)] at hday
    have hlong : LongYear (marchYear ⟨gy, 2, gd⟩) ↔ LeapYear gy := by
      unfold LongYear marchYear
      rw [if_pos (by decide : (2 : Int) ≤ 2), show gy + 100099 + 1 - 100100 = gy by omega]
    have hplace : marchDay ⟨gy, 2, gd⟩ = 336 + gd := by
      show (153 * ((2 + 9) % 12) + 2) / 5 + gd - 1 = _
      omega
    rw [hlong, hplace]
    by_cases hleap : LeapYear gy
    · rw [if_pos hleap] at hday
      exact ⟨by omega, fun _ => hleap⟩
    · rw [if_neg hleap] at hday
      exact ⟨by omega, fun hlast => by omega⟩
  · rw [monthDays_eq hmonth hgm] at hday
    have hplace : 0 ≤ marchDay ⟨gy, gm, gd⟩ ∧ marchDay ⟨gy, gm, gd⟩ ≤ 336 := by
      show 0 ≤ (153 * ((gm + 9) % 12) + 2) / 5 + gd - 1 ∧ (153 * ((gm + 9) % 12) + 2) / 5 + gd - 1 ≤ 336
      split at hday
      · omega
      · omega
    exact ⟨by omega, fun hlast => by omega⟩

theorem d2g_g2d {g : GregorianDate} (h : ValidGregorian g) : d2g (g2d g) = g := by
  have hyear := h.year
  obtain ⟨hday, hlast⟩ := marchDay_bounds h
  have hnonneg : 0 ≤ marchYear g := by
    unfold marchYear
    split
    · omega
    · omega
  rw [g2d_eq (by omega) h.month, d2g_eq hnonneg hday hlast]
  exact fromMarch_marchDay h

/-! ## Counting the days -/

/-- In a month the days are counted one by one. -/
theorem g2d_add {gy gm gd : Int} (hyear : 1 ≤ gy) (hmonth : 1 ≤ gm ∧ gm ≤ 12) (k : Int) :
    g2d ⟨gy, gm, gd + k⟩ = g2d ⟨gy, gm, gd⟩ + k := by
  rw [g2d_eq (by dsimp only; omega) hmonth, g2d_eq (by dsimp only; omega) hmonth]
  have hplace : marchDay ⟨gy, gm, gd + k⟩ = marchDay ⟨gy, gm, gd⟩ + k := by
    unfold marchDay
    dsimp only
    omega
  have hsame : marchYear ⟨gy, gm, gd + k⟩ = marchYear ⟨gy, gm, gd⟩ := rfl
  rw [hplace, hsame]
  omega

/-- The first day of a month follows the last day of the month before. -/
theorem g2d_month {gy gm : Int} (hyear : 1 ≤ gy) (hmonth : 1 ≤ gm ∧ gm < 12) :
    g2d ⟨gy, gm + 1, 1⟩ = g2d ⟨gy, gm, monthDays gy gm⟩ + 1 := by
  rw [g2d_eq (by dsimp only; omega) ⟨by dsimp only; omega, by dsimp only; omega⟩,
    g2d_eq (by dsimp only; omega) ⟨by dsimp only; omega, by dsimp only; omega⟩]
  by_cases hgm : gm = 2
  · subst hgm
    have hsucc := marchDays_succ (gy + 100099)
    have hlong : LongYear (gy + 100099) ↔ LeapYear gy := by
      unfold LongYear
      rw [show gy + 100099 + 1 - 100100 = gy by omega]
    have hbefore : marchYear ⟨gy, 2, monthDays gy 2⟩ = gy + 100099 := rfl
    have hafter : marchYear ⟨gy, 2 + 1, 1⟩ = gy + 100099 + 1 := by
      show gy + 100100 = _
      omega
    have hplace : marchDay ⟨gy, 2, monthDays gy 2⟩ = 336 + monthDays gy 2 := by
      show (153 * ((2 + 9) % 12) + 2) / 5 + monthDays gy 2 - 1 = _
      omega
    have hfirst : marchDay ⟨gy, 2 + 1, 1⟩ = 0 := rfl
    simp only [hlong] at hsucc
    rw [hbefore, hafter, hplace, hfirst, hsucc, monthDays_february (by omega)]
    split
    · omega
    · omega
  · have hyears : marchYear ⟨gy, gm + 1, 1⟩ = marchYear ⟨gy, gm, monthDays gy gm⟩ := by
      unfold marchYear
      dsimp only
      split
      · rw [if_pos (by omega)]
      · rw [if_neg (by omega)]
    have hplace : marchDay ⟨gy, gm + 1, 1⟩ = marchDay ⟨gy, gm, monthDays gy gm⟩ + 1 := by
      rw [monthDays_eq ⟨hmonth.1, by omega⟩ hgm]
      unfold marchDay daysBefore
      dsimp only
      obtain ⟨hlow, hhigh⟩ := hmonth
      interval_cases gm
      all_goals first
        | exact absurd rfl hgm
        | decide
    rw [hyears, hplace]
    omega

theorem g2d_year {gy : Int} (hyear : 1 ≤ gy) : g2d ⟨gy + 1, 1, 1⟩ = g2d ⟨gy, 12, 31⟩ + 1 := by
  rw [g2d_eq (by dsimp only; omega) ⟨by dsimp only; omega, by dsimp only; omega⟩,
    g2d_eq (by dsimp only; omega) ⟨by dsimp only; omega, by dsimp only; omega⟩]
  have hsame : marchYear ⟨gy + 1, 1, 1⟩ = marchYear ⟨gy, 12, 31⟩ := by
    show gy + 1 + 100099 = gy + 100100
    omega
  rw [hsame]
  have hplace : marchDay ⟨gy + 1, 1, 1⟩ = marchDay ⟨gy, 12, 31⟩ + 1 := by
    show (306 : Int) = 305 + 1
    omega
  rw [hplace]
  omega

theorem g2d_next {g : GregorianDate} (h : ValidGregorian g) : g2d (nextGregorian g) = g2d g + 1 := by
  obtain ⟨gy, gm, gd⟩ := g
  obtain ⟨hyear, hmonth, hday⟩ := h
  dsimp only at hyear hmonth hday
  unfold nextGregorian
  dsimp only
  split
  · exact g2d_add hyear hmonth 1
  · have hlast : gd = monthDays gy gm := by omega
    rw [hlast]
    split
    · next hgm => exact g2d_month hyear ⟨hmonth.1, hgm⟩
    · next hgm =>
      have hdecember : gm = 12 := by omega
      subst hdecember
      rw [monthDays_eq hmonth (by decide), if_neg (by decide)]
      exact g2d_year hyear

/-- The day numbers count the days of the calendar. -/
def gregorian : Numbering GregorianDate where
  Valid := ValidGregorian
  next := nextGregorian
  number := g2d
  next_valid := fun _ h => nextGregorian_valid h
  number_next := fun _ h => g2d_next h

theorem gregorian_reads : gregorian.Reads d2g := fun _ h => d2g_g2d h

end NexaHR.Jalali
