import NexaHR.Properties.GregorianDays

/-! # The Jalali calendar of the pages is the Gregorian one under other names

The leap years follow a rhythm of 33 years that breaks now and then. In every stretch between two breaks a leap
year is a year whose successor begins a day later than usual, and so the two calendars stay in step. Only the
last winter of the table is lost on the way back: its days lie in a Gregorian year whose spring is not in the
table.

* `stretches`, `goodStretch`: the stretches between the breaks.
* `nowruz_succ`: the length of a year.
* `d2j_early`, `d2j_late`: the way back, before the turn of the Gregorian year and after it.
* `jalali_conversions`: both ways, the texts, and the next day.
-/

namespace NexaHR.Jalali

open Foundations

set_option autoImplicit false

/-! ## Stretches -/

def startStretch : Stretch := ⟨-61, -14, 0⟩

/-- The stretch that begins at a break. -/
def advance (s : Stretch) (jm : Int) : Stretch :=
  ⟨jm, s.leapJ + div (jm - s.jp) 33 * 8 + div (mod (jm - s.jp) 33) 4, jm - s.jp⟩

def stretchesFrom (s : Stretch) : List Int → List Stretch
  | [] => []
  | jm :: rest => { s with jump := jm - s.jp } :: stretchesFrom (advance s jm) rest

def stretches : List Stretch := stretchesFrom startStretch breaks.tail

def stretchOf (jy : Int) : Stretch := findStretch jy startStretch breaks.tail

def Stretch.Holds (s : Stretch) (jy : Int) : Prop := s.jp ≤ jy ∧ jy < s.jp + s.jump

theorem findStretch_mem {jy : Int} {s : Stretch} {l : List Int} (hs : s.jp ≤ jy) (hlast : ∃ last ∈ l, jy < last) :
    findStretch jy s l ∈ stretchesFrom s l ∧ (findStretch jy s l).Holds jy := by
  induction l generalizing s with
  | nil =>
    obtain ⟨last, hmem, -⟩ := hlast
    cases hmem
  | cons jm rest ih =>
    unfold findStretch stretchesFrom
    dsimp only
    by_cases hjm : jy < jm
    · rw [if_pos hjm]
      refine ⟨List.mem_cons_self, hs, ?_⟩
      show jy < s.jp + (jm - s.jp)
      omega
    · rw [if_neg hjm]
      obtain ⟨last, hmem, hlt⟩ := hlast
      have hrest : last ∈ rest := by
        cases List.mem_cons.mp hmem with
        | inl heq => exact absurd (heq ▸ hlt) hjm
        | inr hrest => exact hrest
      obtain ⟨hin, hholds⟩ := @ih (advance s jm) (not_lt.mp hjm) ⟨last, hrest, hlt⟩
      exact ⟨List.mem_cons_of_mem _ hin, hholds⟩

/-- The next year is in the same stretch, unless the stretch ends. -/
theorem findStretch_succ {jy : Int} {s : Stretch} {l : List Int}
    (h : jy + 1 < (findStretch jy s l).jp + (findStretch jy s l).jump) (hlast : ∃ last ∈ l, jy < last) :
    findStretch (jy + 1) s l = findStretch jy s l := by
  induction l generalizing s with
  | nil =>
    obtain ⟨last, hmem, -⟩ := hlast
    cases hmem
  | cons jm rest ih =>
    unfold findStretch at h ⊢
    dsimp only at h ⊢
    by_cases hjm : jy < jm
    · rw [if_pos hjm] at h ⊢
      dsimp only at h
      rw [if_pos (by omega)]
    · rw [if_neg hjm] at h ⊢
      rw [if_neg (by omega)]
      obtain ⟨last, hmem, hlt⟩ := hlast
      have hrest : last ∈ rest := by
        cases List.mem_cons.mp hmem with
        | inl heq => exact absurd (heq ▸ hlt) hjm
        | inr hrest => exact hrest
      exact ih h ⟨last, hrest, hlt⟩

theorem stretches_eq : stretches =
    [⟨-61, -14, 70⟩, ⟨9, 3, 29⟩, ⟨38, 10, 161⟩, ⟨199, 49, 227⟩, ⟨426, 104, 260⟩, ⟨686, 167, 70⟩, ⟨756, 184, 62⟩,
      ⟨818, 199, 293⟩, ⟨1111, 270, 70⟩, ⟨1181, 287, 29⟩, ⟨1210, 294, 425⟩, ⟨1635, 397, 425⟩, ⟨2060, 500, 37⟩,
      ⟨2097, 509, 95⟩, ⟨2192, 532, 70⟩, ⟨2262, 549, 62⟩, ⟨2324, 564, 70⟩, ⟨2394, 581, 62⟩, ⟨2456, 596, 722⟩] := rfl

/-! ### A year in its stretch -/

def placeIn (s : Stretch) (n : Int) : Int :=
  if s.jump - n < 6 then n - s.jump + (s.jump + 4) / 33 * 33 else n

/-- How far the year is from the last leap year. -/
def leapIn (s : Stretch) (n : Int) : Int :=
  if (placeIn s n + 1) % 33 = 0 then 4 else ((placeIn s n + 1) % 33 - 1) % 4

/-- The leap years before the year. -/
def leapsBefore (s : Stretch) (n : Int) : Int :=
  s.leapJ + n / 33 * 8 + (n % 33 + 3) / 4 + if s.jump % 33 = 4 ∧ s.jump - n = 4 then 1 else 0

def gregorianLeaps (gy : Int) : Int := gy / 4 - (gy / 100 + 1) * 3 / 4 - 150

/-- The first day of the year lies in March, and a year is a leap year when the next one has one more before it. -/
structure GoodStretch (s : Stretch) : Prop where
  place : ∀ n, 0 ≤ n → n < s.jump → 0 ≤ placeIn s n
  march : ∀ n, 0 ≤ n → n < s.jump →
    20 ≤ 20 + leapsBefore s n - gregorianLeaps (s.jp + n + 621) ∧
      20 + leapsBefore s n - gregorianLeaps (s.jp + n + 621) ≤ 22
  step : ∀ n, 0 ≤ n → n + 1 < s.jump →
    leapsBefore s (n + 1) = leapsBefore s n + (if leapIn s n = 0 then 1 else 0) ∧
      (leapIn s (n + 1) = 1 ↔ leapIn s n = 0)

/-- Away from the end of a stretch the rhythm is regular. -/
theorem regular_step (n : Int) :
    (n + 1) / 33 * 8 + ((n + 1) % 33 + 3) / 4 =
        n / 33 * 8 + (n % 33 + 3) / 4 +
          (if (if (n + 1) % 33 = 0 then 4 else ((n + 1) % 33 - 1) % 4) = 0 then 1 else 0) ∧
      ((if (n + 1 + 1) % 33 = 0 then 4 else ((n + 1 + 1) % 33 - 1) % 4) = 1 ↔
        (if (n + 1) % 33 = 0 then 4 else ((n + 1) % 33 - 1) % 4) = 0) := by
  by_cases hlast : n % 33 = 32
  · have hnext : (n + 1) % 33 = 0 ∧ (n + 1) / 33 = n / 33 + 1 ∧ (n + 1 + 1) % 33 = 1 := by omega
    rw [hnext.1, hnext.2.1, hnext.2.2, hlast, if_pos rfl, if_neg (by omega), if_neg (by omega)]
    omega
  · have hnext : (n + 1) % 33 = n % 33 + 1 ∧ (n + 1) / 33 = n / 33 := by omega
    have hrest : 0 ≤ n % 33 ∧ n % 33 < 32 := by omega
    rw [hnext.1, hnext.2]
    have hafter : (n + 1 + 1) % 33 = if n % 33 = 31 then 0 else n % 33 + 2 := by omega
    rw [hafter]
    clear hnext hafter hlast
    generalize n % 33 = r at hrest ⊢
    generalize n / 33 = q
    obtain ⟨hlow, hhigh⟩ := hrest
    rw [if_neg (by omega : ¬r + 1 = 0)]
    constructor
    · split
      · omega
      · omega
    · split
      · omega
      · omega

def stepOk (s : Stretch) (n : Int) : Bool :=
  decide (leapsBefore s (n + 1) = leapsBefore s n + (if leapIn s n = 0 then 1 else 0)) &&
    (decide (leapIn s (n + 1) = 1) == decide (leapIn s n = 0))

/-- The last years of a stretch are looked at one by one. -/
theorem step_of_ends {s : Stretch} (hends : ∀ k ∈ List.range 7, stepOk s (s.jump - 8 + k) = true) {n : Int}
    (hlt : n + 1 < s.jump) :
    leapsBefore s (n + 1) = leapsBefore s n + (if leapIn s n = 0 then 1 else 0) ∧
      (leapIn s (n + 1) = 1 ↔ leapIn s n = 0) := by
  by_cases hend : s.jump - 8 ≤ n
  · have hok := hends (n - (s.jump - 8)).toNat (List.mem_range.mpr (by omega))
    rw [Int.toNat_of_nonneg (by omega), show s.jump - 8 + (n - (s.jump - 8)) = n by omega] at hok
    unfold stepOk at hok
    rw [Bool.and_eq_true, decide_eq_true_iff, beq_iff_eq, decide_eq_decide] at hok
    exact hok
  · obtain ⟨hstep, hleap⟩ := regular_step n
    unfold leapsBefore leapIn placeIn
    rw [if_neg (by omega : ¬s.jump - n < 6), if_neg (by omega : ¬s.jump - (n + 1) < 6),
      if_neg (by omega : ¬(s.jump % 33 = 4 ∧ s.jump - n = 4)),
      if_neg (by omega : ¬(s.jump % 33 = 4 ∧ s.jump - (n + 1) = 4))]
    exact ⟨by omega, hleap⟩

theorem goodStretch : ∀ s ∈ stretches, GoodStretch s := by
  rw [stretches_eq]
  simp only [List.forall_mem_cons, List.not_mem_nil, false_imp_iff, implies_true, and_true]
  refine ⟨?_, ?_, ?_, ?_, ?_, ?_, ?_, ?_, ?_, ?_, ?_, ?_, ?_, ?_, ?_, ?_, ?_, ?_, ?_⟩
  all_goals
    constructor
    · intro n hn hlt
      unfold placeIn
      dsimp only at hlt ⊢
      split
      · omega
      · omega
    · intro n hn hlt
      unfold leapsBefore gregorianLeaps
      dsimp only at hlt ⊢
      omega
    · intro n hn hlt
      exact step_of_ends (by decide) hlt

/-! ## Years -/

theorem lastBreak {jy : Int} (h : jy < 3178) : ∃ last ∈ breaks.tail, jy < last := ⟨3178, by decide, h⟩

theorem stretchOf_mem {jy : Int} (h : -61 ≤ jy ∧ jy < 3178) : stretchOf jy ∈ stretches ∧ (stretchOf jy).Holds jy :=
  findStretch_mem h.1 (lastBreak h.2)

theorem stretchOf_good {jy : Int} (h : -61 ≤ jy ∧ jy < 3178) : GoodStretch (stretchOf jy) :=
  goodStretch _ (stretchOf_mem h).1

/-- What `jalCal` says about a year, without cut quotients. -/
theorem yearOf_eq {jy : Int} (h : -61 ≤ jy ∧ jy < 3178) :
    yearOf jy =
      ⟨leapIn (stretchOf jy) (jy - (stretchOf jy).jp), jy + 621,
        20 + leapsBefore (stretchOf jy) (jy - (stretchOf jy).jp) - gregorianLeaps (jy + 621)⟩ := by
  obtain ⟨hmem, hlow, hhigh⟩ := stretchOf_mem h
  have hplace := (stretchOf_good h).place (jy - (stretchOf jy).jp) (by omega) (by omega)
  have hjump : 0 ≤ (stretchOf jy).jump := by omega
  have hyear : yearOf jy = (let s := stretchOf jy
    let n := jy - s.jp
    let leapJ := s.leapJ + div n 33 * 8 + div (mod n 33 + 3) 4
    let leapJ := if mod s.jump 33 = 4 ∧ s.jump - n = 4 then leapJ + 1 else leapJ
    let leapG := div (jy + 621) 4 - div ((div (jy + 621) 100 + 1) * 3) 4 - 150
    let n := if s.jump - n < 6 then n - s.jump + div (s.jump + 4) 33 * 33 else n
    let leap := mod (mod (n + 1) 33 - 1) 4
    ⟨if leap = -1 then 4 else leap, jy + 621, 20 + leapJ - leapG⟩) := rfl
  rw [hyear]
  dsimp only
  generalize stretchOf jy = s at *
  generalize hn : jy - s.jp = n at *
  have hnonneg : 0 ≤ n := by omega
  have hhundred : div (jy + 621) 100 = (jy + 621) / 100 := div_eq 100 (by omega)
  have hrest : mod n 33 = n % 33 := mod_eq 33 hnonneg
  have hthirds : div n 33 = n / 33 := div_eq 33 hnonneg
  have hjumps : div (s.jump + 4) 33 = (s.jump + 4) / 33 := div_eq 33 (by omega)
  have hjumpRest : mod s.jump 33 = s.jump % 33 := mod_eq 33 hjump
  rw [hhundred, hrest, hthirds, hjumps, hjumpRest, div_eq 4 (by omega), div_eq 4 (by omega), div_eq 4 (by omega)]
  have hfold : (if s.jump - n < 6 then n - s.jump + (s.jump + 4) / 33 * 33 else n) = placeIn s n := rfl
  have hmod : mod (placeIn s n + 1) 33 = (placeIn s n + 1) % 33 := mod_eq 33 (by omega)
  rw [hfold, hmod]
  congr 1
  · unfold leapIn
    by_cases hzero : (placeIn s n + 1) % 33 = 0
    · rw [hzero, if_pos (by decide), if_pos rfl]
    · have hmod' : mod ((placeIn s n + 1) % 33 - 1) 4 = ((placeIn s n + 1) % 33 - 1) % 4 := mod_eq 4 (by omega)
      rw [hmod', if_neg (by omega), if_neg hzero]
  · unfold leapsBefore gregorianLeaps
    split
    · omega
    · omega

theorem yearOf_march {jy : Int} (h : -61 ≤ jy ∧ jy < 3178) :
    20 ≤ (yearOf jy).march ∧ (yearOf jy).march ≤ 22 := by
  obtain ⟨hmem, hlow, hhigh⟩ := stretchOf_mem h
  have hmarch := (stretchOf_good h).march (jy - (stretchOf jy).jp) (by omega) (by omega)
  rw [show (stretchOf jy).jp + (jy - (stretchOf jy).jp) + 621 = jy + 621 by omega] at hmarch
  rw [yearOf_eq h]
  exact hmarch

/-- The first day of a year. -/
def nowruz (jy : Int) : Int := g2d ⟨jy + 621, 3, (yearOf jy).march⟩

/-- The Gregorian leap years cancel out, and the Jalali ones are left. -/
theorem nowruz_eq {jy : Int} (h : -61 ≤ jy ∧ jy < 3178) :
    nowruz jy = 365 * jy + leapsBefore (stretchOf jy) (jy - (stretchOf jy).jp) + 1947954 := by
  have hmarch : (yearOf jy).march = 20 + leapsBefore (stretchOf jy) (jy - (stretchOf jy).jp) -
      gregorianLeaps (jy + 621) := by
    rw [yearOf_eq h]
  have hleaps : marchDays (jy + 621 + 100100) = 365 * (jy + 621) + gregorianLeaps (jy + 621) + 36560925 := by
    have hquarter : (jy + 621 + 100100) * 1461 / 4 = 365 * (jy + 621 + 100100) + ((jy + 621) / 4 + 25025) := by omega
    have hcentury : (jy + 621 + 100100) / 100 = (jy + 621) / 100 + 1 + 1000 := by omega
    unfold marchDays gregorianLeaps
    rw [hquarter, hcentury]
    omega
  have hyear : marchYear ⟨jy + 621, 3, (yearOf jy).march⟩ = jy + 621 + 100100 := rfl
  have hday : marchDay ⟨jy + 621, 3, (yearOf jy).march⟩ = (yearOf jy).march - 1 := by
    show 0 + (yearOf jy).march - 1 = _
    omega
  unfold nowruz
  rw [g2d_eq (by dsimp only; omega) ⟨by dsimp only; omega, by dsimp only; omega⟩, hyear, hday, hleaps, hmarch]
  omega

def breakOk (jy : Int) : Bool :=
  decide (nowruz jy = nowruz (jy - 1) + 365 + (if (yearOf (jy - 1)).leap = 0 then 1 else 0)) &&
    (decide ((yearOf jy).leap = 1) == decide ((yearOf (jy - 1)).leap = 0))

theorem breaks_ok : ∀ jy ∈ breaks.tail.dropLast, breakOk jy = true := by decide

theorem stretchOf_break : ∀ s ∈ stretches, s.jp + s.jump ∈ breaks.tail := by decide

/-- A leap year is followed by a first year after it, and is a day longer. -/
theorem nowruz_succ {jy : Int} (h : -61 ≤ jy ∧ jy + 1 < 3178) :
    nowruz (jy + 1) = nowruz jy + 365 + (if (yearOf jy).leap = 0 then 1 else 0) ∧
      ((yearOf (jy + 1)).leap = 1 ↔ (yearOf jy).leap = 0) := by
  have hyear : -61 ≤ jy ∧ jy < 3178 := by omega
  have hnext : -61 ≤ jy + 1 ∧ jy + 1 < 3178 := by omega
  obtain ⟨hmem, hlow, hhigh⟩ := stretchOf_mem hyear
  by_cases hend : jy + 1 < (stretchOf jy).jp + (stretchOf jy).jump
  · have hsame : stretchOf (jy + 1) = stretchOf jy := findStretch_succ hend (lastBreak hyear.2)
    have hstep := (stretchOf_good hyear).step (jy - (stretchOf jy).jp) (by omega) (by omega)
    rw [show jy - (stretchOf jy).jp + 1 = jy + 1 - (stretchOf jy).jp by omega] at hstep
    rw [nowruz_eq hnext, nowruz_eq hyear, yearOf_eq hnext, yearOf_eq hyear, hsame]
    dsimp only
    rw [hstep.1]
    exact ⟨by omega, hstep.2⟩
  · have hbreak : jy + 1 ∈ breaks.tail := by
      rw [show jy + 1 = (stretchOf jy).jp + (stretchOf jy).jump by omega]
      exact stretchOf_break _ hmem
    have hinner : jy + 1 ∈ breaks.tail.dropLast := by
      rw [← List.dropLast_append_getLast (l := breaks.tail) (by decide), List.mem_append] at hbreak
      cases hbreak with
      | inl hinner => exact hinner
      | inr hlast =>
        have heq : jy + 1 = 3178 := List.mem_singleton.mp hlast
        omega
    have hok := breaks_ok _ hinner
    unfold breakOk at hok
    rw [Bool.and_eq_true, decide_eq_true_iff, beq_iff_eq, decide_eq_decide, show jy + 1 - 1 = jy by omega] at hok
    exact hok

/-! ## Dates -/

/-- The length of a month, for the years in the table. -/
def monthLength (jy jm : Int) : Int :=
  if jm ≤ 6 then 31 else if jm ≤ 11 then 30 else if (yearOf jy).leap = 0 then 30 else 29

structure ValidJalali (d : JalaliDate) : Prop where
  year : -61 ≤ d.jy ∧ d.jy < 3178
  month : 1 ≤ d.jm ∧ d.jm ≤ 12
  day : ∃ length, jalaliMonthLength d.jy d.jm = .ok length ∧ 1 ≤ d.jd ∧ d.jd ≤ length

theorem inTable_iff {jy : Int} : inTable jy = true ↔ -61 ≤ jy ∧ jy < 3178 := by
  unfold inTable
  rw [Bool.and_eq_true, decide_eq_true_iff, decide_eq_true_iff]

theorem jalCal_eq {jy : Int} (h : -61 ≤ jy ∧ jy < 3178) : jalCal jy = .ok (yearOf jy) := by
  unfold jalCal
  rw [if_pos (inTable_iff.mpr h)]

theorem jalaliMonthLength_eq {jy jm : Int} (h : -61 ≤ jy ∧ jy < 3178) :
    jalaliMonthLength jy jm = .ok (monthLength jy jm) := by
  unfold jalaliMonthLength monthLength isLeapJalaliYear
  rw [jalCal_eq h]
  split
  · rfl
  · split
    · rfl
    · show Except.ok (if decide ((yearOf jy).leap = 0) = true then (30 : Int) else 29) = _
      simp only [decide_eq_true_iff]

theorem ValidJalali.bounds {d : JalaliDate} (h : ValidJalali d) : 1 ≤ d.jd ∧ d.jd ≤ monthLength d.jy d.jm := by
  obtain ⟨length, hlength, hlow, hhigh⟩ := h.day
  rw [jalaliMonthLength_eq h.year] at hlength
  cases hlength
  exact ⟨hlow, hhigh⟩

/-- The place of a date in its year, from 0 on. -/
def yearDay (d : JalaliDate) : Int :=
  if d.jm ≤ 6 then 31 * (d.jm - 1) + d.jd - 1 else 186 + 30 * (d.jm - 7) + d.jd - 1

theorem j2d_eq {d : JalaliDate} (h : ValidJalali d) : j2d d = .ok (nowruz d.jy + yearDay d) := by
  obtain ⟨hlow, hhigh⟩ := h.month
  have hgy : (yearOf d.jy).gy = d.jy + 621 := by rw [yearOf_eq h.year]
  have hshift : div d.jm 7 = if d.jm ≤ 6 then 0 else 1 := by
    rw [div_eq 7 (by omega)]
    omega
  unfold j2d yearDay
  rw [jalCal_eq h.year]
  show Except.ok _ = Except.ok _
  rw [hgy, hshift]
  congr 1
  show nowruz d.jy + _ - _ + _ - 1 = _
  split
  · omega
  · omega

theorem yearDay_bounds {d : JalaliDate} (h : ValidJalali d) :
    0 ≤ yearDay d ∧ yearDay d < 365 + if (yearOf d.jy).leap = 0 then 1 else 0 := by
  obtain ⟨hlow, hhigh⟩ := h.month
  have hday := h.bounds
  unfold monthLength at hday
  unfold yearDay
  split
  · rw [if_pos ‹_›] at hday
    omega
  · rw [if_neg ‹_›] at hday
    split at hday
    · omega
    · omega

/-- In its own year a date is found by its place. -/
theorem fromNowruz_own {d : JalaliDate} (h : ValidJalali d) (leap : Int) :
    fromNowruz d.jy leap (yearDay d) = d := by
  obtain ⟨jy, jm, jd⟩ := d
  have hbounds := h.bounds
  have hmonth := h.month
  dsimp only at hbounds hmonth
  unfold monthLength at hbounds
  unfold fromNowruz
  rw [if_pos (yearDay_bounds h).1]
  by_cases hjm : jm ≤ 6
  · have hplace : yearDay ⟨jy, jm, jd⟩ = 31 * (jm - 1) + (jd - 1) := by
      unfold yearDay
      rw [if_pos hjm]
      dsimp only
      omega
    rw [if_pos hjm] at hbounds
    rw [hplace, if_pos (by omega), div_eq 31 (by omega), mod_eq 31 (by omega)]
    congr 1
    · omega
    · omega
  · have hplace : yearDay ⟨jy, jm, jd⟩ = 186 + (30 * (jm - 7) + (jd - 1)) := by
      unfold yearDay
      rw [if_neg hjm]
      dsimp only
      omega
    have hjd : jd ≤ 30 := by
      rw [if_neg hjm] at hbounds
      split at hbounds
      · omega
      · split at hbounds
        · omega
        · omega
    rw [hplace, if_neg (by omega), div_eq 30 (by omega), mod_eq 30 (by omega)]
    congr 1
    · omega
    · omega

/-- From the next year a date of the second half is found by counting back. -/
theorem fromNowruz_next {d : JalaliDate} (h : ValidJalali d) (hhalf : 6 < d.jm) {leap : Int}
    (hleap : leap = 1 ↔ (yearOf d.jy).leap = 0) :
    fromNowruz (d.jy + 1) leap (yearDay d - (365 + if (yearOf d.jy).leap = 0 then 1 else 0)) = d := by
  have hyearDay := yearDay_bounds h
  obtain ⟨jy, jm, jd⟩ := d
  have hbounds := h.bounds
  have hmonth := h.month
  dsimp only at hbounds hmonth hhalf hleap hyearDay ⊢
  have hplace : yearDay ⟨jy, jm, jd⟩ = 186 + (30 * (jm - 7) + (jd - 1)) := by
    unfold yearDay
    rw [if_neg (by dsimp only; omega)]
    dsimp only
    omega
  have hjd : jd ≤ 30 := by
    unfold monthLength at hbounds
    rw [if_neg (by omega)] at hbounds
    split at hbounds
    · omega
    · split at hbounds
      · omega
      · omega
  have hback : (if leap = 1 then
        yearDay ⟨jy, jm, jd⟩ - (365 + if (yearOf jy).leap = 0 then 1 else 0) + 179 + 1
      else yearDay ⟨jy, jm, jd⟩ - (365 + if (yearOf jy).leap = 0 then 1 else 0) + 179) =
      30 * (jm - 7) + (jd - 1) := by
    simp only [hleap]
    split
    · omega
    · omega
  unfold fromNowruz
  rw [if_neg (by omega)]
  dsimp only
  rw [hback, div_eq 30 (by omega), mod_eq 30 (by omega)]
  congr 1
  · omega
  · omega
  · omega

/-! ## The way back -/

/-- The first day of a Gregorian year. -/
def newYear (gy : Int) : Int := marchDays (gy + 100099) + 306 - 34839655

theorem newYear_eq {gy : Int} (h : 1 ≤ gy) : g2d ⟨gy, 1, 1⟩ = newYear gy := by
  rw [g2d_eq (by dsimp only; omega) ⟨by dsimp only; omega, by dsimp only; omega⟩]
  rfl

theorem newYear_le_succ (gy : Int) : newYear gy ≤ newYear (gy + 1) := by
  have hsucc := marchDays_succ (gy + 100099)
  unfold newYear
  rw [show gy + 1 + 100099 = gy + 100099 + 1 by omega, hsucc]
  split
  · omega
  · omega

theorem newYear_mono {gy gy' : Int} (h : gy ≤ gy') : newYear gy ≤ newYear gy' := by
  obtain ⟨k, rfl⟩ := Int.le.dest h
  clear h
  induction k with
  | zero => exact Int.le_of_eq (congrArg newYear (by omega))
  | succ k ih =>
    have hnext := newYear_le_succ (gy + k)
    rw [show gy + ((k + 1 : Nat) : Int) = gy + k + 1 by omega]
    omega

/-- The years of two days are in the order of their first days. -/
theorem newYear_reflect {gy gy' : Int} (h : newYear gy < newYear gy') : gy < gy' := by
  by_contra hnot
  have hle := @newYear_mono gy' gy (by omega)
  omega

/-- A day lies between the first day of its year and that of the next one. -/
theorem newYear_bounds {g : GregorianDate} (h : ValidGregorian g) :
    newYear g.gy ≤ g2d g ∧ g2d g < newYear (g.gy + 1) := by
  obtain ⟨⟨hlow, hhigh⟩, hlast⟩ := marchDay_bounds h
  obtain ⟨gy, gm, gd⟩ := g
  obtain ⟨hyear, hmonth, hday⟩ := h
  dsimp only at hyear hmonth hday
  have hsucc := marchDays_succ (gy + 100099)
  have hle := (@monthDays_pos gy gm hmonth (by omega)).2
  rw [g2d_eq (by dsimp only; omega) hmonth]
  unfold newYear
  dsimp only
  rw [show gy + 1 + 100099 = gy + 100099 + 1 by omega]
  by_cases hgm : gm ≤ 2
  · have hyears : marchYear ⟨gy, gm, gd⟩ = gy + 100099 := if_pos hgm
    have hplace : 306 ≤ marchDay ⟨gy, gm, gd⟩ := by
      show 306 ≤ (153 * ((gm + 9) % 12) + 2) / 5 + gd - 1
      omega
    rw [hyears] at hlast ⊢
    split at hsucc
    · omega
    · next hshort =>
      have hne : marchDay ⟨gy, gm, gd⟩ ≠ 365 := fun heq => hshort (hlast heq)
      omega
  · have hyears : marchYear ⟨gy, gm, gd⟩ = gy + 100099 + 1 := by
      show (if gm ≤ 2 then gy + 100099 else gy + 100100) = _
      rw [if_neg hgm]
      omega
    have hplace : marchDay ⟨gy, gm, gd⟩ ≤ 305 := by
      have hthirty : gm = 11 → gd ≤ 30 := by
        intro heq
        rw [monthDays_eq hmonth (by omega), if_pos (by omega)] at hday
        omega
      show (153 * ((gm + 9) % 12) + 2) / 5 + gd - 1 ≤ 305
      omega
    rw [hyears]
    split at hsucc
    · omega
    · omega

/-- So the day tells the year. -/
theorem year_of_bounds {g : GregorianDate} (h : ValidGregorian g) {gy : Int} (hlow : newYear gy ≤ g2d g)
    (hhigh : g2d g < newYear (gy + 1)) : g.gy = gy := by
  obtain ⟨hlow', hhigh'⟩ := newYear_bounds h
  have hle : g.gy < gy + 1 := newYear_reflect (hlow'.trans_lt hhigh)
  have hge : gy < g.gy + 1 := newYear_reflect (hlow.trans_lt hhigh')
  omega

def firstDay : GregorianDate := ⟨1, 1, 1⟩

theorem firstDay_valid : ValidGregorian firstDay := ⟨by decide, by decide, by decide⟩

theorem nowruz_place {jy : Int} (h : -61 ≤ jy ∧ jy < 3178) :
    newYear (jy + 621) + 78 ≤ nowruz jy ∧ nowruz jy + 285 ≤ newYear (jy + 622) := by
  have hmarch := yearOf_march h
  have hsucc := marchDays_succ (jy + 621 + 100099)
  have hnowruz : nowruz jy = marchDays (jy + 621 + 100099 + 1) + ((yearOf jy).march - 1) - 34839655 := by
    have hyear : marchYear ⟨jy + 621, 3, (yearOf jy).march⟩ = jy + 621 + 100099 + 1 := by
      show jy + 621 + 100100 = _
      omega
    have hday : marchDay ⟨jy + 621, 3, (yearOf jy).march⟩ = (yearOf jy).march - 1 := by
      show 0 + (yearOf jy).march - 1 = _
      omega
    unfold nowruz
    rw [g2d_eq (by dsimp only; omega) ⟨by dsimp only; omega, by dsimp only; omega⟩, hyear, hday]
  rw [hnowruz]
  unfold newYear
  rw [show jy + 622 + 100099 = jy + 621 + 100099 + 1 by omega]
  split at hsucc
  · omega
  · omega

/-- The day number of a valid date. -/
def dayNumber (d : JalaliDate) : Int := nowruz d.jy + yearDay d

theorem firstDay_le {d : JalaliDate} (h : ValidJalali d) : gregorian.number firstDay ≤ dayNumber d := by
  have hplace := nowruz_place h.year
  have hday := yearDay_bounds h
  have hyear := h.year
  have hmono : newYear 1 ≤ newYear (d.jy + 621) := newYear_mono (by omega)
  show g2d ⟨1, 1, 1⟩ ≤ nowruz d.jy + yearDay d
  rw [newYear_eq (Int.le_refl 1)]
  omega

theorem dayNumber_valid {d : JalaliDate} (h : ValidJalali d) : ValidGregorian (d2g (dayNumber d)) :=
  gregorian_reads.valid firstDay_valid (firstDay_le h)

theorem g2d_dayNumber {d : JalaliDate} (h : ValidJalali d) : g2d (d2g (dayNumber d)) = dayNumber d :=
  gregorian_reads.number firstDay_valid (firstDay_le h)

theorem jalaliToGregorian_eq {d : JalaliDate} (h : ValidJalali d) :
    jalaliToGregorian d = .ok (d2g (dayNumber d)) := by
  unfold jalaliToGregorian
  rw [j2d_eq h]
  rfl

/-- The Gregorian year of a date turns in the winter. -/
theorem gregorianYear {d : JalaliDate} (h : ValidJalali d) :
    (d2g (dayNumber d)).gy = if dayNumber d < newYear (d.jy + 622) then d.jy + 621 else d.jy + 622 := by
  have hplace := nowruz_place h.year
  have hday := yearDay_bounds h
  split
  · next hearly =>
    apply year_of_bounds (dayNumber_valid h)
    · rw [g2d_dayNumber h]
      unfold dayNumber
      omega
    · rw [g2d_dayNumber h, show d.jy + 621 + 1 = d.jy + 622 by omega]
      exact hearly
  · next hlate =>
    have hyear : newYear (d.jy + 622) + 365 ≤ newYear (d.jy + 622 + 1) := by
      have hsucc := marchDays_succ (d.jy + 622 + 100099)
      unfold newYear
      rw [show d.jy + 622 + 1 + 100099 = d.jy + 622 + 100099 + 1 by omega]
      split at hsucc
      · omega
      · omega
    apply year_of_bounds (dayNumber_valid h)
    · rw [g2d_dayNumber h]
      exact not_lt.mp hlate
    · rw [g2d_dayNumber h]
      unfold dayNumber at hlate ⊢
      split at hday
      · omega
      · omega

theorem d2j_of_year {jdn : Int} {gy jy : Int} (hgy : (d2g jdn).gy = gy) (hjy : gy - 621 = jy)
    (h : -61 ≤ jy ∧ jy < 3178) : d2j jdn = .ok (fromNowruz jy (yearOf jy).leap (jdn - nowruz jy)) := by
  subst hjy
  unfold d2j
  dsimp only
  rw [hgy, jalCal_eq h]
  show Except.ok (fromNowruz (gy - 621) _ (jdn - g2d ⟨gy, 3, _⟩)) = _
  unfold nowruz
  rw [show gy - 621 + 621 = gy by omega]

theorem d2j_early {d : JalaliDate} (h : ValidJalali d) (hearly : dayNumber d < newYear (d.jy + 622)) :
    d2j (dayNumber d) = .ok d := by
  have hyear := gregorianYear h
  rw [if_pos hearly] at hyear
  rw [d2j_of_year hyear (by omega) h.year]
  unfold dayNumber
  rw [show nowruz d.jy + yearDay d - nowruz d.jy = yearDay d by omega, fromNowruz_own h]

/-- The turn of the Gregorian year comes in the second half of the Jalali one. -/
theorem month_of_late {d : JalaliDate} (h : ValidJalali d) (hlate : newYear (d.jy + 622) ≤ dayNumber d) :
    6 < d.jm := by
  have hplace := nowruz_place h.year
  have hbounds := h.bounds
  unfold dayNumber yearDay at hlate
  by_contra hjm
  unfold monthLength at hbounds
  rw [if_pos (by omega)] at hlate hbounds
  omega

theorem d2j_late {d : JalaliDate} (h : ValidJalali d) (hlate : newYear (d.jy + 622) ≤ dayNumber d)
    (hnext : d.jy + 1 < 3178) : d2j (dayNumber d) = .ok d := by
  have hrange := h.year
  have hyear := gregorianYear h
  rw [if_neg (not_lt.mpr hlate)] at hyear
  obtain ⟨hlength, hleap⟩ := nowruz_succ ⟨hrange.1, hnext⟩
  rw [d2j_of_year hyear (by omega : d.jy + 622 - 621 = d.jy + 1) (by omega)]
  have hback : dayNumber d - nowruz (d.jy + 1) = yearDay d - (365 + if (yearOf d.jy).leap = 0 then 1 else 0) := by
    unfold dayNumber
    omega
  rw [hback, fromNowruz_next h (month_of_late h hlate) hleap]

/-- The year after the last one of the table is asked for, and it is not there. -/
theorem d2j_last {d : JalaliDate} (h : ValidJalali d) (hlate : newYear (d.jy + 622) ≤ dayNumber d)
    (hlast : d.jy = 3177) : d2j (dayNumber d) = .error (invalidYear 3178) := by
  have hyear := gregorianYear h
  rw [if_neg (not_lt.mpr hlate), hlast] at hyear
  unfold d2j
  rw [hyear]
  rfl

/-! ## The next day -/

def nextJalali (d : JalaliDate) : JalaliDate :=
  if d.jd < monthLength d.jy d.jm then ⟨d.jy, d.jm, d.jd + 1⟩
  else if d.jm < 12 then ⟨d.jy, d.jm + 1, 1⟩
  else ⟨d.jy + 1, 1, 1⟩

theorem monthLength_pos (jy jm : Int) : 29 ≤ monthLength jy jm := by
  unfold monthLength
  split
  · omega
  · split
    · omega
    · split
      · omega
      · omega

theorem valid_of_bounds {jy jm jd : Int} (hyear : -61 ≤ jy ∧ jy < 3178) (hmonth : 1 ≤ jm ∧ jm ≤ 12)
    (hday : 1 ≤ jd ∧ jd ≤ monthLength jy jm) : ValidJalali ⟨jy, jm, jd⟩ :=
  ⟨hyear, hmonth, _, jalaliMonthLength_eq hyear, hday⟩

/-- The next date is valid and has the next number, within the table. -/
theorem nextJalali_number {d : JalaliDate} (h : ValidJalali d) (hin : (nextJalali d).jy < 3178) :
    ValidJalali (nextJalali d) ∧ dayNumber (nextJalali d) = dayNumber d + 1 := by
  obtain ⟨jy, jm, jd⟩ := d
  have hbounds := h.bounds
  have hmonth := h.month
  have hyear := h.year
  dsimp only at hbounds hmonth hyear
  have hdays := monthLength_pos
  unfold nextJalali at hin ⊢
  dsimp only at hin ⊢
  by_cases hday : jd < monthLength jy jm
  · rw [if_pos hday]
    refine ⟨valid_of_bounds hyear hmonth (by omega), ?_⟩
    unfold dayNumber yearDay
    dsimp only
    split
    · omega
    · omega
  · rw [if_neg hday] at hin ⊢
    have hlast : jd = monthLength jy jm := by omega
    by_cases hdecember : jm < 12
    · rw [if_pos hdecember]
      have hpos := hdays jy (jm + 1)
      refine ⟨valid_of_bounds hyear (by omega) (by omega), ?_⟩
      unfold dayNumber yearDay
      dsimp only
      unfold monthLength at hlast
      rw [hlast]
      by_cases hhalf : jm ≤ 6
      · rw [if_pos hhalf, if_pos hhalf]
        split
        · omega
        · omega
      · rw [if_neg hhalf, if_neg hhalf, if_neg (by omega), if_pos (by omega)]
        omega
    · rw [if_neg hdecember] at hin ⊢
      dsimp only at hin
      have hpos := hdays (jy + 1) 1
      refine ⟨valid_of_bounds (by omega) (by omega) (by omega), ?_⟩
      obtain ⟨hlength, -⟩ := nowruz_succ ⟨hyear.1, hin⟩
      unfold dayNumber yearDay
      dsimp only
      unfold monthLength at hlast
      rw [if_neg (by omega), if_neg (by omega)] at hlast
      rw [hlast, hlength, if_pos (by omega : (1 : Int) ≤ 6), if_neg (by omega : ¬jm ≤ 6)]
      split
      · omega
      · omega

/-! ## Texts -/

theorem toString_natCast (n : Nat) : (toString (n : Int)).toList = Nat.toDigits 10 n := by
  show (Nat.repr n).toList = _
  unfold Nat.repr
  exact String.toList_ofList

theorem takeDigits_append {count : Nat} {digits : List Char} (hlength : digits.length = count)
    (hdigits : ∀ c ∈ digits, c.isDigit = true) (rest : List Char) :
    takeDigits count (digits ++ rest) = some (Nat.ofDigitChars 10 digits 0, rest) := by
  subst hlength
  unfold takeDigits
  rw [List.take_left, List.drop_left, if_pos ⟨rfl, List.all_eq_true.mpr hdigits⟩]

theorem takeDash_cons (rest : List Char) : takeDash ('-' :: rest) = some rest := rfl

theorem toDigits_isDigit {n : Nat} : ∀ c ∈ Nat.toDigits 10 n, c.isDigit = true :=
  fun _ hc => Nat.isDigit_of_mem_toDigits (by omega) (by omega) hc

theorem toDigits_length {n k : Nat} (hlow : 10 ^ k ≤ n) (hhigh : n < 10 ^ (k + 1)) :
    (Nat.toDigits 10 n).length = k + 1 := by
  induction k generalizing n with
  | zero =>
    rw [Nat.toDigits_of_lt_base (by omega)]
    rfl
  | succ k ih =>
    rw [Nat.pow_succ] at hlow hhigh
    have hpos : 0 < 10 ^ k := Nat.pow_pos (by omega)
    rw [Nat.toDigits_of_base_le (by omega) (by omega), List.length_append,
      ih (by rw [Nat.le_div_iff_mul_le (by omega)]; omega) (by rw [Nat.div_lt_iff_lt_mul (by omega)]; omega)]
    rfl

/-- Two digits, with a zero before a single one. -/
theorem pad2_digits {n : Nat} (h : n < 100) :
    (pad2 n).length = 2 ∧ (∀ c ∈ pad2 n, c.isDigit = true) ∧ Nat.ofDigitChars 10 (pad2 n) 0 = n := by
  unfold pad2
  dsimp only
  rw [toString_natCast]
  have hlength : (Nat.toDigits 10 n).length ≤ 2 := by
    by_cases hten : n < 10
    · rw [Nat.toDigits_of_lt_base hten]
      exact Nat.le_succ 1
    · rw [@toDigits_length n 1 (by omega) (by omega)]
  refine ⟨?_, ?_, ?_⟩
  · rw [List.length_append, List.length_replicate]
    omega
  · intro c hc
    cases List.mem_append.mp hc with
    | inl hzero =>
      rw [List.eq_of_mem_replicate hzero]
      rfl
    | inr hdigit => exact toDigits_isDigit c hdigit
  · rw [Nat.ofDigitChars_append, Nat.ofDigitChars_replicate_zero, Nat.mul_zero, Nat.ofDigitChars_ten_toDigits]

theorem matchIso_isoText {g : GregorianDate} (h : ValidGregorian g) (hyear : 1000 ≤ g.gy ∧ g.gy ≤ 9999) :
    matchIso (isoText g) = some g := by
  obtain ⟨gy, gm, gd⟩ := g
  have hmonth := h.month
  have hday := h.day
  dsimp only at hyear hmonth hday
  have hle := (@monthDays_pos gy gm hmonth (by omega)).2
  obtain ⟨y, rfl⟩ := Int.eq_ofNat_of_zero_le (by omega : 0 ≤ gy)
  obtain ⟨m, rfl⟩ := Int.eq_ofNat_of_zero_le (by omega : 0 ≤ gm)
  obtain ⟨d, rfl⟩ := Int.eq_ofNat_of_zero_le (by omega : 0 ≤ gd)
  obtain ⟨hmlength, hmdigits, hmvalue⟩ := @pad2_digits m (by omega)
  obtain ⟨hdlength, hddigits, hdvalue⟩ := @pad2_digits d (by omega)
  have hylength : (Nat.toDigits 10 y).length = 4 := toDigits_length (by omega) (by omega)
  have htext : isoText ⟨y, m, d⟩ = Nat.toDigits 10 y ++ ('-' :: (pad2 m ++ ('-' :: (pad2 d ++ [])))) := by
    unfold isoText
    dsimp only
    rw [toString_natCast, List.append_nil, List.append_assoc, List.cons_append]
  unfold matchIso
  rw [htext, takeDigits_append hylength toDigits_isDigit]
  simp only [Option.bind_eq_bind, Option.bind_some]
  rw [takeDash_cons]
  simp only [Option.bind_some]
  rw [takeDigits_append hmlength hmdigits]
  simp only [Option.bind_some]
  rw [takeDash_cons]
  simp only [Option.bind_some]
  rw [takeDigits_append hdlength hddigits, hmvalue, hdvalue, Nat.ofDigitChars_ten_toDigits]
  rfl

/-! ## All together -/

/-- The conversions of a date are inverse to each other, its text gives it back, and the next day stays the next. -/
structure ConversionsAgree (d : JalaliDate) (g : GregorianDate) : Prop where
  back : gregorianToJalali g = .ok d
  again : (gregorianToJalali g).bind jalaliToGregorian = .ok g
  text : (jalaliToIso d).bind (fun iso => isoToJalali (some iso)) = .ok (some d)
  next : jalaliToGregorian (nextJalali d) = .ok (nextGregorian g)

/-- The last days of the last winter in the table. -/
def InLastWinter (d : JalaliDate) : Prop := d.jy = 3177 ∧ (10 < d.jm ∨ (d.jm = 10 ∧ 12 ≤ d.jd))

theorem inLastWinter_iff {d : JalaliDate} (h : ValidJalali d) :
    InLastWinter d ↔ d.jy = 3177 ∧ newYear (d.jy + 622) ≤ dayNumber d := by
  obtain ⟨jy, jm, jd⟩ := d
  have hbounds := h.bounds
  have hmonth := h.month
  have hlast : newYear (3177 + 622) = nowruz 3177 + 287 := by decide
  unfold InLastWinter dayNumber yearDay
  dsimp only at hbounds hmonth ⊢
  constructor
  · intro hin
    obtain ⟨hyear, hday⟩ := hin
    rw [if_neg (by omega), hyear, hlast]
    exact ⟨rfl, by omega⟩
  · intro hin
    obtain ⟨hyear, hday⟩ := hin
    rw [hyear, hlast] at hday
    unfold monthLength at hbounds
    split at hday
    · rw [if_pos ‹_›] at hbounds
      omega
    · rw [if_neg ‹_›] at hbounds
      refine ⟨hyear, ?_⟩
      split at hbounds
      · omega
      · omega

/-- All is well with a date, but for the last winter of the table. -/
theorem jalali_conversions {d : JalaliDate} {g : GregorianDate} (hd : ValidJalali d)
    (hg : jalaliToGregorian d = .ok g) (hyear : 1000 ≤ g.gy ∧ g.gy ≤ 9999) :
    ConversionsAgree d g ↔ ¬InLastWinter d := by
  rw [jalaliToGregorian_eq hd] at hg
  cases hg
  have hback : gregorianToJalali (d2g (dayNumber d)) = d2j (dayNumber d) := by
    unfold gregorianToJalali
    rw [g2d_dayNumber hd]
  rw [inLastWinter_iff hd]
  constructor
  · intro hagree hlast
    have hok := hagree.back
    rw [hback, d2j_last hd hlast.2 hlast.1] at hok
    cases hok
  · intro hlast
    have hrange := hd.year
    have hok : d2j (dayNumber d) = .ok d := by
      by_cases hearly : dayNumber d < newYear (d.jy + 622)
      · exact d2j_early hd hearly
      · have hlate := not_lt.mp hearly
        have hnext : d.jy ≠ 3177 := fun heq => hlast ⟨heq, hlate⟩
        exact d2j_late hd hlate (by omega)
    have hin : (nextJalali d).jy < 3178 := by
      by_contra hout
      apply hlast
      have hbounds := hd.bounds
      have hmonth := hd.month
      have hwinter : InLastWinter d := by
        unfold nextJalali at hout
        unfold InLastWinter
        split at hout
        · dsimp only at hout
          omega
        · split at hout
          · dsimp only at hout
            omega
          · dsimp only at hout
            omega
      exact (inLastWinter_iff hd).mp hwinter
    obtain ⟨hvalid, hnumber⟩ := nextJalali_number hd hin
    refine ⟨?_, ?_, ?_, ?_⟩
    · rw [hback, hok]
    · rw [hback, hok]
      exact jalaliToGregorian_eq hd
    · unfold jalaliToIso
      rw [jalaliToGregorian_eq hd]
      show isoToJalali (some (isoText (d2g (dayNumber d)))) = _
      unfold isoToJalali
      dsimp only
      rw [matchIso_isoText (dayNumber_valid hd) hyear]
      dsimp only
      rw [hback, hok]
      rfl
    · rw [jalaliToGregorian_eq hvalid, hnumber]
      exact congrArg Except.ok (gregorian_reads.next firstDay_valid (firstDay_le hd))

/-- The leap day of 1403. -/
theorem leap_day_agrees : ConversionsAgree ⟨1403, 12, 30⟩ ⟨2025, 3, 20⟩ := by
  have hd : ValidJalali ⟨1403, 12, 30⟩ := ⟨by decide, by decide, 30, by decide, by decide⟩
  exact (jalali_conversions hd (by decide) (by decide)).mpr fun h => absurd h.1 (by decide)

theorem last_winter_throws :
    ¬∀ (d : JalaliDate) (g : GregorianDate), ValidJalali d → jalaliToGregorian d = .ok g →
      1000 ≤ g.gy ∧ g.gy ≤ 9999 → ConversionsAgree d g := by
  intro h
  have hd : ValidJalali ⟨3177, 12, 1⟩ := ⟨by decide, by decide, 29, by decide, by decide⟩
  have hagree := h ⟨3177, 12, 1⟩ ⟨3799, 2, 19⟩ hd (by decide) (by decide)
  have hback : gregorianToJalali ⟨3799, 2, 19⟩ = .error (invalidYear 3178) := by decide
  have hok := hagree.back
  rw [hback] at hok
  cases hok

end NexaHR.Jalali
