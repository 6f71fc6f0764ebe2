import NexaHR.Pages.DatePicker
import NexaHR.Properties.JalaliDates

/-! # Keys in the date picker

* `number`: the day number of a day that may lie outside of its month.
* `goBack_number`, `goForward_number`: the two loops leave the number as it is, and end in the month of the day.
* `arrows_add_up`: any arrows together move the focus by as many days as they say.
* `makeDay_eq`: the clock of the browser and the day numbers of the pages count alike.
* `days_stand_under_their_weekdays`: the grid shows every day of the month once, in the column of its weekday.
-/

namespace NexaHR.Jalali

set_option autoImplicit false

/-! ## Days outside of their month -/

def number (y m d : Int) : Int := nowruz y + yearDay ⟨y, m, d⟩

/-- The number of the first day of the table, and of the first day behind it. -/
def firstNumber : Int := nowruz (-61)

def endNumber : Int := nowruz 3177 + 365 + if (yearOf 3177).leap = 0 then 1 else 0

def InCalendar (n : Int) : Prop := firstNumber ≤ n ∧ n < endNumber

/-- A month of the table. -/
def InMonths (y m : Int) : Prop := (-61 ≤ y ∧ y < 3178) ∧ 1 ≤ m ∧ m ≤ 12

theorem number_shift (y m d k : Int) : number y m (d + k) = number y m d + k := by
  unfold number yearDay
  dsimp only
  split
  · omega
  · omega

/-- The day behind the last one of a month is the first one of the next. -/
theorem number_next {y m : Int} (h : InMonths y m) : number y (m + 1) 1 = number y m 1 + monthLength y m ∨ m = 12 := by
  by_cases hlast : m = 12
  · exact Or.inr hlast
  · obtain ⟨_, hlow, hhigh⟩ := h
    refine Or.inl ?_
    unfold number yearDay monthLength
    dsimp only
    by_cases hhalf : m ≤ 5
    · rw [if_pos (by omega), if_pos (by omega), if_pos (by omega)]
      omega
    · by_cases hsix : m = 6
      · subst hsix
        rw [if_neg (by omega), if_pos (by omega), if_pos (by omega)]
        omega
      · rw [if_neg (by omega), if_neg (by omega), if_neg (by omega), if_pos (by omega)]
        omega

theorem number_year {y : Int} (h : -61 ≤ y ∧ y + 1 < 3178) :
    number (y + 1) 1 1 = number y 12 1 + monthLength y 12 := by
  have hsucc := (nowruz_succ h).1
  unfold number yearDay monthLength
  dsimp only
  rw [if_pos (by omega), if_neg (by omega), if_neg (by omega), if_neg (by omega)]
  split at hsucc
  · next hleap =>
    rw [if_pos hleap]
    omega
  · next hleap =>
    rw [if_neg hleap]
    omega

theorem nowruz_le {y y' : Int} (hlow : -61 ≤ y) (hle : y ≤ y') (hhigh : y' < 3178) : nowruz y ≤ nowruz y' := by
  obtain ⟨k, rfl⟩ := Int.le.dest hle
  clear hle
  induction k with
  | zero => exact Int.le_of_eq (congrArg nowruz (by omega))
  | succ k ih =>
    have hbefore := ih (by omega)
    have hsucc := (@nowruz_succ (y + k) ⟨by omega, by omega⟩).1
    rw [show y + ((k + 1 : Nat) : Int) = y + k + 1 by omega]
    split at hsucc
    · omega
    · omega

/-- A year is over before a later one begins. -/
theorem dayNumber_lt {d d' : JalaliDate} (h : ValidJalali d) (h' : ValidJalali d') (hlt : d.jy < d'.jy) :
    dayNumber d < dayNumber d' := by
  have hyear := h.year
  have hyear' := h'.year
  have hsucc := (@nowruz_succ d.jy ⟨hyear.1, by omega⟩).1
  have hle := @nowruz_le (d.jy + 1) d'.jy (by omega) (by omega) hyear'.2
  have hday := yearDay_bounds h
  have hday' := yearDay_bounds h'
  unfold dayNumber
  omega

/-- A day number belongs to one date only. -/
theorem dayNumber_inj {d d' : JalaliDate} (h : ValidJalali d) (h' : ValidJalali d')
    (heq : dayNumber d = dayNumber d') : d = d' := by
  have hyear : d.jy = d'.jy := by
    by_contra hne
    cases Int.lt_or_gt_of_ne hne with
    | inl hlt =>
      have hbefore := dayNumber_lt h h' hlt
      omega
    | inr hgt =>
      have hafter := dayNumber_lt h' h hgt
      omega
  have hday : yearDay d = yearDay d' := by
    unfold dayNumber at heq
    rw [hyear] at heq
    omega
  rw [← fromNowruz_own h 0, ← fromNowruz_own h' 0, hyear, hday]

theorem number_first (y m d : Int) : number y m d = number y m 1 + (d - 1) := by
  rw [← number_shift]
  congr 1
  omega

/-- The month before, for a day of the calendar that lies before its month. -/
theorem before_ok {y m d : Int} (h : InMonths y m) (hd : d < 1) (hin : firstNumber ≤ number y m d) :
    InMonths (monthBefore y m).1 (monthBefore y m).2 ∧
      number (monthBefore y m).1 (monthBefore y m).2 (d + monthLength (monthBefore y m).1 (monthBefore y m).2) =
        number y m d := by
  obtain ⟨hyear, hlow, hhigh⟩ := h
  unfold monthBefore
  by_cases hm : m - 1 < 1
  · have hfirst : m = 1 := by omega
    subst hfirst
    have hnot : y ≠ -61 := by
      intro hy
      subst hy
      unfold firstNumber number yearDay at hin
      dsimp only at hin
      rw [if_pos (by decide)] at hin
      omega
    have hnumber := @number_year (y - 1) ⟨by omega, by omega⟩
    rw [show y - 1 + 1 = y by omega] at hnumber
    rw [if_pos hm]
    refine ⟨⟨by omega, by omega⟩, ?_⟩
    rw [number_shift, number_first y 1, number_first (y - 1) 12, hnumber]
    dsimp only
    omega
  · rw [if_neg hm]
    have hmonths : InMonths y (m - 1) := ⟨hyear, by omega, by omega⟩
    refine ⟨hmonths, ?_⟩
    have hnumber := number_next hmonths
    rw [show m - 1 + 1 = m by omega] at hnumber
    rw [number_shift, number_first y m, number_first y (m - 1)]
    dsimp only
    omega

/-- The month after, for a day of the calendar that lies behind its month. -/
theorem after_ok {y m d : Int} (h : InMonths y m) (hd : monthLength y m < d) (hin : number y m d < endNumber) :
    InMonths (monthAfter y m).1 (monthAfter y m).2 ∧
      number (monthAfter y m).1 (monthAfter y m).2 (d - monthLength y m) = number y m d := by
  obtain ⟨hyear, hlow, hhigh⟩ := h
  unfold monthAfter
  by_cases hm : 12 < m + 1
  · have hlast : m = 12 := by omega
    subst hlast
    have hnot : y ≠ 3177 := by
      intro hy
      subst hy
      unfold endNumber number yearDay at hin
      unfold monthLength at hd
      dsimp only at hin
      rw [if_neg (by decide)] at hin
      rw [if_neg (by decide), if_neg (by decide)] at hd
      split at hd
      · next hleap =>
        rw [if_pos hleap] at hin
        omega
      · next hleap =>
        rw [if_neg hleap] at hin
        omega
    have hnumber := @number_year y ⟨by omega, by omega⟩
    rw [if_pos hm]
    refine ⟨⟨by omega, by omega⟩, ?_⟩
    rw [number_first (y + 1) 1, number_first y 12 d, hnumber]
    omega
  · rw [if_neg hm]
    refine ⟨⟨hyear, by omega, by omega⟩, ?_⟩
    have hnumber := @number_next y m ⟨hyear, hlow, hhigh⟩
    rw [number_first y (m + 1), number_first y m d]
    omega

/-! ## The loops -/

theorem goBack_number {y m d : Int} (h : InMonths y m) (hin : firstNumber ≤ number y m d) :
    ∃ r, goBack y m d = .ok r ∧ InMonths r.jy r.jm ∧ 1 ≤ r.jd ∧ number r.jy r.jm r.jd = number y m d := by
  induction y, m, d using goBack.induct with
  | case1 y m d hd length hlength ih =>
    obtain ⟨hmonths, hnumber⟩ := before_ok h hd hin
    have heq := hlength
    rw [jalaliMonthLength_eq hmonths.1] at heq
    cases heq
    obtain ⟨r, hr, hin', hpos, hsame⟩ := ih hmonths (by rw [hnumber]; exact hin)
    refine ⟨r, ?_, hin', hpos, hsame.trans hnumber⟩
    rw [goBack, if_pos hd]
    split
    · next hlength' =>
      rw [hlength] at hlength'
      cases hlength'
      exact hr
    · next herror =>
      rw [hlength] at herror
      cases herror
  | case2 y m d hd e herror =>
    obtain ⟨hmonths, _⟩ := before_ok h hd hin
    rw [jalaliMonthLength_eq hmonths.1] at herror
    cases herror
  | case3 y m d hd =>
    rw [goBack, if_neg hd]
    exact ⟨_, rfl, h, not_lt.mp hd, rfl⟩

theorem goForward_number {y m d : Int} (h : InMonths y m) (hd : 1 ≤ d) (hin : number y m d < endNumber) :
    ∃ r, goForward y m d = .ok r ∧ ValidJalali r ∧ dayNumber r = number y m d := by
  induction y, m, d using goForward.induct with
  | case1 y m d length hlength hlong ih =>
    have heq := hlength
    rw [jalaliMonthLength_eq h.1] at heq
    cases heq
    obtain ⟨hmonths, hnumber⟩ := after_ok h hlong hin
    obtain ⟨r, hr, hvalid, hsame⟩ := ih hmonths (by omega) (by rw [hnumber]; exact hin)
    refine ⟨r, ?_, hvalid, hsame.trans hnumber⟩
    rw [goForward]
    split
    · next hlength' =>
      rw [hlength] at hlength'
      cases hlength'
      rw [if_pos hlong]
      exact hr
    · next herror =>
      rw [hlength] at herror
      cases herror
  | case2 y m d length hlength hshort =>
    refine ⟨⟨y, m, d⟩, ?_, ⟨h.1, h.2, length, hlength, hd, not_lt.mp hshort⟩, rfl⟩
    rw [goForward]
    split
    · next hlength' =>
      rw [hlength] at hlength'
      cases hlength'
      rw [if_neg hshort]
    · next herror =>
      rw [hlength] at herror
      cases herror
  | case3 y m d e herror =>
    rw [jalaliMonthLength_eq h.1] at herror
    cases herror

/-! ## One key -/

/-- The active day moves by the days that are asked for, within the calendar. -/
theorem moveActiveDay_moves {g : Grid} (h : ValidJalali g.date) {delta : Int}
    (hin : InCalendar (dayNumber g.date + delta)) :
    ∃ g', moveActiveDay g delta = .ok g' ∧ ValidJalali g'.date ∧ dayNumber g'.date = dayNumber g.date + delta := by
  have htarget : number g.viewYear g.viewMonth (g.activeDay + delta) = dayNumber g.date + delta := number_shift ..
  obtain ⟨back, hback, hmonths, hpos, hnumber⟩ :=
    @goBack_number g.viewYear g.viewMonth (g.activeDay + delta) ⟨h.year, h.month⟩ (by rw [htarget]; exact hin.1)
  obtain ⟨forward, hforward, hvalid, hsame⟩ :=
    goForward_number hmonths hpos (by rw [hnumber, htarget]; exact hin.2)
  refine ⟨⟨forward.jy, forward.jm, forward.jd⟩, ?_, hvalid, ?_⟩
  · unfold moveActiveDay
    rw [hback]
    show (goForward back.jy back.jm back.jd >>= _) = _
    rw [hforward]
    rfl
  · exact hsame.trans (hnumber.trans htarget)

/-- Whatever the loops end with is a day from the first on, of a month from 1 to 12. -/
theorem goBack_month {y m d : Int} {r : JalaliDate} (hm : 1 ≤ m ∧ m ≤ 12) (h : goBack y m d = .ok r) :
    (1 ≤ r.jm ∧ r.jm ≤ 12) ∧ 1 ≤ r.jd := by
  induction y, m, d using goBack.induct with
  | case1 y m d hd length hlength ih =>
    rw [goBack, if_pos hd] at h
    have hbefore : 1 ≤ (monthBefore y m).2 ∧ (monthBefore y m).2 ≤ 12 := by
      unfold monthBefore
      split
      · dsimp only
        omega
      · dsimp only
        omega
    split at h
    · next hlength' =>
      rw [hlength] at hlength'
      cases hlength'
      exact ih hbefore h
    · cases h
  | case2 y m d hd e herror =>
    rw [goBack, if_pos hd] at h
    split at h
    · next hlength' =>
      rw [herror] at hlength'
      cases hlength'
    · cases h
  | case3 y m d hd =>
    rw [goBack, if_neg hd] at h
    cases h
    exact ⟨hm, not_lt.mp hd⟩

theorem goForward_month {y m d : Int} {r : JalaliDate} (hm : 1 ≤ m ∧ m ≤ 12) (hd : 1 ≤ d)
    (h : goForward y m d = .ok r) : (1 ≤ r.jm ∧ r.jm ≤ 12) ∧ 1 ≤ r.jd := by
  induction y, m, d using goForward.induct with
  | case1 y m d length hlength hlong ih =>
    rw [goForward] at h
    have hafter : 1 ≤ (monthAfter y m).2 ∧ (monthAfter y m).2 ≤ 12 := by
      unfold monthAfter
      split
      · dsimp only
        omega
      · dsimp only
        omega
    split at h
    · next hlength' =>
      rw [hlength] at hlength'
      cases hlength'
      rw [if_pos hlong] at h
      exact ih hafter (by omega) h
    · cases h
  | case2 y m d length hlength hshort =>
    rw [goForward] at h
    split at h
    · next hlength' =>
      rw [hlength] at hlength'
      cases hlength'
      rw [if_neg hshort] at h
      cases h
      exact ⟨hm, hd⟩
    · cases h
  | case3 y m d e herror =>
    rw [goForward] at h
    split at h
    · next hlength' =>
      rw [herror] at hlength'
      cases hlength'
    · cases h

theorem moveActiveDay_month {g g' : Grid} {delta : Int} (hm : 1 ≤ g.viewMonth ∧ g.viewMonth ≤ 12)
    (h : moveActiveDay g delta = .ok g') : (1 ≤ g'.viewMonth ∧ g'.viewMonth ≤ 12) ∧ 1 ≤ g'.activeDay := by
  unfold moveActiveDay at h
  cases hback : goBack g.viewYear g.viewMonth (g.activeDay + delta) with
  | error e =>
    rw [hback] at h
    cases h
  | ok back =>
    obtain ⟨hmonth, hpos⟩ := goBack_month hm hback
    cases hforward : goForward back.jy back.jm back.jd with
    | error e =>
      simp [hback, hforward, bind, Except.bind] at h
    | ok forward =>
      simp only [hback, hforward, bind, Except.bind, pure, Except.pure, Except.ok.injEq] at h
      subst h
      exact goForward_month hmonth hpos hforward

theorem backMonths_month (y m : Int) : 1 ≤ (backMonths y m).2 ∧ (m ≤ 12 → (backMonths y m).2 ≤ 12) := by
  induction y, m using backMonths.induct with
  | case1 y m hm ih =>
    rw [backMonths, if_pos hm]
    exact ⟨ih.1, fun _ => ih.2 (by omega)⟩
  | case2 y m hm =>
    rw [backMonths, if_neg hm]
    exact ⟨not_lt.mp hm, fun h => h⟩

theorem forwardMonths_month (y m : Int) : (forwardMonths y m).2 ≤ 12 ∧ (1 ≤ m → 1 ≤ (forwardMonths y m).2) := by
  induction y, m using forwardMonths.induct with
  | case1 y m hm ih =>
    rw [forwardMonths, if_pos hm]
    exact ⟨ih.1, fun _ => ih.2 (by omega)⟩
  | case2 y m hm =>
    rw [forwardMonths, if_neg hm]
    exact ⟨not_lt.mp hm, fun h => h⟩

theorem moveActiveMonth_month (g : Grid) (delta : Int) :
    1 ≤ (moveActiveMonth g delta).viewMonth ∧ (moveActiveMonth g delta).viewMonth ≤ 12 :=
  ⟨(forwardMonths_month _ _).2 (backMonths_month _ _).1, (forwardMonths_month _ _).1⟩

/-- A key leads to some month, and to a day that is not before it. -/
theorem onDayGridKeyDown_month {g g' : Grid} {key : GridKey} (hg : ValidJalali g.date)
    (h : onDayGridKeyDown g key = .ok g') : (1 ≤ g'.viewMonth ∧ g'.viewMonth ≤ 12) ∧ 1 ≤ g'.activeDay := by
  have hday : 1 ≤ g.activeDay := hg.bounds.1
  cases key with
  | arrowRight => exact moveActiveDay_month hg.month h
  | arrowLeft => exact moveActiveDay_month hg.month h
  | arrowUp => exact moveActiveDay_month hg.month h
  | arrowDown => exact moveActiveDay_month hg.month h
  | pageUp =>
    cases h
    exact ⟨moveActiveMonth_month g (-1), hday⟩
  | pageDown =>
    cases h
    exact ⟨moveActiveMonth_month g 1, hday⟩
  | home =>
    cases h
    exact ⟨hg.month, Int.le_refl 1⟩
  | last =>
    have hyear : -61 ≤ g.viewYear ∧ g.viewYear < 3178 := hg.year
    unfold onDayGridKeyDown at h
    rw [jalaliMonthLength_eq hyear] at h
    cases h
    have hpos := monthLength_pos g.viewYear g.viewMonth
    exact ⟨hg.month, by dsimp only; omega⟩

/-! ## The rendering after it -/

theorem weekday_inTable {jy jm jd w : Int} (h : jalaliWeekday jy jm jd = .ok w) : -61 ≤ jy ∧ jy < 3178 := by
  unfold jalaliWeekday jalaliToGregorian j2d jalCal at h
  split at h
  · next hin => exact inTable_iff.mp hin
  · cases h

theorem cells_eq {g : Grid} (h : InMonths g.viewYear g.viewMonth) :
    ∃ w, jalaliWeekday g.viewYear g.viewMonth 1 = .ok w ∧ cells g = .ok (List.replicate w.toNat none ++
      (List.range (monthLength g.viewYear g.viewMonth).toNat).map fun i : Nat => some ((i : Int) + 1)) := by
  have hpos := monthLength_pos g.viewYear g.viewMonth
  have hfirst : ValidJalali ⟨g.viewYear, g.viewMonth, 1⟩ := valid_of_bounds h.1 h.2 ⟨Int.le_refl 1, by omega⟩
  have hweekday : jalaliWeekday g.viewYear g.viewMonth 1 =
      .ok (mod (getDay (d2g (dayNumber ⟨g.viewYear, g.viewMonth, 1⟩)) + 1) 7) := by
    unfold jalaliWeekday
    rw [jalaliToGregorian_eq hfirst]
    rfl
  refine ⟨_, hweekday, ?_⟩
  unfold cells
  rw [jalaliMonthLength_eq h.1, hweekday]
  rfl

/-- What can be rendered is a month of the table. -/
theorem cells_inTable {g : Grid} {shown : List (Option Int)} (h : cells g = .ok shown) :
    -61 ≤ g.viewYear ∧ g.viewYear < 3178 := by
  cases hfirst : jalaliWeekday g.viewYear g.viewMonth 1 with
  | ok w => exact weekday_inTable hfirst
  | error e =>
    unfold cells at h
    rw [hfirst] at h
    cases hlength : jalaliMonthLength g.viewYear g.viewMonth with
    | error e' =>
      rw [hlength] at h
      cases h
    | ok n =>
      rw [hlength] at h
      cases h

/-- Where a month can be rendered, a key leads to one of its days. -/
theorem press_valid {g g' : Grid} {key : GridKey} (hg : ValidJalali g.date) (h : press g key = .ok g') :
    ValidJalali g'.date := by
  unfold press at h
  cases hmoved : onDayGridKeyDown g key with
  | error e =>
    rw [hmoved] at h
    cases h
  | ok moved =>
    obtain ⟨hmonth, hday⟩ := onDayGridKeyDown_month hg hmoved
    cases hcells : cells moved with
    | error e => simp [hmoved, hcells, bind, Except.bind] at h
    | ok shown =>
      have hyear := cells_inTable hcells
      have hpos := monthLength_pos moved.viewYear moved.viewMonth
      simp only [hmoved, hcells, anchor, jalaliMonthLength_eq hyear, bind, Except.bind, Except.map, pure,
        Except.pure, Except.ok.injEq] at h
      subst h
      exact valid_of_bounds hyear hmonth ⟨by dsimp only [Grid.date]; omega, min_le_right _ _⟩

/-- A day of the month is its own anchor. -/
theorem press_of_moved {g moved : Grid} {key : GridKey} (h : onDayGridKeyDown g key = .ok moved)
    (hmoved : ValidJalali moved.date) : press g key = .ok moved := by
  have hyear : -61 ≤ moved.viewYear ∧ moved.viewYear < 3178 := hmoved.year
  obtain ⟨_, _, hcells⟩ := @cells_eq moved ⟨hyear, hmoved.month⟩
  have hbounds : moved.activeDay ≤ monthLength moved.viewYear moved.viewMonth := hmoved.bounds.2
  have hlength : jalaliMonthLength moved.viewYear moved.viewMonth = .ok _ := jalaliMonthLength_eq hyear
  simp only [press, anchor, h, hlength, hcells, bind, Except.bind, Except.map, pure, Except.pure,
    min_eq_left hbounds]

/-! ## Any keys -/

inductive Arrow
  | right
  | left
  | up
  | down

def Arrow.key : Arrow → GridKey
  | .right => .arrowRight
  | .left => .arrowLeft
  | .up => .arrowUp
  | .down => .arrowDown

/-- From right to left, as the grid is read. -/
def Arrow.days : Arrow → Int
  | .right => -1
  | .left => 1
  | .up => -7
  | .down => 7

def daysOf (arrows : List Arrow) : Int := (arrows.map Arrow.days).sum

theorem daysOf_cons (arrow : Arrow) (arrows : List Arrow) :
    daysOf (arrow :: arrows) = arrow.days + daysOf arrows := List.sum_cons

theorem pressAll_cons {g moved : Grid} {key : GridKey} (h : press g key = .ok moved) (keys : List GridKey) :
    pressAll g (key :: keys) = pressAll moved keys := by
  unfold pressAll
  rw [List.foldlM_cons, h]
  rfl

theorem pressAll_valid {g g' : Grid} {keys : List GridKey} (hg : ValidJalali g.date)
    (h : pressAll g keys = .ok g') : ValidJalali g'.date := by
  induction keys generalizing g with
  | nil =>
    cases h
    exact hg
  | cons key keys ih =>
    cases hpress : press g key with
    | ok moved =>
      rw [pressAll_cons hpress] at h
      exact ih (press_valid hg hpress) h
    | error e =>
      unfold pressAll at h
      rw [List.foldlM_cons, hpress] at h
      cases h

theorem press_arrow {g : Grid} (hg : ValidJalali g.date) {arrow : Arrow}
    (hin : InCalendar (dayNumber g.date + arrow.days)) :
    ∃ g', press g arrow.key = .ok g' ∧ ValidJalali g'.date ∧ dayNumber g'.date = dayNumber g.date + arrow.days := by
  obtain ⟨g', hmove, hvalid, hnumber⟩ := moveActiveDay_moves hg hin
  have hkey : onDayGridKeyDown g arrow.key = .ok g' := by
    cases arrow with
    | right => exact hmove
    | left => exact hmove
    | up => exact hmove
    | down => exact hmove
  exact ⟨g', press_of_moved hkey hvalid, hvalid, hnumber⟩

theorem pressAll_arrows {g : Grid} (hg : ValidJalali g.date) {arrows : List Arrow}
    (hin : ∀ k, InCalendar (dayNumber g.date + daysOf (arrows.take k))) :
    ∃ g', pressAll g (arrows.map Arrow.key) = .ok g' ∧ ValidJalali g'.date ∧
      dayNumber g'.date = dayNumber g.date + daysOf arrows := by
  induction arrows generalizing g with
  | nil => exact ⟨g, rfl, hg, (Int.add_zero _).symm⟩
  | cons arrow arrows ih =>
    have hfirst : InCalendar (dayNumber g.date + arrow.days) := by
      have hone := hin 1
      rw [List.take_succ_cons, List.take_zero, daysOf_cons] at hone
      rwa [show daysOf [] = 0 from rfl, Int.add_zero] at hone
    obtain ⟨moved, hpress, hvalid, hnumber⟩ := press_arrow hg hfirst
    have hrest : ∀ k, InCalendar (dayNumber moved.date + daysOf (arrows.take k)) := by
      intro k
      have hnext := hin (k + 1)
      rw [List.take_succ_cons, daysOf_cons] at hnext
      rwa [hnumber, Int.add_assoc]
    obtain ⟨g', hall, hvalid', hnumber'⟩ := ih hvalid hrest
    refine ⟨g', ?_, hvalid', ?_⟩
    · rw [List.map_cons, pressAll_cons hpress]
      exact hall
    · rw [hnumber', hnumber, daysOf_cons, Int.add_assoc]

/-- Whatever keys are pressed, the focus stands on a day of the month that is shown. Arrows that stay within the
calendar add up: the day they end on is the only one that is so many days further, and it is the day that the form
is handed. -/
theorem arrows_add_up {g : Grid} (hg : ValidJalali g.date) :
    (∀ keys g', pressAll g keys = .ok g' → ValidJalali g'.date) ∧
      ∀ arrows : List Arrow, (∀ k, InCalendar (dayNumber g.date + daysOf (arrows.take k))) →
        ∃ g', pressAll g (arrows.map Arrow.key) = .ok g' ∧
          (∀ d, ValidJalali d → (d = g'.date ↔ dayNumber d = dayNumber g.date + daysOf arrows)) ∧
          pickDay g' g'.activeDay = .ok (isoText (d2g (dayNumber g.date + daysOf arrows))) := by
  refine ⟨fun _ _ h => pressAll_valid hg h, ?_⟩
  intro arrows hin
  obtain ⟨g', hall, hvalid, hnumber⟩ := pressAll_arrows hg hin
  refine ⟨g', hall, ?_, ?_⟩
  · intro d hd
    constructor
    · intro heq
      rw [heq, hnumber]
    · intro heq
      exact dayNumber_inj hd hvalid (heq.trans hnumber.symm)
  · unfold pickDay jalaliToIso
    have hgregorian : jalaliToGregorian ⟨g'.viewYear, g'.viewMonth, g'.activeDay⟩ = .ok (d2g (dayNumber g'.date)) :=
      jalaliToGregorian_eq hvalid
    rw [hgregorian, hnumber]
    rfl

/-- A day forward and a week forward from the last day of a year, and a week back. -/
theorem three_arrows : ∃ g', pressAll ⟨1404, 12, 29⟩ [.arrowLeft, .arrowDown, .arrowUp] = .ok g' ∧
    (∀ d, ValidJalali d → (d = g'.date ↔ dayNumber d = dayNumber ⟨1404, 12, 29⟩ + 1)) ∧
    pickDay g' g'.activeDay = .ok "2026-03-21".toList := by
  have hlast : ValidJalali (Grid.date ⟨1404, 12, 29⟩) := ⟨by decide, by decide, 29, by decide, by decide⟩
  have hnumbers : ∀ n ∈ [0, 1, 8], InCalendar (dayNumber ⟨1404, 12, 29⟩ + n) := by
    unfold InCalendar
    decide
  have hin : ∀ k, InCalendar (dayNumber ⟨1404, 12, 29⟩ + daysOf ([Arrow.left, .down, .up].take k)) := by
    intro k
    apply hnumbers
    match k with
    | 0 => decide
    | 1 => decide
    | 2 => decide
    | k + 3 =>
      rw [List.take_of_length_le (Nat.le_add_left 3 k)]
      decide
  exact (arrows_add_up hlast).2 [.left, .down, .up] hin

/-! ## Weekdays -/

/-- The first of January, counted from 1970 on. -/
theorem dayFromYear_eq (year : Int) : dayFromYear year = newYear year - 2440588 := by
  have hcentury : (year + 100099) / 100 = (year - 1) / 100 + 1001 := by omega
  have hcenturies : (year - 1601) / 400 = (year - 1) / 100 / 4 - 4 := by omega
  have hcut : (year - 1901) / 100 = (year - 1) / 100 - 19 := by omega
  unfold dayFromYear newYear marchDays
  rw [hcentury, hcenturies, hcut]
  omega

theorem daysBeforeMonth_succ (year month : Nat) :
    daysBeforeMonth year (month + 2) = daysBeforeMonth year (month + 1) + daysInMonth year (month + 1) := by
  unfold daysBeforeMonth
  rw [show month + 2 - 1 = month + 1 by omega, show month + 1 - 1 = month by omega, List.range'_concat,
    List.map_append, List.sum_append, List.map_singleton, List.sum_singleton, Nat.one_mul, Nat.add_comm 1 month]

/-- The days before a month are those of the months before it. -/
theorem g2d_firstOfMonth {gy : Int} (hgy : 1 ≤ gy) {month : Nat} (h : month < 12) :
    g2d ⟨gy, month + 1, 1⟩ = newYear gy + daysBeforeMonth gy.toNat (month + 1) := by
  induction month with
  | zero =>
    rw [show daysBeforeMonth gy.toNat (0 + 1) = 0 from rfl]
    show g2d ⟨gy, 1, 1⟩ = newYear gy + 0
    rw [newYear_eq hgy, Int.add_zero]
  | succ month ih =>
    have hbefore := ih (by omega)
    have hmonth : monthDays gy (month + 1) = daysInMonth gy.toNat (month + 1) := by
      unfold monthDays
      rw [show ((month : Int) + 1).toNat = month + 1 by omega]
    have hnext := @g2d_month gy (month + 1) hgy ⟨by omega, by omega⟩
    have hlast : monthDays gy (month + 1) = 1 + (daysInMonth gy.toNat (month + 1) - 1) := by omega
    rw [hlast, g2d_add hgy ⟨by omega, by omega⟩, hbefore] at hnext
    rw [daysBeforeMonth_succ, show ((month + 1 : Nat) : Int) + 1 = (month : Int) + 1 + 1 by omega, hnext]
    omega

/-- The clock of the browser counts the days as the calendar does. -/
theorem makeDay_eq {g : GregorianDate} (h : ValidGregorian g) (hyear : 100 ≤ g.gy) :
    makeDay g = g2d g - 2440588 := by
  obtain ⟨gy, gm, gd⟩ := g
  have hmonth := h.month
  dsimp only at hyear hmonth
  obtain ⟨month, hgm⟩ := Int.eq_ofNat_of_zero_le (show 0 ≤ gm - 1 by omega)
  have hfirst := @g2d_firstOfMonth gy (by omega) month (by omega)
  have hdays := @g2d_add gy gm 1 (by omega) hmonth (gd - 1)
  rw [show (1 : Int) + (gd - 1) = gd by omega, show gm = (month : Int) + 1 by omega, hfirst] at hdays
  unfold makeDay
  dsimp only
  rw [if_neg (by omega), dayFromYear_eq, show gm = (month : Int) + 1 by omega, hdays,
    show ((month : Int) + 1).toNat = month + 1 by omega]
  omega

/-- The weekdays follow each other from day to day. -/
theorem jalaliWeekday_eq {jy jm jd : Int} (h : ValidJalali ⟨jy, jm, jd⟩) :
    jalaliWeekday jy jm jd = .ok ((dayNumber ⟨jy, jm, jd⟩ + 2) % 7) := by
  have hvalid := dayNumber_valid h
  have hgy : 100 ≤ (d2g (dayNumber ⟨jy, jm, jd⟩)).gy := by
    have hyear : -61 ≤ jy := h.year.1
    rw [gregorianYear h]
    dsimp only
    split
    · omega
    · omega
  have hday := makeDay_eq hvalid hgy
  rw [g2d_dayNumber h] at hday
  unfold jalaliWeekday
  rw [jalaliToGregorian_eq h]
  show Except.ok (mod (getDay _ + 1) 7) = _
  unfold getDay
  rw [hday, mod_eq 7 (by omega)]
  congr 1
  omega

/-! ## The grid -/

/-- What stands in a place of the grid: a day, behind the blanks. -/
theorem shown_iff {blanks length i : Nat} {jd : Int} :
    (List.replicate blanks none ++ (List.range length).map fun k : Nat => some ((k : Int) + 1))[i]? = some (some jd) ↔
      (i : Int) = blanks + jd - 1 ∧ 1 ≤ jd ∧ jd ≤ length := by
  by_cases hblank : i < blanks
  · rw [List.getElem?_append_left (by rwa [List.length_replicate]), List.getElem?_replicate, if_pos hblank]
    constructor
    · intro h
      cases h
    · intro h
      omega
  · rw [List.getElem?_append_right (by rw [List.length_replicate]; omega), List.length_replicate, List.getElem?_map]
    by_cases hlast : i - blanks < length
    · rw [List.getElem?_range hlast, Option.map_some, Option.some.injEq, Option.some.injEq]
      omega
    · rw [List.getElem?_eq_none (by rw [List.length_range]; omega)]
      constructor
      · intro h
        cases h
      · intro h
        omega

/-- The grid shows every day of a month in one place, in the column of its weekday, and has no row without a day
before the first. -/
theorem days_stand_under_their_weekdays {g : Grid} (h : InMonths g.viewYear g.viewMonth) :
    ∃ shown length, cells g = .ok shown ∧ jalaliMonthLength g.viewYear g.viewMonth = .ok length ∧
      (∀ (i : Nat) jd, shown[i]? = some (some jd) →
        (1 ≤ jd ∧ jd ≤ length) ∧ jalaliWeekday g.viewYear g.viewMonth jd = .ok ((i : Int) % 7)) ∧
      (∀ jd, 1 ≤ jd ∧ jd ≤ length → ∃ i : Nat, ∀ i' : Nat, shown[i']? = some (some jd) ↔ i' = i) ∧
      ∃ i : Nat, i < 7 ∧ shown[i]? = some (some 1) := by
  obtain ⟨hyear, hmonth⟩ := h
  have hpos := monthLength_pos g.viewYear g.viewMonth
  have hvalid : ∀ jd, 1 ≤ jd ∧ jd ≤ monthLength g.viewYear g.viewMonth → ValidJalali ⟨g.viewYear, g.viewMonth, jd⟩ :=
    fun _ hday => valid_of_bounds hyear hmonth hday
  obtain ⟨w, hweekday, hcells⟩ := @cells_eq g ⟨hyear, hmonth⟩
  have hfirst := jalaliWeekday_eq (hvalid 1 ⟨Int.le_refl 1, by omega⟩)
  rw [hweekday, Except.ok.injEq] at hfirst
  refine ⟨_, _, hcells, jalaliMonthLength_eq hyear, ?_, ?_, ?_⟩
  · intro i jd hshown
    rw [shown_iff] at hshown
    have hday : 1 ≤ jd ∧ jd ≤ monthLength g.viewYear g.viewMonth := by omega
    have hnumber := number_first g.viewYear g.viewMonth jd
    have hsame : dayNumber ⟨g.viewYear, g.viewMonth, jd⟩ = dayNumber ⟨g.viewYear, g.viewMonth, 1⟩ + (jd - 1) := hnumber
    refine ⟨hday, ?_⟩
    rw [jalaliWeekday_eq (hvalid jd hday), hsame]
    congr 1
    omega
  · intro jd hday
    refine ⟨w.toNat + (jd - 1).toNat, ?_⟩
    intro i'
    rw [shown_iff]
    omega
  · refine ⟨w.toNat, by omega, ?_⟩
    rw [shown_iff]
    omega

theorem a_month_in_its_grid : ∃ shown length, cells ⟨1404, 12, 29⟩ = .ok shown ∧
    jalaliMonthLength 1404 12 = .ok length ∧
    (∀ (i : Nat) jd, shown[i]? = some (some jd) →
      (1 ≤ jd ∧ jd ≤ length) ∧ jalaliWeekday 1404 12 jd = .ok ((i : Int) % 7)) ∧
    (∀ jd, 1 ≤ jd ∧ jd ≤ length → ∃ i : Nat, ∀ i' : Nat, shown[i']? = some (some jd) ↔ i' = i) ∧
    ∃ i : Nat, i < 7 ∧ shown[i]? = some (some 1) :=
  @days_stand_under_their_weekdays ⟨1404, 12, 29⟩ ⟨by decide, by decide⟩

end NexaHR.Jalali
