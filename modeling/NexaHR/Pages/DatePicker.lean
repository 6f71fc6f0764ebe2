import NexaHR.Pages.Jalali
import Mathlib.Tactic.Common

/-! # The date picker

`ui/JalaliDatePicker.tsx`: the days of one month in a grid of seven columns, through which the keys move.

* `jalaliWeekday`: the column of a day.
* `moveActiveDay`, `moveActiveMonth`: the active day, some days or months further.
* `cells`: what the grid shows.
* `press`: a key, and the focus that follows it.
-/

namespace NexaHR.Jalali

set_option autoImplicit false

/-! ## The weekday -/

/-- The first day of a year, counted from 1970 on. -/
def dayFromYear (year : Int) : Int :=
  365 * (year - 1970) + (year - 1969) / 4 - (year - 1901) / 100 + (year - 1601) / 400

/-- The day of `new Date(gy, gm - 1, gd)`, where the years up to 99 are those of the twentieth century. -/
def makeDay (g : GregorianDate) : Int :=
  let year := if 0 ≤ g.gy ∧ g.gy ≤ 99 then 1900 + g.gy else g.gy
  dayFromYear year + daysBeforeMonth year.toNat g.gm.toNat + g.gd - 1

/-- `getDay`, from 0 for a Sunday on. -/
def getDay (g : GregorianDate) : Int := (makeDay g + 4) % 7

/-- From 0 for a Saturday on. -/
def jalaliWeekday (jy jm jd : Int) : Except String Int :=
  (jalaliToGregorian ⟨jy, jm, jd⟩).map fun g => mod (getDay g + 1) 7

/-! ## Moving -/

/-- The month that is shown, and the day that the keys have reached. -/
structure Grid where
  viewYear : Int
  viewMonth : Int
  activeDay : Int
  deriving DecidableEq

def Grid.date (g : Grid) : JalaliDate := ⟨g.viewYear, g.viewMonth, g.activeDay⟩

theorem monthLength_ok {jy jm n : Int} (h : jalaliMonthLength jy jm = .ok n) : 29 ≤ n := by
  unfold jalaliMonthLength at h
  split at h
  · cases h
    omega
  split at h
  · cases h
    omega
  · cases hleap : isLeapJalaliYear jy with
    | error e =>
      rw [hleap] at h
      cases h
    | ok leap =>
      rw [hleap] at h
      cases h
      dsimp only
      split
      · omega
      · omega

/-- The year and the month before a month, and those after it. -/
def monthBefore (y m : Int) : Int × Int := if m - 1 < 1 then (y - 1, 12) else (y, m - 1)

def monthAfter (y m : Int) : Int × Int := if 12 < m + 1 then (y + 1, 1) else (y, m + 1)

/-- The first loop of `moveActiveDay`: the day lies before the month. -/
def goBack (y m d : Int) : Except String JalaliDate :=
  if d < 1 then
    match _hlength : jalaliMonthLength (monthBefore y m).1 (monthBefore y m).2 with
    | .ok length => goBack (monthBefore y m).1 (monthBefore y m).2 (d + length)
    | .error e => .error e
  else .ok ⟨y, m, d⟩
termination_by (1 - d).toNat
decreasing_by
  have hpos := monthLength_ok _hlength
  omega

/-- The second loop: the day lies behind the month. -/
def goForward (y m d : Int) : Except String JalaliDate :=
  match _hlength : jalaliMonthLength y m with
  | .ok length =>
    if length < d then goForward (monthAfter y m).1 (monthAfter y m).2 (d - length) else .ok ⟨y, m, d⟩
  | .error e => .error e
termination_by d.toNat
decreasing_by
  have hpos := monthLength_ok _hlength
  omega

def moveActiveDay (g : Grid) (delta : Int) : Except String Grid := do
  let back ← goBack g.viewYear g.viewMonth (g.activeDay + delta)
  let forward ← goForward back.jy back.jm back.jd
  pure ⟨forward.jy, forward.jm, forward.jd⟩

def backMonths (y m : Int) : Int × Int := if m < 1 then backMonths (y - 1) (m + 12) else (y, m)
termination_by (1 - m).toNat

def forwardMonths (y m : Int) : Int × Int := if 12 < m then forwardMonths (y + 1) (m - 12) else (y, m)
termination_by m.toNat

/-- The active day stays, also where the new month has no such day. -/
def moveActiveMonth (g : Grid) (delta : Int) : Grid :=
  let back := backMonths g.viewYear (g.viewMonth + delta)
  let forward := forwardMonths back.1 back.2
  ⟨forward.1, forward.2, g.activeDay⟩

/-! ## What is shown -/

def cells (g : Grid) : Except String (List (Option Int)) := do
  let daysInMonth ← jalaliMonthLength g.viewYear g.viewMonth
  let firstWeekday ← jalaliWeekday g.viewYear g.viewMonth 1
  pure (List.replicate firstWeekday.toNat none ++
    (List.range daysInMonth.toNat).map fun i : Nat => some ((i : Int) + 1))

/-- The day that can be reached by the tabulator: the active one, or the last of the month. -/
def anchor (g : Grid) : Except String Int :=
  (jalaliMonthLength g.viewYear g.viewMonth).map fun daysInMonth => min g.activeDay daysInMonth

/-! ## The keys -/

inductive GridKey
  | arrowRight
  | arrowLeft
  | arrowUp
  | arrowDown
  | pageUp
  | pageDown
  | home
  | last
  deriving DecidableEq

def onDayGridKeyDown (g : Grid) : GridKey → Except String Grid
  | .arrowRight => moveActiveDay g (-1)
  | .arrowLeft => moveActiveDay g 1
  | .arrowUp => moveActiveDay g (-7)
  | .arrowDown => moveActiveDay g 7
  | .pageUp => .ok (moveActiveMonth g (-1))
  | .pageDown => .ok (moveActiveMonth g 1)
  | .home => .ok { g with activeDay := 1 }
  | .last => (jalaliMonthLength g.viewYear g.viewMonth).map fun daysInMonth => { g with activeDay := daysInMonth }

/-- A key in the grid. It is rendered anew, and the anchor gets the focus, which makes its day the active one.
A run ends here where the handler raises; the page would go on with the grid as it was. -/
def press (g : Grid) (key : GridKey) : Except String Grid := do
  let moved ← onDayGridKeyDown g key
  let _ ← cells moved
  let day ← anchor moved
  pure { moved with activeDay := day }

def pressAll (g : Grid) (keys : List GridKey) : Except String Grid := keys.foldlM press g

/-- `pickDay`: the text that is handed to the form. -/
def pickDay (g : Grid) (jd : Int) : Except String (List Char) := jalaliToIso ⟨g.viewYear, g.viewMonth, jd⟩

end NexaHR.Jalali
