import NexaHR.Core.Dates

/-! # The Jalali calendar of the pages

`utils/jalali.ts`. Dates are stored in the Gregorian calendar and shown in the Jalali one. The numbers of the
source are integers here; its `div` cuts a quotient off towards zero.

* `jalCal`: a Jalali year: how far it is from a leap year, and on which day of March it begins.
* `g2d`, `d2g`, `j2d`, `d2j`: dates and day numbers.
* `gregorianToJalali`, `jalaliToGregorian`, `jalaliMonthLength`: what the pages use of them.
* `isoToJalali`, `jalaliToIso`: the same for the texts that are stored.
-/

namespace NexaHR.Jalali

set_option autoImplicit false

structure JalaliDate where
  jy : Int
  jm : Int
  jd : Int
  deriving DecidableEq

structure GregorianDate where
  gy : Int
  gm : Int
  gd : Int
  deriving DecidableEq

/-- The years in which the rhythm of the leap years breaks. -/
def breaks : List Int :=
  [-61, 9, 38, 199, 426, 686, 756, 818, 1111, 1181, 1210, 1635, 2060, 2097, 2192, 2262, 2324, 2394, 2456, 3178]

def div (a b : Int) : Int := a.tdiv b

def mod (a b : Int) : Int := a.tmod b

/-! ## A year -/

/-- How the loop over the breaks ends: the last break before the year, the leap years up to it, and the length of
the stretch that the year is in. -/
structure Stretch where
  jp : Int
  leapJ : Int
  jump : Int

def findStretch (jy : Int) (s : Stretch) : List Int → Stretch
  | [] => s
  | jm :: rest =>
    let jump := jm - s.jp
    if jy < jm then { s with jump := jump }
    else findStretch jy ⟨jm, s.leapJ + div jump 33 * 8 + div (mod jump 33) 4, jump⟩ rest

structure JalaliYear where
  leap : Int
  gy : Int
  march : Int

def inTable (jy : Int) : Bool := decide (-61 ≤ jy) && decide (jy < 3178)

def invalidYear (jy : Int) : String := "Invalid Jalaali year " ++ toString jy

/-- `jalCal` of a year in the table. -/
def yearOf (jy : Int) : JalaliYear :=
  let gy := jy + 621
  let s := findStretch jy ⟨-61, -14, 0⟩ breaks.tail
  let n := jy - s.jp
  let leapJ := s.leapJ + div n 33 * 8 + div (mod n 33 + 3) 4
  let leapJ := if mod s.jump 33 = 4 ∧ s.jump - n = 4 then leapJ + 1 else leapJ
  let leapG := div gy 4 - div ((div gy 100 + 1) * 3) 4 - 150
  let march := 20 + leapJ - leapG
  let n := if s.jump - n < 6 then n - s.jump + div (s.jump + 4) 33 * 33 else n
  let leap := mod (mod (n + 1) 33 - 1) 4
  ⟨if leap = -1 then 4 else leap, gy, march⟩

def jalCal (jy : Int) : Except String JalaliYear :=
  if inTable jy = true then .ok (yearOf jy) else .error (invalidYear jy)

/-! ## Day numbers -/

def g2d (g : GregorianDate) : Int :=
  let d := div ((g.gy + div (g.gm - 8) 6 + 100100) * 1461) 4 + div (153 * mod (g.gm + 9) 12 + 2) 5 + g.gd - 34840408
  d - div (div (g.gy + 100100 + div (g.gm - 8) 6) 100 * 3) 4 + 752

def d2g (jdn : Int) : GregorianDate :=
  let j := 4 * jdn + 139361631
  let j := j + div (div (4 * jdn + 183187720) 146097 * 3) 4 * 4 - 3908
  let i := div (mod j 1461) 4 * 5 + 308
  let gd := div (mod i 153) 5 + 1
  let gm := mod (div i 153) 12 + 1
  ⟨div j 1461 - 100100 + div (8 - gm) 6, gm, gd⟩

def j2d (j : JalaliDate) : Except String Int := do
  let r ← jalCal j.jy
  pure (g2d ⟨r.gy, 3, r.march⟩ + (j.jm - 1) * 31 - div j.jm 7 * (j.jm - 7) + j.jd - 1)

/-- The date in a year that is `k` days after its first day, or before it. -/
def fromNowruz (jy leap k : Int) : JalaliDate :=
  if 0 ≤ k then
    if k ≤ 185 then ⟨jy, 1 + div k 31, mod k 31 + 1⟩
    else ⟨jy, 7 + div (k - 186) 30, mod (k - 186) 30 + 1⟩
  else
    let k := if leap = 1 then k + 179 + 1 else k + 179
    ⟨jy - 1, 7 + div k 30, mod k 30 + 1⟩

def d2j (jdn : Int) : Except String JalaliDate := do
  let gy := (d2g jdn).gy
  let r ← jalCal (gy - 621)
  pure (fromNowruz (gy - 621) r.leap (jdn - g2d ⟨gy, 3, r.march⟩))

/-! ## What the pages use -/

def gregorianToJalali (g : GregorianDate) : Except String JalaliDate := d2j (g2d g)

def jalaliToGregorian (j : JalaliDate) : Except String GregorianDate := (j2d j).map d2g

def isLeapJalaliYear (jy : Int) : Except String Bool := (jalCal jy).map fun r => decide (r.leap = 0)

def jalaliMonthLength (jy jm : Int) : Except String Int :=
  if jm ≤ 6 then .ok 31
  else if jm ≤ 11 then .ok 30
  else (isLeapJalaliYear jy).map fun leap => if leap then 30 else 29

/-! ## Texts -/

/-- `pad2` -/
def pad2 (n : Int) : List Char :=
  let text := (toString n).toList
  List.replicate (2 - text.length) '0' ++ text

/-- The digits that `\d` matches at the beginning, if there are `count` of them. -/
def takeDigits (count : Nat) (text : List Char) : Option (Nat × List Char) :=
  if (text.take count).length = count ∧ (text.take count).all Char.isDigit = true then
    some (Nat.ofDigitChars 10 (text.take count) 0, text.drop count)
  else none

def takeDash : List Char → Option (List Char)
  | '-' :: rest => some rest
  | _ => none

/-- The match of the date at the beginning of a text. -/
def matchIso (iso : List Char) : Option GregorianDate := do
  let (y, rest) ← takeDigits 4 iso
  let rest ← takeDash rest
  let (mo, rest) ← takeDigits 2 rest
  let rest ← takeDash rest
  let (d, _) ← takeDigits 2 rest
  pure ⟨y, mo, d⟩

def isoToJalali (iso : Option (List Char)) : Except String (Option JalaliDate) :=
  match iso with
  | none => .ok none
  | some text =>
    match matchIso text with
    | none => .ok none
    | some g => (gregorianToJalali g).map some

def isoText (g : GregorianDate) : List Char := (toString g.gy).toList ++ '-' :: pad2 g.gm ++ '-' :: pad2 g.gd

def jalaliToIso (j : JalaliDate) : Except String (List Char) := (jalaliToGregorian j).map isoText

end NexaHR.Jalali
