import NexaHR.Core.Texts
import Mathlib.Algebra.GroupWithZero.Nat
import Mathlib.Data.List.Range

/-! # Dates and numerals in texts

A date is its ordinal in the Gregorian calendar, as `datetime.date` counts it.

* `gregorianDate`: the ordinal of a year, a month and a day.
* `pythonInt`: what `int` reads in a text.
-/

namespace NexaHR

set_option autoImplicit false

/-! ## The Gregorian calendar -/

def isLeapYear (year : Nat) : Bool := year % 4 = 0 && (year % 100 ≠ 0 || year % 400 = 0)

def daysInMonth (year month : Nat) : Nat :=
  if month = 2 then if isLeapYear year then 29 else 28
  else if month ∈ [4, 6, 9, 11] then 30
  else 31

def daysBeforeYear (year : Nat) : Nat :=
  let past := year - 1
  past * 365 + past / 4 - past / 100 + past / 400

def daysBeforeMonth (year month : Nat) : Nat := ((List.range' 1 (month - 1)).map (daysInMonth year)).sum

/-- `date(year, month, day)`, where it is a date. -/
def gregorianDate (year month day : Nat) : Option Nat :=
  if 1 ≤ year ∧ year ≤ 9999 ∧ 1 ≤ month ∧ month ≤ 12 ∧ 1 ≤ day ∧ day ≤ daysInMonth year month then
    some (daysBeforeYear year + daysBeforeMonth year month + day)
  else none

example : gregorianDate 1970 1 1 = some 719163 := by decide

/-! ## Numerals -/

/-- The zeros of the decimal digits of Unicode. -/
def decimalZeros : List Nat :=
  [0x30, 0x660, 0x6f0, 0x7c0, 0x966, 0x9e6, 0xa66, 0xae6, 0xb66, 0xbe6, 0xc66, 0xce6, 0xd66, 0xde6, 0xe50,
    0xed0, 0xf20, 0x1040, 0x1090, 0x17e0, 0x1810, 0x1946, 0x19d0, 0x1a80, 0x1a90, 0x1b50, 0x1bb0, 0x1c40,
    0x1c50, 0xa620, 0xa8d0, 0xa900, 0xa9d0, 0xa9f0, 0xaa50, 0xabf0, 0xff10, 0x104a0, 0x10d30, 0x11066,
    0x110f0, 0x11136, 0x111d0, 0x112f0, 0x11450, 0x114d0, 0x11650, 0x116c0, 0x11730, 0x118e0, 0x11950,
    0x11c50, 0x11d50, 0x11da0, 0x16a60, 0x16ac0, 0x16b50, 0x1d7ce, 0x1d7d8, 0x1d7e2, 0x1d7ec, 0x1d7f6,
    0x1e140, 0x1e2f0, 0x1e950, 0x1fbf0]

def digitValue (c : Char) : Option Nat :=
  (decimalZeros.find? fun first => first ≤ c.toNat ∧ c.toNat ≤ first + 9).map fun first => c.toNat - first

/-- The digits after one that was read; single underscores may stand between them. -/
def readDigits (value : Nat) : List Char → Option Nat
  | [] => some value
  | '_' :: c :: cs => (digitValue c).bind fun d => readDigits (value * 10 + d) cs
  | c :: cs => (digitValue c).bind fun d => readDigits (value * 10 + d) cs

def readNumeral : List Char → Option Nat
  | [] => none
  | c :: cs => (digitValue c).bind fun d => readDigits d cs

/-- `int(text)` of a text without a minus; longer numerals than 4300 digits are refused. -/
def pythonInt (text : String) : Option Nat :=
  if 4300 < (text.toList.filter fun c => (digitValue c).isSome).length then none
  else
    match (strip text).toList with
    | '+' :: cs => readNumeral cs
    | cs => readNumeral cs

end NexaHR
