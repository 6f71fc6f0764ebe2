import Mathlib.Data.Rat.Floor
import Mathlib.Data.Nat.Log

/-! # Decimal numbers

Percentages, weights and points are exact rationals here. What the source does to them besides
arithmetic is rounding, in two ways, and printing.

* `roundTo`: `round(x, n)`, half to even.
* `numeric`: what a `Numeric(_, n)` column stores, half away from zero.
* `formatG`, `fa`: `f"{x:g}"`, and the same in Persian digits.
-/

namespace NexaHR

set_option autoImplicit false

/-! ## Rounding -/

def roundHalfEven (x : Rat) : Int :=
  let rest := x - x.floor
  if rest < 1 / 2 then x.floor
  else if 1 / 2 < rest then x.floor + 1
  else if x.floor % 2 = 0 then x.floor
  else x.floor + 1

def roundTo (digits : Nat) (x : Rat) : Rat := (roundHalfEven (x * 10 ^ digits) : Rat) / 10 ^ digits

def numeric (digits : Nat) (x : Rat) : Rat :=
  if x < 0 then -(((-x * 10 ^ digits + 1 / 2).floor : Rat) / 10 ^ digits)
  else ((x * 10 ^ digits + 1 / 2).floor : Rat) / 10 ^ digits

theorem roundHalfEven_intCast (n : Int) : roundHalfEven (n : Rat) = n := by
  have hfloor : (n : Rat).floor = n := Rat.floor_intCast n
  unfold roundHalfEven
  simp only [hfloor, sub_self]
  norm_num

@[simp] theorem roundTo_zero (digits : Nat) : roundTo digits 0 = 0 := by
  have h := roundHalfEven_intCast 0
  unfold roundTo
  rw [zero_mul, show (0 : Rat) = ((0 : Int) : Rat) from rfl, h]
  simp

/-! ## Printing -/

def dropTrailingZeros (digits : List Char) : List Char :=
  (digits.reverse.dropWhile (· = '0')).reverse

/-- Digits with a decimal point after the first `whole` of them. -/
def withPoint (digits : List Char) (whole : Nat) : String :=
  let fraction := dropTrailingZeros (digits.drop whole)
  let head := String.ofList (digits.take whole)
  if fraction = [] then head else head ++ "." ++ String.ofList fraction

/-- The place of the first significant digit of a positive number. -/
def leadingPlace (x : Rat) : Int :=
  if 1 ≤ x then (Nat.log 10 x.floor.toNat : Int) else -(Nat.clog 10 (1 / x).ceil.toNat : Int)

/-- Six significant digits and the place of the first. -/
def sixDigits (x : Rat) : Nat × Int :=
  let place := leadingPlace x
  let mantissa := (roundHalfEven (x * (10 : Rat) ^ (5 - place))).toNat
  if mantissa = 1000000 then (100000, place + 1) else (mantissa, place)

def formatPositive (x : Rat) : String :=
  let (mantissa, place) := sixDigits x
  let digits := (toString mantissa).toList
  if -4 ≤ place ∧ place < 6 then
    if 0 ≤ place then withPoint digits (place.toNat + 1)
    else withPoint (List.replicate ((-place).toNat) '0' ++ digits) 1
  else
    let size := place.natAbs
    withPoint digits 1 ++ "e" ++ (if place < 0 then "-" else "+") ++
      (if size < 10 then "0" else "") ++ toString size

def formatG (x : Rat) : String :=
  if x = 0 then "0" else if x < 0 then "-" ++ formatPositive (-x) else formatPositive x

def faDigit (c : Char) : Char :=
  if '0' ≤ c ∧ c ≤ '9' then Char.ofNat ('۰'.toNat + (c.toNat - '0'.toNat)) else c

def faDigits (s : String) : String := String.ofList (s.toList.map faDigit)

def fa (x : Rat) : String := faDigits (formatG x)

end NexaHR
