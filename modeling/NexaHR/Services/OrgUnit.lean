import NexaHR.Core.Texts

/-! # The site in the name of a unit

`services/org_unit.py`: a unit and the site it is at are one text, «site / unit».

* `splitSite`, `joinSite`: the two parts of such a text, and the text of two parts.
* `strip_joinSite`: the text has no outer blanks.
-/

namespace NexaHR

open Foundations

set_option autoImplicit false

/-- Tried in this order. -/
def separators : List String := ["/", "—", " - "]

def canonicalSeparator : String := " / "

/-- `str.partition`, where the separator occurs. -/
def partition? (text separator : String) : Option (String × String) :=
  (cut? separator.toList text.toList).map fun parts => (String.ofList parts.1, String.ofList parts.2)

/-- The two parts at a separator, where neither is blank. -/
def partsAt (orgUnit separator : String) : Option (String × String) :=
  match partition? orgUnit separator with
  | none => none
  | some (site, unit) =>
    if strip site ≠ "" ∧ strip unit ≠ "" then some (strip site, strip unit) else none

def splitSite (orgUnit : String) : Option String × String :=
  match separators.findSome? (partsAt orgUnit) with
  | some (site, unit) => (some site, unit)
  | none => (none, strip orgUnit)

def joinSite (site : Option String) (unit : String) : String :=
  if strip (site.getD "") ≠ "" ∧ strip unit ≠ "" then
    strip (site.getD "") ++ canonicalSeparator ++ strip unit
  else strip unit

/-- The text is written with the separator that `joinSite` writes. -/
def IsCanonical (orgUnit : String) : Prop := joinSite (splitSite orgUnit).1 (splitSite orgUnit).2 = orgUnit

example : splitSite "factory — sales" = (some "factory", "sales") := by decide

example : splitSite "/ sales" = (none, "/ sales") := by decide

@[simp] theorem strip_joinSite (site : Option String) (unit : String) :
    strip (joinSite site unit) = joinSite site unit := by
  unfold joinSite
  split
  · next h => exact strip_append (strip_strip _) (strip_strip _) h.1 h.2 canonicalSeparator
  · exact strip_strip unit

end NexaHR
