import Mathlib.Data.List.Sort
import Mathlib.Data.Rat.Defs
import NexaHR.Foundations.Readable

/-! # JSON as Python writes it

The values that `json.dumps` takes, and the text that it makes of them with sorted keys, every character as
it is, and no blanks.

* `PyFloat`: a finite float, by the decimal that `repr` writes.
* `PyJson`: `None`, booleans, numbers, texts, lists and dictionaries.
* `Json`, `PyJson.sorted`: the value with the keys as texts, in the order of the keys.
* `Json.text`, `dumps`: the text.
-/

namespace NexaHR

open Foundations

set_option autoImplicit false

/-! ## Numbers -/

instance tenNeZero : @NeZero Nat Zero.ofOfNat0 10 := ⟨Nat.succ_ne_zero 9⟩

/-- The decimals that `repr` writes: with a point from 0.0001 up to 16 digits before the point, and
otherwise one digit, its fraction and a power of ten. A fraction has no zeros at its end. -/
def isWritten (whole : Nat) (fraction : List (Fin 10)) : Option Int → Bool
  | none =>
    (fraction = [0] || !fraction.isEmpty && fraction.getLast? ≠ some 0) && decide (whole < 10000000000000000) &&
      (whole ≠ 0 || fraction = [0] || (fraction.take 4).any (· ≠ 0))
  | some power =>
    decide (1 ≤ whole) && decide (whole ≤ 9) && decide (fraction.length ≤ 16) &&
      decide (fraction.getLast? ≠ some 0) && (decide (power ≤ -5) || decide (16 ≤ power))

/-- A finite float, by the shortest decimal that reads back as it. -/
structure PyFloat where
  negative : Bool
  whole : Nat
  fraction : List (Fin 10)
  power : Option Int
  written : isWritten whole fraction power = true
  deriving DecidableEq

inductive PyNumber
  | int (n : Int)
  | float (x : PyFloat)
  deriving DecidableEq

def decimalText (n : Nat) : List Char := Nat.toDigits 10 n

def signText (negative : Bool) : List Char := if negative then ['-'] else []

def fractionText (fraction : List (Fin 10)) : List Char := fraction.map fun d => d.val.digitChar

/-- At least two digits. -/
def paddedText (n : Nat) : List Char := if n < 10 then '0' :: decimalText n else decimalText n

def powerText (power : Int) : List Char := (if power < 0 then '-' else '+') :: paddedText power.natAbs

/-- The parts of a number in JSON: sign, whole part, fraction and power of ten. -/
abbrev NumberParts := Bool × Nat × Option (List (Fin 10)) × Option Int

def numberText (n : NumberParts) : List Char :=
  signText n.1 ++ (decimalText n.2.1 ++
    (optionalText '.' fractionText n.2.2.1 ++ optionalText 'e' powerText n.2.2.2))

def PyFloat.parts (x : PyFloat) : NumberParts :=
  (x.negative, x.whole, if x.fraction = [] then none else some x.fraction, x.power)

def PyNumber.parts : PyNumber → NumberParts
  | .int n => (decide (n < 0), n.natAbs, none, none)
  | .float x => x.parts

def PyNumber.text (n : PyNumber) : List Char := numberText n.parts

/-! ## Values -/

/-- A key that `json.dumps` takes. -/
inductive PyKey
  | str (s : String)
  | number (n : PyNumber)
  | bool (b : Bool)
  | none
  deriving DecidableEq

inductive PyJson
  | none
  | bool (b : Bool)
  | number (n : PyNumber)
  | str (s : String)
  | list (items : List PyJson)
  | dict (items : List (PyKey × PyJson))

/-- The value behind a float, for the order of keys. -/
def PyFloat.value (x : PyFloat) : Rat :=
  let digits : Nat := x.fraction.foldl (fun n d => 10 * n + d.val) x.whole
  (if x.negative then -1 else 1) * digits * (10 : Rat) ^ (x.power.getD 0 - x.fraction.length)

namespace PyKey

def isStr : PyKey → Bool
  | str _ => true
  | _ => false

/-- Booleans are numbers in Python. -/
def value : PyKey → Option Rat
  | number (.int n) => some n
  | number (.float x) => some x.value
  | bool b => some (if b then 1 else 0)
  | _ => Option.none

/-- The order of the keys: texts by their characters, numbers by their values. -/
def le : PyKey → PyKey → Bool
  | str s, str t => decide (s ≤ t)
  | k, k' =>
    match k.value, k'.value with
    | some a, some b => decide (a ≤ b)
    | _, _ => false

/-- The key as JSON has it. -/
def text : PyKey → String
  | str s => s
  | number n => String.ofList n.text
  | bool true => "true"
  | bool false => "false"
  | none => "null"

end PyKey

/-! ## The text -/

/-- A value with its keys as texts, in the order in which they are written. -/
inductive Json
  | null
  | bool (b : Bool)
  | number (n : PyNumber)
  | str (s : String)
  | list (items : List Json)
  | dict (fields : List (String × Json))

def sortedItems {α : Type} (items : List (PyKey × α)) : List (PyKey × α) :=
  items.insertionSort fun a b => a.1.le b.1 = true

def fieldsOf {α : Type} (items : List (PyKey × α)) : List (String × α) :=
  items.map fun item => (item.1.text, item.2)

mutual

/-- `sort_keys`. -/
def PyJson.sorted : PyJson → Json
  | .none => .null
  | .bool b => .bool b
  | .number n => .number n
  | .str s => .str s
  | .list items => .list (sortedList items)
  | .dict items => .dict (fieldsOf (sortedItems (sortedValues items)))

def sortedList : List PyJson → List Json
  | [] => []
  | v :: items => v.sorted :: sortedList items

def sortedValues : List (PyKey × PyJson) → List (PyKey × Json)
  | [] => []
  | (k, v) :: items => (k, v.sorted) :: sortedValues items

end

def hexDigit (n : Nat) : Char := Nat.digitChar n

/-- The characters with an escape of two characters. -/
def shortEscape (c : Char) : Option Char :=
  if c = '"' then some '"'
  else if c = '\\' then some '\\'
  else if c = '\n' then some 'n'
  else if c = '\r' then some 'r'
  else if c = '\t' then some 't'
  else if c = '\x08' then some 'b'
  else if c = '\x0c' then some 'f'
  else none

/-- The escapes of `json.dumps` without `ensure_ascii`. -/
def escapeText (c : Char) : List Char :=
  match shortEscape c with
  | some e => ['\\', e]
  | none =>
    if c.toNat < 32 then ['\\', 'u', '0', '0', hexDigit (c.toNat / 16), hexDigit (c.toNat % 16)] else [c]

def stringText (s : String) : List Char := '"' :: closedText '"' escapeText s.toList

mutual

def Json.text : Json → List Char
  | .null => ['n', 'u', 'l', 'l']
  | .bool true => ['t', 'r', 'u', 'e']
  | .bool false => ['f', 'a', 'l', 's', 'e']
  | .number n => n.text
  | .str s => stringText s
  | .list items => '[' :: joinedText ']' (listTexts items)
  | .dict fields => '\x7b' :: joinedText '\x7d' (fieldTexts fields)

def listTexts : List Json → List (List Char)
  | [] => []
  | t :: items => t.text :: listTexts items

def fieldTexts : List (String × Json) → List (List Char)
  | [] => []
  | (key, t) :: fields => (stringText key ++ ':' :: t.text) :: fieldTexts fields

end

def dumps (v : PyJson) : String := String.ofList v.sorted.text

end NexaHR
