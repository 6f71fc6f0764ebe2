import NexaHR.Core.Json

/-! # JSON that another party wrote

`json.loads` gives any value for any text, and it also reads the infinite numbers and NaN, which no text of
ours has. What a value does not have, Python answers with an error of its own.

* `WireJson`: a value as it was read.
* `PyError`: the errors that a value of another shape leads to.
* `item`, `first`, `get`, `elements`, `items`: the accesses, each with its error.
-/

namespace NexaHR

set_option autoImplicit false

inductive WireJson
  | none
  | bool (b : Bool)
  | number (n : PyNumber)
  | infinite (negative : Bool)
  | nan
  | str (s : String)
  | list (items : List WireJson)
  | dict (fields : List (String × WireJson))

abbrev WireFields : Type := List (String × WireJson)

inductive PyError
  | valueError | keyError | indexError | typeError | attributeError | overflowError | recursionError | databaseError
  deriving DecidableEq

def PyNumber.isZero : PyNumber → Bool
  | .int n => n = 0
  | .float x => decide (x.whole = 0) && x.fraction.all fun d => d = 0

/-- The whole number behind a number, if it is one. -/
def PyNumber.whole? : PyNumber → Option Int
  | .int n => some n
  | .float x => if x.value.den = 1 then some x.value.num else .none

def WireFields.lookup (fields : WireFields) (key : String) : Option WireJson :=
  (fields.find? fun field => field.1 = key).map Prod.snd

namespace WireJson

/-- The truth of a value. NaN is true. -/
def isTrue : WireJson → Bool
  | .none => false
  | .bool b => b
  | .number n => !n.isZero
  | .infinite _ => true
  | .nan => true
  | .str s => s ≠ ""
  | .list items => !items.isEmpty
  | .dict fields => !fields.isEmpty

def or (v w : WireJson) : WireJson := if v.isTrue then v else w

def isDict : WireJson → Bool
  | .dict _ => true
  | _ => false

def isText : WireJson → Bool
  | .str _ => true
  | _ => false

/-- `v[key]` -/
def item (v : WireJson) (key : String) : Except PyError WireJson :=
  match v with
  | .dict fields =>
    match WireFields.lookup fields key with
    | some value => .ok value
    | Option.none => .error .keyError
  | _ => .error .typeError

/-- `v[0]` -/
def first : WireJson → Except PyError WireJson
  | .list [] => .error .indexError
  | .list (v :: _) => .ok v
  | .str s =>
    match s.toList with
    | [] => .error .indexError
    | c :: _ => .ok (.str (String.ofList [c]))
  | .dict _ => .error .keyError
  | _ => .error .typeError

/-- `v.get(key)` -/
def get (v : WireJson) (key : String) : Except PyError WireJson :=
  match v with
  | .dict fields => .ok ((WireFields.lookup fields key).getD .none)
  | _ => .error .attributeError

/-- `v.items()` -/
def items : WireJson → Except PyError WireFields
  | .dict fields => .ok fields
  | _ => .error .attributeError

/-- What a loop over the value goes through. -/
def elements : WireJson → Except PyError (List WireJson)
  | .list items => .ok items
  | .str s => .ok (s.toList.map fun c => .str (String.ofList [c]))
  | .dict fields => .ok (fields.map fun field => .str field.1)
  | _ => .error .typeError

end WireJson

end NexaHR
