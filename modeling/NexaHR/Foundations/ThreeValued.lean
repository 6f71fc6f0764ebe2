import Mathlib.Data.List.Basic
import Mathlib.Tactic.Common

/-! # Conditions over nullable columns

A condition of a query is true, false or unknown. A comparison with an empty column is unknown, the
connectives are Kleene's, and a query keeps the rows where its condition is true. So a condition and its
negation together keep the rows where it is known, and no others.

* `Truth`, `Truth.and`, `Truth.or`, `Truth.not`: the three values and the connectives.
* `equals`, `isNull`: the tests of a column.
* `Truth.holds`: the row is kept.
* `Truth.known`: the condition or its negation keeps the row.
* `Truth.filter_length_add_iff`: nothing is lost between a condition and its negation exactly when it is
  known on every row.
-/

namespace NexaHR.Foundations

set_option autoImplicit false

inductive Truth
  | yes | no | unknown
  deriving DecidableEq, Repr

namespace Truth

def ofBool : Bool → Truth
  | true => yes
  | false => no

def and : Truth → Truth → Truth
  | yes, t => t
  | no, _ => no
  | unknown, no => no
  | unknown, _ => unknown

def or : Truth → Truth → Truth
  | no, t => t
  | yes, _ => yes
  | unknown, yes => yes
  | unknown, _ => unknown

def not : Truth → Truth
  | yes => no
  | no => yes
  | unknown => unknown

/-- What `where` keeps. -/
def holds (t : Truth) : Bool := t = yes

def known (t : Truth) : Bool := t ≠ unknown

@[simp] theorem holds_ofBool (b : Bool) : (ofBool b).holds = b := by
  cases b <;> rfl

@[simp] theorem known_ofBool (b : Bool) : (ofBool b).known = true := by
  cases b <;> rfl

@[simp] theorem known_not (t : Truth) : t.not.known = t.known := by
  cases t <;> rfl

@[simp] theorem holds_and (s t : Truth) : (s.and t).holds = (s.holds && t.holds) := by
  cases s <;> cases t <;> rfl

@[simp] theorem holds_or (s t : Truth) : (s.or t).holds = (s.holds || t.holds) := by
  cases s <;> cases t <;> rfl

/-- A disjunction is known when one side holds or both are known. -/
theorem known_or (s t : Truth) :
    (s.or t).known = (s.holds || t.holds || s.known && t.known) := by
  cases s <;> cases t <;> rfl

/-- A conjunction is known when one side is false or both are known. -/
theorem known_and (s t : Truth) :
    (s.and t).known = (s.not.holds || t.not.holds || s.known && t.known) := by
  cases s <;> cases t <;> rfl

/-- A row is kept by a condition or by its negation exactly when the condition is known. -/
theorem holds_or_not (t : Truth) : (t.holds || t.not.holds) = t.known := by
  cases t <;> rfl

/-- No row is kept by both. -/
theorem not_both (t : Truth) : ¬(t.holds = true ∧ t.not.holds = true) := by
  cases t <;> decide

/-- The rows that a condition and its negation keep, counted. -/
theorem filter_length_add {α : Type} (c : α → Truth) (rows : List α) :
    (rows.filter fun a => (c a).holds).length + (rows.filter fun a => (c a).not.holds).length =
      (rows.filter fun a => (c a).known).length := by
  induction rows with
  | nil => rfl
  | cons a rows ih =>
    cases h : c a <;> simp [holds, not, known, h] at ih ⊢ <;> omega

theorem filter_length_add_iff {α : Type} (c : α → Truth) (rows : List α) :
    (rows.filter fun a => (c a).holds).length + (rows.filter fun a => (c a).not.holds).length =
      rows.length ↔ ∀ a ∈ rows, (c a).known = true := by
  rw [filter_length_add, List.length_filter_eq_length_iff]

end Truth

/-! ## Columns -/

section

variable {α : Type}

/-- A comparison of a column with a value. -/
def equals [DecidableEq α] (column : Option α) (value : α) : Truth :=
  match column with
  | some a => Truth.ofBool (a = value)
  | none => Truth.unknown

def isNull (column : Option α) : Truth := Truth.ofBool column.isNone

@[simp] theorem equals_holds [DecidableEq α] (column : Option α) (value : α) :
    (equals column value).holds = decide (column = some value) := by
  cases column with
  | none => rfl
  | some a => simp [equals]

@[simp] theorem equals_known [DecidableEq α] (column : Option α) (value : α) :
    (equals column value).known = column.isSome := by
  cases column with
  | none => rfl
  | some a => exact Truth.known_ofBool _

@[simp] theorem isNull_holds (column : Option α) : (isNull column).holds = column.isNone := by
  simp [isNull]

@[simp] theorem isNull_not_holds (column : Option α) : (isNull column).not.holds = column.isSome := by
  cases column <;> rfl

@[simp] theorem isNull_known (column : Option α) : (isNull column).known = true := by
  simp [isNull]

end

end NexaHR.Foundations
