import Mathlib.Data.List.Basic
import Mathlib.Data.List.SplitOn
import Mathlib.Tactic.Common

/-! # Texts as lines

* `splitLines isBreak text`: the lines of a text, where an end of line behind the last one opens no other.
* `splitLines_break`: no line has a break in it.
* `splitLines_nil_iff`, `splitLines_cons`: how the lines follow the text.
* `infix_splitOn`: the parts between marks stand in the text.
* `splitLines_joined`: lines that are written one after the other, each with a break behind it, are read back.
-/

namespace NexaHR.Foundations

set_option autoImplicit false

variable {α : Type}

/-- The lines of a text, where `line` is what has been read of the first. -/
def linesFrom (isBreak : α → Bool) : List α → List α → List (List α)
  | line, [] => if line.isEmpty then [] else [line]
  | line, c :: rest => if isBreak c then line :: linesFrom isBreak [] rest else linesFrom isBreak (line ++ [c]) rest

def splitLines (isBreak : α → Bool) (text : List α) : List (List α) := linesFrom isBreak [] text

variable {isBreak : α → Bool}

theorem linesFrom_break {line text : List α} (hline : ∀ c ∈ line, isBreak c = false) :
    ∀ l ∈ linesFrom isBreak line text, ∀ c ∈ l, isBreak c = false := by
  induction text generalizing line with
  | nil =>
    intro l hl
    unfold linesFrom at hl
    split at hl
    · cases hl
    · rw [List.mem_singleton] at hl
      exact hl ▸ hline
  | cons a text ih =>
    intro l hl
    unfold linesFrom at hl
    split at hl
    · cases List.mem_cons.mp hl with
      | inl hfirst => exact hfirst ▸ hline
      | inr hlater => exact ih (by simp) l hlater
    · next ha =>
      refine ih (fun c hc => ?_) l hl
      cases List.mem_append.mp hc with
      | inl hold => exact hline c hold
      | inr hnew => exact List.mem_singleton.mp hnew ▸ by simpa using ha

theorem splitLines_break (text : List α) : ∀ l ∈ splitLines isBreak text, ∀ c ∈ l, isBreak c = false :=
  linesFrom_break (by simp)

theorem linesFrom_ne_nil {line : List α} (h : line ≠ []) (text : List α) : linesFrom isBreak line text ≠ [] := by
  induction text generalizing line with
  | nil => simp [linesFrom, h]
  | cons a text ih =>
    unfold linesFrom
    split
    · exact List.cons_ne_nil _ _
    · exact ih (by simp)

theorem splitLines_nil_iff {text : List α} : splitLines isBreak text = [] ↔ text = [] := by
  constructor
  · intro h
    cases text with
    | nil => rfl
    | cons a text =>
      unfold splitLines linesFrom at h
      split at h
      · cases h
      · exact absurd h (linesFrom_ne_nil (by simp) text)
  · intro h
    rw [h]
    rfl

theorem linesFrom_cons {text before line : List α} {lines : List (List α)} (hbefore : ∀ c ∈ before, isBreak c = false)
    (h : linesFrom isBreak before text = line :: lines) :
    (∀ c ∈ line, isBreak c = false) ∧
      (before ++ text = line ∧ lines = [] ∨
        ∃ a rest, isBreak a = true ∧ before ++ text = line ++ a :: rest ∧ splitLines isBreak rest = lines) := by
  induction text generalizing before with
  | nil =>
    unfold linesFrom at h
    split at h
    · cases h
    · cases h
      exact ⟨hbefore, Or.inl ⟨List.append_nil _, rfl⟩⟩
  | cons a text ih =>
    unfold linesFrom at h
    split at h
    · next ha =>
      cases h
      exact ⟨hbefore, Or.inr ⟨a, text, ha, rfl, rfl⟩⟩
    · next ha =>
      have hmore : ∀ c ∈ before ++ [a], isBreak c = false := by
        intro c hc
        cases List.mem_append.mp hc with
        | inl hold => exact hbefore c hold
        | inr hnew => exact List.mem_singleton.mp hnew ▸ by simpa using ha
      have hfound := ih hmore h
      rw [List.append_assoc, List.singleton_append] at hfound
      exact hfound

/-- The first line is the whole text, or it ends at a break and the other lines are those of the rest. -/
theorem splitLines_cons {text line : List α} {lines : List (List α)} (h : splitLines isBreak text = line :: lines) :
    (∀ c ∈ line, isBreak c = false) ∧
      (text = line ∧ lines = [] ∨
        ∃ a rest, isBreak a = true ∧ text = line ++ a :: rest ∧ splitLines isBreak rest = lines) :=
  linesFrom_cons (by simp) h

/-- A line is read up to its break. -/
theorem linesFrom_line {line : List α} (hline : ∀ c ∈ line, isBreak c = false) {a : α} (ha : isBreak a = true)
    (before rest : List α) :
    linesFrom isBreak before (line ++ a :: rest) = (before ++ line) :: splitLines isBreak rest := by
  induction line generalizing before with
  | nil =>
    rw [List.nil_append, linesFrom, if_pos ha, List.append_nil]
    rfl
  | cons c line ih =>
    rw [List.cons_append, linesFrom, if_neg (by rw [hline c (List.mem_cons_self ..)]; decide),
      ih fun d hd => hline d (List.mem_cons_of_mem _ hd), List.append_assoc, List.singleton_append]

theorem splitLines_joined {lines : List (List α)} (hlines : ∀ l ∈ lines, ∀ c ∈ l, isBreak c = false) {a : α}
    (ha : isBreak a = true) : splitLines isBreak (lines.flatMap fun l => l ++ [a]) = lines := by
  induction lines with
  | nil => rfl
  | cons line lines ih =>
    rw [List.flatMap_cons, List.append_assoc, List.singleton_append, splitLines,
      linesFrom_line (hlines line (List.mem_cons_self ..)) ha, List.nil_append,
      ih fun l hl => hlines l (List.mem_cons_of_mem _ hl)]

/-- Lines with a break between them, and one at the end. -/
theorem intercalate_concat (a : α) {lines : List (List α)} (hne : lines ≠ []) :
    [a].intercalate lines ++ [a] = lines.flatMap fun l => l ++ [a] := by
  induction lines with
  | nil => exact absurd rfl hne
  | cons line lines ih =>
    cases lines with
    | nil => simp
    | cons next lines =>
      rw [List.intercalate_cons_cons, List.append_assoc, List.append_assoc, ih (List.cons_ne_nil _ _),
        @List.flatMap_cons _ _ line, List.append_assoc]

theorem infix_intercalate {sep part : List α} {parts : List (List α)} (h : part ∈ parts) :
    part <:+: sep.intercalate parts := by
  induction parts with
  | nil => cases h
  | cons first parts ih =>
    cases parts with
    | nil =>
      rw [List.mem_singleton] at h
      simp [h]
    | cons second parts =>
      rw [List.intercalate_cons_cons, List.append_assoc]
      cases List.mem_cons.mp h with
      | inl hfirst => exact hfirst ▸ (List.prefix_append first _).isInfix
      | inr hlater => exact (ih hlater).trans ((List.suffix_append _ _).trans (List.suffix_append _ _)).isInfix

theorem infix_splitOn [DecidableEq α] {mark : α} {part l : List α} (h : part ∈ l.splitOn mark) :
    part <:+: l := by
  have hparts := @infix_intercalate _ [mark] _ _ h
  rwa [List.intercalate_splitOn] at hparts

end NexaHR.Foundations
