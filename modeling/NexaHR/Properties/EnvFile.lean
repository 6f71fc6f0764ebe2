import NexaHR.Launcher.Database

/-! # One key of the settings file

Writing a key replaces its first line, or adds one. To the reader the file is a map from keys to values.

* `keyValue_written`: a written line is read back.
* `splitLines_write`: the lines after a write are those before it, but for the one of the key.
* `readSetting_write_self`, `readSetting_write_ne`: the key reads as what was written, every other key as before.
-/

namespace NexaHR

open Foundations

set_option autoImplicit false

/-- A key that is read back from the line it is written in. -/
structure ProperKey (key : List Char) : Prop where
  ne_nil : key ≠ []
  trimmed : Trimmed isSpace key
  plain : ∀ c ∈ key, c ≠ '=' ∧ isLineBreak c = false
  noComment : ¬['#'] <+: key

/-- A value that stands on one line, without blanks around it. -/
structure ProperValue (value : List Char) : Prop where
  trimmed : Trimmed isSpace value
  oneLine : ∀ c ∈ value, isLineBreak c = false

variable {key value other text : List Char}

theorem partition_append {c : Char} {l m : List Char} (h : c ∉ l) : partition c (l ++ c :: m) = (l, m) := by
  have hl : ∀ d ∈ l, decide (d ≠ c) = true := fun d hd => decide_eq_true fun heq => h (heq ▸ hd)
  unfold partition
  rw [List.takeWhile_append_of_pos hl, List.dropWhile_append_of_pos hl, List.takeWhile_cons_of_neg (by simp),
    List.dropWhile_cons_of_neg (by simp), List.append_nil, List.tail_cons]

theorem partition_of_not_mem {c : Char} {l : List Char} (h : c ∉ l) : partition c l = (l, []) := by
  have hl : ∀ d ∈ l, decide (d ≠ c) = true := fun d hd => decide_eq_true fun heq => h (heq ▸ hd)
  unfold partition
  rw [List.takeWhile_eq_self_iff.mpr hl, List.dropWhile_eq_nil_iff.mpr hl]
  rfl

theorem trimmed_written (hkey : ProperKey key) (hvalue : Trimmed isSpace value) :
    Trimmed isSpace (key ++ '=' :: value) := by
  have hmark : Trimmed isSpace ['='] := ⟨by decide, by decide⟩
  cases value with
  | nil =>
    have hboth := hkey.trimmed.append hmark hkey.ne_nil (List.cons_ne_nil _ _) []
    exact hboth
  | cons c value =>
    have hboth := hkey.trimmed.append hvalue hkey.ne_nil (List.cons_ne_nil _ _) ['=']
    exact hboth

/-- A written line is read back. -/
theorem keyValue_written (hkey : ProperKey key) (hvalue : Trimmed isSpace value) :
    keyValue (key ++ '=' :: value) = some (key, value) := by
  have hequals : '=' ∉ key := fun h => (hkey.plain '=' h).1 rfl
  have hcomment : ¬['#'] <+: key ++ '=' :: value := by
    intro h
    obtain ⟨c, rest, hcons⟩ := List.exists_cons_of_ne_nil hkey.ne_nil
    apply hkey.noComment
    rw [hcons, List.cons_append, List.cons_prefix_cons] at h
    rw [hcons, List.cons_prefix_cons]
    exact ⟨h.1, List.nil_prefix⟩
  unfold keyValue
  dsimp only
  rw [trim_eq_self_iff.mpr (trimmed_written hkey hvalue), if_neg hcomment, if_pos (by simp),
    partition_append hequals, trim_eq_self_iff.mpr hkey.trimmed, trim_eq_self_iff.mpr hvalue]

theorem hasKey_written (hkey : ProperKey key) (hvalue : Trimmed isSpace value) :
    hasKey other (key ++ '=' :: value) = decide (key = other) := by
  unfold hasKey
  rw [keyValue_written hkey hvalue]
  rfl

/-! ## The lines after a write -/

theorem setLine_ne_nil (lines : List (List Char)) : setLine key value lines ≠ [] := by
  cases lines with
  | nil => exact List.cons_ne_nil _ _
  | cons line lines =>
    unfold setLine
    split <;> exact List.cons_ne_nil _ _

theorem setLine_oneLine (hkey : ProperKey key) (hvalue : ProperValue value) {lines : List (List Char)}
    (hlines : ∀ l ∈ lines, ∀ c ∈ l, isLineBreak c = false) :
    ∀ l ∈ setLine key value lines, ∀ c ∈ l, isLineBreak c = false := by
  have hwritten : ∀ c ∈ key ++ '=' :: value, isLineBreak c = false := by
    intro c hc
    cases List.mem_append.mp hc with
    | inl hleft => exact (hkey.plain c hleft).2
    | inr hright =>
      cases List.mem_cons.mp hright with
      | inl hmark =>
        rw [hmark]
        decide
      | inr hmem => exact hvalue.oneLine c hmem
  induction lines with
  | nil =>
    intro l hl
    rw [setLine, List.mem_singleton] at hl
    rw [hl]
    exact hwritten
  | cons line lines ih =>
    have hlater : ∀ l ∈ lines, ∀ c ∈ l, isLineBreak c = false := fun l hl => hlines l (List.mem_cons_of_mem _ hl)
    intro l hl
    unfold setLine at hl
    split at hl
    · cases List.mem_cons.mp hl with
      | inl hfirst => exact hfirst ▸ hwritten
      | inr hmem => exact hlater l hmem
    · cases List.mem_cons.mp hl with
      | inl hfirst => exact hfirst ▸ hlines line (List.mem_cons_self ..)
      | inr hmem => exact ih hlater l hmem

/-- The lines after a write are those before it, but for the one of the key. -/
theorem splitLines_write (hkey : ProperKey key) (hvalue : ProperValue value) :
    splitLines isLineBreak (writeSetting text key value) = setLine key value (splitLines isLineBreak text) := by
  unfold writeSetting
  rw [intercalate_concat _ (setLine_ne_nil _)]
  exact splitLines_joined (setLine_oneLine hkey hvalue (splitLines_break text)) (by decide)

/-! ## What is read afterwards -/

theorem valueAt_setLine_self (hkey : ProperKey key) (hvalue : Trimmed isSpace value) (lines : List (List Char)) :
    valueAt key (setLine key value lines) = value := by
  have hfound : hasKey key (key ++ '=' :: value) = true := by
    rw [hasKey_written hkey hvalue, decide_eq_true_iff]
  have hread : ∀ rest, valueAt key ((key ++ '=' :: value) :: rest) = value := by
    intro rest
    rw [valueAt, if_pos hfound, keyValue_written hkey hvalue]
    rfl
  induction lines with
  | nil => exact hread []
  | cons line lines ih =>
    unfold setLine
    split
    · exact hread lines
    · next hline => rw [valueAt, if_neg hline, ih]

theorem valueAt_setLine_ne (hkey : ProperKey key) (hvalue : Trimmed isSpace value) (hne : key ≠ other)
    (lines : List (List Char)) : valueAt other (setLine key value lines) = valueAt other lines := by
  have hmissing : ¬hasKey other (key ++ '=' :: value) = true := by
    rw [hasKey_written hkey hvalue, decide_eq_true_iff]
    exact hne
  induction lines with
  | nil => simp [setLine, valueAt, hmissing]
  | cons line lines ih =>
    unfold setLine
    split
    · next hline =>
      have hother : ¬hasKey other line = true := by
        intro h
        unfold hasKey at hline h
        cases hfound : keyValue line with
        | none =>
          rw [hfound] at hline
          cases hline
        | some found =>
          rw [hfound] at hline h
          exact hne ((of_decide_eq_true hline).symm.trans (of_decide_eq_true h))
      rw [valueAt, if_neg hmissing, valueAt, if_neg hother]
    · rw [valueAt, valueAt, ih]

/-- The key reads as what was written. -/
theorem readSetting_write_self (hkey : ProperKey key) (hvalue : ProperValue value) :
    readSetting (writeSetting text key value) key = value := by
  unfold readSetting
  rw [splitLines_write hkey hvalue, valueAt_setLine_self hkey hvalue.trimmed]

/-- Every other key reads as before. -/
theorem readSetting_write_ne (hkey : ProperKey key) (hvalue : ProperValue value) (hne : key ≠ other) :
    readSetting (writeSetting text key value) other = readSetting text other := by
  unfold readSetting
  rw [splitLines_write hkey hvalue, valueAt_setLine_ne hkey hvalue.trimmed hne]

end NexaHR
