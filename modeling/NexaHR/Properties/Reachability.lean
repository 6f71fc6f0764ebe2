import Mathlib.Data.Bool.AllAny
import NexaHR.Foundations.Scanning
import NexaHR.Properties.EnvFile

/-! # What the reachability check finds in the settings file

* `KeyHere`, `SiteHere`: what the two patterns look for; `Checked`, `FirstSite`: what they find first.
* `databaseEndpoint_iff`: what the check reports.
* `checked_of_lines`: up to the key lines end as the pattern has it, and the word found begins the value that the
  launcher reads.
* `hostPortIn_user`, `hostPortIn_none`: where the second pattern finds nothing.
-/

namespace NexaHR

open Foundations

set_option autoImplicit false

/-! ## The word behind the key -/

/-- What `\S+` takes of a text that begins with it. -/
def firstWord (l : List Char) : List Char := l.takeWhile fun c => !isSpace c

/-- Nothing follows, or a blank. -/
def EndsWord (tail : List Char) : Prop := tail = [] ∨ ∃ c rest, tail = c :: rest ∧ isSpace c = true

theorem isSpace_of_lineBreak {c : Char} (h : isLineBreak c = true) : isSpace c = true := by
  have hall : ∀ k ∈ [0x0a, 0x0b, 0x0c, 0x0d, 0x1c, 0x1d, 0x1e, 0x85, 0x2028, 0x2029],
      isSpace (Char.ofNat k) = true := by decide
  rw [← Char.ofNat_toNat c]
  exact hall _ (of_decide_eq_true h)

theorem firstWord_ended {word tail : List Char} (hsolid : ∀ c ∈ word, isSpace c = false) (htail : EndsWord tail) :
    firstWord (word ++ tail) = word := by
  have hall : ∀ c ∈ word, (!isSpace c) = true := fun c hc => by simp [hsolid c hc]
  have hstop : tail.takeWhile (fun c => !isSpace c) = [] := by
    obtain rfl | ⟨c, rest, rfl, hc⟩ := htail
    · rfl
    · rw [List.takeWhile_cons_of_neg (by simp [hc])]
  unfold firstWord
  rw [List.takeWhile_append_of_pos hall, hstop, List.append_nil]

theorem firstWord_solid {l : List Char} : ∀ c ∈ firstWord l, isSpace c = false := by
  intro c hc
  simpa using List.mem_takeWhile_imp hc

theorem firstWord_split (l : List Char) : ∃ tail, l = firstWord l ++ tail ∧ EndsWord tail := by
  refine ⟨l.dropWhile fun c => !isSpace c, (List.takeWhile_append_dropWhile ..).symm, ?_⟩
  cases hdrop : l.dropWhile fun c => !isSpace c with
  | nil => exact .inl rfl
  | cons c rest =>
    have hpos : 0 < (l.dropWhile fun c => !isSpace c).length := by
      rw [hdrop]
      exact Nat.zero_lt_succ _
    have hnot := List.dropWhile_get_zero_not (fun c => !isSpace c) l hpos
    exact .inr ⟨c, rest, rfl, by simpa [hdrop] using hnot⟩

theorem settingHere_congr {l m : List Char} (h : l.dropWhile isSpace = m.dropWhile isSpace) :
    settingHere l = settingHere m := by
  unfold settingHere
  rw [h]

/-- The search goes through the rest of a line without finding a beginning. -/
theorem settingWord_inside {line rest : List Char} (hline : ∀ c ∈ line, c ≠ '\n') :
    settingWord false (line ++ '\n' :: rest) = settingWord true rest := by
  induction line with
  | nil => simp [settingWord]
  | cons c line ih =>
    have hc : decide (c = '\n') = false := decide_eq_false (hline c (List.mem_cons_self ..))
    rw [List.cons_append, settingWord, hc, ih fun d hd => hline d (List.mem_cons_of_mem _ hd)]
    rfl

theorem settingWord_line {line rest : List Char} (hline : ∀ c ∈ line, c ≠ '\n') :
    settingWord true (line ++ '\n' :: rest) = (settingHere (line ++ '\n' :: rest)).or (settingWord true rest) := by
  cases line with
  | nil => rfl
  | cons c line =>
    have hc : decide (c = '\n') = false := decide_eq_false (hline c (List.mem_cons_self ..))
    rw [List.cons_append, settingWord, hc, settingWord_inside fun d hd => hline d (List.mem_cons_of_mem _ hd)]
    rfl

/-- What a line with a key and a value looks like. -/
theorem keyValue_shape {line key value : List Char} (h : keyValue line = some (key, value)) :
    ∃ before blanks rest, line = before ++ (key ++ (blanks ++ '=' :: rest)) ∧ value = trim isSpace rest ∧
      (∀ c ∈ before, isSpace c = true) ∧ ∀ c ∈ blanks, isSpace c = true := by
  unfold keyValue at h
  dsimp only at h
  split at h
  · cases h
  split at h
  · next hequals =>
    obtain ⟨first, last, hbare, hfirst⟩ := List.eq_append_cons_of_mem hequals
    obtain ⟨before, after, hline, hbefore, hafter⟩ := trim_parts isSpace line
    obtain ⟨before', blanks, hkey, hbefore', hblanks⟩ := trim_parts isSpace first
    rw [hbare, partition_append hfirst] at h
    cases h
    have htrim : trim isSpace (last ++ after) = trim isSpace last := by
      obtain ⟨start, finish, hlast, hstart, hfinish⟩ := trim_parts isSpace last
      by_cases hnil : trim isSpace last = []
      · rw [hnil, trim_eq_nil_iff]
        intro c hc
        cases List.mem_append.mp hc with
        | inl hmem => exact trim_eq_nil_iff.mp hnil c hmem
        | inr hmem => exact hafter c hmem
      · have hpads := trim_pads (trimmed_trim last) hnil hstart fun c hc =>
          (List.mem_append.mp hc).elim (hfinish c) (hafter c)
        rw [← hpads]
        congr 1
        conv_lhs => rw [hlast]
        simp
    refine ⟨before ++ before', blanks, last ++ after, ?_, htrim.symm, fun c hc =>
      (List.mem_append.mp hc).elim (hbefore c) (hbefore' c), hblanks⟩
    conv_lhs => rw [hline, hbare, hkey]
    simp
  · cases h

theorem databaseUrl_solid : ∀ c ∈ databaseUrl, isSpace c = false := List.all_iff_forall_prop.mp (by decide)

/-- What a text is that the pattern matches at its beginning. -/
theorem settingHere_of_shape {before blanks rest text : List Char} (hbefore : ∀ c ∈ before, isSpace c = true)
    (hblanks : ∀ c ∈ blanks, isSpace c = true) (htext : text = before ++ (databaseUrl ++ (blanks ++ '=' :: rest))) :
    settingHere text =
      if (rest.dropWhile isSpace).takeWhile (fun c => !isSpace c) = [] then none
      else some ((rest.dropWhile isSpace).takeWhile fun c => !isSpace c) := by
  have hstart : text.dropWhile isSpace = databaseUrl ++ (blanks ++ '=' :: rest) := by
    rw [htext, List.dropWhile_append_of_pos hbefore]
    rfl
  have hequals : (blanks ++ '=' :: rest).dropWhile isSpace = '=' :: rest := by
    rw [List.dropWhile_append_of_pos hblanks, List.dropWhile_cons_of_neg (by decide)]
  unfold settingHere
  dsimp only
  rw [hstart, if_pos ⟨_, rfl⟩, List.drop_left, hequals]
  rfl

theorem shape_of_settingHere {text word : List Char} (h : settingHere text = some word) :
    ∃ blanks rest, text.dropWhile isSpace = databaseUrl ++ (blanks ++ '=' :: rest) ∧
      ∀ c ∈ blanks, isSpace c = true := by
  unfold settingHere at h
  dsimp only at h
  split at h
  · next hprefix =>
    obtain ⟨more, hmore⟩ := hprefix
    rw [← hmore, List.drop_left] at h
    split at h
    · next rest hequals =>
      refine ⟨more.takeWhile isSpace, rest, ?_, fun c hc => List.mem_takeWhile_imp hc⟩
      rw [← hmore, ← hequals, List.takeWhile_append_dropWhile]
    · cases h
  · cases h

/-- The word behind the `=` begins the value. -/
theorem word_of_value {rest tail value : List Char} (hvalue : value = trim isSpace rest) (hne : value ≠ [])
    (htail : EndsWord tail) : firstWord ((rest ++ tail).dropWhile isSpace) = firstWord value := by
  obtain ⟨before, after, hrest, hbefore, hafter⟩ := trim_parts isSpace rest
  obtain ⟨more, hmore, hends⟩ := firstWord_split value
  have htrimmed : Trimmed isSpace value := hvalue ▸ trimmed_trim rest
  have hstart : (rest ++ tail).dropWhile isSpace = value ++ (after ++ tail) := by
    rw [hrest, ← hvalue, List.append_assoc, List.append_assoc, List.dropWhile_append_of_pos hbefore]
    obtain ⟨c, later, rfl⟩ := List.exists_cons_of_ne_nil hne
    rw [List.cons_append, List.dropWhile_cons_of_neg (by simp [trimmed_cons htrimmed])]
  have hword : EndsWord (more ++ (after ++ tail)) := by
    obtain rfl | ⟨c, later, rfl, hc⟩ := hends
    · cases after with
      | nil => exact htail
      | cons c after => exact .inr ⟨c, after ++ tail, rfl, hafter c (List.mem_cons_self ..)⟩
    · exact .inr ⟨c, _, rfl, hc⟩
  rw [hstart]
  conv_lhs => rw [hmore, List.append_assoc]
  exact firstWord_ended firstWord_solid hword

theorem firstWord_ne_nil {value : List Char} (htrimmed : Trimmed isSpace value) (hne : value ≠ []) :
    firstWord value ≠ [] := by
  obtain ⟨c, more, rfl⟩ := List.exists_cons_of_ne_nil hne
  unfold firstWord
  rw [List.takeWhile_cons_of_pos (by simp [trimmed_cons htrimmed])]
  exact List.cons_ne_nil _ _

/-- At the line of the key the word begins its value. -/
theorem settingHere_key {line tail value : List Char} (h : keyValue line = some (databaseUrl, value)) (hne : value ≠ [])
    (htail : EndsWord tail) : settingHere (line ++ tail) = some (firstWord value) := by
  obtain ⟨before, blanks, rest, hline, hvalue, hbefore, hblanks⟩ := keyValue_shape h
  have htext : line ++ tail = before ++ (databaseUrl ++ (blanks ++ '=' :: (rest ++ tail))) := by
    rw [hline]
    simp
  have hword : ((rest ++ tail).dropWhile isSpace).takeWhile (fun c => !isSpace c) = firstWord value :=
    word_of_value hvalue hne htail
  rw [settingHere_of_shape hbefore hblanks htext, hword,
    if_neg (firstWord_ne_nil (hvalue ▸ trimmed_trim rest) hne)]

theorem prefix_of_append {p a b : List Char} (hp : ∀ c ∈ p, isSpace c = false)
    (hb : ∀ c rest, b = c :: rest → isSpace c = true) (h : p <+: a ++ b) : p <+: a := by
  induction p generalizing a with
  | nil => exact List.nil_prefix
  | cons c p ih =>
    cases a with
    | nil =>
      obtain ⟨more, hmore⟩ := h
      have hblank := hb c (p ++ more) hmore.symm
      rw [hp c (List.mem_cons_self ..)] at hblank
      cases hblank
    | cons d a =>
      rw [List.cons_append, List.cons_prefix_cons] at h
      rw [List.cons_prefix_cons]
      exact ⟨h.1, ih (fun x hx => hp x (List.mem_cons_of_mem _ hx)) h.2⟩

theorem head_dropWhile {p : Char → Bool} {c : Char} {l m : List Char} (h : l.dropWhile p = c :: m) :
    c ∈ l ∧ p c = false := by
  have hmem : c ∈ l := (List.dropWhile_suffix p).subset (h ▸ List.mem_cons_self ..)
  have hpos : 0 < (l.dropWhile p).length := by
    rw [h]
    exact Nat.zero_lt_succ _
  have hnot := List.dropWhile_get_zero_not p l hpos
  exact ⟨hmem, by simpa [h] using hnot⟩

/-- No blanks are left at the end of a trimmed text. -/
theorem nil_of_trimmed {l more : List Char} (h : Trimmed isSpace (l ++ more)) (hspaces : ∀ c ∈ more, isSpace c = true) :
    more = [] := by
  cases more with
  | nil => rfl
  | cons c more =>
    have hne : l ++ c :: more ≠ [] := by simp
    have hlast := List.rdropWhile_eq_self_iff.mp h.last hne
    have hmem : (l ++ c :: more).getLast hne ∈ c :: more := by
      rw [List.getLast_append_of_ne_nil _ (List.cons_ne_nil _ _)]
      exact List.getLast_mem _
    exact absurd (hspaces _ hmem) hlast

/-- A line that has the key, blanks and an equals sign is a line of the key. -/
theorem hasKey_of_equals {line blanks rest : List Char}
    (h : trim isSpace line = (databaseUrl ++ blanks) ++ '=' :: rest) (hspaces : ∀ c ∈ blanks, isSpace c = true) :
    hasKey databaseUrl line = true := by
  have hnoEquals : '=' ∉ databaseUrl ++ blanks := by
    rw [List.mem_append, not_or]
    exact ⟨by decide, fun hmem => absurd (hspaces '=' hmem) (by decide)⟩
  have hproper : Trimmed isSpace databaseUrl := ⟨by decide, by decide⟩
  have hname : trim isSpace (databaseUrl ++ blanks) = databaseUrl :=
    trim_pads hproper (by decide) (List.forall_mem_nil _) hspaces
  have hcomment : ¬['#'] <+: trim isSpace line := by
    rw [h]
    unfold databaseUrl
    simp
  unfold hasKey keyValue
  dsimp only
  rw [if_neg hcomment, if_pos (by rw [h]; simp), h, partition_append hnoEquals, hname]
  simp

/-- Elsewhere the pattern matches nothing, unless the key and its `=` are on two lines. -/
theorem settingHere_other {line tail : List Char} (hkey : ¬hasKey databaseUrl line = true)
    (hblank : trim isSpace line ≠ [])
    (hsplit : trim isSpace line = databaseUrl → ¬['='] <+: tail.dropWhile isSpace) (htail : EndsWord tail) :
    settingHere (line ++ tail) = none := by
  cases hfound : settingHere (line ++ tail) with
  | none => rfl
  | some word =>
    exfalso
    obtain ⟨blanks, rest, hstart, hblanks⟩ := shape_of_settingHere hfound
    obtain ⟨before, after, hline, hbefore, hafter⟩ := trim_parts isSpace line
    have hbare := trimmed_trim (p := isSpace) line
    have hdrop : (line ++ tail).dropWhile isSpace = trim isSpace line ++ (after ++ tail) := by
      conv_lhs => rw [hline, List.append_assoc, List.append_assoc, List.dropWhile_append_of_pos hbefore]
      obtain ⟨c, more, hcons⟩ := List.exists_cons_of_ne_nil hblank
      rw [hcons] at hbare ⊢
      rw [List.cons_append, List.dropWhile_cons_of_neg (by simp [trimmed_cons hbare])]
    have hlater : ∀ c more, after ++ tail = c :: more → isSpace c = true := by
      intro c more heq
      cases after with
      | nil =>
        obtain rfl | ⟨d, next, rfl, hd⟩ := htail
        · cases heq
        · cases heq
          exact hd
      | cons d after =>
        cases heq
        exact hafter c (List.mem_cons_self ..)
    rw [hdrop] at hstart
    obtain ⟨more, hmore⟩ : databaseUrl <+: trim isSpace line :=
      prefix_of_append databaseUrl_solid hlater ⟨_, hstart.symm⟩
    rw [← hmore, List.append_assoc, List.append_cancel_left_eq] at hstart
    cases hnil : more.dropWhile isSpace with
    | nil =>
      -- The key stands alone: what follows it on the line would be blanks, and there are none at the end.
      have hspaces := List.dropWhile_eq_nil_iff.mp hnil
      have halone : trim isSpace line = databaseUrl := by
        rw [← hmore] at hbare ⊢
        rw [nil_of_trimmed hbare hspaces, List.append_nil]
      have hequals : (more ++ (after ++ tail)).dropWhile isSpace = tail.dropWhile isSpace := by
        rw [List.dropWhile_append_of_pos hspaces, List.dropWhile_append_of_pos hafter]
      rw [hstart, List.dropWhile_append_of_pos hblanks, List.dropWhile_cons_of_neg (by decide)] at hequals
      exact hsplit halone ⟨rest, hequals⟩
    | cons c m =>
      have hsplitMore : more = more.takeWhile isSpace ++ c :: m := by
        rw [← hnil, List.takeWhile_append_dropWhile]
      have hc : isSpace c = false := (head_dropWhile hnil).2
      have hequals : (more ++ (after ++ tail)).dropWhile isSpace = c :: (m ++ (after ++ tail)) := by
        conv_lhs => rw [hsplitMore, List.append_assoc,
          List.dropWhile_append_of_pos fun d hd => List.mem_takeWhile_imp hd, List.cons_append]
        rw [List.dropWhile_cons_of_neg (by simp [hc])]
      rw [hstart, List.dropWhile_append_of_pos hblanks, List.dropWhile_cons_of_neg (by decide),
        List.cons.injEq] at hequals
      have hwhole : trim isSpace line = (databaseUrl ++ more.takeWhile isSpace) ++ '=' :: m := by
        rw [hequals.1, List.append_assoc, ← hsplitMore, hmore]
      exact hkey (hasKey_of_equals hwhole fun d hd => List.mem_takeWhile_imp hd)

/-- Before the line of the key no line is the key alone with the `=` on a line that follows. -/
def KeyUnbroken : List (List Char) → Prop
  | [] => True
  | line :: lines =>
    hasKey databaseUrl line = true ∨
      (trim isSpace line = databaseUrl → ¬['='] <+: lines.flatten.dropWhile isSpace) ∧ KeyUnbroken lines

/-- Line ends are blanks to the pattern. -/
theorem dropWhile_lines {text : List Char} : (['='] <+: text.dropWhile isSpace) ↔
      ['='] <+: (splitLines isLineBreak text).flatten.dropWhile isSpace := by
  generalize hlines : splitLines isLineBreak text = lines
  induction lines generalizing text with
  | nil =>
    rw [splitLines_nil_iff.mp hlines]
    rfl
  | cons line lines ih =>
    obtain ⟨hline, hwhole | ⟨c, rest, hc, htext, hrest⟩⟩ := splitLines_cons hlines
    · rw [hwhole.1, hwhole.2, List.flatten_cons, List.flatten_nil, List.append_nil]
    · have hspace := isSpace_of_lineBreak hc
      have hlater := ih hrest
      rw [htext, List.flatten_cons, List.dropWhile_append, List.dropWhile_append]
      split
      · next hnil =>
        rw [List.dropWhile_cons_of_pos hspace]
        exact hlater
      · next hne =>
        cases hdrop : line.dropWhile isSpace with
        | nil => simp [hdrop] at hne
        | cons d more => simp

/-- Every line before that of the key ends as the pattern has it. -/
def PlainToKey (text : List Char) : Prop :=
  (((splitLines isLineBreak text).takeWhile fun line => !hasKey databaseUrl line).flatMap fun line => line ++ ['\n'])
    <+: text

theorem keyValue_of_hasKey {key line : List Char} (h : hasKey key line = true) :
    keyValue line = some (key, ((keyValue line).map Prod.snd).getD []) := by
  unfold hasKey at h
  cases hfound : keyValue line with
  | none =>
    rw [hfound] at h
    cases h
  | some found =>
    rw [hfound, Option.any_some, decide_eq_true_iff] at h
    rw [Option.map_some, Option.getD_some, ← h]

theorem settingWord_here {l word : List Char} (h : settingHere l = some word) : settingWord true l = some word := by
  cases l with
  | nil => cases h
  | cons c rest => rw [settingWord, if_pos rfl, h, Option.some_or]

/-- Over a blank line the pattern finds what it finds behind it. -/
theorem settingHere_blank {line rest word : List Char} (hblank : trim isSpace line = [])
    (h : settingWord true rest = some word) :
    (settingHere (line ++ '\n' :: rest)).or (settingWord true rest) = some word := by
  have hskip : settingHere (line ++ '\n' :: rest) = settingHere rest := by
    apply settingHere_congr
    rw [List.dropWhile_append_of_pos (trim_eq_nil_iff.mp hblank)]
    rfl
  rw [hskip, h]
  cases hhere : settingHere rest with
  | none => rfl
  | some found =>
    rw [settingWord_here hhere] at h
    rw [Option.some_or, h]

/-- The word that the pattern finds begins the value that the launcher reads. -/
theorem settingWord_of_lines {text value : List Char} (hbreaks : PlainToKey text)
    (hkey : KeyUnbroken (splitLines isLineBreak text)) (hvalue : readSetting text databaseUrl = value)
    (hne : value ≠ []) : settingWord true text = some (firstWord value) := by
  unfold readSetting at hvalue
  unfold PlainToKey at hbreaks
  generalize hlines : splitLines isLineBreak text = lines at hkey hvalue hbreaks
  induction lines generalizing text with
  | nil => exact absurd hvalue.symm hne
  | cons line lines ih =>
    obtain ⟨hline, hwhole⟩ := splitLines_cons hlines
    have hnewline : ∀ c ∈ line, c ≠ '\n' := by
      intro c hc heq
      have hbreak := hline c hc
      rw [heq] at hbreak
      exact absurd hbreak (by decide)
    by_cases hfound : hasKey databaseUrl line = true
    · rw [valueAt, if_pos hfound] at hvalue
      have hread := keyValue_of_hasKey hfound
      rw [hvalue] at hread
      have hhere : ∀ tail, EndsWord tail → settingHere (line ++ tail) = some (firstWord value) := fun tail htail =>
        settingHere_key hread hne htail
      obtain ⟨htext, _⟩ | ⟨c, rest, hc, htext, _⟩ := hwhole
      · rw [htext, ← List.append_nil line]
        exact settingWord_here (hhere [] (.inl rfl))
      · rw [htext]
        exact settingWord_here (hhere _ (.inr ⟨c, rest, rfl, isSpace_of_lineBreak hc⟩))
    · rw [valueAt, if_neg hfound] at hvalue
      have hlater := hkey.resolve_left hfound
      obtain ⟨_, hnil⟩ | ⟨c, rest, _, htext, hrest⟩ := hwhole
      · rw [hnil] at hvalue
        exact absurd hvalue.symm hne
      · rw [List.takeWhile_cons_of_pos (by simp [hfound]), List.flatMap_cons, htext, List.append_assoc,
          List.prefix_append_right_inj, List.singleton_append, List.cons_prefix_cons] at hbreaks
        rw [← hbreaks.1] at htext
        have hword := ih hrest hlater.2 hvalue hbreaks.2
        rw [htext, settingWord_line hnewline]
        by_cases hblank : trim isSpace line = []
        · exact settingHere_blank hblank hword
        · have hsplit : trim isSpace line = databaseUrl → ¬['='] <+: ('\n' :: rest).dropWhile isSpace := by
            intro halone hequals
            rw [List.dropWhile_cons_of_pos (by decide), dropWhile_lines, hrest] at hequals
            exact hlater.1 halone hequals
          rw [settingHere_other hfound hblank hsplit (.inr ⟨'\n', rest, rfl, by decide⟩), Option.none_or, hword]

/-! ## The host and the port -/

theorem hostPortHere_skip {c : Char} (h : c ≠ '@') (rest : List Char) : hostPortHere (c :: rest) = none := by
  unfold hostPortHere
  split
  · next heq =>
    cases heq
    exact absurd rfl h
  · rfl

theorem hostPortIn_skip {before : List Char} (h : '@' ∉ before) (rest : List Char) :
    hostPortIn (before ++ rest) = hostPortIn rest := by
  induction before with
  | nil => rfl
  | cons c before ih =>
    have hc : c ≠ '@' := fun heq => h (heq ▸ List.mem_cons_self ..)
    rw [List.cons_append, hostPortIn, hostPortHere_skip hc, ih fun hmem => h (List.mem_cons_of_mem _ hmem),
      Option.none_or]

theorem dropWhile_stops {p : Char → Bool} {c : Char} (hc : p c = false) (l m : List Char) :
    (l ++ c :: m).dropWhile p = l.dropWhile p ++ c :: m := by
  induction l with
  | nil => rw [List.nil_append, List.dropWhile_cons_of_neg (by simp [hc]), List.dropWhile_nil, List.nil_append]
  | cons d l ih =>
    rw [List.cons_append]
    cases hd : p d with
    | true => rw [List.dropWhile_cons_of_pos hd, List.dropWhile_cons_of_pos hd, ih]
    | false =>
      rw [List.dropWhile_cons_of_neg (by simp [hd]), List.dropWhile_cons_of_neg (by simp [hd]), List.cons_append]

/-- Before another `@` there is no match without a slash. -/
theorem hostPortHere_user {l : List Char} (h : '/' ∉ l) (m : List Char) :
    hostPortHere ('@' :: (l ++ '@' :: m)) = none := by
  rw [hostPortHere]
  split
  · rfl
  · rw [dropWhile_stops (by decide)]
    cases hdrop : l.dropWhile isHostChar with
    | nil => rfl
    | cons c more =>
      obtain ⟨hmem, hc⟩ := head_dropWhile hdrop
      simp only [isHostChar, Bool.and_eq_false_iff, decide_eq_false_iff_not, not_not] at hc
      obtain (rfl | rfl) | rfl := hc
      · exact absurd hmem h
      · have hmore : '/' ∉ more := by
          intro hslash
          have hlater : '/' ∈ l.dropWhile isHostChar := hdrop ▸ List.mem_cons_of_mem _ hslash
          exact h ((List.dropWhile_suffix _).subset hlater)
        have hnone : ¬['/'] <+: (more ++ '@' :: m).dropWhile isAnyDigit := by
          rw [dropWhile_stops (by decide)]
          cases hdigits : more.dropWhile isAnyDigit with
          | nil => simp
          | cons d after =>
            intro hslash
            rw [List.cons_append, List.cons_prefix_cons] at hslash
            exact hmore (hslash.1 ▸ (head_dropWhile hdigits).1)
        exact if_neg fun hboth => hnone hboth.2
      · rfl

theorem hostPortIn_user {l : List Char} (h : '/' ∉ l) (m : List Char) :
    hostPortIn (l ++ '@' :: m) = hostPortIn ('@' :: m) := by
  induction l with
  | nil => rfl
  | cons c l ih =>
    have hl : '/' ∉ l := fun hmem => h (List.mem_cons_of_mem _ hmem)
    have hnone : hostPortHere (c :: (l ++ '@' :: m)) = none := by
      by_cases hc : c = '@'
      · rw [hc, hostPortHere_user hl]
      · exact hostPortHere_skip hc _
    rw [List.cons_append, hostPortIn, hnone, ih hl, Option.none_or]

variable {host : List Char}

theorem hostPortHere_host (hne : host ≠ []) (hhost : ∀ c ∈ host, isHostChar c = true) (tail : List Char) :
    hostPortHere ('@' :: (host ++ '/' :: tail)) = some (host, defaultPort) := by
  have hstart : (host ++ '/' :: tail).takeWhile isHostChar = host := by
    rw [List.takeWhile_append_of_pos hhost, List.takeWhile_cons_of_neg (by decide), List.append_nil]
  have hstop : (host ++ '/' :: tail).dropWhile isHostChar = '/' :: tail := by
    rw [List.dropWhile_append_of_pos hhost, List.dropWhile_cons_of_neg (by decide)]
  rw [hostPortHere, hstart, hstop, if_neg hne]
  rfl

theorem hostPortHere_port (hne : host ≠ []) (hhost : ∀ c ∈ host, isHostChar c = true) {digits : List Char}
    (hdigits : digits ≠ []) (hall : ∀ c ∈ digits, isAnyDigit c = true) (tail : List Char) :
    hostPortHere ('@' :: (host ++ ':' :: (digits ++ '/' :: tail))) = some (host, digitsValue digits) := by
  have hstart : (host ++ ':' :: (digits ++ '/' :: tail)).takeWhile isHostChar = host := by
    rw [List.takeWhile_append_of_pos hhost, List.takeWhile_cons_of_neg (by decide), List.append_nil]
  have hstop : (host ++ ':' :: (digits ++ '/' :: tail)).dropWhile isHostChar = ':' :: (digits ++ '/' :: tail) := by
    rw [List.dropWhile_append_of_pos hhost, List.dropWhile_cons_of_neg (by decide)]
  have htake : (digits ++ '/' :: tail).takeWhile isAnyDigit = digits := by
    rw [List.takeWhile_append_of_pos hall, List.takeWhile_cons_of_neg (by decide), List.append_nil]
  have hdrop : (digits ++ '/' :: tail).dropWhile isAnyDigit = '/' :: tail := by
    rw [List.dropWhile_append_of_pos hall, List.dropWhile_cons_of_neg (by decide)]
  have hboth : (digits ++ '/' :: tail).takeWhile isAnyDigit ≠ [] ∧
      ['/'] <+: (digits ++ '/' :: tail).dropWhile isAnyDigit := by
    rw [htake, hdrop]
    exact ⟨hdigits, ⟨tail, rfl⟩⟩
  rw [hostPortHere, hstart, hstop, if_neg hne]
  refine (if_pos hboth).trans ?_
  rw [htake]

/-- The digits of ASCII are among those of all scripts. -/
theorem digitOf_ascii {c : Char} (h : c.isDigit = true) : digitOf c = some (c.toNat - '0'.toNat) := by
  have hc : c.toNat = c.val.toNat := rfl
  have h9 : '9'.val.toNat = 57 := rfl
  have h0 : '0'.val.toNat = 48 := rfl
  simp only [Char.isDigit, Bool.and_eq_true, decide_eq_true_iff, UInt32.le_iff_toNat_le, ge_iff_le] at h
  have hfirst : zeroDigits = 0x30 :: zeroDigits.tail := rfl
  unfold digitOf
  rw [hfirst, List.find?_cons_of_pos]
  · rfl
  · rw [Bool.and_eq_true, decide_eq_true_iff, decide_eq_true_iff]
    omega

theorem digitsValue_ascii {digits : List Char} (h : ∀ c ∈ digits, c.isDigit = true) :
    digitsValue digits = Nat.ofDigitChars 10 digits 0 := by
  have hall : ∀ start, digits.foldl (fun value c => 10 * value + (digitOf c).getD 0) start =
      Nat.ofDigitChars 10 digits start := by
    induction digits with
    | nil =>
      intro start
      rfl
    | cons c digits ih =>
      intro start
      rw [List.foldl_cons, digitOf_ascii (h c (List.mem_cons_self ..)), Option.getD_some,
        ih (fun d hd => h d (List.mem_cons_of_mem _ hd)), Nat.ofDigitChars_cons]
  exact hall 0

theorem slash_of_hostPortHere {m host : List Char} {n : Nat} (h : hostPortHere ('@' :: m) = some (host, n)) :
    '/' ∈ m := by
  rw [hostPortHere] at h
  split at h
  · cases h
  · split at h
    · next heq => exact (head_dropWhile heq).1
    · next after heq =>
      dsimp only at h
      split at h
      · next hdigits =>
        obtain ⟨tail, htail⟩ := hdigits.2
        have hmem : '/' ∈ after := (head_dropWhile htail.symm).1
        have hlater : '/' ∈ m.dropWhile isHostChar := heq ▸ List.mem_cons_of_mem _ hmem
        exact (List.dropWhile_suffix _).subset hlater
      · cases h
    · cases h

/-- Without a slash behind an `@` nothing is found. -/
theorem hostPortIn_none {l : List Char} (h : '/' ∉ l.dropWhile (· ≠ '@')) : hostPortIn l = none := by
  induction l with
  | nil => rfl
  | cons c l ih =>
    by_cases hc : c = '@'
    · rw [hc, List.dropWhile_cons_of_neg (by simp)] at h
      have hl : '/' ∉ l := fun hmem => h (List.mem_cons_of_mem _ hmem)
      have hnone : hostPortHere ('@' :: l) = none := by
        cases hfound : hostPortHere ('@' :: l) with
        | none => rfl
        | some found => exact absurd (slash_of_hostPortHere hfound) hl
      rw [hc, hostPortIn, hnone, ih fun hmem => hl ((List.dropWhile_suffix _).subset hmem), Option.none_or]
    · rw [List.dropWhile_cons_of_pos (by simpa using hc)] at h
      rw [hostPortIn, hostPortHere_skip hc, ih h, Option.none_or]

/-! ## What is found first -/

/-- At the beginning of the text stands an `@`, with a host, perhaps a port, and a slash. -/
inductive SiteHere : List Char → List Char × Nat → Prop
  | bare (host rest : List Char) (hne : host ≠ []) (hhost : ∀ c ∈ host, isHostChar c = true) :
      SiteHere ('@' :: (host ++ '/' :: rest)) (host, defaultPort)
  | port (host digits rest : List Char) (hne : host ≠ []) (hhost : ∀ c ∈ host, isHostChar c = true)
      (hdigits : digits ≠ []) (hall : ∀ c ∈ digits, isAnyDigit c = true) :
      SiteHere ('@' :: (host ++ ':' :: (digits ++ '/' :: rest))) (host, digitsValue digits)

def FirstSite (word : List Char) (site : List Char × Nat) : Prop := FirstAt (fun i => SiteHere (word.drop i)) site

def NoSite (word : List Char) : Prop := ∀ i site, ¬SiteHere (word.drop i) site

/-- Over blanks the text begins with the key and its `=`, and over blanks with a word. -/
def KeyHere (text word : List Char) : Prop :=
  ∃ before blanks gap tail, text = before ++ (databaseUrl ++ (blanks ++ '=' :: (gap ++ (word ++ tail)))) ∧
    (∀ c ∈ before ++ (blanks ++ gap), isSpace c = true) ∧ word ≠ [] ∧ (∀ c ∈ word, isSpace c = false) ∧ EndsWord tail

/-- A line begins at this place, where `start` says it of the beginning. -/
def LineStarts (start : Bool) (text : List Char) : Nat → Prop
  | 0 => start = true
  | i + 1 => text[i]? = some '\n'

/-- The word that stands behind the first key at the beginning of a line. -/
def Checked (text word : List Char) : Prop :=
  FirstAt (fun i word => LineStarts true text i ∧ KeyHere (text.drop i) word) word

theorem hostPortHere_iff {l : List Char} {site : List Char × Nat} : hostPortHere l = some site ↔ SiteHere l site := by
  constructor
  · intro h
    unfold hostPortHere at h
    split at h
    · next rest =>
      dsimp only at h
      have hhost : ∀ c ∈ rest.takeWhile isHostChar, isHostChar c = true := fun c hc => List.mem_takeWhile_imp hc
      have hrest : rest = rest.takeWhile isHostChar ++ rest.dropWhile isHostChar :=
        (List.takeWhile_append_dropWhile ..).symm
      split at h
      · cases h
      · next hne =>
        split at h
        · next after heq =>
          cases h
          rw [heq] at hrest
          rw [hrest]
          have hfound := SiteHere.bare _ after hne hhost
          rwa [← hrest] at hfound ⊢
        · next after heq =>
          split at h
          · next hboth =>
            cases h
            obtain ⟨tail, htail⟩ := hboth.2
            have hafter : after = after.takeWhile isAnyDigit ++ '/' :: tail := by
              conv_lhs => rw [← List.takeWhile_append_dropWhile (p := isAnyDigit) (l := after), ← htail]
              rfl
            have hfound := SiteHere.port _ _ tail hne hhost hboth.1 fun c hc => List.mem_takeWhile_imp hc
            rwa [← hafter, ← heq, ← hrest] at hfound
          · cases h
        · cases h
    · cases h
  · intro h
    cases h with
    | bare host rest hne hhost => exact hostPortHere_host hne hhost rest
    | port host digits rest hne hhost hdigits hall => exact hostPortHere_port hne hhost hdigits hall rest

theorem hostPortIn_iff {l : List Char} (site : List Char × Nat) : hostPortIn l = some site ↔ FirstSite l site := by
  induction l generalizing site with
  | nil =>
    refine iff_of_false nofun ?_
    intro h
    obtain ⟨i, hi, -⟩ := h
    rw [List.drop_nil] at hi
    cases hi
  | cons c rest ih => exact firstAt_or (fun _ => hostPortHere_iff) ih site

theorem noSite_iff {l : List Char} : hostPortIn l = none ↔ NoSite l := by
  unfold NoSite
  rw [← firstAt_nothing, Option.eq_none_iff_forall_ne_some]
  exact forall_congr' fun site => not_congr (hostPortIn_iff site)

theorem settingHere_iff {text : List Char} (word : List Char) :
    settingHere text = some word ↔ KeyHere text word := by
  constructor
  · intro h
    obtain ⟨blanks, rest, hstart, hblanks⟩ := shape_of_settingHere h
    have hpad : ∀ c ∈ text.takeWhile isSpace, isSpace c = true := fun c hc => List.mem_takeWhile_imp hc
    have htext : text = text.takeWhile isSpace ++ (databaseUrl ++ (blanks ++ '=' :: rest)) := by
      rw [← hstart, List.takeWhile_append_dropWhile]
    have hword := settingHere_of_shape hpad hblanks htext
    rw [h] at hword
    split at hword
    · cases hword
    · next hne =>
      have hfirst : word = firstWord (rest.dropWhile isSpace) := Option.some.inj hword
      obtain ⟨tail, htail, hends⟩ := firstWord_split (rest.dropWhile isSpace)
      have hrest : rest = rest.takeWhile isSpace ++ (word ++ tail) := by
        rw [hfirst, ← htail, List.takeWhile_append_dropWhile]
      refine ⟨text.takeWhile isSpace, blanks, rest.takeWhile isSpace, tail, ?_, ?_, hfirst ▸ hne, ?_, hends⟩
      · rw [← hrest]
        exact htext
      · intro c hc
        rcases List.mem_append.mp hc with hc | hc
        · exact hpad c hc
        · exact (List.mem_append.mp hc).elim (hblanks c) fun hc => List.mem_takeWhile_imp hc
      · rw [hfirst]
        exact firstWord_solid
  · intro h
    obtain ⟨before, blanks, gap, tail, htext, hspaces, hne, hsolid, htail⟩ := h
    simp only [List.forall_mem_append] at hspaces
    have hstart : (gap ++ (word ++ tail)).dropWhile isSpace = word ++ tail := by
      rw [List.dropWhile_append_of_pos hspaces.2.2]
      obtain ⟨c, more, rfl⟩ := List.exists_cons_of_ne_nil hne
      rw [List.cons_append, List.dropWhile_cons_of_neg (by simp [hsolid c (List.mem_cons_self ..)])]
    have hword : (word ++ tail).takeWhile (fun c => !isSpace c) = word := firstWord_ended hsolid htail
    rw [settingHere_of_shape hspaces.1 hspaces.2.1 htext, hstart, hword, if_neg hne]

theorem settingWord_iff {start : Bool} {text : List Char} (word : List Char) : settingWord start text = some word ↔
    FirstAt (fun i word => LineStarts start text i ∧ KeyHere (text.drop i) word) word := by
  induction text generalizing start word with
  | nil =>
    refine iff_of_false nofun ?_
    intro h
    obtain ⟨i, hi, -⟩ := h
    obtain ⟨before, blanks, gap, tail, htext, -⟩ := hi.2
    have hlength := congrArg List.length htext
    simp at hlength
  | cons c rest ih =>
    have hlater : ∀ word, settingWord (c = '\n') rest = some word ↔
        FirstAt (fun i word => LineStarts start (c :: rest) (i + 1) ∧ KeyHere ((c :: rest).drop (i + 1)) word) word := by
      intro word
      rw [ih]
      have hstarts : ∀ i, LineStarts (c = '\n') rest i ↔ LineStarts start (c :: rest) (i + 1) := by
        intro i
        cases i with
        | zero => simp [LineStarts]
        | succ i => rfl
      simp only [hstarts, List.drop_succ_cons]
    refine firstAt_or ?_ hlater word
    intro word
    cases start with
    | true => exact (settingHere_iff word).trans (and_iff_right rfl).symm
    | false => exact iff_of_false nofun fun h => Bool.false_ne_true h.1

/-- What the check reports: the host and the port that it finds first, or those of the default. -/
theorem databaseEndpoint_iff {text : List Char} {site : List Char × Nat} : databaseEndpoint text = site ↔
    (∃ word, Checked text word ∧ FirstSite word site) ∨
      (site = (localhost, defaultPort) ∧ ∀ word, Checked text word → NoSite word) := by
  unfold databaseEndpoint Checked
  simp only [← settingWord_iff, ← hostPortIn_iff, ← noSite_iff]
  cases settingWord true text with
  | none => simp [eq_comm]
  | some word =>
    simp only [Option.bind_some, Option.some.injEq, exists_eq_left', forall_eq']
    cases hostPortIn word with
    | none => simp [eq_comm]
    | some found => simp

theorem checked_of_lines {text value : List Char} (hbreaks : PlainToKey text)
    (hkey : KeyUnbroken (splitLines isLineBreak text)) (hvalue : readSetting text databaseUrl = value)
    (hne : value ≠ []) : Checked text (firstWord value) :=
  (settingWord_iff _).mp (settingWord_of_lines hbreaks hkey hvalue hne)

end NexaHR
