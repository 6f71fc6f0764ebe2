import NexaHR.Pages.EvidenceForm
import NexaHR.Services.Transition
import NexaHR.System.Installation

/-! # The gate of the form and the gate of the server

The form asks for a score of each indicator and for enough words where evidence is required; the server asks for the
same, and for not too many words anywhere. The two separate words at different characters.

* `pythonWords`: the words of a text as the server counts them.
* `formOnlyWords`, `serverOnlyWords`: the words that begin for one of the two only, read off the six characters.
* `accepts_iff`, `isValid_iff`: what each gate asks.
* `GatesAgree`, `FitsWhenCut`: where the two gates agree, and where the text that is kept is short enough.
* `form_gate_iff`: exactly there.
-/

namespace NexaHR

open Foundations ScoreForm

set_option autoImplicit false

/-! ## Counting words -/

def pythonWords (text : String) : List (List Char) := words isSpace text.toList

theorem countWords_eq (chars : List Char) :
    countWords chars false = (words isSpace chars).length ∧
      countWords chars true + (if startsWord isSpace chars then 1 else 0) = (words isSpace chars).length := by
  induction chars with
  | nil => exact ⟨rfl, rfl⟩
  | cons c chars ih =>
    cases hc : isSpace c with
    | true =>
      rw [words_cons_separator hc]
      simp only [countWords, startsWord_cons, hc, if_true, Bool.not_true, Bool.false_eq_true, if_false, Nat.add_zero]
      exact ⟨ih.1, ih.1⟩
    | false =>
      have hlength := length_pushLetter c (startsWord isSpace chars) (words isSpace chars) words_ne_nil
      rw [words_cons_letter hc]
      simp only [countWords, startsWord_cons, hc, if_true, Bool.not_false, Bool.false_eq_true, if_false]
      omega

theorem wordCount_some (text : String) : NexaHR.wordCount (some text) = (pythonWords text).length :=
  (countWords_eq text.toList).1

/-- The row of a draft without evidence has none. -/
theorem wordCount_sent (text : String) :
    NexaHR.wordCount (if text = "" then none else some text) = (pythonWords text).length := by
  split
  · next hempty =>
    rw [hempty]
    rfl
  · exact wordCount_some text

/-! ## Six characters -/

/-- JavaScript separates words here, Python does not. -/
def isJavaScriptSeparator (c : Char) : Bool := c.toNat = 0xfeff

/-- Python separates words here, JavaScript does not. -/
def isPythonSeparator (c : Char) : Bool := c.toNat ∈ [0x1c, 0x1d, 0x1e, 0x1f, 0x85]

/-- A word begins for the form only: behind the character that only JavaScript separates at, or with one that only
Python does. -/
def formBegins (a b : Char) : Bool := isJavaScriptSeparator a && !isJsSpace b || isJsSpace a && isPythonSeparator b

/-- A word begins for the server only: the other way round. -/
def serverBegins (a b : Char) : Bool := isPythonSeparator a && !isSpace b || isSpace a && isJavaScriptSeparator b

def formOnlyWords (chars : List Char) : Nat := countPairs formBegins ' ' chars

def serverOnlyWords (chars : List Char) : Nat := countPairs serverBegins ' ' chars

theorem separator_cases (c : Char) :
    (isJavaScriptSeparator c = true ∧ isPythonSeparator c = false ∧ isJsSpace c = true ∧ isSpace c = false) ∨
      (isJavaScriptSeparator c = false ∧ isPythonSeparator c = true ∧ isJsSpace c = false ∧ isSpace c = true) ∨
        (isJavaScriptSeparator c = false ∧ isPythonSeparator c = false ∧ isJsSpace c = isSpace c) := by
  have hblank : c.isWhitespace = true → c.toNat ∈ [0x20, 0x09, 0x0d, 0x0a] := by
    intro h
    simp only [Char.isWhitespace, Bool.or_eq_true, decide_eq_true_eq] at h
    obtain ((rfl | rfl) | rfl) | rfl := h <;> decide
  unfold isJavaScriptSeparator isPythonSeparator isJsSpace isSpace
  generalize c.isWhitespace = blank at hblank ⊢
  generalize c.toNat = code at hblank ⊢
  cases blank with
  | true =>
    have hcode := hblank rfl
    simp only [List.mem_cons, List.not_mem_nil, or_false] at hcode
    obtain rfl | rfl | rfl | rfl := hcode <;> decide
  | false =>
    simp only [Bool.false_or, decide_eq_true_eq, decide_eq_false_iff_not, decide_eq_decide, List.mem_cons,
      List.not_mem_nil, or_false]
    omega

theorem formBegins_eq (a b : Char) : (begins isJsSpace a b && !begins isSpace a b) = formBegins a b := by
  unfold begins formBegins
  rcases separator_cases a with ⟨ha, ha', hja, hpa⟩ | ⟨ha, ha', hja, hpa⟩ | ⟨ha, ha', hja⟩ <;>
    rcases separator_cases b with ⟨hb, hb', hjb, hpb⟩ | ⟨hb, hb', hjb, hpb⟩ | ⟨hb, hb', hjb⟩ <;> simp [*]

theorem serverBegins_eq (a b : Char) : (begins isSpace a b && !begins isJsSpace a b) = serverBegins a b := by
  unfold begins serverBegins
  rcases separator_cases a with ⟨ha, ha', hja, hpa⟩ | ⟨ha, ha', hja, hpa⟩ | ⟨ha, ha', hja⟩ <;>
    rcases separator_cases b with ⟨hb, hb', hjb, hpb⟩ | ⟨hb, hb', hjb, hpb⟩ | ⟨hb, hb', hjb⟩ <;> simp [*]

/-- The two counts differ by the words that begin for one of the two only. -/
theorem words_add (chars : List Char) :
    (words isJsSpace chars).length + serverOnlyWords chars = (words isSpace chars).length + formOnlyWords chars := by
  have hadd := @length_words_add Char isJsSpace isSpace ' ' (by decide) (by decide) chars
  simp only [formBegins_eq, serverBegins_eq] at hadd
  exact hadd

/-- The text has none of the six characters. -/
def Plain (chars : List Char) : Prop := ∀ c ∈ chars, isJavaScriptSeparator c = false ∧ isPythonSeparator c = false

instance (chars : List Char) : Decidable (Plain chars) :=
  List.decidableBAll (fun c => isJavaScriptSeparator c = false ∧ isPythonSeparator c = false) chars

theorem formOnlyWords_of_plain {chars : List Char} (h : Plain chars) : formOnlyWords chars = 0 := by
  refine countPairs_eq_zero ?_ ⟨by decide, by decide⟩ h
  intro a b ha hb
  rw [formBegins, ha.1, hb.2]
  simp

theorem serverOnlyWords_of_plain {chars : List Char} (h : Plain chars) : serverOnlyWords chars = 0 := by
  refine countPairs_eq_zero ?_ ⟨by decide, by decide⟩ h
  intro a b ha hb
  rw [serverBegins, ha.2, hb.1]
  simp

/-! ## The two gates -/

/-- The server takes the rows of the drafts. -/
def FinalizeAccepts (db : Database) (env : Env) (user : CurrentUser) (r : EvaluationRecord)
    (drafts : List ScoreDraft) : Prop :=
  ∃ w, finalizeScoring db env user { r with scores := scoredRows drafts } = .ok w

/-- Evidence is required of the draft. -/
def IsRequired (rules : Rules) (d : ScoreDraft) : Prop :=
  ∃ score, d.score = some score ∧ score ∈ rules.evidenceRequiredScores

/-- Evidence is required, and there are fewer words than that. -/
def IsShort (rules : Rules) (split : String → List (List Char)) (d : ScoreDraft) : Prop :=
  IsRequired rules d ∧ (split d.evidenceText).length < rules.evidenceMinWords

def IsLong (rules : Rules) (d : ScoreDraft) : Prop := rules.evidenceMaxWords < (pythonWords d.evidenceText).length

instance (rules : Rules) (d : ScoreDraft) : Decidable (IsLong rules d) :=
  inferInstanceAs (Decidable (rules.evidenceMaxWords < (pythonWords d.evidenceText).length))

section

variable {db : Database} {env : Env} {user : CurrentUser} {r : EvaluationRecord} {drafts : List ScoreDraft}
  {rules : Rules} {indicators : List Indicator}

theorem isValid_iff : isValid (EvidenceConfig.fromRules rules) drafts = true ↔
    drafts ≠ [] ∧ (∀ d ∈ drafts, d.score ≠ none) ∧ ∀ d ∈ drafts, ¬IsShort rules jsWords d := by
  have hshort : ∀ d, (evidenceIsRequired (EvidenceConfig.fromRules rules) d &&
      decide (ScoreForm.wordCount d.evidenceText < (EvidenceConfig.fromRules rules).evidenceMinWords)) = true ↔
      IsShort rules jsWords d := by
    intro d
    unfold evidenceIsRequired IsShort IsRequired ScoreForm.wordCount EvidenceConfig.fromRules
    rw [Bool.and_eq_true, Option.any_eq_true, decide_eq_true_eq]
    simp only [decide_eq_true_eq]
  unfold isValid unscored violations
  rw [Bool.and_eq_true, Bool.and_eq_true, decide_eq_true_eq, List.length_pos_iff, List.isEmpty_iff, List.isEmpty_iff,
    List.filter_eq_nil_iff, List.filter_eq_nil_iff, and_assoc]
  simp only [hshort, decide_eq_true_eq, ne_eq]

theorem validateEvidence_eq_none {scores : List EvaluationScore} : validateEvidence scores indicators rules = none ↔
    (∀ row ∈ scores, tooShort indicators rules row = none) ∧ ∀ row ∈ scores, tooLong indicators rules row = none := by
  rw [← List.filterMap_eq_nil_iff, ← List.filterMap_eq_nil_iff]
  unfold validateEvidence
  dsimp only
  generalize scores.filterMap (tooShort indicators rules) = violations
  generalize scores.filterMap (tooLong indicators rules) = overlong
  cases violations with
  | cons text texts => simp
  | nil =>
    cases overlong with
    | cons text texts => simp
    | nil => simp

theorem tooShort_eq_none {row : EvaluationScore} : tooShort indicators rules row = none ↔
    ¬(row.score ∈ rules.evidenceRequiredScores ∧ NexaHR.wordCount row.evidenceText < rules.evidenceMinWords) := by
  unfold tooShort
  dsimp only
  split
  · next hshort => exact ⟨nofun, fun hnot => absurd hshort hnot⟩
  · next hfine => exact ⟨fun _ => hfine, fun _ => rfl⟩

theorem tooLong_eq_none {row : EvaluationScore} : tooLong indicators rules row = none ↔
    NexaHR.wordCount row.evidenceText ≤ rules.evidenceMaxWords := by
  unfold tooLong
  dsimp only
  split
  · next hlong => exact ⟨nofun, fun hle => absurd hlong (Nat.not_lt.mpr hle)⟩
  · next hfine => exact ⟨fun _ => Nat.not_lt.mp hfine, fun _ => rfl⟩

theorem mem_scoredRows {row : EvaluationScore} : row ∈ scoredRows drafts ↔ ∃ d ∈ drafts, ∃ score, d.score = some score ∧
    row = ⟨d.indicatorId, score, if d.evidenceText = "" then none else some d.evidenceText⟩ := by
  unfold scoredRows
  rw [List.mem_filterMap]
  constructor
  · rintro ⟨d, hd, hrow⟩
    obtain ⟨score, hscore, rfl⟩ := Option.map_eq_some_iff.mp hrow
    exact ⟨d, hd, score, hscore, rfl⟩
  · rintro ⟨d, hd, score, hscore, rfl⟩
    exact ⟨d, hd, by rw [hscore]; rfl⟩

theorem validateEvidence_scoredRows : validateEvidence (scoredRows drafts) indicators rules = none ↔
    (∀ d ∈ drafts, ¬IsShort rules pythonWords d) ∧ ∀ d ∈ drafts, d.score ≠ none → ¬IsLong rules d := by
  rw [validateEvidence_eq_none]
  simp only [tooShort_eq_none, tooLong_eq_none]
  unfold IsShort IsLong
  constructor
  · rintro ⟨hshort, hlong⟩
    constructor
    · rintro d hd ⟨⟨score, hscore, hrequired⟩, hfew⟩
      refine hshort _ (mem_scoredRows.mpr ⟨d, hd, score, hscore, rfl⟩) ⟨hrequired, ?_⟩
      dsimp only
      rwa [wordCount_sent]
    · intro d hd hsome
      obtain ⟨score, hscore⟩ := Option.ne_none_iff_exists'.mp hsome
      have hrow := hlong _ (mem_scoredRows.mpr ⟨d, hd, score, hscore, rfl⟩)
      dsimp only at hrow
      rw [wordCount_sent] at hrow
      exact Nat.not_lt.mpr hrow
  · rintro ⟨hshort, hlong⟩
    constructor
    · rintro row hrow ⟨hrequired, hfew⟩
      obtain ⟨d, hd, score, hscore, rfl⟩ := mem_scoredRows.mp hrow
      dsimp only at hfew
      rw [wordCount_sent] at hfew
      exact hshort d hd ⟨⟨score, hscore, hrequired⟩, hfew⟩
    · intro row hrow
      obtain ⟨d, hd, score, hscore, rfl⟩ := mem_scoredRows.mp hrow
      dsimp only
      rw [wordCount_sent]
      exact Nat.not_lt.mp (hlong d hd (by rw [hscore]; exact Option.some_ne_none _))

theorem nodup_indicatorIds : ((indicatorsForRecord db r).map Indicator.id).Nodup :=
  db.indicators.nodup.sublist (List.filter_sublist.map _)

/-- The rows are complete when each draft is scored, or when nothing is asked. -/
theorem isComplete_scoredRows (h : AsksAll (indicatorsForRecord db r) drafts) :
    isComplete db { r with scores := scoredRows drafts } = true ↔
      (drafts ≠ [] ∨ indicatorsForRecord db r = []) ∧ ∀ d ∈ drafts, d.score ≠ none := by
  have hasked : indicatorsForRecord db { r with scores := scoredRows drafts } = indicatorsForRecord db r := rfl
  have hids : ∀ k, k ∈ (scoredRows drafts).map EvaluationScore.indicatorId ↔
      ∃ d ∈ drafts, d.score ≠ none ∧ d.indicatorId = k := by
    intro k
    rw [List.mem_map]
    constructor
    · rintro ⟨row, hrow, rfl⟩
      obtain ⟨d, hd, score, hscore, rfl⟩ := mem_scoredRows.mp hrow
      exact ⟨d, hd, by rw [hscore]; exact Option.some_ne_none _, rfl⟩
    · rintro ⟨d, hd, hsome, rfl⟩
      obtain ⟨score, hscore⟩ := Option.ne_none_iff_exists'.mp hsome
      exact ⟨_, mem_scoredRows.mpr ⟨d, hd, score, hscore, rfl⟩, rfl⟩
  unfold isComplete scoredIds
  rw [hasked, Bool.and_eq_true, List.all_eq_true, List.all_eq_true]
  simp only [decide_eq_true_eq]
  rcases h with rfl | hdrafts
  · rw [show scoredRows [] = [] from rfl]
    cases indicatorsForRecord db r with
    | nil => simp
    | cons i rest =>
      refine ⟨fun hall => absurd (hall.2 i.id (by simp)) (by simp), fun hall => ?_⟩
      rcases hall.1 with hne | hnone
      · exact absurd rfl hne
      · cases hnone
  · rw [← hdrafts]
    have hnodup : (drafts.map ScoreDraft.indicatorId).Nodup := hdrafts ▸ nodup_indicatorIds
    have hnil : indicatorsForRecord db r = [] → drafts = [] := by
      intro hnone
      rw [hnone, List.map_nil, List.map_eq_nil_iff] at hdrafts
      exact hdrafts
    constructor
    · rintro ⟨-, hall⟩
      have hscored : ∀ d ∈ drafts, d.score ≠ none := by
        intro d hd
        obtain ⟨d', hd', hsome, hsame⟩ := (hids _).mp (hall _ (List.mem_map_of_mem hd))
        rwa [← List.inj_on_of_nodup_map hnodup hd' hd hsame]
      refine ⟨?_, hscored⟩
      by_cases hempty : drafts = []
      · right
        rw [hempty, List.map_nil] at hdrafts
        exact List.map_eq_nil_iff.mp hdrafts.symm
      · exact Or.inl hempty
    · rintro ⟨-, hscored⟩
      constructor
      · intro k hk
        obtain ⟨d, hd, -, rfl⟩ := (hids k).mp hk
        exact List.mem_map_of_mem hd
      · intro k hk
        obtain ⟨d, hd, rfl⟩ := List.mem_map.mp hk
        exact (hids _).mpr ⟨d, hd, hscored d hd, rfl⟩

theorem accepts_iff (h : AsksAll (indicatorsForRecord db r) drafts) : FinalizeAccepts db env user r drafts ↔
    ((drafts ≠ [] ∨ indicatorsForRecord db r = []) ∧ ∀ d ∈ drafts, d.score ≠ none) ∧
      (∀ d ∈ drafts, ¬IsShort (rulesForRecord db r) pythonWords d) ∧
        ∀ d ∈ drafts, d.score ≠ none → ¬IsLong (rulesForRecord db r) d := by
  rw [← isComplete_scoredRows h, ← @validateEvidence_scoredRows drafts (rulesForRecord db r) (indicatorsForRecord db r)]
  unfold FinalizeAccepts finalizeScoring ensureEvidence
  simp only [bind_eq_ok, pure_eq_ok, ensure_eq_ok]
  constructor
  · rintro ⟨w, _, hcomplete, _, hevidence, -⟩
    refine ⟨hcomplete, ?_⟩
    split at hevidence
    · next hnone => exact hnone
    · cases hevidence
  · rintro ⟨hcomplete, hevidence⟩
    have hnone : validateEvidence { r with scores := scoredRows drafts }.scores
        (indicatorsForRecord db { r with scores := scoredRows drafts })
        (rulesForRecord db { r with scores := scoredRows drafts }) = none := hevidence
    exact ⟨_, (), hcomplete, (), by rw [hnone], rfl⟩

/-! ## Where they agree -/

/-- The server misses words that only the form begins. -/
def IsOvercounted (rules : Rules) (d : ScoreDraft) : Prop :=
  IsRequired rules d ∧ (pythonWords d.evidenceText).length < rules.evidenceMinWords ∧
    rules.evidenceMinWords + serverOnlyWords d.evidenceText.toList ≤
      (pythonWords d.evidenceText).length + formOnlyWords d.evidenceText.toList

/-- The form misses words that only the server begins. -/
def IsUndercounted (rules : Rules) (d : ScoreDraft) : Prop :=
  IsRequired rules d ∧ (jsWords d.evidenceText).length < rules.evidenceMinWords ∧
    rules.evidenceMinWords + formOnlyWords d.evidenceText.toList ≤
      (jsWords d.evidenceText).length + serverOnlyWords d.evidenceText.toList

/-- No text is too long, and none has enough words for one of the two only. -/
def CountedAlike (rules : Rules) (drafts : List ScoreDraft) : Prop :=
  ∀ d ∈ drafts, ¬IsLong rules d ∧ ¬IsOvercounted rules d ∧ ¬IsUndercounted rules d

/-- Some text is short for the form, and some text is short or long for the server. -/
def FailsBoth (rules : Rules) (drafts : List ScoreDraft) : Prop :=
  (∃ d ∈ drafts, IsShort rules jsWords d) ∧ ∃ d ∈ drafts, IsShort rules pythonWords d ∨ IsLong rules d

/-- Something is asked, and a score is missing, or each text is judged alike, or both gates have a text to refuse. -/
def GatesAgree (rules : Rules) (asked : List Indicator) (drafts : List ScoreDraft) : Prop :=
  asked ≠ [] ∧ ((drafts = [] ∨ ∃ d ∈ drafts, d.score = none) ∨ CountedAlike rules drafts ∨ FailsBoth rules drafts)

theorem isOvercounted_iff {d : ScoreDraft} :
    IsOvercounted rules d ↔ IsShort rules pythonWords d ∧ ¬IsShort rules jsWords d := by
  have hadd := words_add d.evidenceText.toList
  unfold IsOvercounted IsShort jsWords pythonWords
  constructor
  · rintro ⟨hrequired, hfew, hmore⟩
    refine ⟨⟨hrequired, hfew⟩, ?_⟩
    rintro ⟨-, hshort⟩
    omega
  · rintro ⟨⟨hrequired, hfew⟩, hfine⟩
    have henough := Nat.not_lt.mp fun hshort => hfine ⟨hrequired, hshort⟩
    exact ⟨hrequired, hfew, by omega⟩

theorem isUndercounted_iff {d : ScoreDraft} :
    IsUndercounted rules d ↔ IsShort rules jsWords d ∧ ¬IsShort rules pythonWords d := by
  have hadd := words_add d.evidenceText.toList
  unfold IsUndercounted IsShort jsWords pythonWords
  constructor
  · rintro ⟨hrequired, hfew, hmore⟩
    refine ⟨⟨hrequired, hfew⟩, ?_⟩
    rintro ⟨-, hshort⟩
    omega
  · rintro ⟨⟨hrequired, hfew⟩, hfine⟩
    have henough := Nat.not_lt.mp fun hshort => hfine ⟨hrequired, hshort⟩
    exact ⟨hrequired, hfew, by omega⟩

/-- Without the six characters, the gates agree on all but texts that are too long: typed ones are not, but the rows
of the server may be. -/
theorem gatesAgree_of_plain {asked : List Indicator} (hplain : ∀ d ∈ drafts, Plain d.evidenceText.toList) :
    GatesAgree rules asked drafts ↔
      asked ≠ [] ∧ ((drafts = [] ∨ ∃ d ∈ drafts, d.score = none) ∨
        (∀ d ∈ drafts, ¬IsLong rules d) ∨ ∃ d ∈ drafts, IsShort rules jsWords d) := by
  have hcount : ∀ d ∈ drafts, (jsWords d.evidenceText).length = (pythonWords d.evidenceText).length := by
    intro d hd
    have hadd := words_add d.evidenceText.toList
    rw [formOnlyWords_of_plain (hplain d hd), serverOnlyWords_of_plain (hplain d hd)] at hadd
    exact hadd
  have hsame : ∀ d ∈ drafts, (IsShort rules jsWords d ↔ IsShort rules pythonWords d) := by
    intro d hd
    unfold IsShort
    rw [hcount d hd]
  have halike : CountedAlike rules drafts ↔ ∀ d ∈ drafts, ¬IsLong rules d := by
    unfold CountedAlike
    simp only [isOvercounted_iff, isUndercounted_iff]
    refine forall₂_congr fun d hd => ?_
    rw [hsame d hd]
    tauto
  have hfails : FailsBoth rules drafts ↔ ∃ d ∈ drafts, IsShort rules jsWords d := by
    unfold FailsBoth
    constructor
    · exact fun hboth => hboth.1
    · rintro ⟨d, hd, hshort⟩
      exact ⟨⟨d, hd, hshort⟩, d, hd, Or.inl ((hsame d hd).mp hshort)⟩
  unfold GatesAgree
  rw [halike, hfails]

/-- The texts of a scored form are judged alike by both gates, or each gate has one to refuse. -/
theorem texts_agree_iff :
    ((∀ d ∈ drafts, ¬IsShort rules jsWords d) ↔
        (∀ d ∈ drafts, ¬IsShort rules pythonWords d) ∧ ∀ d ∈ drafts, ¬IsLong rules d) ↔
      CountedAlike rules drafts ∨ FailsBoth rules drafts := by
  constructor
  · intro hgates
    by_cases hvalid : ∀ d ∈ drafts, ¬IsShort rules jsWords d
    · obtain ⟨hshort, hlong⟩ := hgates.mp hvalid
      refine Or.inl fun d hd => ⟨hlong d hd, ?_, ?_⟩
      · rw [isOvercounted_iff]
        exact fun hover => hshort d hd hover.1
      · rw [isUndercounted_iff]
        exact fun hunder => hvalid d hd hunder.1
    · right
      refine ⟨by simpa using hvalid, ?_⟩
      by_contra hfine
      push Not at hfine
      exact hvalid (hgates.mpr ⟨fun d hd => (hfine d hd).1, fun d hd => (hfine d hd).2⟩)
  · rintro (halike | ⟨⟨d, hd, hshort⟩, d', hd', hbad⟩)
    · constructor
      · intro hvalid
        refine ⟨fun d hd hshort => ?_, fun d hd => (halike d hd).1⟩
        exact (halike d hd).2.1 (isOvercounted_iff.mpr ⟨hshort, hvalid d hd⟩)
      · rintro ⟨hfine, -⟩ d hd hshort
        exact (halike d hd).2.2 (isUndercounted_iff.mpr ⟨hshort, hfine d hd⟩)
    · constructor
      · intro hvalid
        exact absurd hshort (hvalid d hd)
      · rintro ⟨hshorts, hlongs⟩
        rcases hbad with hbad | hbad
        · exact absurd hbad (hshorts d' hd')
        · exact absurd hbad (hlongs d' hd')

theorem gates_agree_iff (h : AsksAll (indicatorsForRecord db r) drafts) :
    (isValid (EvidenceConfig.fromRules (rulesForRecord db r)) drafts = true ↔ FinalizeAccepts db env user r drafts) ↔
      GatesAgree (rulesForRecord db r) (indicatorsForRecord db r) drafts := by
  rw [isValid_iff, accepts_iff h]
  generalize rulesForRecord db r = rules
  unfold GatesAgree
  rw [← texts_agree_iff]
  by_cases hnil : indicatorsForRecord db r = []
  · -- nothing is asked: the server takes what the form never sends
    have hempty : drafts = [] := by
      rcases h with hempty | hids
      · exact hempty
      · rw [hnil, List.map_nil, List.map_eq_nil_iff] at hids
        exact hids
    simp [hnil, hempty]
  · by_cases hscored : drafts ≠ [] ∧ ∀ d ∈ drafts, d.score ≠ none
    · obtain ⟨hne, hall⟩ := hscored
      have hnone : ¬(drafts = [] ∨ ∃ d ∈ drafts, d.score = none) := by
        rintro (hempty | ⟨d, hd, hscore⟩)
        · exact hne hempty
        · exact hall d hd hscore
      have hlong : (∀ d ∈ drafts, d.score ≠ none → ¬IsLong rules d) ↔ ∀ d ∈ drafts, ¬IsLong rules d :=
        forall₂_congr fun d hd => forall_prop_of_true (hall d hd)
      rw [hlong, and_iff_right hne, and_iff_right hall, and_iff_right (⟨Or.inl hne, hall⟩ : _ ∧ _),
        and_iff_right hnil, or_iff_right hnone]
    · refine iff_of_true (iff_of_false ?_ ?_) ⟨hnil, Or.inl ?_⟩
      · intro hvalid
        exact hscored ⟨hvalid.1, hvalid.2.1⟩
      · rintro ⟨⟨hne, hall⟩, -⟩
        exact hscored ⟨hne.resolve_right hnil, hall⟩
      · by_contra hnone
        push Not at hnone
        exact hscored hnone

end

/-! ## The text that is kept -/

/-- Where the text is cut, no more words begin for the server only than for the form only in the words that are kept;
and where it is not, the words of both kinds make up for each other up to the limit. -/
def FitsWhenCut (raw : String) (maxWords : Nat) : Prop :=
  if maxWords < (jsWords raw).length then
    (((jsWords raw).take maxWords).map serverOnlyWords).sum ≤ (((jsWords raw).take maxWords).map formOnlyWords).sum
  else (jsWords raw).length + serverOnlyWords raw.toList ≤ maxWords + formOnlyWords raw.toList

/-- Each word of the form is as many words of the server as begin in it. -/
theorem length_flatMap_words {ws : List (List Char)} (h : ∀ w ∈ ws, (words isJsSpace w).length = 1) :
    (ws.flatMap (words isSpace)).length + (ws.map formOnlyWords).sum = ws.length + (ws.map serverOnlyWords).sum := by
  induction ws with
  | nil => rfl
  | cons w ws ih =>
    obtain ⟨hw, hws⟩ := List.forall_mem_cons.mp h
    have hadd := words_add w
    have hrest := ih hws
    simp only [List.flatMap_cons, List.length_append, List.map_cons, List.sum_cons, List.length_cons]
    omega

theorem clamp_fits_iff (raw : String) (maxWords : Nat) :
    NexaHR.wordCount (some (clampEvidence raw maxWords)) ≤ maxWords ↔ FitsWhenCut raw maxWords := by
  have hadd := words_add raw.toList
  rw [wordCount_some]
  unfold FitsWhenCut clampEvidence
  split
  · next hcut =>
    have hone : ∀ w ∈ (jsWords raw).take maxWords, (words isJsSpace w).length = 1 :=
      fun w hw => length_words_word (List.mem_of_mem_take hw)
    have hlength := length_flatMap_words hone
    rw [List.length_take, Nat.min_eq_left (Nat.le_of_lt hcut)] at hlength
    unfold pythonWords
    rw [String.toList_ofList, words_intercalate _ (by decide)]
    omega
  · unfold pythonWords jsWords
    omega

/-- Without the six characters, every text that is kept is short enough. -/
theorem fits_of_plain {raw : String} (hplain : Plain raw.toList) (maxWords : Nat) : FitsWhenCut raw maxWords := by
  unfold FitsWhenCut
  split
  · have hnone : ((jsWords raw).take maxWords).map serverOnlyWords = ((jsWords raw).take maxWords).map fun _ => 0 := by
      apply List.map_congr_left
      intro w hw
      apply serverOnlyWords_of_plain
      intro c hc
      exact hplain c (mem_of_mem_words (List.mem_of_mem_take hw) hc)
    rw [hnone]
    simp
  · rw [formOnlyWords_of_plain hplain, serverOnlyWords_of_plain hplain]
    omega

/-- In every run of the form: the form is valid exactly when the server takes its rows, exactly when the gates agree
on its texts; and the text that is kept is short enough exactly when its first words are. -/
theorem form_gate_iff {db : Database} (env : Env) (user : CurrentUser) {r : EvaluationRecord}
    {tr : List (Taken FormState FormEvent)} {s : FormState}
    (h : FormRun (indicatorsForRecord db r) (EvidenceConfig.fromRules (rulesForRecord db r)) tr s) :
    ((isValid (EvidenceConfig.fromRules (rulesForRecord db r)) s.drafts = true ↔
        FinalizeAccepts db env user r s.drafts) ↔
      GatesAgree (rulesForRecord db r) (indicatorsForRecord db r) s.drafts) ∧
      ∀ raw maxWords, NexaHR.wordCount (some (clampEvidence raw maxWords)) ≤ maxWords ↔ FitsWhenCut raw maxWords :=
  ⟨gates_agree_iff (asksAll_of_run h), clamp_fits_iff⟩

/-! ## A form that both take -/

/-- The record of the employee, on the desk of its scorer. -/
def formRecord : EvaluationRecord :=
  { evaluationOf 1 1 with
    status := .draft
    finalWeightedPct := none
    finalizedAt := none
    scoringSchemeId := some 1
    indicatorFrameworkId := some 1 }

theorem twoQuestions_nodup : ([question, { question with id := 2 }].map HasId.id).Nodup := by decide

/-- The office with a second question, and with room for four words of evidence. -/
def officeOfTwoQuestions : Database :=
  { officeAsking fullChain (Table.ofRows [question, { question with id := 2 }] twoQuestions_nodup) with
    scoringSchemes := Table.ofRows [{ baseScheme with evidenceMaxWords := 4 }] (List.nodup_singleton _) }

def filledEvents : List FormEvent :=
  [.setScore 1 5, .typeEvidence 1 "always on time", .setScore 2 1, .typeEvidence 2 "no report in two months"]

/-- The evaluator gives the highest score and the lowest, each with its evidence; the second text is cut. -/
def filledForm : FormState :=
  filledEvents.foldl
    (FormState.next (indicatorsForRecord officeOfTwoQuestions formRecord)
      (EvidenceConfig.fromRules (rulesForRecord officeOfTwoQuestions formRecord)))
    ⟨initialDrafts (shownIndicators (indicatorsForRecord officeOfTwoQuestions formRecord) true) [], false⟩

theorem filledForm_run : ∃ tr, FormRun (indicatorsForRecord officeOfTwoQuestions formRecord)
    (EvidenceConfig.fromRules (rulesForRecord officeOfTwoQuestions formRecord)) tr filledForm := by
  exact ⟨[⟨_, .typeEvidence 2 "no report in two months", _⟩, ⟨_, .setScore 2 1, _⟩,
    ⟨_, .typeEvidence 1 "always on time", _⟩, ⟨_, .setScore 1 5, _⟩],
    Run.cons (Run.cons (Run.cons (Run.cons (Run.nil ⟨true, [], rfl⟩) rfl) rfl) rfl) rfl⟩

theorem filled_form_passes_both :
    filledForm.drafts = [⟨1, some 5, "always on time"⟩, ⟨2, some 1, "no report in two"⟩] ∧
      isValid (EvidenceConfig.fromRules (rulesForRecord officeOfTwoQuestions formRecord)) filledForm.drafts = true ∧
        FinalizeAccepts officeOfTwoQuestions someDay ⟨1, "supervisor", .unitSupervisor, none⟩ formRecord
          filledForm.drafts ∧
          NexaHR.wordCount (some (clampEvidence "no report in two months" 4)) ≤ 4 := by
  have hdrafts : filledForm.drafts = [⟨1, some 5, "always on time"⟩, ⟨2, some 1, "no report in two"⟩] := by decide
  have hvalid : isValid (EvidenceConfig.fromRules (rulesForRecord officeOfTwoQuestions formRecord))
      filledForm.drafts = true := by decide
  have hplain : ∀ d ∈ filledForm.drafts, Plain d.evidenceText.toList := by
    rw [hdrafts]
    decide
  have hshort : ∀ d ∈ filledForm.drafts, ¬IsLong (rulesForRecord officeOfTwoQuestions formRecord) d := by
    rw [hdrafts]
    decide
  obtain ⟨tr, hrun⟩ := filledForm_run
  obtain ⟨hgate, hclamp⟩ := form_gate_iff someDay ⟨1, "supervisor", .unitSupervisor, none⟩ hrun
  refine ⟨hdrafts, hvalid, ?_, ?_⟩
  · exact (hgate.mpr ((gatesAgree_of_plain hplain).mpr ⟨by decide, Or.inr (Or.inl hshort)⟩)).mp hvalid
  · exact (hclamp _ _).mpr (fits_of_plain (by decide) 4)

/-! ## A text of one word or three -/

def officeForm : List Indicator := indicatorsForRecord (office fullChain) formRecord

def officeConfig : EvidenceConfig := EvidenceConfig.fromRules (rulesForRecord (office fullChain) formRecord)

/-- The evaluator chooses the highest score and types three letters with zero width no-break spaces between them. -/
def typedForm : FormState :=
  let opened : FormState := ⟨initialDrafts (shownIndicators officeForm true) [], false⟩
  (opened.next officeForm officeConfig (.setScore 1 5)).next officeForm officeConfig (.typeEvidence 1 "a\ufeffb\ufeffc")

theorem typedForm_run : ∃ tr, FormRun officeForm officeConfig tr typedForm :=
  ⟨[⟨_, .typeEvidence 1 "a\ufeffb\ufeffc", _⟩, ⟨_, .setScore 1 5, _⟩],
    Run.cons (Run.cons (Run.nil ⟨true, [], rfl⟩) rfl) rfl⟩

/-- The form counts three words, the server one. -/
theorem valid_form_is_refused :
    ¬∀ db env user r tr s, FormRun (indicatorsForRecord db r) (EvidenceConfig.fromRules (rulesForRecord db r)) tr s →
      (isValid (EvidenceConfig.fromRules (rulesForRecord db r)) s.drafts = true ↔
        FinalizeAccepts db env user r s.drafts) := by
  intro hclaim
  obtain ⟨tr, hrun⟩ := typedForm_run
  have haccepts := (hclaim (office fullChain) someDay ⟨1, "supervisor", .unitSupervisor, none⟩ formRecord tr typedForm
    hrun).mp (by decide)
  obtain ⟨-, hshort, -⟩ := (accepts_iff (asksAll_of_run hrun)).mp haccepts
  exact hshort ⟨1, some 5, "a\ufeffb\ufeffc"⟩ (by decide) ⟨⟨5, rfl, by decide⟩, by decide⟩

end NexaHR
