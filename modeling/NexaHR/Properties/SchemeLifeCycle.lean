import NexaHR.Core.Decimals
import NexaHR.Foundations.Lasting
import NexaHR.Properties.ScoreIntegrity
import NexaHR.System.SchemeSteps

/-! # The life of a version of the rules

A version is drafted by one user and activated by another, retires when the next one is activated, and never
changes again. Records stay with the version they were opened under. A draft is checked twice, when it is
made and when it is activated; in between its weights are rounded.

* `SchemesSound`: one active version, and nobody activates his own.
* `KeepsRules`: what every step leaves of the versions in use and of the records.
* `errors_newScheme`: what the second check says of an accepted draft.
* `scheme_life_cycle`: all of it, over every run.
-/

namespace NexaHR

open Foundations

set_option autoImplicit false

/-! ## The table of versions -/

structure SchemesSound (schemes : Table ScoringScheme) : Prop where
  one_active : ∀ scheme ∈ schemes, ∀ other ∈ schemes, scheme.status = .active → other.status = .active →
    scheme = other
  activator : ∀ scheme ∈ schemes, ∀ k, scheme.activatedByUserId = some k → scheme.createdByUserId ≠ some k

/-- The installed versions are in order as well. -/
structure SchemeInitial (db : Database) : Prop extends Initial db where
  schemes : SchemesSound db.scoringSchemes

abbrev SchemeRun (tr : List (Taken Database SchemeRequest)) (db : Database) : Prop :=
  Run SchemeInitial SchemeSteps tr db

/-- The version is the same, but for its status and who activated it. -/
def SameVersion (scheme scheme' : ScoringScheme) : Prop :=
  scheme'.toInput = scheme.toInput ∧ rulesFrom scheme' = rulesFrom scheme

section

variable {db db' : Database} {user : CurrentUser} {operation : Operation} {schemes : Table ScoringScheme}

theorem switchActive_same (schemeId actorUserId : Nat) (scheme : ScoringScheme) :
    SameVersion scheme (switchActive schemeId actorUserId scheme) := by
  unfold switchActive
  split
  · exact ⟨rfl, rfl⟩
  · split
    · exact ⟨rfl, rfl⟩
    · exact ⟨rfl, rfl⟩

/-- Only the version that is activated is active afterwards. -/
theorem switchActive_active {schemeId actorUserId : Nat} {scheme : ScoringScheme}
    (h : (switchActive schemeId actorUserId scheme).status = .active) : scheme.id = schemeId := by
  unfold switchActive at h
  split at h
  next hid => exact hid
  next =>
    split at h
    next => cases h
    next hnot => exact absurd h hnot

theorem switchActive_activator {schemeId actorUserId k : Nat} {scheme : ScoringScheme}
    (h : (switchActive schemeId actorUserId scheme).activatedByUserId = some k) :
    (scheme.id = schemeId ∧ k = actorUserId) ∨ scheme.activatedByUserId = some k := by
  unfold switchActive at h
  split at h
  next hid => exact Or.inl ⟨hid, (Option.some.inj h).symm⟩
  next =>
    right
    split at h
    · exact h
    · exact h

theorem switchActive_creator (schemeId actorUserId : Nat) (scheme : ScoringScheme) :
    (switchActive schemeId actorUserId scheme).createdByUserId = scheme.createdByUserId := by
  unfold switchActive
  split
  · rfl
  · split <;> rfl

theorem SchemesChange.sound (h : SchemesChange db user operation schemes)
    (hsound : SchemesSound db.scoringSchemes) : SchemesSound schemes := by
  cases h with
  | kept => exact hsound
  | drafted p haccepted hne =>
    constructor
    · intro scheme hscheme other hother hactive hactive'
      rcases (Table.mem_insert _).mp hscheme with hold | rfl
      · rcases (Table.mem_insert _).mp hother with hold' | rfl
        · exact hsound.one_active scheme hold other hold' hactive hactive'
        · cases hactive'
      · cases hactive
    · intro scheme hscheme k hk
      rcases (Table.mem_insert _).mp hscheme with hold | rfl
      · exact hsound.activator scheme hold k hk
      · cases hk
  | activated scheme hget hdraft hother hvalid =>
    constructor
    · intro a ha b hb hactive hactive'
      obtain ⟨old, hold, rfl⟩ := Table.mem_map.mp ha
      obtain ⟨old', hold', rfl⟩ := Table.mem_map.mp hb
      have hid : old.id = old'.id := (switchActive_active hactive).trans (switchActive_active hactive').symm
      rw [Table.eq_of_id_eq hold hold' hid]
    · intro a ha k hk
      obtain ⟨old, hold, rfl⟩ := Table.mem_map.mp ha
      rw [switchActive_creator]
      rcases switchActive_activator hk with ⟨hid, rfl⟩ | hbefore
      · rw [Table.eq_of_id_eq hold hget hid]
        exact hother
      · exact hsound.activator old hold k hbefore
  | deleted scheme hget hdraft =>
    constructor
    · intro a ha b hb
      exact hsound.one_active a (Table.mem_filter.mp ha).1 b (Table.mem_filter.mp hb).1
    · intro a ha
      exact hsound.activator a (Table.mem_filter.mp ha).1

/-- No version is rewritten, and no number is given twice. -/
theorem SchemesChange.later (h : SchemesChange db user operation schemes) :
    Table.Later SameVersion db.scoringSchemes schemes := by
  have hsame : ∀ scheme, SameVersion scheme scheme := fun scheme => ⟨rfl, rfl⟩
  cases h with
  | kept => exact Table.Later.refl hsame _
  | drafted p haccepted hne => exact Table.later_insert hsame _ _
  | activated scheme hget hdraft hother hvalid =>
    refine Table.Later.of_old rfl ?_
    intro b hb
    obtain ⟨a, ha, rfl⟩ := Table.mem_map.mp hb
    exact ⟨a, ha, (switchActive_id _ _ _).symm, switchActive_same _ _ _⟩
  | deleted scheme hget hdraft => exact Table.later_filter hsame _ _

end

/-! ## What every step leaves -/

/-- The versions in use stay with their rules, and the records with their versions. -/
structure KeepsRules (db db' : Database) : Prop where
  schemes : ∀ k scheme, db.scoringSchemes.get? k = some scheme → scheme.status ≠ .draft →
    ∃ scheme', db'.scoringSchemes.get? k = some scheme' ∧ scheme'.status ≠ .draft ∧
      rulesFrom scheme' = rulesFrom scheme
  records : ∀ k r, db.evaluationRecords.get? k = some r →
    ∃ r', db'.evaluationRecords.get? k = some r' ∧ r'.scoringSchemeId = r.scoringSchemeId

section

variable {db db' db'' : Database} {req : SchemeRequest} {tr : List (Taken Database SchemeRequest)}

theorem KeepsRules.refl (db : Database) : KeepsRules db db where
  schemes := fun _ scheme hget hused => ⟨scheme, hget, hused, rfl⟩
  records := fun _ r hget => ⟨r, hget, rfl⟩

theorem KeepsRules.trans (h : KeepsRules db db') (h' : KeepsRules db' db'') : KeepsRules db db'' where
  schemes := by
    intro k scheme hget hused
    obtain ⟨scheme', hget', hused', hrules⟩ := h.schemes k scheme hget hused
    obtain ⟨scheme'', hget'', hused'', hrules'⟩ := h'.schemes k scheme' hget' hused'
    exact ⟨scheme'', hget'', hused'', hrules'.trans hrules⟩
  records := by
    intro k r hget
    obtain ⟨r', hget', hscheme⟩ := h.records k r hget
    obtain ⟨r'', hget'', hscheme'⟩ := h'.records k r' hget'
    exact ⟨r'', hget'', hscheme'.trans hscheme⟩

theorem keepsRules_of_steps {req : Request} (h : Steps db req db') : KeepsRules db db' where
  schemes := by
    obtain ⟨user, -, d, log, notifications, heffect, rfl⟩ := effect_of_steps h
    exact heffect.schemes.rules
  records := by
    intro k r hget
    obtain ⟨user, r', -, hget', hchange⟩ := step_record h hget
    exact ⟨r', hget', hchange.scheme_eq⟩

theorem keepsRules_step (h : SchemeSteps db req db') : KeepsRules db db' := by
  rcases steps_of_schemeSteps h with rfl | ⟨operation, hsteps⟩
  · exact KeepsRules.refl db'
  · exact keepsRules_of_steps hsteps

theorem later_step (h : SchemeSteps db req db') :
    Table.Later SameVersion db.scoringSchemes db'.scoringSchemes := by
  rcases steps_of_schemeSteps h with rfl | ⟨operation, hsteps⟩
  · exact Table.Later.refl (fun _ => ⟨rfl, rfl⟩) _
  · obtain ⟨user, -, hchange⟩ := schemesChange_of_steps hsteps
    exact hchange.later

/-- What holds of every database of a run. -/
structure SchemeSound (db : Database) : Prop where
  form : FormSound db
  schemes : SchemesSound db.scoringSchemes

theorem schemeSound_step (h : SchemeSteps db req db') (hsound : SchemeSound db) : SchemeSound db' := by
  rcases steps_of_schemeSteps h with rfl | ⟨operation, hsteps⟩
  · exact hsound
  · obtain ⟨user, -, hchange⟩ := schemesChange_of_steps hsteps
    exact ⟨formSound_step hsteps hsound.form, hchange.sound hsound.schemes⟩

theorem schemeSound_of_run (h : SchemeRun tr db) : SchemeSound db := by
  refine h.invariant (P := SchemeSound) ?_ ?_
  · intro db hinit
    exact ⟨formSound_of_run (Run.nil hinit.toInitial), hinit.schemes⟩
  · intro db req db' hsound hstep
    exact schemeSound_step hstep hsound

/-- Between a state of a run and its end. -/
theorem keepsRules_of_run {x : Taken Database SchemeRequest} (h : SchemeRun tr db) (hx : x ∈ tr) :
    KeepsRules x.before db := by
  obtain ⟨new, old, rfl⟩ := List.append_of_mem hx
  refine h.from_before.relates (R := KeepsRules) KeepsRules.refl ?_ ?_
  · intro a b c hab hbc
    exact hab.trans hbc
  · intro a req b hstep
    exact keepsRules_step hstep

end

/-! ## The second check -/

namespace SchemeInput

/-- The weights still make one whole after they are rounded. -/
def WeightsFit (p : SchemeInput) : Prop :=
  numeric 3 p.generalSectionWeight + numeric 3 p.specializedSectionWeight = 1

/-- The input as the columns hold it. -/
def stored (p : SchemeInput) : SchemeInput :=
  { p with
    generalSectionWeight := numeric 3 p.generalSectionWeight
    specializedSectionWeight := numeric 3 p.specializedSectionWeight
    bonusMaxPoints := numeric 2 p.bonusMaxPoints
    improvementPlanMaxPct := numeric 2 p.improvementPlanMaxPct }

end SchemeInput

section

variable {p : SchemeInput}

theorem errors_eq_nil : p.errors = [] ↔ p.fieldErrors = [] ∧ p.check = none := by
  unfold SchemeInput.errors
  cases hfields : p.fieldErrors with
  | nil => simp
  | cons e es => simp

theorem rangeError_eq_nil {field : String} {value : Rat} {lower upper : Rat × String} :
    rangeError field value lower upper = [] ↔ lower.1 ≤ value ∧ value ≤ upper.1 := by
  unfold rangeError
  split
  next h => simp [boundError, not_le.mpr h]
  next h =>
    split
    next h' => simp [boundError, not_le.mpr h']
    next h' => simp [not_lt.mp h, not_lt.mp h']

theorem numeric_range {n bound : Nat} {x : Rat} (h : 0 ≤ x ∧ x ≤ bound) :
    0 ≤ numeric n x ∧ numeric n x ≤ bound :=
  ⟨numeric_nonneg h.1, numeric_le_of_le h.1 (isDecimal_natCast bound) h.2⟩

/-- Rounding keeps every field within its bounds. -/
theorem fieldErrors_stored (h : p.fieldErrors = []) : p.stored.fieldErrors = [] := by
  unfold SchemeInput.fieldErrors at h ⊢
  simp only [List.append_eq_nil_iff, rangeError_eq_nil] at h ⊢
  obtain ⟨⟨⟨⟨⟨⟨⟨⟨hname, hgeneral⟩, hspecialized⟩, hmin⟩, hmax⟩, hbonus⟩, hplan⟩, hbands⟩, hcount⟩ := h
  have hgeneral' := @numeric_range 3 1 _ (by simpa using hgeneral)
  have hspecialized' := @numeric_range 3 1 _ (by simpa using hspecialized)
  have hbonus' := @numeric_range 2 20 _ (by simpa using hbonus)
  have hplan' := @numeric_range 2 100 _ (by simpa using hplan)
  exact ⟨⟨⟨⟨⟨⟨⟨⟨hname, by simpa [SchemeInput.stored] using hgeneral'⟩,
    by simpa [SchemeInput.stored] using hspecialized'⟩, hmin⟩, hmax⟩,
    by simpa [SchemeInput.stored] using hbonus'⟩, by simpa [SchemeInput.stored] using hplan'⟩, hbands⟩, hcount⟩

/-- The rules between the fields other than the first one. -/
structure ChecksRest (p : SchemeInput) : Prop where
  scores : ∀ score ∈ p.evidenceRequiredScores, 1 ≤ score ∧ score ≤ 5
  nodup : p.evidenceRequiredScores.Nodup
  words : p.evidenceMinWords ≤ p.evidenceMaxWords
  rising : (p.thresholds.map Prod.fst).Pairwise (· < ·)
  last : 100 < ((p.thresholds.map Prod.fst).getLast?.getD 0)
  weights : ∀ row ∈ p.indicatorWeights, 0 < row.2

theorem ite_some_eq_none {c : Prop} [Decidable c] {message : String} {rest : Option String} :
    (if c then some message else rest) = none ↔ ¬c ∧ rest = none := by
  by_cases hc : c
  · simp [hc]
  · simp [hc]

theorem check_eq_none :
    p.check = none ↔
      roundTo 6 (p.generalSectionWeight + p.specializedSectionWeight) = 1 ∧ ChecksRest p := by
  unfold SchemeInput.check
  simp only [ite_some_eq_none, not_not, not_lt, not_le, List.any_eq_true, Bool.or_eq_true, decide_eq_true_eq,
    not_exists, not_and, not_or, and_true]
  constructor
  · rintro ⟨htotal, hscores, hnodup, hwords, hrising, hlast, hweights⟩
    exact ⟨htotal, hscores, hnodup, hwords, hrising, hlast, hweights⟩
  · rintro ⟨htotal, h⟩
    exact ⟨htotal, h.scores, h.nodup, h.words, h.rising, h.last, h.weights⟩

theorem nonneg_weights (h : p.fieldErrors = []) :
    0 ≤ p.generalSectionWeight ∧ 0 ≤ p.specializedSectionWeight := by
  unfold SchemeInput.fieldErrors at h
  simp only [List.append_eq_nil_iff, rangeError_eq_nil] at h
  obtain ⟨⟨⟨⟨⟨⟨⟨⟨-, hgeneral⟩, hspecialized⟩, -⟩, -⟩, -⟩, -⟩, -⟩, -⟩ := h
  exact ⟨hgeneral.1, hspecialized.1⟩

/-- Of an accepted input, the columns hold an acceptable one exactly when its weights fit. -/
theorem errors_stored (h : p.errors = []) : p.stored.errors = [] ↔ p.WeightsFit := by
  obtain ⟨hfields, hcheck⟩ := errors_eq_nil.mp h
  obtain ⟨-, hrest⟩ := check_eq_none.mp hcheck
  obtain ⟨hgeneral, hspecialized⟩ := nonneg_weights hfields
  have hdecimal : IsDecimal 6 (numeric 3 p.generalSectionWeight + numeric 3 p.specializedSectionWeight) :=
    ((numeric_isDecimal hgeneral).add (numeric_isDecimal hspecialized)).succ.succ.succ
  have hrest' : ChecksRest p.stored :=
    ⟨hrest.scores, hrest.nodup, hrest.words, hrest.rising, hrest.last, hrest.weights⟩
  have htotal : roundTo 6 (p.stored.generalSectionWeight + p.stored.specializedSectionWeight) =
      numeric 3 p.generalSectionWeight + numeric 3 p.specializedSectionWeight :=
    roundTo_eq_self_iff.mpr hdecimal
  rw [errors_eq_nil, check_eq_none, htotal]
  exact ⟨fun hstored => hstored.2.1, fun hfit => ⟨fieldErrors_stored hfields, hfit, hrest'⟩⟩

/-- The draft of an accepted input reads back as the input that the columns hold. -/
theorem toInput_newScheme (h : p.errors = []) (hne : p.thresholds ≠ []) (version createdByUserId key : Nat) :
    (newScheme p hne version createdByUserId key).toInput = p.stored := by
  obtain ⟨hfields, hcheck⟩ := errors_eq_nil.mp h
  obtain ⟨-, hrest⟩ := check_eq_none.mp hcheck
  have hscores : (p.evidenceRequiredScores.map Int.toNat).map Int.ofNat = p.evidenceRequiredScores := by
    have hback : ∀ score ∈ p.evidenceRequiredScores, (Int.ofNat ∘ Int.toNat) score = id score := by
      intro score hscore
      have hpos := (hrest.scores score hscore).1
      show ((score.toNat : Nat) : Int) = score
      omega
    rw [List.map_map, List.map_congr_left hback, List.map_id]
  have hwords : (p.evidenceMinWords.toNat : Int) = p.evidenceMinWords ∧
      (p.evidenceMaxWords.toNat : Int) = p.evidenceMaxWords := by
    unfold SchemeInput.fieldErrors at hfields
    simp only [List.append_eq_nil_iff, rangeError_eq_nil] at hfields
    obtain ⟨⟨⟨⟨⟨⟨-, hmin⟩, hmax⟩, -⟩, -⟩, -⟩, -⟩ := hfields
    have hmin' : (0 : Int) ≤ p.evidenceMinWords := by exact_mod_cast hmin.1
    have hmax' : (1 : Int) ≤ p.evidenceMaxWords := by exact_mod_cast hmax.1
    constructor <;> omega
  unfold ScoringScheme.toInput newScheme SchemeInput.stored
  simp only [hscores, hwords.1, hwords.2]

theorem ensureSchemeIsValid_newScheme (h : p.errors = []) (hne : p.thresholds ≠ [])
    (version createdByUserId key : Nat) :
    ensureSchemeIsValid (newScheme p hne version createdByUserId key) = .ok () ↔ p.WeightsFit := by
  unfold ensureSchemeIsValid
  rw [ensure_eq_ok, toInput_newScheme h hne, errors_stored h]

end

/-! ## Runs -/

/-- The draft of an input that a step accepted: it is stored, and whoever activates it later finds it valid
exactly when its weights fit. -/
structure DraftStands (x : Taken Database SchemeRequest) (p : SchemeInput) (db : Database) : Prop where
  stored : ∃ scheme, x.after.scoringSchemes.get? x.after.scoringSchemes.seq = some scheme ∧
    scheme.status = .draft ∧ scheme.toInput = p.stored
  valid_iff : ∀ scheme, db.scoringSchemes.get? x.after.scoringSchemes.seq = some scheme →
    (ensureSchemeIsValid scheme = .ok () ↔ p.WeightsFit)

/-- The life of the versions, from the states of a run to its end. -/
structure LifeCycle (tr : List (Taken Database SchemeRequest)) (db : Database) : Prop where
  one_active : ∀ scheme ∈ db.scoringSchemes, ∀ other ∈ db.scoringSchemes, scheme.status = .active →
    other.status = .active → scheme = other
  activator : ∀ scheme ∈ db.scoringSchemes, ∀ k, scheme.activatedByUserId = some k →
    scheme.createdByUserId ≠ some k
  lasting : ∀ x ∈ tr, ∀ k scheme, x.before.scoringSchemes.get? k = some scheme → scheme.status ≠ .draft →
    ∃ scheme', db.scoringSchemes.get? k = some scheme' ∧ scheme'.status ≠ .draft ∧
      rulesFrom scheme' = rulesFrom scheme
  stamped : ∀ x ∈ tr, ∀ k r, x.before.evaluationRecords.get? k = some r →
    ∃ r' j scheme, db.evaluationRecords.get? k = some r' ∧ r.scoringSchemeId = some j ∧
      r'.scoringSchemeId = some j ∧ x.before.scoringSchemes.get? j = some scheme ∧
        rulesForRecord x.before r = rulesFrom scheme ∧ rulesForRecord db r' = rulesFrom scheme

section

variable {db : Database} {tr : List (Taken Database SchemeRequest)} {x : Taken Database SchemeRequest}
  {p : SchemeInput}

theorem lifeCycle (h : SchemeRun tr db) : LifeCycle tr db where
  one_active := (schemeSound_of_run h).schemes.one_active
  activator := (schemeSound_of_run h).schemes.activator
  lasting := by
    intro x hx
    exact (keepsRules_of_run h hx).schemes
  stamped := by
    intro x hx k r hget
    obtain ⟨⟨old, hold, -⟩, -⟩ := h.step_of_mem hx
    have hkeeps := keepsRules_of_run h hx
    obtain ⟨j, scheme, hj, hscheme, hused⟩ :=
      ((schemeSound_of_run hold).form.stamped r (Table.mem_of_get? hget)).scheme
    obtain ⟨r', hget', hsame⟩ := hkeeps.records k r hget
    obtain ⟨scheme', hscheme', -, hrules⟩ := hkeeps.schemes j scheme hscheme hused
    have hj' := hsame.trans hj
    refine ⟨r', j, scheme, hget', hj, hj', hscheme, rulesForRecord_of_scheme hj hscheme, ?_⟩
    rw [rulesForRecord_of_scheme hj' hscheme', hrules]

theorem draftStands (h : SchemeRun tr db) (hx : x ∈ tr) (hp : x.label.draft x.before = some p) :
    DraftStands x p db := by
  obtain ⟨new, old, rfl⟩ := List.append_of_mem hx
  obtain ⟨user, -, hchange⟩ := schemesChange_of_steps (steps_of_draft h.cut.2 hp)
  obtain ⟨haccepted, hne, hinserted⟩ := hchange.of_createScheme
  let scheme := newScheme p hne (nextVersion x.before) user.id (x.before.scoringSchemes.seq + 1)
  have hkey : x.after.scoringSchemes.seq = x.before.scoringSchemes.seq + 1 := by
    rw [hinserted]
    rfl
  have hget : x.after.scoringSchemes.get? x.after.scoringSchemes.seq = some scheme := by
    rw [hkey, hinserted]
    exact Table.get?_insert_self _ _ (newScheme_id p hne (nextVersion x.before) user.id)
  have hsettled : Table.Settled (fun scheme => ensureSchemeIsValid scheme = .ok () ↔ p.WeightsFit)
      x.after.scoringSchemes.seq db.scoringSchemes := by
    refine h.cut_after.invariant (P := fun db => Table.Settled _ _ db.scoringSchemes) ?_ ?_
    · intro d hd
      rw [hd]
      have hid : scheme.id = x.after.scoringSchemes.seq := hkey.symm
      rw [← hid]
      exact Table.settled_of_mem (Table.mem_of_get? hget) (ensureSchemeIsValid_newScheme haccepted hne _ _ _)
    · intro d req d' hbefore hstep
      refine hbefore.later ?_ (later_step hstep)
      intro a b hsame hvalid
      unfold ensureSchemeIsValid at hvalid ⊢
      rw [hsame.1]
      exact hvalid
  refine ⟨⟨scheme, hget, rfl, toInput_newScheme haccepted hne _ _ _⟩, ?_⟩
  intro later hlater
  exact hsettled.2 later (Table.mem_of_get? hlater) (Table.id_of_get? hlater)

end

/-- At most one version is active, nobody activates his own, a version in use stays with its rules and every
record with its version. A draft that was accepted can be activated exactly when its weights fit. -/
theorem scheme_life_cycle {tr : List (Taken Database SchemeRequest)} {db : Database} (h : SchemeRun tr db) :
    LifeCycle tr db ∧ ∀ x ∈ tr, ∀ p, x.label.draft x.before = some p → DraftStands x p db :=
  ⟨lifeCycle h, fun _ hx _ hp => draftStands h hx hp⟩

/-! ## A draft that nobody can activate -/

def askFor (userId : Nat) (call : SchemeCall) : SchemeRequest := ⟨userId, someDay, call⟩

def schemeSettled (db : Database) (req : SchemeRequest) : Database :=
  match schemeStep db req with
  | .ok db' => db'
  | .error _ => db

theorem office_schemeInitial : SchemeInitial (office fullChain) where
  toInitial := office_initial (by decide)
  schemes := by
    constructor
    · intro scheme hscheme other hother _ _
      rw [List.mem_singleton.mp hscheme, List.mem_singleton.mp hother]
    · intro scheme hscheme k hk
      rw [List.mem_singleton.mp hscheme] at hk
      cases hk

theorem schemeRun_replay {reqs : List SchemeRequest}
    (h : ((replay schemeSettled (office fullChain) reqs).all fun x =>
      (schemeStep x.before x.label).isOk) = true) :
    SchemeRun (replay schemeSettled (office fullChain) reqs)
      (endState schemeSettled (office fullChain) reqs) := by
  refine run_replay office_schemeInitial ?_
  intro x hx
  have hok := List.all_eq_true.mp h x hx
  rw [after_replay hx]
  unfold SchemeSteps schemeSettled
  cases hstep : schemeStep x.before x.label with
  | ok db' => rfl
  | error e =>
    rw [hstep] at hok
    cases hok

/-- One user has the assistant make a draft, another one has it activated. -/
def draftedAndActivated : List SchemeRequest :=
  [askFor 5 (.activationTool 2), askFor 4 (.draftTool { name := "R" })]

theorem draftedAndActivated_lifeCycle :
    LifeCycle (replay schemeSettled (office fullChain) draftedAndActivated)
      (endState schemeSettled (office fullChain) draftedAndActivated) :=
  (scheme_life_cycle (schemeRun_replay (by decide +kernel))).1

/-- Weights with four decimals make one whole, but not after they are rounded to three. -/
def fourDecimals : SchemeInput :=
  { draftDefaults with
    name := "R"
    generalSectionWeight := 3335 / 10000
    specializedSectionWeight := 6665 / 10000 }

def draftedOnly : List SchemeRequest := [askFor 4 (.http (.createScheme fourDecimals))]

theorem accepted_draft_is_refused :
    ¬∀ tr db, SchemeRun tr db → ∀ x ∈ tr, ∀ p, x.label.draft x.before = some p →
      ∀ scheme, db.scoringSchemes.get? x.after.scoringSchemes.seq = some scheme →
        ensureSchemeIsValid scheme = .ok () := by
  intro hclaim
  have hrun := @schemeRun_replay draftedOnly (by decide +kernel)
  have hvalid := hclaim _ _ hrun _ List.mem_cons_self fourDecimals rfl
  have hrefused : ((endState schemeSettled (office fullChain) draftedOnly).scoringSchemes.get?
      (endState schemeSettled (office fullChain) draftedOnly).scoringSchemes.seq).any (fun scheme =>
        !(ensureSchemeIsValid scheme).isOk) = true := by
    decide +kernel
  obtain ⟨scheme, hget, hnot⟩ := exists_of_any hrefused
  rw [hvalid scheme hget] at hnot
  cases hnot

end NexaHR
