import NexaHR.System.Installation
import NexaHR.System.RecordSteps

/-! # Extensions of the submission window

`extend_submission_window` writes its date over the one of the last grant. The window takes the later of
that date and the end of the period, so the first grant never closes anything; a later one with an
earlier date does.

* `NoEarlier`: one window closes no earlier than another.
* `OnlyExtends`: what a grant is for.
* `TakesBack`: a grant whose date is before one that is in force.
* `extensions_only_extend`: the grants of a run extend exactly when none of them takes one back.
-/

namespace NexaHR

open Foundations

set_option autoImplicit false

namespace Window

/-- The second window closes no earlier than the first. -/
def NoEarlier (w w' : Window) : Prop :=
  ∀ closing' ∈ w'.closesOn, ∃ closing ∈ w.closesOn, closing ≤ closing'

theorem NoEarlier.refl (w : Window) : NoEarlier w w := fun closing h => ⟨closing, h, Nat.le_refl _⟩

theorem NoEarlier.trans {a b c : Window} (hab : NoEarlier a b) (hbc : NoEarlier b c) :
    NoEarlier a c := by
  intro closing'' h''
  obtain ⟨closing', h', hle'⟩ := hbc closing'' h''
  obtain ⟨closing, h, hle⟩ := hab closing' h'
  exact ⟨closing, h, Nat.le_trans hle hle'⟩

theorem NoEarlier.staysOpen {w w' : Window} (h : NoEarlier w w') {today : Nat}
    (hopen : w.isOpen today = true) : w'.isOpen today = true := by
  unfold Window.isOpen at *
  rw [Option.all_eq_true] at *
  intro closing' h'
  obtain ⟨closing, hc, hle⟩ := h closing' h'
  have hday : today ≤ closing := by simpa using hopen closing hc
  simpa using Nat.le_trans hday hle

end Window

/-! ## The window of a record -/

namespace Database

/-- The end of the period of a record. -/
def periodEnd (db : Database) (r : EvaluationRecord) : Option Nat :=
  (r.periodId.bind db.evaluationPeriods.get?).map EvaluationPeriod.endsOn

end Database

/-- The later of the end of the period and the date of the grant. -/
theorem windowFor_closesOn (db : Database) (r : EvaluationRecord) :
    (windowFor db r).closesOn =
      (db.periodEnd r).map fun periodEnd => max periodEnd (r.submissionExtendedUntil.getD 0) := by
  unfold windowFor Database.periodEnd
  cases (r.periodId.bind db.evaluationPeriods.get?).map EvaluationPeriod.endsOn with
  | none => rfl
  | some periodEnd =>
    cases r.submissionExtendedUntil with
    | none => simp
    | some extension =>
      by_cases h : periodEnd < extension
      · simp [h, Nat.max_eq_right (Nat.le_of_lt h)]
      · simp [h, Nat.max_eq_left (Nat.le_of_not_lt h)]

/-- Windows of records with the same period. -/
theorem noEarlier_iff {db db' : Database} {r r' : EvaluationRecord}
    (hperiod : db'.periodEnd r' = db.periodEnd r) :
    (windowFor db r).NoEarlier (windowFor db' r') ↔
      ∀ periodEnd ∈ db.periodEnd r, ∀ extension ∈ r.submissionExtendedUntil, periodEnd < extension →
        ∃ extension' ∈ r'.submissionExtendedUntil, extension ≤ extension' := by
  unfold Window.NoEarlier
  rw [windowFor_closesOn, windowFor_closesOn, hperiod]
  cases db.periodEnd r with
  | none => simp
  | some periodEnd =>
    cases r.submissionExtendedUntil with
    | none => simp
    | some extension =>
      cases r'.submissionExtendedUntil with
      | none => simp
      | some extension' =>
        simp
        omega

/-! ## Grants -/

/-- The record and the date of a grant. -/
def Request.extension (req : Request) : Option (Nat × Nat) :=
  match req.operation with
  | .onRecord k (.extendSubmissionWindow untilDate _) => some (k, untilDate)
  | _ => none

/-- The window of every record closes no earlier, and one that is open on some day stays open. -/
def OnlyExtends (db db' : Database) : Prop :=
  ∀ k r, db.evaluationRecords.get? k = some r → ∃ r', db'.evaluationRecords.get? k = some r' ∧
    (windowFor db r).NoEarlier (windowFor db' r') ∧
    ∀ today, (windowFor db r).isOpen today = true → (windowFor db' r').isOpen today = true

/-- The record has a grant that is later than the end of its period and than the new date. -/
def TakesBack (db : Database) (k untilDate : Nat) : Prop :=
  ∃ r, db.evaluationRecords.get? k = some r ∧ ∃ periodEnd ∈ db.periodEnd r,
    ∃ extension ∈ r.submissionExtendedUntil, periodEnd < extension ∧ untilDate < extension

theorem OnlyExtends.refl (db : Database) : OnlyExtends db db := by
  intro k r hget
  exact ⟨r, hget, Window.NoEarlier.refl _, fun _ hopen => hopen⟩

theorem OnlyExtends.trans {a b c : Database} (hab : OnlyExtends a b) (hbc : OnlyExtends b c) :
    OnlyExtends a c := by
  intro k r hget
  obtain ⟨r', hget', hle, hopen⟩ := hab k r hget
  obtain ⟨r'', hget'', hle', hopen'⟩ := hbc k r' hget'
  exact ⟨r'', hget'', hle.trans hle', fun today h => hopen' today (hopen today h)⟩

section

variable {db db' : Database} {req : Request} {k untilDate : Nat}

/-- A grant writes its date on its record, and leaves the other records and the periods. -/
theorem extension_step (h : Steps db req db') (hext : req.extension = some (k, untilDate)) :
    ∃ r r', db.evaluationRecords.get? k = some r ∧ db'.evaluationRecords.get? k = some r' ∧
      r'.submissionExtendedUntil = some untilDate ∧ r'.periodId = r.periodId ∧
      db'.evaluationPeriods = db.evaluationPeriods ∧
      ∀ k' ≠ k, db'.evaluationRecords.get? k' = db.evaluationRecords.get? k' := by
  unfold Request.extension at hext
  split at hext
  · rename_i recordId until' reason hop
    obtain ⟨rfl, rfl⟩ : recordId = k ∧ until' = untilDate := by simpa using hext
    obtain ⟨user, r, w, -, hget, -, -, hrun, rfl⟩ := step_commits hop h
    change extendSubmissionWindow db req.env user r until' reason = .ok w at hrun
    unfold extendSubmissionWindow at hrun
    simp only [bind_eq_ok, pure_eq_ok] at hrun
    obtain ⟨-, -, -, -, -, -, rfl⟩ := hrun
    have hid : r.id = recordId := Table.id_of_get? hget
    let granted : EvaluationRecord :=
      { r with
        submissionExtendedUntil := some until'
        submissionExtendedAt := some req.env.now
        submissionExtendedByUserId := some user.id
        submissionExtensionReason := some reason }
    have hput : (db.evaluationRecords.put granted).get? recordId = some granted := by
      rw [get?_put_of_id hget rfl, if_pos hid]
    refine ⟨r, granted, hget, hput, rfl, rfl, rfl, ?_⟩
    · intro k' hne
      exact Table.get?_put_ne (b := granted) (by show k' ≠ r.id; omega)
  · cases hext

/-- A grant extends, unless it takes an earlier one back. -/
theorem onlyExtends_iff (h : Steps db req db') (hext : req.extension = some (k, untilDate)) :
    OnlyExtends db db' ↔ ¬TakesBack db k untilDate := by
  obtain ⟨r, r', hget, hget', huntil, hperiodId, hperiods, hothers⟩ := extension_step h hext
  have hperiod : db'.periodEnd r' = db.periodEnd r := by
    unfold Database.periodEnd
    rw [hperiodId, hperiods]
  have hwindow := noEarlier_iff hperiod
  constructor
  · intro honly hback
    obtain ⟨r₀, hget₀, periodEnd, hend, extension, hextension, hlater, hless⟩ := hback
    obtain rfl : r = r₀ := by simpa [hget] using hget₀
    obtain ⟨r₁, hget₁, hle, -⟩ := honly k r hget
    obtain rfl : r' = r₁ := by simpa [hget'] using hget₁
    obtain ⟨extension', hext', hle'⟩ := hwindow.mp hle periodEnd hend extension hextension hlater
    rw [huntil, Option.mem_some_iff] at hext'
    omega
  · intro hkeeps k₀ r₀ hget₀
    by_cases hk : k₀ = k
    · subst hk
      obtain rfl : r = r₀ := by simpa [hget] using hget₀
      have hle : (windowFor db r).NoEarlier (windowFor db' r') := by
        refine hwindow.mpr ?_
        intro periodEnd hend extension hextension hlater
        refine ⟨untilDate, huntil, ?_⟩
        by_contra hless
        exact hkeeps ⟨r, hget, periodEnd, hend, extension, hextension, hlater, by omega⟩
      exact ⟨r', hget', hle, fun today => hle.staysOpen⟩
    · have hsame : windowFor db' r₀ = windowFor db r₀ := by
        unfold windowFor
        rw [hperiods]
      refine ⟨r₀, by rw [hothers k₀ hk, hget₀], ?_⟩
      rw [hsame]
      exact ⟨Window.NoEarlier.refl _, fun _ hopen => hopen⟩

end

/-! ## Runs -/

/-- A grant of the run extends unless it takes an earlier one back: in every run, from any database, the
grants all extend exactly when no step is such a grant. -/
theorem extensions_only_extend {init : Database → Prop} {tr : List (Taken Database Request)}
    {db : Database} (h : Run init Steps tr db) :
    (∀ x ∈ tr, ∀ k untilDate, x.label.extension = some (k, untilDate) → OnlyExtends x.before x.after) ↔
      ∀ x ∈ tr, ∀ k untilDate, x.label.extension = some (k, untilDate) →
        ¬TakesBack x.before k untilDate := by
  have hstep : ∀ x ∈ tr, ∀ k untilDate, x.label.extension = some (k, untilDate) →
      (OnlyExtends x.before x.after ↔ ¬TakesBack x.before k untilDate) := by
    intro x hx k untilDate hext
    exact onlyExtends_iff (h.step_of_mem hx).2 hext
  constructor
  · intro honly x hx k untilDate hext
    exact (hstep x hx k untilDate hext).mp (honly x hx k untilDate hext)
  · intro hkeeps x hx k untilDate hext
    exact (hstep x hx k untilDate hext).mpr (hkeeps x hx k untilDate hext)

/-- Grants in a row, none of which takes one back, together only extend. -/
theorem grants_only_extend {db₀ db : Database} {tr : List (Taken Database Request)}
    (h : Run (· = db₀) Steps tr db)
    (hgrants : ∀ x ∈ tr, ∃ k untilDate, x.label.extension = some (k, untilDate) ∧
      ¬TakesBack x.before k untilDate) : OnlyExtends db₀ db := by
  refine h.invariant_of_steps (P := OnlyExtends db₀) ?_ ?_ hgrants
  · rintro db rfl
    exact OnlyExtends.refl db
  · intro db req db' ih hstep hgrant
    obtain ⟨k, untilDate, hext, hkeeps⟩ := hgrant
    exact ih.trans ((onlyExtends_iff hstep hext).mpr hkeeps)

/-- A record of a period that ends on day 10, extended to day 30. -/
def extendedOnce : List Request :=
  [ask 4 (.onRecord 1 (.extendSubmissionWindow 30 "leave")), ask 1 (.createEvaluation 1),
    ask 4 (.createPeriod "P" 0 10)]

/-- The second grant, to day 20. -/
def takenBack : List Request :=
  ask 4 (.onRecord 1 (.extendSubmissionWindow 20 "late")) :: extendedOnce

theorem extendedOnce_run : SystemRun (replay settled (office fullChain) extendedOnce)
    (endState settled (office fullChain) extendedOnce) :=
  systemRun_replay (office_initial (by decide)) (by decide)

theorem takenBack_run : SystemRun (replay settled (office fullChain) takenBack)
    (endState settled (office fullChain) takenBack) :=
  systemRun_replay (office_initial (by decide)) (by decide)

/-- The first grant extends. -/
theorem first_grant_extends :
    (∃ x ∈ replay settled (office fullChain) extendedOnce, x.label.extension = some (1, 30)) ∧
      ∀ x ∈ replay settled (office fullChain) extendedOnce, ∀ k untilDate,
        x.label.extension = some (k, untilDate) → OnlyExtends x.before x.after := by
  refine ⟨⟨_, List.mem_cons_self, rfl⟩, (extensions_only_extend extendedOnce_run).mpr ?_⟩
  intro x hx k untilDate hext hback
  obtain ⟨r, hget, -, -, extension, hextension, -⟩ := hback
  have hfresh : ∀ x ∈ replay settled (office fullChain) extendedOnce,
      ∀ r ∈ x.before.evaluationRecords, r.submissionExtendedUntil = none := by
    decide
  rw [hfresh x hx r (Table.mem_of_get? hget)] at hextension
  cases hextension

/-- On day 25 the first grant had the record open, and the second one has closed it. -/
theorem second_grant_closes : ¬∀ tr db, SystemRun tr db → ∀ x ∈ tr, ∀ k untilDate,
    x.label.extension = some (k, untilDate) → OnlyExtends x.before x.after := by
  intro hclaim
  have honly := hclaim _ _ takenBack_run _ List.mem_cons_self 1 20 rfl
  obtain ⟨r, hget, hopen⟩ := exists_of_any
    (o := (endState settled (office fullChain) extendedOnce).evaluationRecords.get? 1)
    (p := fun r => (windowFor (endState settled (office fullChain) extendedOnce) r).isOpen 25) (by decide)
  have hclosed : ∀ r' ∈ (endState settled (office fullChain) takenBack).evaluationRecords,
      (windowFor (endState settled (office fullChain) takenBack) r').isOpen 25 = false := by
    decide
  obtain ⟨r', hget', -, hstays⟩ := honly 1 r hget
  have hafter : (windowFor (endState settled (office fullChain) takenBack) r').isOpen 25 = true :=
    hstays 25 hopen
  rw [hclosed r' (Table.mem_of_get? hget')] at hafter
  cases hafter

end NexaHR
