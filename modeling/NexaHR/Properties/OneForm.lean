import NexaHR.Properties.ScoreIntegrity
import NexaHR.System.OtherTables
import Mathlib.Data.Finset.Dedup

/-! # One form of a record

The form of a record is read in two ways: as the ids that must be scored, and as the indicators that
are shown. An open record in which somebody has written keeps its version of the form; an indicator
of that version may nevertheless be deleted as long as no score names it, and the form of the record
then asks for what it does not show.

* `OneForm`: the two readings agree.
* `DeletesAsked`: the request deletes what the frozen form of an open record asks.
* `forms_are_one_iff`: in a run the readings agree after every step exactly when no step does that.
-/

namespace NexaHR

open Foundations

set_option autoImplicit false

/-- The ids that are required are those of the indicators that are shown. -/
def OneForm (db : Database) (r : EvaluationRecord) : Prop :=
  (indicatorIdsForRecord db r).toFinset = ((indicatorsForRecord db r).map Indicator.id).toFinset

/-- The readings agree for every open record. -/
def FormsAreOne (db : Database) : Prop :=
  ∀ r ∈ db.evaluationRecords, r.isOpen = true → OneForm db r

/-- The request deletes an indicator that an open record asks for, in which somebody has written. -/
def DeletesAsked (db : Database) (req : Request) : Prop :=
  ∃ k, req.operation = .deleteIndicator k ∧
    ∃ r ∈ db.evaluationRecords, r.isOpen = true ∧ r.isUntouched = false ∧ k ∈ indicatorIdsForRecord db r

section

variable {db db' : Database} {req : Request} {user : CurrentUser} {r r' : EvaluationRecord} {k : Nat}
  {env : Env}

/-! ## The two readings -/

/-- What is shown is asked; the readings agree when everything that is asked is there. -/
theorem oneForm_iff :
    OneForm db r ↔ ∀ k ∈ indicatorIdsForRecord db r, (db.indicators.get? k).isSome = true := by
  have hshown : ∀ k, k ∈ ((indicatorsForRecord db r).map Indicator.id).toFinset ↔
      k ∈ indicatorIdsForRecord db r ∧ (db.indicators.get? k).isSome = true := by
    intro k
    rw [List.mem_toFinset, List.mem_map]
    unfold indicatorsForRecord
    constructor
    · rintro ⟨i, hi, rfl⟩
      rw [List.mem_filter, decide_eq_true_eq] at hi
      have hget : db.indicators.get? i.id = some i := Table.get?_of_mem hi.1
      rw [hget]
      exact ⟨hi.2, rfl⟩
    · intro ⟨hasked, hsome⟩
      obtain ⟨i, hget⟩ := Option.isSome_iff_exists.mp hsome
      have hid : i.id = k := Table.id_of_get? hget
      refine ⟨i, ?_, hid⟩
      rw [List.mem_filter, decide_eq_true_eq, hid]
      exact ⟨Table.mem_of_get? hget, hasked⟩
  unfold OneForm
  constructor
  · intro heq k hk
    have hmem : k ∈ ((indicatorsForRecord db r).map Indicator.id).toFinset := by
      rw [← heq]
      exact List.mem_toFinset.mpr hk
    exact ((hshown k).mp hmem).2
  · intro hall
    ext k
    rw [hshown k, List.mem_toFinset]
    exact ⟨fun hk => ⟨hk, hall k hk⟩, fun hk => hk.1⟩

theorem activeMemberIds_there (hk : k ∈ activeMemberIds db) : (db.indicators.get? k).isSome = true := by
  unfold activeMemberIds at hk
  rw [List.mem_insertionSort, List.mem_map] at hk
  obtain ⟨i, hi, rfl⟩ := hk
  have hget : db.indicators.get? i.id = some i := Table.get?_of_mem (List.mem_filter.mp hi).1
  rw [hget]
  rfl

theorem ensureFramework_memberIds (db : Database) :
    (ensureFramework db).1.memberIds = activeMemberIds db := by
  unfold ensureFramework
  split
  · split
    next hsame => exact hsame
    next => rfl
  · rfl

/-! ## What a request does to the indicators -/

/-- An indicator stays until it is deleted. -/
theorem Operation.run_keeps_indicator {op : Operation} (h : op.run db env user = .ok db')
    (hop : op ≠ .deleteIndicator k) (hk : (db.indicators.get? k).isSome = true) :
    (db'.indicators.get? k).isSome = true := by
  have hinserted : ∀ {t : Table Indicator} {mk : Nat → Indicator} (hmk : ∀ n, HasId.id (mk n) = n),
      (t.get? k).isSome = true → ((t.insert mk hmk).get? k).isSome = true := by
    intro t mk hmk hsome
    obtain ⟨i, hget⟩ := Option.isSome_iff_exists.mp hsome
    rw [Table.get?_insert_of_get? hmk hget]
    rfl
  cases op with
  | createIndicator «section» category description =>
    simp only [Operation.run, NexaHR.createIndicator, bind_eq_ok, pure_eq_ok] at h
    obtain ⟨-, -, rfl⟩ := h
    exact hinserted _ hk
  | updateIndicator indicatorId payload =>
    simp only [Operation.run, NexaHR.updateIndicator, bind_eq_ok, pure_eq_ok] at h
    obtain ⟨-, -, i, -, -, -, rfl⟩ := h
    have hput : ((db.indicators.put (i.updated payload)).get? k).isSome = true := by
      rw [get?_put_isSome]
      exact hk
    split <;> exact hput
  | replaceIndicator indicatorId category description reason =>
    simp only [Operation.run, NexaHR.replaceIndicator, bind_eq_ok, pure_eq_ok] at h
    obtain ⟨-, -, old, -, -, -, rfl⟩ := h
    refine hinserted _ ?_
    rw [get?_put_isSome]
    exact hk
  | deleteIndicator indicatorId =>
    simp only [Operation.run, NexaHR.deleteIndicator, bind_eq_ok, pure_eq_ok, require_eq_ok] at h
    obtain ⟨-, -, i, hget, -, -, -, -, rfl⟩ := h
    have hid : i.id = indicatorId := Table.id_of_get? hget
    obtain ⟨j, hj⟩ := Option.isSome_iff_exists.mp hk
    have hjk : j.id = k := Table.id_of_get? hj
    have hne : j.id ≠ i.id := by
      rw [hjk, hid]
      rintro rfl
      exact hop rfl
    show ((db.indicators.filter fun j => j.id ≠ i.id).get? k).isSome = true
    rw [Table.get?_filter, hj, Option.filter_some]
    simp [hne]
  | reorderIndicators «section» orderedIds =>
    simp only [Operation.run, NexaHR.reorderIndicators, bind_eq_ok, pure_eq_ok] at h
    obtain ⟨-, -, -, -, rfl⟩ := h
    show ((db.indicators.map (reordered «section» orderedIds)
      (reordered_id «section» orderedIds)).get? k).isSome = true
    rw [Table.get?_map, Option.isSome_map]
    exact hk
  | _ =>
    have hsame := (Operation.run_keepsOthers h).indicators.resolve_left Bool.false_ne_true
    rw [hsame]
    exact hk

theorem deleteIndicator_removes (h : deleteIndicator db env user k = .ok db') :
    db'.indicators.get? k = none := by
  unfold deleteIndicator at h
  simp only [bind_eq_ok, pure_eq_ok, require_eq_ok] at h
  obtain ⟨-, -, i, hget, -, -, -, -, rfl⟩ := h
  have hid : i.id = k := Table.id_of_get? hget
  show (db.indicators.filter fun j => j.id ≠ i.id).get? k = none
  rw [Table.get?_filter, hget, Option.filter_some]
  simp

theorem run_of_steps (h : Steps db req db') : ∃ user, req.operation.run db req.env user = .ok db' := by
  have hstep : step db req = .ok db' := h
  unfold step at hstep
  rw [bind_eq_ok] at hstep
  obtain ⟨user, -, hrun⟩ := hstep
  exact ⟨user, hrun⟩

/-! ## Frozen forms -/

/-- A record in which somebody has written stays with its version of the form. -/
theorem frozen_step (hstep : Steps db req db') (hget : db.evaluationRecords.get? k = some r)
    (hget' : db'.evaluationRecords.get? k = some r') (huntouched : r.isUntouched = false) :
    r'.indicatorFrameworkId = r.indicatorFrameworkId := by
  rcases framework_step hstep hget hget' with heq | ⟨-, -, hno, -⟩
  · exact heq
  · rw [huntouched] at hno
    cases hno

/-- What a record asks is fixed by its version of the form. -/
theorem asked_eq (hstep : Steps db req db') (hsound : FormSound db) (hr : r ∈ db.evaluationRecords)
    (heq : r'.indicatorFrameworkId = r.indicatorFrameworkId) :
    indicatorIdsForRecord db' r' = indicatorIdsForRecord db r := by
  obtain ⟨user, -, d, log, notifications, heffect, rfl⟩ := effect_of_steps hstep
  obtain ⟨j, f, hj, hf⟩ := (hsound.stamped r hr).framework
  have hf' : (d.withLogs log notifications).indicatorFrameworks.get? j = some f := heffect.frameworks hf
  rw [indicatorIds_eq (heq.trans hj) hf', indicatorIds_eq hj hf]

/-- An open record in which nobody has written is moved by a change of membership, and asks then for
the active indicators. -/
theorem moved_asks_active (hstep : Steps db req db') (hsound : FormSound db)
    (hget : db.evaluationRecords.get? k = some r) (hget' : db'.evaluationRecords.get? k = some r')
    (hopen : r.isOpen = true) (huntouched : r.isUntouched = true)
    (hop : req.operation.changesMembership db = true) :
    indicatorIdsForRecord db' r' = activeMemberIds db' := by
  have hr : r ∈ db.evaluationRecords := Table.mem_of_get? hget
  obtain ⟨j, f, hj, hf⟩ := (hsound.stamped r hr).framework
  obtain ⟨user, indicators, kind, note, log, notifications, -, rfl⟩ := published_of_steps hstep hop
  have hle : j ≤ db.indicatorFrameworks.seq := Table.le_seq_of_get? hf
  have hne : j ≠ (bump { db with indicators := indicators } (some user.id) kind note).1.id := by
    show j ≠ db.indicatorFrameworks.seq + 1
    omega
  have hpublished := @publish_get? { db with indicators := indicators } user kind note k
  have hrecord : ({ db with indicators := indicators } : Database).evaluationRecords.get? k = some r := hget
  rw [hrecord, Option.map_some] at hpublished
  have hsame : r.rebind (bump { db with indicators := indicators } (some user.id) kind note).1 = r' :=
    Option.some.inj (hpublished.symm.trans hget')
  have hframework := rebind_of_untouched hj hne hopen huntouched
  rw [hsame] at hframework
  exact indicatorIds_eq hframework (bump_get? { db with indicators := indicators } _ _ _)

/-- A new record asks for the active indicators. -/
theorem opened_asks_active (hstep : Steps db req db') (hnone : db.evaluationRecords.get? k = none)
    (hget' : db'.evaluationRecords.get? k = some r') :
    indicatorIdsForRecord db' r' = activeMemberIds db ∧ db'.indicators = db.indicators := by
  have hindicators : db'.indicators = db.indicators := by
    obtain ⟨user, hrun⟩ := run_of_steps hstep
    obtain ⟨access, hopened, -⟩ := step_opened hstep hnone hget'
    unfold openedBy at hopened
    refine (Operation.run_keepsOthers hrun).indicators.resolve_left ?_
    split at hopened
    next hop =>
      rw [hop]
      exact Bool.false_ne_true
    next hop =>
      rw [hop]
      exact Bool.false_ne_true
    next => cases hopened
  refine ⟨?_, hindicators⟩
  obtain ⟨user, -, d, _, _, heffect, rfl⟩ := effect_of_steps hstep
  rcases heffect.record_or_opened hget' with ⟨r, hr⟩ | ⟨hd, access, -, -, -, code, hnew⟩
  · rw [hnone] at hr
    cases hr
  · have hframework : r'.indicatorFrameworkId = some (ensureFramework db).1.id := by
      rw [hnew]
      rfl
    have hthere : d.indicatorFrameworks.get? (ensureFramework db).1.id = some (ensureFramework db).1 := by
      rw [hd, (openRecords_form _ _).2.1]
      exact (ensureFramework_spec db).2.1
    rw [← ensureFramework_memberIds db]
    exact indicatorIds_eq hframework hthere

/-! ## One step -/

theorem formsAreOne_step (hstep : Steps db req db') (hsound : FormSound db) (hone : FormsAreOne db)
    (hspares : ¬DeletesAsked db req) : FormsAreOne db' := by
  intro r' hr' hopen'
  have hget' : db'.evaluationRecords.get? r'.id = some r' := Table.get?_of_mem hr'
  rw [oneForm_iff]
  intro k hk
  cases hget : db.evaluationRecords.get? r'.id with
  | none =>
    obtain ⟨hasked, hindicators⟩ := opened_asks_active hstep hget hget'
    rw [hasked] at hk
    rw [hindicators]
    exact activeMemberIds_there hk
  | some r =>
    have hr : r ∈ db.evaluationRecords := Table.mem_of_get? hget
    obtain ⟨user, r₁, -, hr₁, hchange⟩ := step_record hstep hget
    rw [hget'] at hr₁
    cases hr₁
    have hopen : r.isOpen = true := hchange.isOpen_of hopen'
    by_cases hmoves : r.isUntouched = true ∧ req.operation.changesMembership db = true
    · rw [moved_asks_active hstep hsound hget hget' hopen hmoves.1 hmoves.2] at hk
      exact activeMemberIds_there hk
    · have heq : r'.indicatorFrameworkId = r.indicatorFrameworkId := by
        rcases framework_step hstep hget hget' with heq | ⟨hop, -, huntouched, -⟩
        · exact heq
        · exact absurd ⟨huntouched, hop⟩ hmoves
      rw [asked_eq hstep hsound hr heq] at hk
      have hthere : (db.indicators.get? k).isSome = true := oneForm_iff.mp (hone r hr hopen) k hk
      have hkept : req.operation ≠ .deleteIndicator k := by
        intro hop
        cases huntouched : r.isUntouched with
        | true => exact hmoves ⟨huntouched, by rw [hop]; rfl⟩
        | false => exact hspares ⟨k, hop, r, hr, hopen, huntouched, hk⟩
      obtain ⟨_, hrun⟩ := run_of_steps hstep
      exact Operation.run_keeps_indicator hrun hkept hthere

/-- After the deletion of what a frozen form asks, the record asks for what it does not show. -/
theorem not_formsAreOne_of_deletes (hstep : Steps db req db') (hsound : FormSound db)
    (hdeletes : DeletesAsked db req) : ¬FormsAreOne db' := by
  obtain ⟨k, hop, r, hr, hopen, huntouched, hasked⟩ := hdeletes
  intro hone
  have hget : db.evaluationRecords.get? r.id = some r := Table.get?_of_mem hr
  obtain ⟨user, r', -, hget', hchange⟩ := step_record hstep hget
  have hquiet : performedOn db req r.id = none := by
    unfold performedOn departing
    rw [hop]
    rfl
  rw [hquiet] at hchange
  have hopen' : r'.isOpen = true := by
    unfold EvaluationRecord.isOpen
    rw [hchange.status_none]
    exact hopen
  have heq := frozen_step hstep hget hget' huntouched
  have hr' : r' ∈ db'.evaluationRecords := Table.mem_of_get? hget'
  obtain ⟨user, hrun⟩ := run_of_steps hstep
  rw [hop] at hrun
  have hgone : db'.indicators.get? k = none := deleteIndicator_removes hrun
  have hthere := oneForm_iff.mp (hone r' hr' hopen') k (by rw [asked_eq hstep hsound hr heq]; exact hasked)
  rw [hgone] at hthere
  cases hthere

end

/-! ## Runs -/

/-- In every run the two readings of the form agree for every open record and in every state that is
reached, exactly when no step deletes what the frozen form of an open record asks. -/
theorem forms_are_one_iff {db : Database} {tr : List (Taken Database Request)} (h : SystemRun tr db) :
    (∀ x ∈ tr, FormsAreOne x.after) ↔ ∀ x ∈ tr, ¬DeletesAsked x.before x.label := by
  constructor
  · intro hone x hx hdeletes
    obtain ⟨⟨old, hold, -⟩, hstep⟩ := h.step_of_mem hx
    exact not_formsAreOne_of_deletes hstep (formSound_of_run hold) hdeletes (hone x hx)
  · intro hspares x hx
    obtain ⟨⟨old, hold, hsub⟩, hstep⟩ := h.step_of_mem hx
    have hbefore : FormSound x.before ∧ FormsAreOne x.before := by
      refine hold.invariant_of_steps (P := fun db => FormSound db ∧ FormsAreOne db)
        (C := fun y => ¬DeletesAsked y.before y.label) ?_ ?_ fun y hy => hspares y (hsub y hy)
      · intro db hinit
        exact ⟨formSound_of_run (Run.nil hinit), fun r hr => absurd hr (hinit.no_records r)⟩
      · intro db req db' ⟨hsound, hone⟩ hstep hspares
        exact ⟨formSound_step hstep hsound, formsAreOne_step hstep hsound hone hspares⟩
    exact formsAreOne_step hstep hbefore.1 hbefore.2 (hspares x hx)

/-! ## A form that can never be completed -/

/-- The office with two questions. -/
def officeOfTwo : Database :=
  officeAsking fullChain (Table.ofRows [question, { question with id := 2 }] (by decide))

/-- A question is deleted before anybody has written in the record. -/
def deletedBeforehand : List Request := [ask 5 (.deleteIndicator 2), ask 1 (.createEvaluation 1)]

theorem deletedBeforehand_forms : FormsAreOne (endState settled officeOfTwo deletedBeforehand) := by
  have hrun : SystemRun (replay settled officeOfTwo deletedBeforehand)
      (endState settled officeOfTwo deletedBeforehand) :=
    systemRun_replay (office_initial (by decide)) (by decide)
  refine (forms_are_one_iff hrun).mpr ?_ _ List.mem_cons_self
  intro x hx ⟨k, _, r, hr, _, htouched, _⟩
  have hall : ((replay settled officeOfTwo deletedBeforehand).all fun x =>
      x.before.evaluationRecords.rows.all EvaluationRecord.isUntouched) = true := by
    decide
  have huntouched := List.all_eq_true.mp (List.all_eq_true.mp hall x hx) r hr
  rw [htouched] at huntouched
  cases huntouched

/-- The second question is deleted after the first was scored. -/
def deletedHalfway : List Request :=
  [ask 5 (.deleteIndicator 2), ask 1 (.onRecord 1 (.upsertScores [⟨1, 4, none⟩])),
    ask 1 (.createEvaluation 1)]

theorem scored_form_loses_a_question :
    ¬∀ tr db, SystemRun tr db → ∀ r ∈ db.evaluationRecords, r.isOpen = true → OneForm db r := by
  intro hclaim
  have hrun : SystemRun (replay settled officeOfTwo deletedHalfway)
      (endState settled officeOfTwo deletedHalfway) :=
    systemRun_replay (office_initial (by decide)) (by decide)
  obtain ⟨r, hget, hr⟩ := exists_of_any
    (o := (endState settled officeOfTwo deletedHalfway).evaluationRecords.get? 1)
    (p := fun r => r.isOpen &&
      (indicatorIdsForRecord (endState settled officeOfTwo deletedHalfway) r).contains 2)
    (by decide)
  rw [Bool.and_eq_true, List.contains_iff_mem] at hr
  have hone := oneForm_iff.mp (hclaim _ _ hrun r (Table.mem_of_get? hget) hr.1) 2 hr.2
  have hgone : (endState settled officeOfTwo deletedHalfway).indicators.get? 2 = none := by
    decide
  rw [hgone] at hone
  cases hone

end NexaHR
