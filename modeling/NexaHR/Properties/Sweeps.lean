import NexaHR.Properties.Progress
import NexaHR.Services.Scheduled
import NexaHR.System.Installation

/-! # What the sweeps see

The sweeps compute for themselves who has to act on a record now. For a seat of the chain they name
the occupant, as the table does, and ask no more of him than that he is active; for the HR queue they
name all of HR, whoever owns the record.

* `CanBeCarriedOn`, `Reported`: somebody may take a forward transition; HR was told that nobody does.
* `orphan_sweep_iff`: the report is never wrong, and misses a record exactly where `Watched` fails.
* `MayAct`, `DueReminder`: the user may take some transition; he gets a reminder.
* `sla_sweep_iff`: the reminders reach users who may act exactly where `FitToAct` holds of them.
-/

namespace NexaHR

open Foundations

set_option autoImplicit false

/-! ## The owner of a record -/

/-- At a desk of the chain the sweeps name the occupant of the seat whose turn it is. -/
theorem owner_of_open {r : EvaluationRecord} (hopen : r.isOpen = true) (hs : r.status ≠ .submitted) :
    ∃ seat k, r.shape.turn r.status = some (.chain seat) ∧ r.chain.seat seat = some k ∧
      ∀ hrIds, currentOwnerIds r hrIds = [k] := by
  unfold currentOwnerIds
  cases hstatus : r.status with
  | draft =>
    obtain ⟨k, hk⟩ := Option.isSome_iff_exists.mp r.chain.scorer_isSome
    refine ⟨r.shape.scorer, k, rfl, hk, ?_⟩
    intro hrIds
    have hscorer : (scorerSeat r).2 = some k := hk
    simp only [hscorer]
    rfl
  | submitted => exact absurd hstatus hs
  | hrApproved =>
    refine ⟨if r.shape.hasDeputy then .deputy else .ceo, ownerAfterHrReview r, rfl, ?_, ?_⟩
    · unfold EvaluationRecord.shape ownerAfterHrReview
      cases hdeputy : r.chain.deputyUserId <;> simp [hdeputy]
    · intro hrIds
      rfl
  | deputyApproved => exact ⟨.ceo, r.chain.ceoUserId, rfl, rfl, fun _ => rfl⟩
  | finalized | cancelled =>
    have hmem := mem_openStatuses_of_isOpen hopen
    rw [hstatus] at hmem
    exact absurd hmem (by decide)

theorem mem_activeHrIds {db : Database} {k : Nat} :
    k ∈ activeHrIds db ↔ ∃ u ∈ db.users, u.isActive = true ∧ u.role = .hr ∧ u.id = k := by
  unfold activeHrIds
  rw [mem_activeUserIds]
  simp

theorem mem_openRecords {db : Database} {r : EvaluationRecord} :
    r ∈ db.openRecords ↔ r ∈ db.evaluationRecords ∧ r.isOpen = true := by
  unfold Database.openRecords
  rw [List.mem_filter]
  exact Iff.rfl

/-! ## Orphans -/

/-- Some active user may take a forward transition. -/
def CanBeCarriedOn (db : Database) (r : EvaluationRecord) : Prop :=
  ∃ u ∈ db.users, u.isActive = true ∧ CanCarryOn r u.toCurrent

/-- The sweep has a report about the record, and somebody in HR has it within the window. -/
def Reported (db : Database) (env : Env) (r : EvaluationRecord) : Prop :=
  ∃ n ∈ orphanReports db env, n.evaluationRecordId = some r.id ∧
    ∃ m ∈ db.notifications ++ runOrphanedCaseSweep db env,
      m.onceKey = n.onceKey ∧ m.isWithin env env.notificationDedupDays = true

/-- At the HR desk somebody active may take the record. At a desk of the chain an active occupant has a
role that may act there, and for an inactive one there is somebody in HR to tell. -/
def Watched (db : Database) (r : EvaluationRecord) : Prop :=
  (r.status = .submitted → ∃ u ∈ db.users, u.isActive = true ∧ SitsAt r u.toCurrent .hr) ∧
    ∀ seat k, r.shape.turn r.status = some (.chain seat) → r.chain.seat seat = some k →
      (∀ u ∈ db.users, u.id = k → u.isActive = true → mayActAt u.role (seatRole seat) = true) ∧
        ((∃ u ∈ db.users, u.id = k ∧ u.isActive = true) ∨ ∃ h, h ∈ activeHrIds db)

section

variable {db : Database} {env : Env} {r : EvaluationRecord}

theorem canBeCarriedOn_iff :
    CanBeCarriedOn db r ↔ ∃ u ∈ db.users, u.isActive = true ∧ HoldsTurn r u.toCurrent := by
  unfold CanBeCarriedOn
  simp only [canCarryOn_iff]

/-- A notice of the sweep is either created now or was there within the window. -/
theorem report_delivered {n : Notification} (h : n ∈ orphanReports db env) :
    ∃ m ∈ db.notifications ++ runOrphanedCaseSweep db env,
      m.onceKey = n.onceKey ∧ m.isWithin env env.notificationDedupDays = true := by
  by_cases hseen : n.onceKey ∈ alreadyNotified db env ((ownedRecords db).map (dedupKey "orphaned"))
      env.notificationDedupDays
  · unfold alreadyNotified at hseen
    obtain ⟨m, hm, hkey⟩ := List.mem_map.mp hseen
    obtain ⟨hmem, hcheck⟩ := List.mem_filter.mp hm
    rw [Bool.and_eq_true] at hcheck
    exact ⟨m, List.mem_append.mpr (Or.inl hmem), hkey, hcheck.2⟩
  · obtain ⟨m, hm, hkey⟩ := exists_mem_once h hseen
    refine ⟨m, List.mem_append.mpr (Or.inr hm), hkey, ?_⟩
    have hreport := (mem_of_mem_once hm).1
    unfold orphanReports at hreport
    obtain ⟨r, -, hmap⟩ := List.mem_flatMap.mp hreport
    obtain ⟨hrId, -, rfl⟩ := List.mem_map.mp hmap
    show decide (env.now ≤ env.now + _) = true
    simp

/-- What a report of the sweep is about. -/
theorem reported_iff (hr : r ∈ db.evaluationRecords) (hopen : r.isOpen = true) :
    Reported db env r ↔
      r.status ≠ .submitted ∧ hasNoActiveOwner db r = true ∧ ∃ h, h ∈ activeHrIds db := by
  constructor
  · rintro ⟨n, hn, hid, -⟩
    unfold orphanReports at hn
    obtain ⟨r', hr', hmap⟩ := List.mem_flatMap.mp hn
    obtain ⟨hrId, hhr, rfl⟩ := List.mem_map.mp hmap
    obtain ⟨howned, hnone⟩ := List.mem_filter.mp hr'
    obtain ⟨hopened, hs⟩ := List.mem_filter.mp howned
    have hsame : r' = r := by
      apply Table.eq_of_id_eq (mem_openRecords.mp hopened).1 hr
      exact Option.some.inj hid
    subst hsame
    exact ⟨by simpa using hs, hnone, hrId, hhr⟩
  · rintro ⟨hs, hnone, hrId, hhr⟩
    have hmem : orphanReport db env r hrId ∈ orphanReports db env := by
      unfold orphanReports
      refine List.mem_flatMap.mpr ⟨r, List.mem_filter.mpr ⟨List.mem_filter.mpr ⟨?_, ?_⟩, hnone⟩, ?_⟩
      · exact mem_openRecords.mpr ⟨hr, hopen⟩
      · simpa using hs
      · exact List.mem_map.mpr ⟨hrId, hhr, rfl⟩
    exact ⟨_, hmem, rfl, report_delivered hmem⟩

theorem hasNoActiveOwner_iff {k : Nat} (howner : ∀ hrIds, currentOwnerIds r hrIds = [k]) :
    hasNoActiveOwner db r = true ↔ ¬∃ u ∈ db.users, u.id = k ∧ u.isActive = true := by
  unfold hasNoActiveOwner
  rw [howner]
  simp only [List.isEmpty_cons, Bool.not_false, Bool.true_and, List.all_cons, List.all_nil, Bool.and_true,
    decide_eq_true_eq, mem_activeUserIds]
  constructor
  · rintro hnone ⟨u, hu, hid, hactive⟩
    exact hnone ⟨u, hu, hactive, trivial, hid⟩
  · rintro hnone ⟨u, hu, hactive, -, hid⟩
    exact hnone ⟨u, hu, hid, hactive⟩

/-- Whoever the sweep reports to be gone cannot be replaced at his seat. -/
theorem not_canBeCarriedOn_of_reported (hr : r ∈ db.evaluationRecords) (hopen : r.isOpen = true)
    (h : Reported db env r) : ¬CanBeCarriedOn db r := by
  obtain ⟨hs, hnone, -⟩ := (reported_iff hr hopen).mp h
  obtain ⟨seat, k, hturn, hseat, howner⟩ := owner_of_open hopen hs
  rw [hasNoActiveOwner_iff howner] at hnone
  rw [canBeCarriedOn_iff]
  rintro ⟨u, hu, hactive, hholds⟩
  obtain ⟨hid, -⟩ := (holdsTurn_chain hturn hseat).mp hholds
  exact hnone ⟨u, hu, hid, hactive⟩

/-- A turn that nobody may take is told of, exactly when an active occupant may take it and an inactive one
leaves somebody to tell. -/
theorem occupant_reported_iff {seat : ChainSeat} {k : Nat} :
    ((¬∃ u ∈ db.users, u.isActive = true ∧ u.toCurrent.id = k ∧
          mayActAt u.toCurrent.role (seatRole seat) = true) →
        (¬∃ u ∈ db.users, u.id = k ∧ u.isActive = true) ∧ ∃ h, h ∈ activeHrIds db) ↔
      (∀ u ∈ db.users, u.id = k → u.isActive = true → mayActAt u.role (seatRole seat) = true) ∧
        ((∃ u ∈ db.users, u.id = k ∧ u.isActive = true) ∨ ∃ h, h ∈ activeHrIds db) := by
  constructor
  · intro hreports
    by_cases hthere : ∃ u ∈ db.users, u.id = k ∧ u.isActive = true
    · refine ⟨?_, Or.inl hthere⟩
      intro u hu hid hactive
      by_contra hrole
      refine (hreports ?_).1 hthere
      rintro ⟨v, hv, -, hvid, hvrole⟩
      have hsame : v = u := Table.eq_of_id_eq hv hu (hvid.trans hid.symm)
      subst hsame
      exact hrole hvrole
    · refine ⟨fun u hu hid hactive => absurd ⟨u, hu, hid, hactive⟩ hthere, Or.inr (hreports ?_).2⟩
      rintro ⟨u, hu, hactive, hid, -⟩
      exact hthere ⟨u, hu, hid, hactive⟩
  · rintro ⟨hfit, hsomebody⟩ hstuck
    have hgone : ¬∃ u ∈ db.users, u.id = k ∧ u.isActive = true := by
      rintro ⟨u, hu, hid, hactive⟩
      exact hstuck ⟨u, hu, hactive, hid, hfit u hu hid hactive⟩
    exact ⟨hgone, hsomebody.resolve_left hgone⟩

theorem reports_iff_watched (hr : r ∈ db.evaluationRecords) (hopen : r.isOpen = true)
    (hskip : r.status = .submitted → r.hrReviewSkipped = false) :
    (¬CanBeCarriedOn db r → Reported db env r) ↔ Watched db r := by
  rw [canBeCarriedOn_iff, reported_iff hr hopen]
  by_cases hs : r.status = .submitted
  · simp only [holdsTurn_submitted hs (hskip hs), hs, ne_eq, not_true, false_and]
    constructor
    · intro hcarried
      exact ⟨fun _ => not_not.mp hcarried, fun seat _ hseat => absurd hseat (turn_submitted hs seat)⟩
    · rintro ⟨hstaffed, -⟩ hnone
      exact hnone (hstaffed hs)
  · obtain ⟨seat, k, hturn, hseat, howner⟩ := owner_of_open hopen hs
    simp only [holdsTurn_chain hturn hseat, hasNoActiveOwner_iff howner]
    constructor
    · intro hreports
      refine ⟨fun h => absurd h hs, ?_⟩
      intro seat' k' hturn' hseat'
      rw [hturn] at hturn'
      cases hturn'
      rw [hseat] at hseat'
      cases hseat'
      exact occupant_reported_iff.mp fun hstuck => (hreports hstuck).2
    · rintro ⟨-, hwatched⟩ hstuck
      exact ⟨hs, occupant_reported_iff.mpr (hwatched seat k hturn hseat) hstuck⟩

end

/-- In every database of a run, whatever notices are there, the sweep reports no record that somebody
may carry on, and reports all that nobody may exactly where `Watched` holds. -/
theorem orphan_sweep_iff {tr : List (Taken Database Request)} {db : Database} (h : SystemRun tr db)
    (env : Env) (notifications : List Notification) {r : EvaluationRecord}
    (hr : r ∈ db.evaluationRecords) (hopen : r.isOpen = true) :
    let seen : Database := { db with notifications := notifications }
    (Reported seen env r → ¬CanBeCarriedOn seen r) ∧
      ((¬CanBeCarriedOn seen r → Reported seen env r) ↔ Watched seen r) := by
  intro seen
  have hseen : r ∈ seen.evaluationRecords := hr
  refine ⟨not_canBeCarriedOn_of_reported hseen hopen, reports_iff_watched hseen hopen ?_⟩
  intro hs
  exact submitted_not_skipped (onRoute_of_run h hr) hs

/-- A record that waits in HR for somebody to take it. -/
theorem submitted_is_watched :
    ∃ r ∈ (endState settled (office fullChain) (submittedBy 1)).evaluationRecords,
      (¬CanBeCarriedOn (endState settled (office fullChain) (submittedBy 1)) r →
        Reported (endState settled (office fullChain) (submittedBy 1)) someDay r) ↔
      Watched (endState settled (office fullChain) (submittedBy 1)) r := by
  have hrun : SystemRun (replay settled (office fullChain) (submittedBy 1))
      (endState settled (office fullChain) (submittedBy 1)) :=
    systemRun_replay (office_initial (by decide)) (by decide)
  obtain ⟨r, hget, hr⟩ := exists_of_any
    (o := (endState settled (office fullChain) (submittedBy 1)).evaluationRecords.get? 1)
    (p := fun r => r.isOpen) (by decide)
  exact ⟨r, Table.mem_of_get? hget,
    (orphan_sweep_iff hrun someDay _ (Table.mem_of_get? hget) hr).2⟩

/-- A record is claimed in HR, and then its owner leaves the organisation. -/
def ownerLeaves : List Request :=
  [ask 5 (.updatePersonnel 2 { status := some .inactive, separationReason := some (some .resignation) }),
    ask 4 (.onRecord 1 .hrClaim)] ++ submittedBy 1 ++
  [ask 5 (.updateUser 4 { personnelId := some (some 2) }),
    ask 5 (.createPersonnel ⟨"Q", "H", "J", false, "U", 0, 1⟩ none)]

theorem owner_leaves_unreported :
    ¬∀ tr db, SystemRun tr db → ∀ env, ∀ r ∈ db.evaluationRecords, r.isOpen = true →
      (Reported db env r → ¬CanBeCarriedOn db r) ∧ (¬CanBeCarriedOn db r → Reported db env r) := by
  intro hclaim
  have hrun : SystemRun (replay settled (office fullChain) ownerLeaves)
      (endState settled (office fullChain) ownerLeaves) :=
    systemRun_replay (office_initial (by decide)) (by decide)
  obtain ⟨r, hget, hr⟩ := exists_of_any
    (o := (endState settled (office fullChain) ownerLeaves).evaluationRecords.get? 1)
    (p := fun r => r.status = .submitted && r.hrUserId = some 4 && !r.hrReviewSkipped)
    (by decide)
  obtain ⟨u, hu, hinactive⟩ := exists_of_any
    (o := (endState settled (office fullChain) ownerLeaves).users.get? 4)
    (p := fun u => !u.isActive) (by decide)
  simp only [Bool.and_eq_true, decide_eq_true_eq, Bool.not_eq_true'] at hr hinactive
  obtain ⟨⟨hs, howner⟩, hskip⟩ := hr
  have hmem := Table.mem_of_get? hget
  have hopen : r.isOpen = true := by
    unfold EvaluationRecord.isOpen
    rw [hs]
    decide
  have hstuck : ¬CanBeCarriedOn (endState settled (office fullChain) ownerLeaves) r := by
    rw [canBeCarriedOn_iff]
    rintro ⟨v, hv, hactive, hholds⟩
    obtain ⟨-, hmine, -⟩ := (holdsTurn_submitted hs hskip).mp hholds
    rw [howner] at hmine
    have hid : v.id = 4 := by
      rcases hmine with hnone | hmine
      · cases hnone
      · exact (Option.some.inj hmine).symm
    have hsame : v = u := Table.eq_of_id_eq hv (Table.mem_of_get? hu) (hid.trans (Table.id_of_get? hu).symm)
    rw [hsame, hinactive] at hactive
    cases hactive
  have hreported := (hclaim _ _ hrun someDay r hmem hopen).2 hstuck
  exact ((reported_iff hmem hopen).mp hreported).1 hs

/-! ## Reminders -/

/-- The user is active and may take some transition on the record. -/
def MayAct (db : Database) (r : EvaluationRecord) (k : Nat) : Prop :=
  ∃ u ∈ db.users, u.id = k ∧ u.isActive = true ∧ ∃ a : Action, Performable r a u.toCurrent

/-- The record has stood still for the time that calls for a reminder, the user sits at the desk, and he
was not reminded within the window. -/
def DueReminder (db : Database) (env : Env) (slaReminderDays : Nat) (r : EvaluationRecord) (k : Nat) :
    Prop :=
  r.stageEnteredAt + slaReminderDays * 86400 ≤ env.now ∧
    ((r.status = .submitted ∧ k ∈ activeHrIds db) ∨
      ∃ seat, r.shape.turn r.status = some (.chain seat) ∧ r.chain.seat seat = some k) ∧
    ∀ n ∈ db.notifications, n.userId = k → n.dedupKey = some (dedupKey "sla" r) →
      n.isWithin env slaReminderDays = false

/-- In HR the account is not the subject's. At a seat of the chain the user is active, and has a role
that may act there or may cancel the record. -/
def FitToAct (db : Database) (r : EvaluationRecord) (k : Nat) : Prop :=
  (r.status = .submitted → ∀ u ∈ db.users, u.id = k → u.personnelId ≠ some r.subjectPersonnelId) ∧
    ∀ seat, r.shape.turn r.status = some (.chain seat) → ∃ u ∈ db.users, u.id = k ∧ u.isActive = true ∧
      (mayActAt u.role (seatRole seat) = true ∨
        (u.role = .hr ∧ u.personnelId ≠ some r.subjectPersonnelId) ∨
        (mayActAt u.role .deputy = true ∧ r.hrReviewSkipped = true))

section

variable {db : Database} {env : Env} {slaReminderDays : Nat} {r : EvaluationRecord} {k : Nat}

/-- The sweeps' owners, as the seats of the record. -/
theorem mem_currentOwnerIds (hopen : r.isOpen = true) :
    k ∈ currentOwnerIds r (activeHrIds db) ↔ (r.status = .submitted ∧ k ∈ activeHrIds db) ∨
      ∃ seat, r.shape.turn r.status = some (.chain seat) ∧ r.chain.seat seat = some k := by
  by_cases hs : r.status = .submitted
  · have howners : currentOwnerIds r (activeHrIds db) = activeHrIds db := by
      unfold currentOwnerIds
      rw [hs]
    rw [howners]
    constructor
    · intro hk
      exact Or.inl ⟨hs, hk⟩
    · rintro (⟨-, hk⟩ | ⟨seat, hseat, -⟩)
      · exact hk
      · exact absurd hseat (turn_submitted hs seat)
  · obtain ⟨seat, j, hturn, hseat, howner⟩ := owner_of_open hopen hs
    rw [howner, List.mem_singleton]
    constructor
    · rintro rfl
      exact Or.inr ⟨seat, hturn, hseat⟩
    · rintro (⟨hsub, -⟩ | ⟨seat', hturn', hseat'⟩)
      · exact absurd hsub hs
      · rw [hturn] at hturn'
        cases hturn'
        rw [hseat] at hseat'
        exact (Option.some.inj hseat').symm

theorem mem_slaReminders {n : Notification} :
    n ∈ slaReminders db env slaReminderDays ↔ ∃ r k, r ∈ stalledRecords db env slaReminderDays ∧
      k ∈ currentOwnerIds r (activeHrIds db) ∧ slaReminder db env slaReminderDays r k = n := by
  unfold slaReminders
  simp only [List.mem_flatMap, List.mem_map]
  constructor
  · rintro ⟨r, hr, k, hk, rfl⟩
    exact ⟨r, k, hr, hk, rfl⟩
  · rintro ⟨r, k, hr, hk, rfl⟩
    exact ⟨r, hr, k, hk, rfl⟩

theorem mem_stalledRecords :
    r ∈ stalledRecords db env slaReminderDays ↔ r ∈ db.evaluationRecords ∧ r.isOpen = true ∧
      r.stageEnteredAt + slaReminderDays * 86400 ≤ env.now := by
  unfold stalledRecords
  rw [List.mem_filter, mem_openRecords, decide_eq_true_eq, and_assoc]

/-- The key of a reminder tells both record and user. -/
theorem slaReminders_inj : ∀ n ∈ slaReminders db env slaReminderDays,
    ∀ m ∈ slaReminders db env slaReminderDays, n.onceKey = m.onceKey → n = m := by
  intro n hn m hm hkey
  obtain ⟨r, k, hr, -, rfl⟩ := mem_slaReminders.mp hn
  obtain ⟨r', k', hr', -, rfl⟩ := mem_slaReminders.mp hm
  obtain ⟨huser, hdedup⟩ := Prod.mk.inj hkey
  have hk : k = k' := huser
  have hid : r.id = r'.id := dedupKey_inj (Option.some.inj hdedup)
  have hsame : r = r' :=
    Table.eq_of_id_eq (mem_stalledRecords.mp hr).1 (mem_stalledRecords.mp hr').1 hid
  rw [hk, hsame]

/-- What the sweep counts as reminded already. -/
theorem slaReminder_seen (hr : r ∈ stalledRecords db env slaReminderDays) :
    (slaReminder db env slaReminderDays r k).onceKey ∈ alreadyNotified db env
        ((stalledRecords db env slaReminderDays).map (dedupKey "sla")) slaReminderDays ↔
      ∃ n ∈ db.notifications, n.userId = k ∧ n.dedupKey = some (dedupKey "sla" r) ∧
        n.isWithin env slaReminderDays = true := by
  unfold alreadyNotified
  constructor
  · intro hseen
    obtain ⟨n, hn, hkey⟩ := List.mem_map.mp hseen
    obtain ⟨hmem, hcheck⟩ := List.mem_filter.mp hn
    rw [Bool.and_eq_true] at hcheck
    obtain ⟨huser, hdedup⟩ := Prod.mk.inj hkey
    exact ⟨n, hmem, huser, hdedup, hcheck.2⟩
  · rintro ⟨n, hmem, huser, hdedup, hwithin⟩
    refine List.mem_map.mpr ⟨n, List.mem_filter.mpr ⟨hmem, ?_⟩, ?_⟩
    · rw [Bool.and_eq_true, decide_eq_true_eq, hdedup]
      exact ⟨List.mem_map_of_mem (List.mem_map_of_mem hr), hwithin⟩
    · show (n.userId, n.dedupKey) = (k, some (dedupKey "sla" r))
      rw [huser, hdedup]

/-- Whom the sweep reminds of a record. -/
theorem reminded_iff (hr : r ∈ db.evaluationRecords) (hopen : r.isOpen = true) :
    (∃ n ∈ runSlaSweep db env slaReminderDays, n.evaluationRecordId = some r.id ∧ n.userId = k) ↔
      DueReminder db env slaReminderDays r k := by
  unfold runSlaSweep DueReminder
  simp only [mem_once_iff slaReminders_inj]
  constructor
  · rintro ⟨n, ⟨hn, hnew⟩, hid, hk⟩
    obtain ⟨r', k', hstalled, howner, rfl⟩ := mem_slaReminders.mp hn
    have hrec : r' = r :=
      Table.eq_of_id_eq (mem_stalledRecords.mp hstalled).1 hr (Option.some.inj hid)
    have huser : k' = k := hk
    subst hrec huser
    rw [slaReminder_seen hstalled] at hnew
    refine ⟨(mem_stalledRecords.mp hstalled).2.2, (mem_currentOwnerIds hopen).mp howner, ?_⟩
    intro n hn huser hdedup
    by_contra hwithin
    exact hnew ⟨n, hn, huser, hdedup, by simpa using hwithin⟩
  · rintro ⟨htime, howner, hquiet⟩
    have hstalled := mem_stalledRecords.mpr ⟨hr, hopen, htime⟩
    refine ⟨slaReminder db env slaReminderDays r k, ⟨?_, ?_⟩, rfl, rfl⟩
    · exact mem_slaReminders.mpr ⟨r, k, hstalled, (mem_currentOwnerIds hopen).mpr howner, rfl⟩
    · rw [slaReminder_seen hstalled]
      rintro ⟨n, hn, huser, hdedup, hwithin⟩
      rw [hquiet n hn huser hdedup] at hwithin
      cases hwithin

/-! ### Who may act -/

/-- At the HR desk everybody in HR may act, if only to cancel, but the subject. -/
theorem mayAct_submitted (hs : r.status = .submitted) (hk : k ∈ activeHrIds db) :
    MayAct db r k ↔ ∀ u ∈ db.users, u.id = k → u.personnelId ≠ some r.subjectPersonnelId := by
  have hopen : r.isOpen = true := by
    unfold EvaluationRecord.isOpen
    rw [hs]
    decide
  obtain ⟨u, hu, hactive, hrole, hid⟩ := mem_activeHrIds.mp hk
  have hnotchain : ∀ seat, ¬SitsAt r u.toCurrent (.chain seat) := by
    rintro seat ⟨-, hmay⟩
    exact mayActAt_seatRole_ne_hr hmay hrole
  have hnotdeputy : mayActAt u.role .deputy ≠ true := by
    rw [hrole]
    decide
  unfold MayAct
  simp only [exists_performable_iff hopen]
  constructor
  · rintro ⟨v, hv, hvid, -, hmay⟩ w hw hwid
    have hvu : v = u := Table.eq_of_id_eq hv hu (hvid.trans hid.symm)
    have hwu : w = u := Table.eq_of_id_eq hw hu (hwid.trans hid.symm)
    subst hvu hwu
    rcases hmay with ⟨field, hturn, hsits⟩ | ⟨-, -, hsits⟩ | ⟨-, hself⟩ | ⟨hdeputy, -⟩
    · cases field with
      | chain seat => exact absurd hsits (hnotchain seat)
      | hr => exact hsits.2.2
    · exact absurd hsits (hnotchain .ceo)
    · exact hself
    · exact absurd hdeputy hnotdeputy
  · intro hself
    exact ⟨u, hu, hid, hactive, Or.inr (Or.inr (Or.inl ⟨hrole, hself u hu hid⟩))⟩

/-- At a desk of the chain the occupant may act if he is active and his role fits the seat, or lets him
cancel the record. -/
theorem mayAct_chain (hopen : r.isOpen = true) {seat : ChainSeat}
    (hturn : r.shape.turn r.status = some (.chain seat)) (hseat : r.chain.seat seat = some k) :
    MayAct db r k ↔ ∃ u ∈ db.users, u.id = k ∧ u.isActive = true ∧
      (mayActAt u.role (seatRole seat) = true ∨
        (u.role = .hr ∧ u.personnelId ≠ some r.subjectPersonnelId) ∨
        (mayActAt u.role .deputy = true ∧ r.hrReviewSkipped = true)) := by
  have hnotback : ∀ user, ¬MayTakeBack r user := by
    rintro user ⟨-, hs, -⟩
    exact turn_submitted hs seat hturn
  unfold MayAct
  simp only [exists_performable_iff hopen, holdsTurn_chain hturn hseat, hnotback, false_or]
  constructor
  · rintro ⟨u, hu, hid, hactive, ⟨-, hrole⟩ | hcancel⟩
    · exact ⟨u, hu, hid, hactive, Or.inl hrole⟩
    · exact ⟨u, hu, hid, hactive, Or.inr hcancel⟩
  · rintro ⟨u, hu, hid, hactive, hrole | hcancel⟩
    · exact ⟨u, hu, hid, hactive, Or.inl ⟨hid, hrole⟩⟩
    · exact ⟨u, hu, hid, hactive, Or.inr hcancel⟩

theorem mayAct_iff_fit (hopen : r.isOpen = true) (hdue : DueReminder db env slaReminderDays r k) :
    MayAct db r k ↔ FitToAct db r k := by
  unfold FitToAct
  rcases hdue.2.1 with ⟨hs, hk⟩ | ⟨seat, hturn, hseat⟩
  · rw [mayAct_submitted hs hk]
    constructor
    · intro hself
      refine ⟨fun _ => hself, ?_⟩
      intro seat hturn
      exact absurd hturn (turn_submitted hs seat)
    · intro hfit
      exact hfit.1 hs
  · rw [mayAct_chain hopen hturn hseat]
    constructor
    · intro hmay
      refine ⟨?_, ?_⟩
      · intro hs
        exact absurd hturn (turn_submitted hs seat)
      · intro seat' hturn'
        rw [hturn] at hturn'
        cases hturn'
        exact hmay
    · intro hfit
      exact hfit.2 seat hturn

end

/-- Whatever is in the database, the users whom the sweep reminds of a record may all act on it exactly
when everybody due a reminder is fit to act. -/
theorem sla_sweep_iff (db : Database) (env : Env) (slaReminderDays : Nat) {r : EvaluationRecord}
    (hr : r ∈ db.evaluationRecords) (hopen : r.isOpen = true) :
    (∀ n ∈ runSlaSweep db env slaReminderDays, n.evaluationRecordId = some r.id →
        MayAct db r n.userId) ↔
      ∀ k, DueReminder db env slaReminderDays r k → FitToAct db r k := by
  constructor
  · intro hact k hdue
    obtain ⟨n, hn, hid, rfl⟩ := (reminded_iff hr hopen).mpr hdue
    exact (mayAct_iff_fit hopen hdue).mp (hact n hn hid)
  · intro hfit n hn hid
    have hdue := (reminded_iff hr hopen).mp ⟨n, hn, hid, rfl⟩
    exact (mayAct_iff_fit hopen hdue).mpr (hfit _ hdue)

/-- A day on which every record of the small office has stood still for a month. -/
def aMonthLater : Env := { someDay with now := 30 * 86400 }

theorem submitted_reminders_act :
    ∃ r ∈ (endState settled (office fullChain) (submittedBy 1)).evaluationRecords,
      ∀ n ∈ runSlaSweep (endState settled (office fullChain) (submittedBy 1)) aMonthLater 3,
        n.evaluationRecordId = some r.id →
          MayAct (endState settled (office fullChain) (submittedBy 1)) r n.userId := by
  obtain ⟨r, hget, hr⟩ := exists_of_any
    (o := (endState settled (office fullChain) (submittedBy 1)).evaluationRecords.get? 1)
    (p := fun r => r.status = .submitted && r.isOpen) (by decide)
  rw [Bool.and_eq_true, decide_eq_true_eq] at hr
  refine ⟨r, Table.mem_of_get? hget,
    (sla_sweep_iff _ aMonthLater 3 (Table.mem_of_get? hget) hr.2).mpr ?_⟩
  intro k _
  refine ⟨?_, fun seat hturn => absurd hturn (turn_submitted hr.1 seat)⟩
  have hunlinked : ((endState settled (office fullChain) (submittedBy 1)).users.rows.all fun u =>
      u.personnelId = none) = true := by
    decide
  intro _ u hu _ hlink
  have hnone := List.all_eq_true.mp hunlinked u hu
  rw [decide_eq_true_eq] at hnone
  rw [hnone] at hlink
  cases hlink

/-- The evaluation of a member of HR reaches the HR queue. -/
def subjectInHr : List Request :=
  submittedBy 1 ++ [ask 5 (.updateUser 4 { personnelId := some (some 1) })]

theorem subject_is_reminded :
    ¬∀ tr db, SystemRun tr db → ∀ env slaReminderDays, ∀ r ∈ db.evaluationRecords, r.isOpen = true →
      ∀ n ∈ runSlaSweep db env slaReminderDays, n.evaluationRecordId = some r.id →
        MayAct db r n.userId := by
  intro hclaim
  have hrun : SystemRun (replay settled (office fullChain) subjectInHr)
      (endState settled (office fullChain) subjectInHr) :=
    systemRun_replay (office_initial (by decide)) (by decide)
  obtain ⟨r, hget, hr⟩ := exists_of_any
    (o := (endState settled (office fullChain) subjectInHr).evaluationRecords.get? 1)
    (p := fun r => r.status = .submitted && r.isOpen && r.stageEnteredAt = 0 && r.subjectPersonnelId = 1)
    (by decide)
  obtain ⟨u, hu, hlinked⟩ := exists_of_any
    (o := (endState settled (office fullChain) subjectInHr).users.get? 4)
    (p := fun u => u.isActive && u.role = .hr && u.personnelId = some 1) (by decide)
  have hquiet : ((endState settled (office fullChain) subjectInHr).notifications.all fun n =>
      n.dedupKey = none) = true := by
    decide
  simp only [Bool.and_eq_true, decide_eq_true_eq] at hr hlinked
  obtain ⟨⟨⟨hs, hopen⟩, htime⟩, hsubject⟩ := hr
  have hmem := Table.mem_of_get? hget
  have hk : 4 ∈ activeHrIds (endState settled (office fullChain) subjectInHr) :=
    mem_activeHrIds.mpr ⟨u, Table.mem_of_get? hu, hlinked.1.1, hlinked.1.2, Table.id_of_get? hu⟩
  have hdue : DueReminder (endState settled (office fullChain) subjectInHr) aMonthLater 3 r 4 := by
    refine ⟨?_, Or.inl ⟨hs, hk⟩, ?_⟩
    · rw [htime]
      decide
    · intro n hn _ hkey
      have hnone := List.all_eq_true.mp hquiet n hn
      rw [decide_eq_true_eq] at hnone
      rw [hnone] at hkey
      cases hkey
  obtain ⟨n, hn, hid, huser⟩ := (reminded_iff hmem hopen).mpr hdue
  have hmay := hclaim _ _ hrun aMonthLater 3 r hmem hopen n hn hid
  rw [huser, mayAct_submitted hs hk] at hmay
  apply hmay u (Table.mem_of_get? hu) (Table.id_of_get? hu)
  rw [hlinked.2, hsubject]

end NexaHR
