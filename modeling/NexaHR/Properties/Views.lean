import NexaHR.Routers.Views
import NexaHR.System.Installation
import NexaHR.Workflow.Turns

/-! # What a user is shown, against what he may do

The list, the assistant's queue and the dashboard ask for a user's role first and then for the one seat
that bears its name. The detail page and the table ask for the seat he sits in, and let a superior sit
below his rank.

* `list_detail_iff`: the list shows the records that the detail page opens.
* `my_open_cases_iff`: the assistant's queue is the table's.
* `role_overview_iff`: the cards count the records that the user may carry on.
-/

namespace NexaHR

open Foundations

set_option autoImplicit false

/-! ## List and detail -/

/-- The list query of the user's role returns the record. -/
def Listed (env : Env) (user : CurrentUser) (r : EvaluationRecord) : Prop :=
  ∃ condition, scopeEvaluationsForRole env user = .ok condition ∧ condition r = true

/-- The detail page opens. -/
def Opens (r : EvaluationRecord) (user : CurrentUser) : Prop := ensureCanView r user = .ok ()

/-- Whoever sits in the chain of a record that is not his own sits in the seat of his role, and nobody
sits there in a record of his own. -/
def SeatedByRole (r : EvaluationRecord) (user : CurrentUser) : Prop :=
  ∀ own, seatRole own = user.role →
    (r.chain.seat own = some user.id → ¬user.isSubjectOf r) ∧
      (¬user.isSubjectOf r → ∀ other, r.chain.seat other = some user.id →
        r.chain.seat own = some user.id)

section

variable {env : Env} {user : CurrentUser} {r : EvaluationRecord}

theorem opens_iff :
    Opens r user ↔ (¬user.isSubjectOf r ∧ ¬(user.role = .hr ∧ r.hrPanelIsShielded = true)) ∧
      (user.role = .hr ∨ ∃ seat, r.chain.seat seat = some user.id) := by
  unfold Opens ensureCanView
  simp [Chain.mem_occupants]

theorem listed_hr (hrole : user.role = .hr) :
    Listed env user r ↔ r.hrPanelIsShielded = false ∧ ¬user.isSubjectOf r := by
  unfold Listed scopeEvaluationsForRole CurrentUser.isSubjectOf
  rw [hrole]
  simp

theorem listed_chain {own : ChainSeat} (hrole : seatRole own = user.role) :
    Listed env user r ↔ r.chain.seat own = some user.id := by
  unfold Listed scopeEvaluationsForRole
  cases own <;> rw [← hrole] <;> simp [seatRole]

theorem opens_chain (hhr : user.role ≠ .hr) :
    Opens r user ↔ ¬user.isSubjectOf r ∧ ∃ seat, r.chain.seat seat = some user.id := by
  rw [opens_iff]
  constructor
  · rintro ⟨⟨hself, -⟩, hseated⟩
    exact ⟨hself, hseated.resolve_left hhr⟩
  · rintro ⟨hself, hseated⟩
    exact ⟨⟨hself, fun h => hhr h.1⟩, Or.inr hseated⟩

theorem seatRole_inj {seat own : ChainSeat} (h : seatRole seat = seatRole own) : seat = own := by
  cases seat <;> cases own <;> first | rfl | cases h

theorem exists_own_seat (hrole : user.role ∈ [UserRole.hr, .unitSupervisor, .deputy, .ceo])
    (hhr : user.role ≠ .hr) : ∃ own, seatRole own = user.role := by
  simp only [List.mem_cons, List.not_mem_nil, or_false] at hrole
  rcases hrole with h | h | h | h
  · exact absurd h hhr
  · exact ⟨.unitSupervisor, h.symm⟩
  · exact ⟨.deputy, h.symm⟩
  · exact ⟨.ceo, h.symm⟩

/-- For a user of HR or of the chain, list and detail agree on a record exactly when he is seated by his
role there. -/
theorem list_detail_iff (env : Env) (user : CurrentUser) (r : EvaluationRecord)
    (hrole : user.role ∈ [UserRole.hr, .unitSupervisor, .deputy, .ceo]) :
    (Listed env user r ↔ Opens r user) ↔ SeatedByRole r user := by
  by_cases hhr : user.role = .hr
  · have hseated : SeatedByRole r user := by
      intro own hown
      exact absurd (hown.trans hhr) (seatRole_ne_hr own)
    refine iff_of_true ?_ hseated
    rw [opens_iff, listed_hr hhr, ← Bool.not_eq_true]
    constructor
    · rintro ⟨hshield, hself⟩
      exact ⟨⟨hself, fun h => hshield h.2⟩, Or.inl hhr⟩
    · rintro ⟨⟨hself, hshield⟩, -⟩
      exact ⟨fun h => hshield ⟨hhr, h⟩, hself⟩
  · obtain ⟨own, hown⟩ := exists_own_seat hrole hhr
    rw [opens_chain hhr, listed_chain hown]
    constructor
    · intro hagree seat hseat
      rw [seatRole_inj (hseat.trans hown.symm)]
      refine ⟨fun hlisted => (hagree.mp hlisted).1, ?_⟩
      intro hself other hother
      exact hagree.mpr ⟨hself, other, hother⟩
    · intro hseated
      obtain ⟨hself, hbelow⟩ := hseated own hown
      constructor
      · intro hlisted
        exact ⟨hself hlisted, own, hlisted⟩
      · rintro ⟨hself, other, hother⟩
        exact hbelow hself other hother

end

/-! ## Whose turn it is, by role -/

section

variable {user : CurrentUser} {r : EvaluationRecord}

theorem mayActAt_supervisor (hrole : user.role = .unitSupervisor) (seat : ChainSeat) :
    mayActAt user.role (seatRole seat) = true ↔ seat = .unitSupervisor := by
  rw [hrole]
  cases seat <;> decide

theorem mayActAt_deputy (hrole : user.role = .deputy) (seat : ChainSeat) :
    mayActAt user.role (seatRole seat) = true ↔ seat ≠ .ceo := by
  rw [hrole]
  cases seat <;> decide

theorem mayActAt_ceo (hrole : user.role = .ceo) (seat : ChainSeat) :
    mayActAt user.role (seatRole seat) = true := by
  rw [hrole]
  cases seat <;> decide

/-- A user outside HR holds the turn at the seat that scores, at the next desk after the HR stage, or at
the chief executive's. -/
theorem holdsTurn_outside_hr (hrole : user.role ≠ .hr) :
    HoldsTurn r user ↔
      (r.status = .draft ∧ SitsAt r user
        (.chain (scorerField r.chain.unitSupervisorUserId r.chain.deputyUserId))) ∨
      (r.status = .hrApproved ∧ SitsAt r user
        (.chain (if r.chain.deputyUserId.isSome then .deputy else .ceo))) ∨
      (r.status = .deputyApproved ∧ SitsAt r user (.chain .ceo)) := by
  have hone : ∀ {seat : ChainSeat}, r.shape.turn r.status = some (.chain seat) →
      (HoldsTurn r user ↔ SitsAt r user (.chain seat)) := by
    intro seat hturn
    unfold HoldsTurn
    rw [hturn]
    constructor
    · rintro ⟨field, hfield, hsits⟩
      cases hfield
      exact hsits
    · intro hsits
      exact ⟨_, rfl, hsits⟩
  cases hs : r.status with
  | draft =>
    rw [hone (show r.shape.turn r.status = some (.chain (scorerField _ _)) by rw [hs]; rfl)]
    simp
  | submitted =>
    have hnone : ¬HoldsTurn r user := by
      rintro ⟨field, hturn, hsits⟩
      cases field with
      | chain seat => exact turn_submitted hs seat hturn
      | hr => exact hrole hsits.1
    simp [hnone]
  | hrApproved =>
    have hdep : r.shape.hasDeputy = r.chain.deputyUserId.isSome := rfl
    rw [hone (show r.shape.turn r.status = some (.chain (if _ then _ else _)) by rw [hs]; rfl), hdep]
    simp
  | deputyApproved =>
    rw [hone (show r.shape.turn r.status = some (.chain .ceo) by rw [hs]; rfl)]
    simp
  | finalized | cancelled =>
    have hnone : ¬HoldsTurn r user := by
      rintro ⟨field, hturn, -⟩
      rw [hs] at hturn
      cases hturn
    simp [hnone]

theorem holdsTurn_supervisor (hrole : user.role = .unitSupervisor) :
    HoldsTurn r user ↔ r.status = .draft ∧ r.chain.unitSupervisorUserId = some user.id := by
  rw [holdsTurn_outside_hr (by rw [hrole]; decide)]
  simp only [SitsAt, mayActAt_supervisor hrole]
  unfold scorerField
  cases hsup : r.chain.unitSupervisorUserId <;> cases hdep : r.chain.deputyUserId <;> simp [hsup]

theorem holdsTurn_deputy (hrole : user.role = .deputy) :
    HoldsTurn r user ↔
      (r.status = .draft ∧ (r.chain.unitSupervisorUserId = some user.id ∨
        (r.chain.unitSupervisorUserId = none ∧ r.chain.deputyUserId = some user.id))) ∨
      (r.status = .hrApproved ∧ r.chain.deputyUserId = some user.id) := by
  rw [holdsTurn_outside_hr (by rw [hrole]; decide)]
  simp only [SitsAt, mayActAt_deputy hrole]
  unfold scorerField
  cases hsup : r.chain.unitSupervisorUserId <;> cases hdep : r.chain.deputyUserId <;> simp [hsup, hdep]

theorem holdsTurn_ceo (hrole : user.role = .ceo) :
    HoldsTurn r user ↔
      (r.status = .draft ∧ r.chain.scorer = some user.id) ∨
      (r.status = .hrApproved ∧ ownerAfterHrReview r = user.id) ∨
      (r.status = .deputyApproved ∧ r.chain.ceoUserId = user.id) := by
  rw [holdsTurn_outside_hr (by rw [hrole]; decide)]
  simp only [SitsAt, mayActAt_ceo hrole, and_true]
  unfold ownerAfterHrReview Chain.scorer
  cases hdep : r.chain.deputyUserId <;> simp [hdep]

theorem holdsTurn_hr (hrole : user.role = .hr) :
    HoldsTurn r user ↔ r.status = .submitted ∧ r.hrReviewSkipped = false ∧ SitsAt r user .hr := by
  constructor
  · rintro ⟨field, hturn, hsits⟩
    cases field with
    | chain seat => exact absurd hrole (mayActAt_seatRole_ne_hr hsits.2)
    | hr =>
      have hs : r.status = .submitted := by
        cases hs : r.status <;> rw [hs] at hturn <;> first | rfl | cases hturn
      rw [hs] at hturn
      change (if r.hrReviewSkipped = true then none else some SeatField.hr) = _ at hturn
      split at hturn
      · cases hturn
      next hskip => exact ⟨hs, by simpa using hskip, hsits⟩
  · rintro ⟨hs, hskip, hsits⟩
    exact (holdsTurn_submitted hs hskip).mpr hsits

theorem not_holdsTurn_outsider (hrole : user.role = .employee ∨ user.role = .support) :
    ¬HoldsTurn r user := by
  have hnone : ∀ seat, ¬SitsAt r user (.chain seat) := by
    rintro seat ⟨-, hmay⟩
    rcases hrole with h | h <;> rw [h] at hmay <;> cases seat <;> cases hmay
  rintro ⟨field, -, hsits⟩
  cases field with
  | chain seat => exact hnone seat hsits
  | hr => rcases hrole with h | h <;> rw [hsits.1] at h <;> cases h

end

/-! ## The assistant's queue -/

/-- The assistant lists the record among the user's open cases. -/
def Waiting (db : Database) (user : CurrentUser) (limit : Int) (r : EvaluationRecord) : Prop :=
  ∃ list, myOpenCases db user limit = .ok list ∧ ∃ item ∈ list.cases, item.id = r.id

/-- The user may carry the record on, from a seat that his role does not name. -/
def Unseen (r : EvaluationRecord) (user : CurrentUser) : Prop :=
  match user.role with
  | .deputy => r.status = .draft ∧ r.chain.unitSupervisorUserId = some user.id
  | .ceo =>
    (r.status = .draft ∧ r.chain.scorer = some user.id) ∨
      (r.status = .hrApproved ∧ ownerAfterHrReview r = user.id)
  | _ => False

/-- The record is at a desk of the user's role and it is not his turn: in HR it is a colleague's, his
own or not for HR; a deputy waits for the supervisor's draft. -/
def Foreign (r : EvaluationRecord) (user : CurrentUser) : Prop :=
  match user.role with
  | .hr => r.status = .submitted ∧ (r.hrReviewSkipped = true ∨
      (r.hrUserId ≠ none ∧ r.hrUserId ≠ some user.id) ∨ user.isSubjectOf r)
  | .deputy => r.status = .draft ∧ r.chain.deputyUserId = some user.id ∧
      r.chain.unitSupervisorUserId ≠ none
  | _ => False

/-- The record meets the stage condition of the user's role, and so many others do that entered their
stage before it that it is left out. -/
def Crowded (db : Database) (user : CurrentUser) (limit : Int) (r : EvaluationRecord) : Prop :=
  ∃ condition, stageCondition user = .ok condition ∧ condition r = true ∧
    caseLimit limit ≤
      ahead EvaluationRecord.stageEnteredAt r (db.evaluationRecords.rows.filter condition)

section

variable {db : Database} {user : CurrentUser} {limit : Int} {r : EvaluationRecord}

theorem nodup_rows (db : Database) : db.evaluationRecords.rows.Nodup :=
  db.evaluationRecords.nodup.of_map _

theorem waiting_iff (hr : r ∈ db.evaluationRecords) :
    Waiting db user limit r ↔ ∃ condition, stageCondition user = .ok condition ∧ condition r = true ∧
      ahead EvaluationRecord.stageEnteredAt r (db.evaluationRecords.rows.filter condition) <
        caseLimit limit := by
  unfold Waiting myOpenCases casesWhere
  simp only [bind_eq_ok, pure_eq_ok]
  constructor
  · rintro ⟨list, ⟨condition, hcondition, rfl⟩, item, hitem, hid⟩
    obtain ⟨r', hpage, rfl⟩ := List.mem_map.mp hitem
    obtain ⟨hmem, hahead⟩ := (mem_page_iff ((nodup_rows db).filter _)).mp hpage
    obtain ⟨hrow, hholds⟩ := List.mem_filter.mp hmem
    have hsame : r' = r := Table.eq_of_id_eq hrow hr hid
    subst hsame
    exact ⟨condition, hcondition, hholds, hahead⟩
  · rintro ⟨condition, hcondition, hholds, hahead⟩
    refine ⟨_, ⟨condition, hcondition, rfl⟩, describeRecord db r, List.mem_map_of_mem ?_, rfl⟩
    exact (mem_page_iff ((nodup_rows db).filter _)).mpr ⟨List.mem_filter.mpr ⟨hr, hholds⟩, hahead⟩

/-- Against the stage condition, the table leaves out what is foreign and adds what is unseen. -/
theorem carryOn_stageCondition (hopen : r.isOpen = true) {condition : EvaluationRecord → Bool}
    (hcondition : stageCondition user = .ok condition) :
    (CanCarryOn r user ↔ (condition r = true ∧ ¬Foreign r user) ∨ Unseen r user) ∧
      (Foreign r user → condition r = true) ∧ (Unseen r user → condition r = false) := by
  have hmem := mem_openStatuses_of_isOpen hopen
  have hdifferent := r.chain.supervisor_not_deputy
  rw [canCarryOn_iff]
  unfold stageCondition at hcondition
  unfold Foreign Unseen
  split at hcondition <;> rename_i hrole <;> simp only [hrole]
  · cases hcondition
    rw [holdsTurn_supervisor hrole]
    simp
  · cases hcondition
    rw [holdsTurn_hr hrole]
    simp only [SitsAt, hrole, true_and, decide_eq_true_eq, or_false, false_implies, and_true]
    refine ⟨?_, fun h => h.1⟩
    constructor
    · rintro ⟨hs, hskip, howner, hself⟩
      refine ⟨hs, ?_⟩
      rintro ⟨-, hskipped | ⟨htaken, hother⟩ | hsubject⟩
      · rw [hskip] at hskipped
        cases hskipped
      · exact howner.elim htaken hother
      · exact hself hsubject
    · rintro ⟨hs, hours⟩
      refine ⟨hs, ?_, ?_, fun hsubject => hours ⟨hs, Or.inr (Or.inr hsubject)⟩⟩
      · rw [← Bool.not_eq_true]
        exact fun hskip => hours ⟨hs, Or.inl hskip⟩
      · by_contra howner
        rw [not_or] at howner
        exact hours ⟨hs, Or.inr (Or.inl howner)⟩
  · cases hcondition
    rw [holdsTurn_deputy hrole]
    dsimp only
    cases hs : r.status <;> grind
  · cases hcondition
    rw [holdsTurn_ceo hrole]
    dsimp only
    cases hs : r.status <;> grind
  · have hnone : ¬HoldsTurn r user := not_holdsTurn_outsider (Or.inl hrole)
    split at hcondition <;> cases hcondition
    · simp [hnone]
    · have hfinal : r.status ≠ .finalized := by
        intro hs
        rw [hs] at hmem
        exact absurd hmem (by decide)
      simp [hnone, hfinal]
  · cases hcondition

/-- The assistant lists an open record for the user exactly when he may carry it on, if and only if it is
not unseen, and is crowded out just when it is foreign. -/
theorem my_open_cases_iff (db : Database) (user : CurrentUser) (limit : Int) {r : EvaluationRecord}
    (hr : r ∈ db.evaluationRecords) (hopen : r.isOpen = true) :
    (Waiting db user limit r ↔ CanCarryOn r user) ↔
      ¬Unseen r user ∧ (Foreign r user ↔ Crowded db user limit r) := by
  rw [waiting_iff hr]
  unfold Crowded
  cases hcondition : stageCondition user with
  | ok condition =>
    obtain ⟨hcarry, hforeign, hunseen⟩ := carryOn_stageCondition hopen hcondition
    rw [hcarry]
    simp only [Except.ok.injEq, exists_eq_left', ← Nat.not_lt]
    cases hholds : condition r with
    | true =>
      have hseen : ¬Unseen r user := by
        intro h
        rw [hunseen h] at hholds
        cases hholds
      simp only [hseen, true_and, or_false, not_false_eq_true]
      exact ⟨fun h => by rw [h, not_not], fun h => by rw [h, not_not]⟩
    | false =>
      have hours : ¬Foreign r user := by
        intro h
        rw [hforeign h] at hholds
        cases hholds
      simp [hours]
  | error e =>
    have hsupport : user.role = .support := by
      unfold stageCondition at hcondition
      split at hcondition <;> first | assumption | cases hcondition | (split at hcondition <;> cases hcondition)
    have hnone : ¬HoldsTurn r user := not_holdsTurn_outsider (Or.inr hsupport)
    rw [canCarryOn_iff]
    unfold Unseen Foreign
    simp [hnone, hsupport]

end

/-! ## The dashboard -/

/-- The cards that count what waits for the user: his approvals and his scoring. -/
def waitingKeys : List String := ["awaiting_me", "manager_scoring", "drafts"]

def waitingTotal (overview : RoleOverview) : Rat :=
  ((overview.cards.filter fun card => card.key ∈ waitingKeys).map RoleOverviewCard.value).sum

/-- The open records that the user may carry on. -/
def carriedOnCount (db : Database) (user : CurrentUser) : Nat :=
  db.evaluationRecords.rows.countP fun r => r.isOpen && decide (CanCarryOn r user)

/-- The records that the cards count. -/
def onCards (user : CurrentUser) (r : EvaluationRecord) : Bool :=
  match user.role with
  | .unitSupervisor => r.status = .draft && r.chain.unitSupervisorUserId = some user.id
  | .deputy => r.status = .hrApproved && r.chain.deputyUserId = some user.id
  | .ceo => r.status = .deputyApproved && r.chain.ceoUserId = user.id
  | _ => false

/-- The user may carry the record on, and no card counts it: the deputy's and the chief executive's
drafts, and what reaches the chief executive without passing a deputy. -/
def Uncounted (r : EvaluationRecord) (user : CurrentUser) : Prop :=
  match user.role with
  | .deputy => r.status = .draft ∧ (r.chain.unitSupervisorUserId = some user.id ∨
      (r.chain.unitSupervisorUserId = none ∧ r.chain.deputyUserId = some user.id))
  | .ceo =>
    (r.status = .draft ∧ r.chain.scorer = some user.id) ∨
      (r.status = .hrApproved ∧ ownerAfterHrReview r = user.id)
  | _ => False

section

variable {α : Type} {p q : α → Bool} {l : List α}

theorem countP_split (p q : α → Bool) (l : List α) :
    (l.countP fun a => p a && q a) + (l.countP fun a => p a && !q a) = l.countP p := by
  induction l with
  | nil => rfl
  | cons a l ih =>
    simp only [List.countP_cons]
    cases p a <;> cases q a <;> simp <;> omega

/-- Two conditions of which one implies the other hold equally often only if they agree. -/
theorem countP_eq_iff (himp : ∀ a ∈ l, p a = true → q a = true) :
    l.countP p = l.countP q ↔ ∀ a ∈ l, q a = true → p a = true := by
  induction l with
  | nil => simp
  | cons a l ih =>
    have hrest : ∀ b ∈ l, p b = true → q b = true := fun b hb => himp b (List.mem_cons_of_mem a hb)
    have hhead := himp a List.mem_cons_self
    have hle := List.countP_mono_left hrest
    rw [List.forall_mem_cons, ← ih hrest, List.countP_cons, List.countP_cons]
    cases hp : p a <;> cases hq : q a
    · simp
    · simp only [Bool.false_eq_true, if_false, if_true]
      constructor
      · intro h
        omega
      · rintro ⟨h, -⟩
        exact absurd (h trivial) (by decide)
    · rw [hp, hq] at hhead
      exact absurd (hhead rfl) (by decide)
    · simp

end

section

variable {db : Database} {env : Env} {user : CurrentUser} {r : EvaluationRecord}

theorem waitingTotal_eq (hrole : user.role ∈ [UserRole.unitSupervisor, .deputy, .ceo]) :
    waitingTotal (roleOverview db env .role user) =
      (db.evaluationRecords.rows.countP (onCards user) : Nat) := by
  unfold waitingTotal roleOverview onCards
  simp only [List.mem_cons, List.not_mem_nil, or_false] at hrole
  rcases hrole with h | h | h
  · rw [h]
    simp [supervisorCards, waitingKeys, countRecords, Bool.and_comm]
  · rw [h]
    have hsplit := countP_split
      (fun r : EvaluationRecord => decide (r.chain.deputyUserId = some user.id) && r.status = .hrApproved)
      (fun r => r.chain.unitSupervisorUserId.isSome) db.evaluationRecords.rows
    simp only [Bool.and_comm (decide (EvaluationRecord.status _ = _)), ← hsplit, Nat.cast_add]
    simp [deputyCards, waitingKeys, countRecords]
  · rw [h]
    simp [ceoCards, waitingKeys, countRecords, Bool.and_comm]

theorem isOpen_of_holdsTurn (h : HoldsTurn r user) : r.isOpen = true := by
  obtain ⟨field, hturn, -⟩ := h
  unfold EvaluationRecord.isOpen
  cases hs : r.status <;> rw [hs] at hturn <;> first | rfl | cases hturn

/-- The user may carry on what is on his cards and what is not counted. -/
theorem holdsTurn_iff_onCards (hrole : user.role ∈ [UserRole.unitSupervisor, .deputy, .ceo]) :
    (HoldsTurn r user ↔ onCards user r = true ∨ Uncounted r user) ∧
      (Uncounted r user → onCards user r = false) := by
  unfold onCards Uncounted
  simp only [List.mem_cons, List.not_mem_nil, or_false] at hrole
  rcases hrole with h | h | h
  · rw [holdsTurn_supervisor h, h]
    simp
  · rw [holdsTurn_deputy h, h]
    cases hs : r.status <;> simp
  · rw [holdsTurn_ceo h, h]
    cases hs : r.status <;> simp

theorem cards_complete_iff (hrole : user.role ∈ [UserRole.unitSupervisor, .deputy, .ceo]) :
    waitingTotal (roleOverview db env .role user) = (carriedOnCount db user : Nat) ↔
      ∀ r ∈ db.evaluationRecords, ¬Uncounted r user := by
  have hcarried : ∀ r : EvaluationRecord,
      (r.isOpen && decide (CanCarryOn r user)) = true ↔ onCards user r = true ∨ Uncounted r user := by
    intro r
    rw [← (holdsTurn_iff_onCards hrole).1, Bool.and_eq_true, decide_eq_true_eq, canCarryOn_iff]
    exact ⟨fun h => h.2, fun h => ⟨isOpen_of_holdsTurn h, h⟩⟩
  have himp : ∀ r ∈ db.evaluationRecords.rows, onCards user r = true →
      (r.isOpen && decide (CanCarryOn r user)) = true := by
    intro r _ hcard
    exact (hcarried r).mpr (Or.inl hcard)
  unfold carriedOnCount
  rw [waitingTotal_eq hrole, Nat.cast_inj, countP_eq_iff himp]
  constructor
  · intro hall r hr huncounted
    have hcard := hall r hr ((hcarried r).mpr (Or.inr huncounted))
    rw [(holdsTurn_iff_onCards hrole).2 huncounted] at hcard
    cases hcard
  · intro hnone r hr hcarry
    exact ((hcarried r).mp hcarry).resolve_right (hnone r hr)

/-- For a user of the chain, the cards that wait for him count no record twice and none that he may not
carry on, and they count all that he may exactly when none is uncounted. -/
theorem role_overview_iff (db : Database) (env : Env) (user : CurrentUser)
    (hrole : user.role ∈ [UserRole.unitSupervisor, .deputy, .ceo]) :
    (waitingTotal (roleOverview db env .role user) =
        (db.evaluationRecords.rows.countP (onCards user) : Nat) ∧
      ∀ r, onCards user r = true → CanCarryOn r user) ∧
    (waitingTotal (roleOverview db env .role user) = (carriedOnCount db user : Nat) ↔
      ∀ r ∈ db.evaluationRecords, ¬Uncounted r user) := by
  refine ⟨⟨waitingTotal_eq hrole, ?_⟩, cards_complete_iff hrole⟩
  intro r hcard
  exact canCarryOn_iff.mpr ((holdsTurn_iff_onCards hrole).1.mpr (Or.inl hcard))

end

/-! ## At the seat of one's role -/

/-- The record of the small office after its scorer opened it. -/
def officeWithDraft : Database := endState settled (office fullChain) [ask 1 (.createEvaluation 1)]

def scorerOfDraft : CurrentUser := (account 1 "supervisor" .unitSupervisor).toCurrent

theorem draft_of_office : ∃ r ∈ officeWithDraft.evaluationRecords,
    r.isOpen = true ∧ r.status = .draft ∧ r.chain = fullChain := by
  obtain ⟨r, hget, hr⟩ := exists_of_any (o := officeWithDraft.evaluationRecords.get? 1)
    (p := fun r => r.isOpen && r.status = .draft && decide (r.chain = fullChain)) (by decide)
  simp only [Bool.and_eq_true, decide_eq_true_eq] at hr
  exact ⟨r, Table.mem_of_get? hget, hr.1.1, hr.1.2, hr.2⟩

theorem scorer_lists_and_opens : ∃ r ∈ officeWithDraft.evaluationRecords,
    (Listed someDay scorerOfDraft r ↔ Opens r scorerOfDraft) := by
  obtain ⟨r, hr, -, -, hchain⟩ := draft_of_office
  refine ⟨r, hr, (list_detail_iff someDay scorerOfDraft r (by decide)).mpr ?_⟩
  intro own hown
  have hself : ¬scorerOfDraft.isSubjectOf r := fun h => by cases h
  have hseat : own = .unitSupervisor := by
    cases own <;> first | rfl | cases hown
  refine ⟨fun _ => hself, fun _ _ _ => ?_⟩
  rw [hseat, hchain]
  rfl

/-- The only record of a database stands behind no other one. -/
theorem onlyRecord_not_crowded {db : Database} {user : CurrentUser} {limit : Int} {r : EvaluationRecord}
    (hone : db.evaluationRecords.rows = [r]) : ¬Crowded db user limit r := by
  rintro ⟨condition, -, hholds, hahead⟩
  have hlimit : 1 ≤ caseLimit limit := by
    unfold caseLimit
    omega
  rw [hone, List.filter_cons_of_pos hholds, List.filter_nil] at hahead
  have hzero : ahead EvaluationRecord.stageEnteredAt r [r] = 0 := by simp [ahead]
  omega

theorem draft_waits_for_its_scorer : ∃ r ∈ officeWithDraft.evaluationRecords,
    CanCarryOn r scorerOfDraft ∧ Waiting officeWithDraft scorerOfDraft 5 r := by
  obtain ⟨r, hr, hopen, hs, hchain⟩ := draft_of_office
  have hcarry : CanCarryOn r scorerOfDraft := by
    rw [canCarryOn_iff, holdsTurn_supervisor rfl, hchain]
    exact ⟨hs, rfl⟩
  obtain ⟨only, honly⟩ := List.length_eq_one_iff.mp
    (show officeWithDraft.evaluationRecords.rows.length = 1 by decide)
  have hmem : r ∈ officeWithDraft.evaluationRecords.rows := hr
  rw [honly, List.mem_singleton] at hmem
  rw [← hmem] at honly
  refine ⟨r, hr, hcarry, ((my_open_cases_iff officeWithDraft scorerOfDraft 5 hr hopen).mpr ⟨?_, ?_⟩).mpr hcarry⟩
  · exact fun hunseen => hunseen
  · exact iff_of_false (fun hforeign => hforeign) (onlyRecord_not_crowded honly)

theorem scorer_is_counted :
    waitingTotal (roleOverview officeWithDraft someDay .role scorerOfDraft) =
      (carriedOnCount officeWithDraft scorerOfDraft : Nat) :=
  (role_overview_iff officeWithDraft someDay scorerOfDraft (by decide)).2.mpr fun _ _ h => h

/-! ## Superiors in lower seats -/

def officeOfTwoDeputies : Database :=
  endState settled (office deputyAsSupervisor) [ask 6 (.createEvaluation 1)]

/-- The deputy who sits below his rank. -/
def seatedBelow : CurrentUser := (account 6 "deputy2" .deputy).toCurrent

theorem draft_of_two_deputies : ∃ r ∈ officeOfTwoDeputies.evaluationRecords,
    r.status = .draft ∧ r.chain = deputyAsSupervisor := by
  obtain ⟨r, hget, hr⟩ := exists_of_any (o := officeOfTwoDeputies.evaluationRecords.get? 1)
    (p := fun r => r.status = .draft && decide (r.chain = deputyAsSupervisor)) (by decide)
  simp only [Bool.and_eq_true, decide_eq_true_eq] at hr
  exact ⟨r, Table.mem_of_get? hget, hr.1, hr.2⟩

theorem below_rank_is_not_listed :
    ¬∀ env user r, user.role ∈ [UserRole.hr, .unitSupervisor, .deputy, .ceo] →
      (Listed env user r ↔ Opens r user) := by
  intro hclaim
  obtain ⟨r, -, -, hchain⟩ := draft_of_two_deputies
  have hopens : Opens r seatedBelow := by
    refine opens_iff.mpr ⟨⟨fun h => (by cases h), fun h => (by cases h.1)⟩, Or.inr ⟨.unitSupervisor, ?_⟩⟩
    rw [hchain]
    rfl
  have hlisted := (hclaim someDay seatedBelow r (by decide)).mpr hopens
  rw [listed_chain (show seatRole ChainSeat.deputy = seatedBelow.role from rfl), hchain] at hlisted
  cases hlisted

theorem below_rank_is_not_waiting :
    ¬∀ db user limit r, r ∈ db.evaluationRecords → r.isOpen = true →
      (Waiting db user limit r ↔ CanCarryOn r user) := by
  intro hclaim
  obtain ⟨r, hr, hs, hchain⟩ := draft_of_two_deputies
  have hunseen : Unseen r seatedBelow := by
    refine ⟨hs, ?_⟩
    rw [hchain]
    rfl
  have hholds : HoldsTurn r seatedBelow := by
    rw [holdsTurn_deputy rfl]
    exact Or.inl ⟨hs, Or.inl hunseen.2⟩
  have hopen := isOpen_of_holdsTurn hholds
  have hwaiting := (hclaim officeOfTwoDeputies seatedBelow 0 r hr hopen).mpr (canCarryOn_iff.mpr hholds)
  obtain ⟨condition, hcondition, hmatch, -⟩ := (waiting_iff hr).mp hwaiting
  rw [(carryOn_stageCondition hopen hcondition).2.2 hunseen] at hmatch
  cases hmatch

theorem below_rank_is_not_counted :
    ¬∀ db env user, user.role ∈ [UserRole.unitSupervisor, .deputy, .ceo] →
      waitingTotal (roleOverview db env .role user) = (carriedOnCount db user : Nat) := by
  intro hclaim
  obtain ⟨r, hr, hs, hchain⟩ := draft_of_two_deputies
  have hcomplete := hclaim officeOfTwoDeputies someDay seatedBelow (by decide)
  rw [cards_complete_iff (by decide)] at hcomplete
  apply hcomplete r hr
  refine ⟨hs, Or.inl ?_⟩
  rw [hchain]
  rfl

end NexaHR
