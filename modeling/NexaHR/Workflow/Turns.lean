import NexaHR.Services.Transition
import NexaHR.Workflow.Desks

/-! # Whose turn it is

A transition that needs a seat is open to exactly the user who sits there, on the shapes and at the
statuses where the table has it. So who can carry a record on, send it back or cancel it is a
question about one seat, the one whose turn it is.

* `Performable`: a transition passes the table and the separation of duties.
* `SitsAt`: a user sits at a seat of a record and may act there.
* `HoldsTurn`: he sits at the seat whose turn it is.
* `performable_iff`, `canCarryOn_iff`, `return_iff`, `cancel_iff`: the four results.
-/

namespace NexaHR

open Foundations

set_option autoImplicit false

/-- What `apply_transition` asks of the user: the table, and the separation of duties. -/
def Performable (r : EvaluationRecord) (a : Action) (user : CurrentUser) : Prop :=
  transitionBlock r a user = none ∧ ensureHrDuties (transitions a) r user = .ok ()

/-- The user sits there and may act there. While nobody owns the record in HR, everybody in HR sits
there but its subject. -/
def SitsAt (r : EvaluationRecord) (user : CurrentUser) : SeatField → Prop
  | .chain seat => r.chain.seat seat = some user.id ∧ mayActAt user.role (seatRole seat) = true
  | .hr => user.role = .hr ∧ (r.hrUserId = none ∨ r.hrUserId = some user.id) ∧ ¬user.isSubjectOf r

def HoldsTurn (r : EvaluationRecord) (user : CurrentUser) : Prop :=
  ∃ field, r.shape.turn r.status = some field ∧ SitsAt r user field

/-- Some forward transition is open to the user. -/
def CanCarryOn (r : EvaluationRecord) (user : CurrentUser) : Prop :=
  ∃ a : Action, a.isForward = true ∧ Performable r a user

/-! ## Rows of the table by their seat -/

/-- Every forward transition needs a seat. -/
theorem forward_field {a : Action} (hforward : a.isForward = true) :
    ∃ field, (transitions a).assigneeField = some field := by
  cases a <;> first | exact absurd hforward (by decide) | exact ⟨_, rfl⟩

/-- A seat of the chain is never free to take, and its role is the stage's. -/
theorem chain_row {a : Action} {seat : ChainSeat}
    (hfield : (transitions a).assigneeField = some (.chain seat)) :
    (transitions a).allowedRole = seatRole seat ∧ (transitions a).claimableIfUnassigned = false := by
  cases a <;> cases hfield <;> exact ⟨rfl, rfl⟩

theorem hr_row {a : Action} (hfield : (transitions a).assigneeField = some .hr) :
    (transitions a).allowedRole = .hr ∧ (transitions a).claimableIfUnassigned = true ∧
      (transitions a).bypassesHrUnitShield = false := by
  cases a <;> first | exact absurd hfield (by decide) | exact ⟨rfl, rfl, rfl⟩

/-- The HR stage is on no shape that HR does not review. -/
theorem hr_guard {s : Shape} {status : EvaluationStatus} {a : Action}
    (h : s.enabled status a = true) (hfield : (transitions a).assigneeField = some .hr) :
    s.hrReviewSkipped = false := by
  have hrow := Shape.forall_enabled
    (P := fun s _ a => (transitions a).assigneeField = some .hr → s.hrReviewSkipped = false)
    (by decide) h
  exact hrow hfield

theorem seatRole_ne_hr (seat : ChainSeat) : seatRole seat ≠ .hr := by
  cases seat <;> decide

/-- The seats of the shape are the filled ones. -/
theorem seat_isSome_of_hasSeat {r : EvaluationRecord} {seat : ChainSeat}
    (h : r.shape.hasSeat (some (.chain seat)) = true) : (r.chain.seat seat).isSome = true := by
  cases seat with
  | unitSupervisor => exact h
  | deputy => exact h
  | ceo => rfl

section

variable {r : EvaluationRecord} {a : Action} {user : CurrentUser}

/-- The same as `enabled`, in the terms of the record. -/
theorem enabled_parts (h : r.shape.enabled r.status a = true) :
    r.status ∈ (transitions a).fromStatuses ∧ (transitions a).guard r = true := by
  simp only [Shape.enabled, Bool.and_eq_true, decide_eq_true_eq] at h
  rw [guard_eq_guardAt]
  exact ⟨h.1.1, h.1.2⟩

theorem ensureHrDuties_of_chain {seat : ChainSeat}
    (hfield : (transitions a).assigneeField = some (.chain seat)) :
    ensureHrDuties (transitions a) r user = .ok () := by
  unfold ensureHrDuties
  rw [if_pos]
  rw [(chain_row hfield).1]
  exact seatRole_ne_hr seat

theorem ensureHrDuties_of_hr (hfield : (transitions a).assigneeField = some .hr)
    (hskip : r.hrReviewSkipped = false) :
    ensureHrDuties (transitions a) r user = .ok () ↔ ¬user.isSubjectOf r := by
  obtain ⟨hrole, -, hbypass⟩ := hr_row hfield
  have hshield : r.hrPanelIsShielded = false := by
    unfold EvaluationRecord.hrPanelIsShielded EvaluationRecord.skipsHrReview
    rw [hskip, Bool.false_and]
  unfold ensureHrDuties
  rw [if_neg (not_not.mpr hrole), hbypass, if_neg Bool.false_ne_true, ensureHrMayHandle_eq_ok, hshield]
  simp

/-! ## Who may take a transition -/

/-- A transition that needs a seat is open to the user who sits there, where the shape has it. -/
theorem performable_iff {field : SeatField} (hfield : (transitions a).assigneeField = some field) :
    Performable r a user ↔ r.shape.enabled r.status a = true ∧ SitsAt r user field := by
  cases field with
  | chain seat =>
    obtain ⟨hallowed, hclaim⟩ := chain_row hfield
    constructor
    · rintro ⟨hblock, -⟩
      obtain ⟨-, hrole, -, hadmits⟩ := transitionBlock_eq_none.mp hblock
      rw [Transition.admits_iff_of_not_claimable hfield hclaim] at hadmits
      rw [hallowed] at hrole
      exact ⟨enabled_of_available hblock, hadmits, hrole⟩
    · rintro ⟨henabled, hseat, hrole⟩
      obtain ⟨hfrom, hguard⟩ := enabled_parts henabled
      refine ⟨transitionBlock_eq_none.mpr ⟨hfrom, ?_, hguard, ?_⟩, ensureHrDuties_of_chain hfield⟩
      · rw [hallowed]
        exact hrole
      · rw [Transition.admits_iff_of_not_claimable hfield hclaim]
        exact hseat
  | hr =>
    obtain ⟨hallowed, hclaim, -⟩ := hr_row hfield
    have hadmits : (transitions a).admits r user.id = true ↔
        r.hrUserId = none ∨ r.hrUserId = some user.id := by
      unfold Transition.admits
      rw [hfield]
      simp only [hclaim, Bool.and_true, Bool.or_eq_true, decide_eq_true_eq]
      exact Iff.rfl
    constructor
    · rintro ⟨hblock, hduties⟩
      have henabled := enabled_of_available hblock
      obtain ⟨-, hrole, -, hat⟩ := transitionBlock_eq_none.mp hblock
      rw [hallowed, mayActAt_hr] at hrole
      exact ⟨henabled, hrole, hadmits.mp hat,
        (ensureHrDuties_of_hr hfield (hr_guard henabled hfield)).mp hduties⟩
    · rintro ⟨henabled, hrole, hat, hself⟩
      obtain ⟨hfrom, hguard⟩ := enabled_parts henabled
      refine ⟨transitionBlock_eq_none.mpr ⟨hfrom, ?_, hguard, hadmits.mpr hat⟩, ?_⟩
      · rw [hallowed, mayActAt_hr]
        exact hrole
      · exact (ensureHrDuties_of_hr hfield (hr_guard henabled hfield)).mpr hself

/-- The record is carried on by whoever holds the turn. -/
theorem canCarryOn_iff : CanCarryOn r user ↔ HoldsTurn r user := by
  unfold CanCarryOn
  constructor
  · rintro ⟨a, hforward, hperform⟩
    obtain ⟨field, hfield⟩ := forward_field hforward
    obtain ⟨henabled, hsits⟩ := (performable_iff hfield).mp hperform
    refine ⟨field, ?_, hsits⟩
    rw [← assigneeField_eq_turn henabled hforward]
    exact hfield
  · rintro ⟨field, hturn, hsits⟩
    obtain ⟨a, hforward, henabled, hfield⟩ := exists_forward_of_turn hturn
    exact ⟨a, hforward, (performable_iff hfield).mpr ⟨henabled, hsits⟩⟩

instance (field : SeatField) : Decidable (SitsAt r user field) :=
  match field with
  | .chain _ => inferInstanceAs (Decidable (_ ∧ _))
  | .hr => inferInstanceAs (Decidable (_ ∧ _ ∧ _))

theorem any_turn_iff :
    (r.shape.turn r.status).any (fun field => decide (SitsAt r user field)) = true ↔ HoldsTurn r user := by
  unfold HoldsTurn
  cases r.shape.turn r.status <;> simp

instance : Decidable (HoldsTurn r user) := decidable_of_iff _ any_turn_iff

instance : Decidable (CanCarryOn r user) := decidable_of_iff _ canCarryOn_iff.symm

end

/-- The HR queue is no desk of the chain. -/
theorem turn_submitted {r : EvaluationRecord} (hs : r.status = .submitted) (seat : ChainSeat) :
    r.shape.turn r.status ≠ some (.chain seat) := by
  rw [hs]
  show (if r.hrReviewSkipped = true then none else some SeatField.hr) ≠ _
  split <;> exact fun h => by cases h

section

variable {r : EvaluationRecord}

/-- At a desk of the chain the record is carried on by its occupant only. -/
theorem holdsTurn_chain {seat : ChainSeat} {k : Nat} {user : CurrentUser}
    (hturn : r.shape.turn r.status = some (.chain seat)) (hseat : r.chain.seat seat = some k) :
    HoldsTurn r user ↔ user.id = k ∧ mayActAt user.role (seatRole seat) = true := by
  unfold HoldsTurn
  rw [hturn]
  constructor
  · rintro ⟨field, hfield, hsits⟩
    cases hfield
    obtain ⟨hmine, hrole⟩ := hsits
    rw [hseat] at hmine
    exact ⟨(Option.some.inj hmine).symm, hrole⟩
  · rintro ⟨rfl, hrole⟩
    exact ⟨_, rfl, hseat, hrole⟩

theorem holdsTurn_submitted {user : CurrentUser} (hs : r.status = .submitted)
    (hskip : r.hrReviewSkipped = false) : HoldsTurn r user ↔ SitsAt r user .hr := by
  have hturn : r.shape.turn r.status = some .hr := by
    rw [hs]
    show (if r.hrReviewSkipped = true then none else some SeatField.hr) = _
    rw [hskip]
    rfl
  unfold HoldsTurn
  rw [hturn]
  constructor
  · rintro ⟨field, hfield, hsits⟩
    cases hfield
    exact hsits
  · intro hsits
    exact ⟨_, rfl, hsits⟩

end

/-- A return is addressed to the seat whose turn it is, but for the chief executive of his own chain,
who may also take his submission back from the HR queue. -/
theorem return_field {s : Shape} {status : EvaluationStatus} {a : Action}
    (h : s.enabled status a = true) (hreturn : a.isReturn = true) :
    status ≠ .draft ∧ (((transitions a).assigneeField = s.turn status ∧ (s.turn status).isSome = true) ∨
      (a = .ceoReturnCeoOnly ∧ status = .submitted ∧ s.isCeoOnly = true)) := by
  have hrow := Shape.forall_enabled
    (P := fun s status a => a.isReturn = true → status ≠ .draft ∧
      (((transitions a).assigneeField = s.turn status ∧ (s.turn status).isSome = true) ∨
        (a = .ceoReturnCeoOnly ∧ status = .submitted ∧ s.isCeoOnly = true)))
    (by decide) h
  exact hrow hreturn

/-- From every desk of the route between the draft and the final document, a return leads back that is
addressed to the seat whose turn it is. -/
theorem exists_return {s : Shape} {status : EvaluationStatus} (hdesk : status ∈ s.route.desks)
    (hdraft : status ≠ .draft) (hfinal : status ≠ .finalized) :
    ∃ a : Action, a.isReturn = true ∧ s.enabled status a = true ∧
      (transitions a).assigneeField = s.turn status := by
  have hall : ∀ s ∈ Shape.all, ∀ status ∈ s.route.desks, status ≠ .draft → status ≠ .finalized →
      ∃ a ∈ Action.all, a.isReturn = true ∧ s.enabled status a = true ∧
        (transitions a).assigneeField = s.turn status := by
    decide
  obtain ⟨a, -, ha⟩ := hall s s.mem_all status hdesk hdraft hfinal
  exact ⟨a, ha⟩

section

variable {r : EvaluationRecord} {a : Action} {user : CurrentUser}

/-- The chief executive of his own chain may take his submission back. -/
def MayTakeBack (r : EvaluationRecord) (user : CurrentUser) : Prop :=
  r.isCeoOnlyPath = true ∧ r.status = .submitted ∧ SitsAt r user (.chain .ceo)

theorem holdsTurn_of_return (hreturn : a.isReturn = true) (hperform : Performable r a user) :
    (r.status ≠ .draft ∧ HoldsTurn r user) ∨ MayTakeBack r user := by
  have henabled := enabled_of_available hperform.1
  obtain ⟨hdraft, ⟨hfield, hsome⟩ | ⟨rfl, hsubmitted, honly⟩⟩ := return_field henabled hreturn
  · obtain ⟨field, hturn⟩ := Option.isSome_iff_exists.mp hsome
    rw [hturn] at hfield
    exact Or.inl ⟨hdraft, field, hturn, ((performable_iff hfield).mp hperform).2⟩
  · rw [← r.isCeoOnlyPath_eq] at honly
    exact Or.inr ⟨honly, hsubmitted, ((performable_iff rfl).mp hperform).2⟩

theorem takeBack_performable (h : MayTakeBack r user) : Performable r .ceoReturnCeoOnly user := by
  obtain ⟨honly, hsubmitted, hsits⟩ := h
  refine (performable_iff rfl).mpr ⟨?_, hsits⟩
  rw [r.isCeoOnlyPath_eq] at honly
  rw [hsubmitted]
  unfold Shape.enabled Shape.guardAt
  rw [honly]
  rfl

/-- A record on its route is sent back by whoever holds the turn, unless it is a draft, and by the chief
executive who takes his submission back. -/
theorem return_iff (hdesk : r.status ∈ r.shape.route.desks) :
    (∃ a : Action, a.isReturn = true ∧ Performable r a user) ↔
      (r.status ≠ .draft ∧ HoldsTurn r user) ∨ MayTakeBack r user := by
  constructor
  · rintro ⟨a, hreturn, hperform⟩
    exact holdsTurn_of_return hreturn hperform
  · rintro (⟨hdraft, field, hturn, hsits⟩ | hback)
    · have hfinal : r.status ≠ .finalized := by
        intro hs
        rw [hs] at hturn
        cases hturn
      obtain ⟨a, hreturn, henabled, hfield⟩ := exists_return hdesk hdraft hfinal
      rw [hturn] at hfield
      exact ⟨a, hreturn, (performable_iff hfield).mpr ⟨henabled, hsits⟩⟩
    · exact ⟨.ceoReturnCeoOnly, rfl, takeBack_performable hback⟩

theorem mem_openStatuses_of_isOpen (hopen : r.isOpen = true) : r.status ∈ openStatuses := by
  simpa [EvaluationRecord.isOpen] using hopen

/-- An open record is cancelled by everybody in HR but its subject and, where HR does not review it, by
every deputy and every chief executive. -/
theorem cancel_iff (hopen : r.isOpen = true) :
    (∃ a : Action, a.isCancel = true ∧ Performable r a user) ↔
      (user.role = .hr ∧ ¬user.isSubjectOf r) ∨
        (mayActAt user.role .deputy = true ∧ r.hrReviewSkipped = true) := by
  have hfrom := mem_openStatuses_of_isOpen hopen
  constructor
  · rintro ⟨a, hcancel, hblock, hduties⟩
    obtain ⟨-, hrole, hguard, -⟩ := transitionBlock_eq_none.mp hblock
    cases a
    case cancelHrSubject => exact Or.inr ⟨hrole, hguard⟩
    case cancel => exact Or.inl ⟨(mayActAt_hr _).mp hrole, ensureHrDuties_ok hduties rfl⟩
    case cancelOnSeparation => exact Or.inl ⟨(mayActAt_hr _).mp hrole, ensureHrDuties_ok hduties rfl⟩
    all_goals cases hcancel
  · rintro (⟨hrole, hself⟩ | ⟨hrole, hskip⟩)
    · refine ⟨.cancelOnSeparation, rfl, transitionBlock_eq_none.mpr ⟨hfrom, ?_, rfl, rfl⟩, ?_⟩
      · exact (mayActAt_hr _).mpr hrole
      · exact ensureNotDecidingAboutOneself_eq_ok.mpr hself
    · exact ⟨.cancelHrSubject, rfl, transitionBlock_eq_none.mpr ⟨hfrom, hrole, hskip, rfl⟩, rfl⟩

/-- Every transition carries the record on, sends it back or cancels it. -/
theorem Action.kinds (a : Action) : a.isForward = true ∨ a.isReturn = true ∨ a.isCancel = true := by
  cases a <;> decide

/-- Who may do anything at all with an open record. -/
theorem exists_performable_iff (hopen : r.isOpen = true) :
    (∃ a : Action, Performable r a user) ↔
      HoldsTurn r user ∨ MayTakeBack r user ∨ (user.role = .hr ∧ ¬user.isSubjectOf r) ∨
        (mayActAt user.role .deputy = true ∧ r.hrReviewSkipped = true) := by
  constructor
  · rintro ⟨a, hperform⟩
    rcases a.kinds with hforward | hreturn | hcancel
    · exact Or.inl (canCarryOn_iff.mp ⟨a, hforward, hperform⟩)
    · rcases holdsTurn_of_return hreturn hperform with ⟨-, hholds⟩ | hback
      · exact Or.inl hholds
      · exact Or.inr (Or.inl hback)
    · exact Or.inr (Or.inr ((cancel_iff hopen).mp ⟨a, hcancel, hperform⟩))
  · rintro (hholds | hback | hcancel)
    · obtain ⟨a, -, hperform⟩ := canCarryOn_iff.mpr hholds
      exact ⟨a, hperform⟩
    · exact ⟨_, takeBack_performable hback⟩
    · obtain ⟨a, -, hperform⟩ := (cancel_iff hopen).mpr hcancel
      exact ⟨a, hperform⟩

end

end NexaHR
