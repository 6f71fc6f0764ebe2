import Mathlib.Tactic.Common

/-! # Enumerations and the shape of an approval chain

The leaf layer: the enumerations of `models/enums.py` that the modelled code reads, and
`models/chain.py`, which says what the seats of a chain are and which of them scores.

* `ChainSeat`: the three seats of a chain, lowest first; `SeatField` adds the HR seat of a record.
* `Chain`: the occupants of the three seats. The two inequalities that the tables check
  (`ck_…_supervisor_not_deputy`, `ck_…_deputy_not_ceo`) are fields.
* `hrFinalizes`, `scorerField`: the two rules of the chain's shape.
-/

namespace NexaHR

set_option autoImplicit false

/-! ## Enumerations -/

inductive PersonnelStatus
  | active | inactive
  deriving DecidableEq, Repr

inductive SeparationReason
  | resignation | dismissal | contractEnd | retirement | other
  deriving DecidableEq, Repr

def SeparationReason.value : SeparationReason → String
  | resignation => "resignation"
  | dismissal => "dismissal"
  | contractEnd => "contract_end"
  | retirement => "retirement"
  | other => "other"

inductive UserRole
  | unitSupervisor | hr | deputy | ceo | employee | support
  deriving DecidableEq, Repr

inductive IndicatorSection
  | general | specialized
  deriving DecidableEq, Repr

def IndicatorSection.value : IndicatorSection → String
  | general => "general"
  | specialized => "specialized"

inductive EvaluationStatus
  | draft | submitted | hrApproved | deputyApproved | finalized | cancelled
  deriving DecidableEq, Repr

def EvaluationStatus.all : List EvaluationStatus :=
  [.draft, .submitted, .hrApproved, .deputyApproved, .finalized, .cancelled]

theorem EvaluationStatus.mem_all (status : EvaluationStatus) : status ∈ all := by
  cases status <;> simp [all]

def EvaluationStatus.value : EvaluationStatus → String
  | draft => "draft"
  | submitted => "submitted"
  | hrApproved => "hr_approved"
  | deputyApproved => "deputy_approved"
  | finalized => "finalized"
  | cancelled => "cancelled"

inductive CommentStage
  | hrReview | deputyReview | ceoFinal
  deriving DecidableEq, Repr

inductive PeriodStatus
  | «open» | closed
  deriving DecidableEq, Repr

inductive SchemeStatus
  | draft | active | retired
  deriving DecidableEq, Repr

inductive Capability
  | manageUsers | manageCapabilities | manageScoring | manageIntegrations | viewAuditLog
  | manageModules | viewDiagnostics | managePersonnel | manageAi
  deriving DecidableEq, Repr

/-- The switchable modules that the modelled endpoints ask for. -/
inductive Module
  | periods | selfAssessment | objections | employeeEvaluationVisibility
  | employeeResultAcknowledgement | employeeOverviewCards | roleAnalytics
  deriving DecidableEq, Repr

/-! ## Seats -/

inductive ChainSeat
  | unitSupervisor | deputy | ceo
  deriving DecidableEq, Repr

/-- The column of a record that names the user a stage belongs to. -/
inductive SeatField
  | chain (seat : ChainSeat)
  | hr
  deriving DecidableEq, Repr

/-- The column's name. -/
def SeatField.column : SeatField → String
  | .chain .unitSupervisor => "unit_supervisor_user_id"
  | .chain .deputy => "deputy_user_id"
  | .chain .ceo => "ceo_user_id"
  | .hr => "hr_user_id"

def seatRole : ChainSeat → UserRole
  | .unitSupervisor => .unitSupervisor
  | .deputy => .deputy
  | .ceo => .ceo

def seatLabel : ChainSeat → String
  | .unitSupervisor => "مسئول واحد"
  | .deputy => "معاونت"
  | .ceo => "مدیرعامل"

def seatOrder : List ChainSeat := [.unitSupervisor, .deputy, .ceo]

def hrLabel : String := "منابع انسانی"

theorem mem_seatOrder (seat : ChainSeat) : seat ∈ seatOrder := by
  cases seat <;> simp [seatOrder]

/-! ## Chains -/

/-- The occupants of a chain. An empty seat is a stage that the chain does not have. -/
structure Chain where
  unitSupervisorUserId : Option Nat
  deputyUserId : Option Nat
  ceoUserId : Nat
  supervisor_not_deputy :
    unitSupervisorUserId = none ∨ deputyUserId = none ∨ unitSupervisorUserId ≠ deputyUserId
  deputy_not_ceo : deputyUserId ≠ some ceoUserId
  deriving DecidableEq

namespace Chain

/-- The occupant of a seat. -/
def seat (c : Chain) : ChainSeat → Option Nat
  | .unitSupervisor => c.unitSupervisorUserId
  | .deputy => c.deputyUserId
  | .ceo => some c.ceoUserId

@[simp] theorem seat_unitSupervisor (c : Chain) :
    c.seat .unitSupervisor = c.unitSupervisorUserId := rfl

@[simp] theorem seat_deputy (c : Chain) : c.seat .deputy = c.deputyUserId := rfl

@[simp] theorem seat_ceo (c : Chain) : c.seat .ceo = some c.ceoUserId := rfl

/-- The chain with an empty lowest seat. -/
def clearSupervisor (c : Chain) : Chain where
  unitSupervisorUserId := none
  deputyUserId := c.deputyUserId
  ceoUserId := c.ceoUserId
  supervisor_not_deputy := Or.inl rfl
  deputy_not_ceo := c.deputy_not_ceo

/-- The chain of a person whose supervisor is below the chief executive alone. -/
def withoutDeputy (unitSupervisorUserId : Option Nat) (ceoUserId : Nat) : Chain where
  unitSupervisorUserId := unitSupervisorUserId
  deputyUserId := none
  ceoUserId := ceoUserId
  supervisor_not_deputy := Or.inr (Or.inl rfl)
  deputy_not_ceo := (Option.some_ne_none ceoUserId).symm

/-- The occupants of the filled seats, lowest first. -/
def occupants (c : Chain) : List Nat := seatOrder.filterMap c.seat

theorem mem_occupants {c : Chain} {u : Nat} : u ∈ c.occupants ↔ ∃ s, c.seat s = some u := by
  rw [occupants, List.mem_filterMap]
  constructor
  · rintro ⟨s, -, h⟩
    exact ⟨s, h⟩
  · rintro ⟨s, h⟩
    exact ⟨s, mem_seatOrder s, h⟩

end Chain

/-! ## The two rules of the shape -/

/-- The last word on this chain is HR's: nobody but the chief executive is seated, so the scorer
would otherwise approve his own scores. -/
def hrFinalizes (unitSupervisorUserId deputyUserId : Option Nat) (hrReviewSkipped : Bool) : Bool :=
  unitSupervisorUserId.isNone && deputyUserId.isNone && !hrReviewSkipped

/-- The seat that scores: the lowest one that is filled. -/
def scorerField (unitSupervisorUserId deputyUserId : Option Nat) : ChainSeat :=
  if unitSupervisorUserId.isSome then .unitSupervisor
  else if deputyUserId.isSome then .deputy
  else .ceo

/-- The occupant of the scoring seat. -/
def Chain.scorer (c : Chain) : Option Nat :=
  c.seat (scorerField c.unitSupervisorUserId c.deputyUserId)

theorem Chain.scorer_of_supervisor {c : Chain} {k : Nat} (h : c.unitSupervisorUserId = some k) :
    c.scorer = some k := by
  unfold scorer scorerField
  simp [h]

theorem Chain.scorer_of_deputy {c : Chain} {k : Nat} (hnone : c.unitSupervisorUserId = none)
    (h : c.deputyUserId = some k) : c.scorer = some k := by
  unfold scorer scorerField
  simp [hnone, h]

theorem Chain.scorer_of_ceo {c : Chain} (hsup : c.unitSupervisorUserId = none)
    (hdep : c.deputyUserId = none) : c.scorer = some c.ceoUserId := by
  unfold scorer scorerField
  simp [hsup, hdep]

/-- A chain always has a scorer. -/
theorem Chain.scorer_isSome (c : Chain) : c.scorer.isSome = true := by
  unfold scorer scorerField
  split
  next h => exact h
  next =>
    split
    next h => exact h
    next => rfl

end NexaHR
