import NexaHR.Routers.MyScoring
import NexaHR.System.Installation

/-! # The two sides of the scorer's mirror

A score belongs to one side: the user's own, or the others'. The condition that says which is unknown where
the lowest seat is empty, except for the deputy who scores there, and then the row is on neither side.

* `OnOneSide`: a row is on exactly one side, on the user's own exactly when he is its scorer.
* `Seated`: where that is so.
* `on_one_side_iff`: for every row and user.
* `counts_add_up_iff`: when the two sides count every row.
-/

namespace NexaHR

open Foundations

set_option autoImplicit false

/-- The row is counted on one of the two sides, and on the user's own when he is the scorer. -/
structure OnOneSide (db : Database) (user : CurrentUser) (row : ScoreRow) : Prop where
  counted : row ∈ myScores db user ∨ row ∈ otherScores db user
  once : ¬(row ∈ myScores db user ∧ row ∈ otherScores db user)
  own : row ∈ myScores db user ↔ row.record.chain.scorer = some user.id

/-- The lowest seat is filled, or the user is the deputy above it. -/
def Seated (user : CurrentUser) (r : EvaluationRecord) : Prop :=
  r.chain.unitSupervisorUserId.isSome = true ∨
    user.role = .deputy ∧ r.chain.deputyUserId = some user.id

section

variable {db : Database} {user : CurrentUser} {r : EvaluationRecord} {row : ScoreRow}

/-- The condition is known exactly there. -/
theorem mine_known_iff : (mine user r).known = true ↔ Seated user r := by
  unfold mine Seated
  cases hsup : r.chain.unitSupervisorUserId with
  | some supervisor =>
    by_cases hrole : user.role = .deputy
    · simp [hrole, Truth.known_or, Truth.known_and]
    · simp [hrole]
  | none =>
    by_cases hrole : user.role = .deputy
    · simp [hrole, Truth.known_or]
    · simp [hrole]

theorem mine_holds_of_seated (h : Seated user r) :
    (mine user r).holds = true ↔ r.chain.scorer = some user.id := by
  unfold mine Seated at *
  cases hsup : r.chain.unitSupervisorUserId with
  | some supervisor =>
    rw [Chain.scorer_of_supervisor hsup]
    by_cases hrole : user.role = .deputy
    · simp [hrole]
    · simp [hrole]
  | none =>
    obtain ⟨hrole, hdep⟩ : user.role = .deputy ∧ r.chain.deputyUserId = some user.id := by
      simpa [hsup] using h
    rw [Chain.scorer_of_deputy hsup hdep]
    simp [hrole, hdep]

/-- A score of a finalized record is on one side, its scorer's, exactly when the lowest seat of the record is
filled or the user is the deputy who scored it. -/
theorem on_one_side_iff (hrow : row ∈ finalizedScores db) :
    OnOneSide db user row ↔ Seated user row.record := by
  have hmine : row ∈ myScores db user ↔ (mine user row.record).holds = true := by
    simp [myScores, hrow]
  have hother : row ∈ otherScores db user ↔ (mine user row.record).not.holds = true := by
    simp [otherScores, hrow]
  have hcounted : row ∈ myScores db user ∨ row ∈ otherScores db user ↔ Seated user row.record := by
    rw [hmine, hother, ← Bool.or_eq_true, Truth.holds_or_not, mine_known_iff]
  constructor
  · intro hside
    exact hcounted.mp hside.counted
  · intro hseated
    refine ⟨hcounted.mpr hseated, ?_, ?_⟩
    · rw [hmine, hother]
      exact Truth.not_both _
    · rw [hmine]
      exact mine_holds_of_seated hseated

/-- The two sides together count every score exactly when every scored record is of that kind. -/
theorem counts_add_up_iff (db : Database) (user : CurrentUser) :
    (myScores db user).length + (otherScores db user).length = (finalizedScores db).length ↔
      ∀ row ∈ finalizedScores db, Seated user row.record := by
  unfold myScores otherScores
  rw [Truth.filter_length_add_iff]
  constructor
  · intro hknown row hrow
    exact mine_known_iff.mp (hknown row hrow)
  · intro hseated row hrow
    exact mine_known_iff.mpr (hseated row hrow)

end

/-! ## Records with and without a supervisor -/

theorem no_supervisor_but_deputy : (none : Option Nat) = none ∨ some 2 = none ∨ none ≠ some 2 := Or.inl rfl

theorem deputy_two_not_ceo : some 2 ≠ some 3 := by decide

/-- The deputy scores the employee himself. -/
def deputyScores : Chain := ⟨none, some 2, 3, no_supervisor_but_deputy, deputy_two_not_ceo⟩

def finalizedByDeputy : List Request :=
  [ask 3 (.onRecord 1 .ceoFinalize), ask 4 (.onRecord 1 .hrApprove)] ++ submittedBy 2

theorem finalizedByDeputy_run : SystemRun (replay settled (office deputyScores) finalizedByDeputy)
    (endState settled (office deputyScores) finalizedByDeputy) :=
  systemRun_replay (office_initial (by decide)) (by decide)

theorem exists_row (db : Database) {p : ScoreRow → Bool} (h : (finalizedScores db).any p = true) :
    ∃ row ∈ finalizedScores db, p row = true :=
  List.any_eq_true.mp h

/-- The supervisor's own score is on his side, and on the side of the others for a deputy. -/
theorem full_chain_on_one_side : ∃ row ∈ finalizedScores (endState settled (office fullChain) finalizedByAll),
    OnOneSide (endState settled (office fullChain) finalizedByAll) ⟨1, "supervisor", .unitSupervisor, none⟩
      row := by
  obtain ⟨row, hrow, hchain⟩ := exists_row
    (endState settled (office fullChain) finalizedByAll) (p := fun row => row.record.chain = fullChain)
    (by decide)
  refine ⟨row, hrow, (on_one_side_iff hrow).mpr (Or.inl ?_)⟩
  have hfull : row.record.chain = fullChain := by simpa using hchain
  rw [hfull]
  rfl

/-- Another deputy does not find the score of the first on either side. -/
theorem deputy_row_is_lost : ¬∀ tr db, SystemRun tr db → ∀ user : CurrentUser,
    user.role = .deputy ∨ user.role = .unitSupervisor → ∀ row ∈ finalizedScores db, OnOneSide db user row := by
  intro hclaim
  have hside := hclaim _ _ finalizedByDeputy_run ⟨6, "deputy2", .deputy, none⟩ (Or.inl rfl)
  have hcounts : ((myScores (endState settled (office deputyScores) finalizedByDeputy)
      ⟨6, "deputy2", .deputy, none⟩).length, (otherScores (endState settled (office deputyScores)
        finalizedByDeputy) ⟨6, "deputy2", .deputy, none⟩).length) = (0, 0) := by
    decide
  rw [Prod.mk.injEq, List.length_eq_zero_iff, List.length_eq_zero_iff] at hcounts
  obtain ⟨row, hrow, -⟩ := exists_row
    (endState settled (office deputyScores) finalizedByDeputy) (p := fun _ => true) (by decide)
  have hcounted := (hside row hrow).counted
  rw [hcounts.1, hcounts.2] at hcounted
  simp at hcounted

end NexaHR
