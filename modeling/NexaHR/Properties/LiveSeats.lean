import NexaHR.System.AccountSteps
import NexaHR.System.Installation

/-! # Live seats

Whoever sits in the chain of an open record is an active user whose role may act there. An access
row is written for such users and a seat is reassigned to one; an account that sits in an open
record keeps its role and stays active. In between, an account that sits in an access row only may
change its role, and opening asks of a seat no more than that its user is active.

* `LiveSeats`: the seats of the open records of a database.
* `OpensFitting`: the request opens records only where the roles of the seats still fit.
* `live_seats_iff`: the result, with the exact condition on the steps of a run.
-/

namespace NexaHR

open Foundations

set_option autoImplicit false

/-- Every filled seat in the chain of an open record is live. -/
def LiveSeats (db : Database) : Prop :=
  ∀ r ∈ db.evaluationRecords, r.isOpen = true → ∀ seat k, r.chain.seat seat = some k → IsLive db seat k

/-- The roles of the users in the access rows that the request opens records from fit their seats. -/
def OpensFitting (db : Database) (req : Request) : Prop :=
  ∀ access ∈ openedBy db req, ∀ seat k u, access.chain.seat seat = some k →
    db.users.get? k = some u → mayActAt u.role (seatRole seat) = true

/-- The same, as a check. -/
def opensFitting (db : Database) (req : Request) : Bool :=
  (openedBy db req).all fun access => seatOrder.all fun seat =>
    (access.chain.seat seat).all fun k => (db.users.get? k).all fun u =>
      mayActAt u.role (seatRole seat)

theorem opensFitting_eq_true {db : Database} {req : Request} :
    opensFitting db req = true ↔ OpensFitting db req := by
  unfold opensFitting OpensFitting
  simp only [List.all_eq_true]
  constructor
  · intro h access haccess seat k u hseat hu
    have hcheck := h access haccess seat (mem_seatOrder seat)
    rw [hseat, Option.all_some, hu, Option.all_some] at hcheck
    exact hcheck
  · intro h access haccess seat _
    cases hseat : access.chain.seat seat with
    | none => rfl
    | some k =>
      rw [Option.all_some]
      cases hu : db.users.get? k with
      | none => rfl
      | some u => exact h access haccess seat k u hseat hu

instance (db : Database) (req : Request) : Decidable (OpensFitting db req) :=
  decidable_of_iff (opensFitting db req = true) opensFitting_eq_true

section

variable {db db' : Database} {req : Request} {user : CurrentUser} {performed : Nat → Option Action}

/-! ## Accounts that sit in open records -/

/-- An account that sits in an open record keeps its role and is not switched off. -/
theorem ensureSeatsAreKept_ok {u : User} {payload : UserUpdate} {r : EvaluationRecord}
    {field : SeatField} (h : ensureSeatsAreKept db u payload = .ok ()) (hr : r ∈ db.evaluationRecords)
    (hopen : r.isOpen = true) (hseat : r.seat field = some u.id) :
    (u.updated payload).role = u.role ∧ (u.updated payload).isActive = u.isActive ∨
      (u.updated payload).role = u.role ∧ u.isActive = false := by
  unfold ensureSeatsAreKept at h
  split at h
  · exact absurd hseat (ensureNoOpenChainSeat_ok h hr hopen field)
  next hstays =>
    rw [Bool.or_eq_true, not_or] at hstays
    obtain ⟨hrole, hactive⟩ := hstays
    have hrole' : (u.updated payload).role = u.role := by
      show payload.role.getD u.role = u.role
      unfold User.leavesRole at hrole
      cases hp : payload.role with
      | none => rfl
      | some role =>
        rw [hp, Option.any_some, decide_eq_true_eq, not_not] at hrole
        exact hrole
    by_cases hwas : u.isActive = true
    · left
      refine ⟨hrole', ?_⟩
      show payload.isActive.getD u.isActive = u.isActive
      unfold User.getsDisabled at hactive
      rw [hwas, Bool.and_true, decide_eq_true_eq] at hactive
      cases hp : payload.isActive with
      | none => rfl
      | some active =>
        rw [hp] at hactive
        cases active with
        | true => exact hwas.symm
        | false => exact absurd rfl hactive
    · exact Or.inr ⟨hrole', Bool.not_eq_true _ ▸ hwas⟩

theorem isReferenced_of_seat {r : EvaluationRecord} (hr : r ∈ db.evaluationRecords) {seat : ChainSeat}
    {k : Nat} (hseat : r.chain.seat seat = some k) : isReferenced db k = true := by
  have hocc : k ∈ r.chain.occupants := Chain.mem_occupants.mpr ⟨seat, hseat⟩
  have hany : (db.evaluationRecords.rows.any fun r =>
      decide (k ∈ r.chain.occupants) || decide (r.hrUserId = some k) ||
        decide (r.acknowledgedByUserId = some k) || decide (r.selfAssessmentInvitedByUserId = some k) ||
        decide (r.submissionExtendedByUserId = some k) ||
        decide (r.objectionResolvedByUserId = some k)) = true := by
    refine List.any_eq_true.mpr ⟨r, hr, ?_⟩
    simp [hocc]
  unfold isReferenced
  simp [hany]

/-- An occupant of a seat of an open record of the next state stays live, unless somebody leaves. -/
theorem Effect.live (h : Effect db req user performed db') (hstay : departing db req = none)
    {r' : EvaluationRecord} (hr' : r' ∈ db'.evaluationRecords) (hopen : r'.isOpen = true)
    {seat : ChainSeat} {k : Nat} (hseat : r'.chain.seat seat = some k) (hlive : IsLive db seat k) :
    IsLive db' seat k := by
  obtain ⟨u, hu, hactive, hmay⟩ := hlive
  have hid : u.id = k := Table.id_of_get? hu
  rcases h.account hu with ⟨u', hu', hchange⟩ | ⟨hfree, hrecords⟩
  · cases hchange with
    | kept => exact ⟨u, hu', hactive, hmay⟩
    | closed hleaving =>
      rw [hstay] at hleaving
      cases hleaving
    | updated payload hop hseats hlink hrest =>
      have hr : r' ∈ db.evaluationRecords := by
        rw [hrest] at hr'
        exact hr'
      have hsits : r'.seat (.chain seat) = some u.id := by
        rw [EvaluationRecord.seat_chain, hseat, hid]
      rcases ensureSeatsAreKept_ok hseats hr hopen hsits with ⟨hrole, hsame⟩ | ⟨-, hoff⟩
      · refine ⟨u.updated payload, hu', ?_, ?_⟩
        · rw [hsame]
          exact hactive
        · rw [hrole]
          exact hmay
      · rw [hactive] at hoff
        cases hoff
  · rw [hrecords] at hr'
    rw [isReferenced_of_seat hr' hseat] at hfree
    cases hfree

/-! ## One step -/

/-- A seat of a record is filled as before, or was reassigned to a live user. -/
theorem Change.live {r r' : EvaluationRecord} {o : Option Action}
    (h : Change db req user r o r') {seat : ChainSeat} {k : Nat}
    (hseat : r'.chain.seat seat = some k) : r.chain.seat seat = some k ∨ IsLive db seat k := by
  cases h with
  | reassigned hopen hself s hfilled owner reason hop howner hactive hrole hother chain hchain hrest =>
    have ht : chain.seat seat = some k := hseat
    by_cases hst : seat = s
    · right
      subst hst
      rw [hchain] at ht
      have hid : owner.id = k := Option.some.inj ht
      refine ⟨owner, ?_, hactive, ?_⟩
      · rw [← hid]
        exact Table.get?_of_mem howner
      · rw [hrole]
        exact mayActAt_seatRole_self seat
    · left
      rw [hrest seat hst] at ht
      exact ht
  | moved a hallowed hself hresult before hbefore =>
    left
    have hchain := (Change.moved a hallowed hself hresult before hbefore).chain_eq
    rw [← hchain]
    exact hseat
  | _ => exact Or.inl hseat

theorem live_seats_step (h : Effect db req user performed db') (hstay : departing db req = none)
    (hfit : OpensFitting db req) (hlive : LiveSeats db) : LiveSeats db' := by
  intro r' hr' hopen seat k hseat
  have hget' : db'.evaluationRecords.get? r'.id = some r' := Table.get?_of_mem hr'
  apply h.live hstay hr' hopen hseat
  rcases h.record_or_opened hget' with ⟨r, hget⟩ | ⟨-, access, hopened, -, hactive, code, hnew⟩
  · obtain ⟨r₁, hr₁, hchange⟩ := h.record hget
    rw [hget'] at hr₁
    cases hr₁
    have hwas := hchange.isOpen_of hopen
    rcases hchange.live hseat with hold | hreassigned
    · exact hlive r (Table.mem_of_get? hget) hwas seat k hold
    · exact hreassigned
  · rw [hnew] at hseat
    obtain ⟨u, hu, hon⟩ := inactiveSeatLabels_eq_nil hactive hseat
    exact ⟨u, hu, hon, hfit access hopened seat k u hseat hu⟩

/-! ## Opening -/

theorem foldl_insertRecord_keeps {o : Opening} {skipped : EvaluationAccess → Bool}
    {accesses : List EvaluationAccess} {r : EvaluationRecord} (hr : r ∈ db.evaluationRecords) :
    r ∈ (accesses.foldl (fun d access => insertRecord d o access (skipped access)) db).evaluationRecords := by
  induction accesses generalizing db with
  | nil => exact hr
  | cons access accesses ih =>
    rw [List.foldl_cons]
    apply ih
    exact mem_insertRecord.mpr (Or.inl hr)

/-- Every access row of the request gets its draft. -/
theorem foldl_insertRecord_adds {o : Opening} {skipped : EvaluationAccess → Bool}
    {accesses : List EvaluationAccess} {access : EvaluationAccess} (h : access ∈ accesses) :
    ∃ r ∈ (accesses.foldl (fun d access => insertRecord d o access (skipped access)) db).evaluationRecords,
      r.status = .draft ∧ r.chain = access.chain := by
  induction accesses generalizing db with
  | nil => cases h
  | cons first accesses ih =>
    rw [List.foldl_cons]
    rcases List.mem_cons.mp h with rfl | h
    · exact ⟨_, foldl_insertRecord_keeps (mem_insertRecord.mpr (Or.inr rfl)), rfl, rfl⟩
    · exact ih h

/-- A request that opens records does nothing else. -/
theorem opened_of_steps (h : Steps db req db') (hsome : openedBy db req ≠ []) :
    ∃ log notifications, db' = (openRecords db req.env (openedBy db req)).withLogs log notifications := by
  have hstep : step db req = .ok db' := h
  simp only [step, bind_eq_ok] at hstep
  obtain ⟨user, -, hrun⟩ := hstep
  cases hop : req.operation with
  | createEvaluation personnelId =>
    rw [hop] at hrun
    obtain ⟨access, log, notifications, haccess, -, heq⟩ := createEvaluation_ok hrun
    have hopened : openedBy db req = [access] := by simp [openedBy, hop, haccess]
    rw [hopened]
    exact ⟨log, notifications, heq⟩
  | runBulkCreate cohort =>
    rw [hop] at hrun
    obtain ⟨log, notifications, heq⟩ := runBulkCreate_ok hrun
    have hopened : openedBy db req = plannedAccess db (loadCohort db cohort) := by
      simp [openedBy, hop]
    rw [hopened]
    exact ⟨log, notifications, heq⟩
  | _ =>
    apply absurd _ hsome
    simp [openedBy, hop]

/-- Where the seats are live after opening, the roles fitted before. -/
theorem opensFitting_of_live (h : Steps db req db') (hlive : LiveSeats db') : OpensFitting db req := by
  intro access haccess seat k u hseat hu
  obtain ⟨log, notifications, rfl⟩ := opened_of_steps h (List.ne_nil_of_mem haccess)
  have hadded : ∃ r ∈ (openRecords db req.env (openedBy db req)).evaluationRecords,
      r.status = .draft ∧ r.chain = access.chain := foldl_insertRecord_adds haccess
  obtain ⟨r, hr, hdraft, hchain⟩ := hadded
  have hopen : r.isOpen = true := by
    unfold EvaluationRecord.isOpen
    rw [hdraft]
    decide
  rw [← hchain] at hseat
  obtain ⟨u', hu', -, hmay⟩ := hlive r hr hopen seat k hseat
  have husers : (openRecords db req.env (openedBy db req)).users.get? k = some u' := hu'
  rw [openRecords_users, hu] at husers
  cases husers
  exact hmay

end

/-! ## Runs -/

section

variable {tr : List (Taken Database Request)} {db : Database}

theorem live_seats_of_run (h : SystemRun tr db) (hstay : ∀ x ∈ tr, departing x.before x.label = none)
    (hfit : ∀ x ∈ tr, OpensFitting x.before x.label) : LiveSeats db := by
  refine h.invariant_of_steps (P := LiveSeats)
    (C := fun x => departing x.before x.label = none ∧ OpensFitting x.before x.label) ?_ ?_ ?_
  · intro db hinit r hr
    exact absurd hr (hinit.no_records r)
  · intro db req db' hlive hstep hcondition
    obtain ⟨user, -, d, _, _, heffect, rfl⟩ := effect_of_steps hstep
    have hd := live_seats_step heffect hcondition.1 hcondition.2 hlive
    exact hd
  · intro x hx
    exact ⟨hstay x hx, hfit x hx⟩

/-- In a run in which nobody leaves, the seats of the open records are live after every step exactly
when records are only opened from access rows whose occupants still have a fitting role. -/
theorem live_seats_iff (h : SystemRun tr db)
    (hstay : ∀ x ∈ tr, departing x.before x.label = none) :
    (∀ x ∈ tr, LiveSeats x.after) ↔ ∀ x ∈ tr, OpensFitting x.before x.label := by
  constructor
  · intro hlive x hx
    obtain ⟨-, hstep⟩ := h.step_of_mem hx
    exact opensFitting_of_live hstep (hlive x hx)
  · intro hfit x hx
    obtain ⟨⟨old, hold, hmem⟩, hstep⟩ := h.step_of_mem hx
    have hafter : SystemRun (x :: old) x.after := Run.cons hold hstep
    have hall : ∀ y ∈ x :: old, y ∈ tr := by
      intro y hy
      rcases List.mem_cons.mp hy with rfl | hy
      · exact hx
      · exact hmem y hy
    exact live_seats_of_run hafter (fun y hy => hstay y (hall y hy)) fun y hy => hfit y (hall y hy)

end

theorem finalizedByAll_live :
    SystemRun (replay settled (office fullChain) finalizedByAll)
        (endState settled (office fullChain) finalizedByAll) ∧
      ∀ x ∈ replay settled (office fullChain) finalizedByAll, LiveSeats x.after :=
  ⟨finalizedByAll_run, (live_seats_iff finalizedByAll_run (by decide)).mpr (by decide)⟩

/-- The deputy of an access row leaves the role, and then the record is opened. -/
def deputyLeavesRole : List Request :=
  [ask 1 (.createEvaluation 1), ask 5 (.updateUser 2 { role := some .support })]

theorem deputy_leaves_role :
    ∃ tr db, SystemRun tr db ∧ (∀ x ∈ tr, departing x.before x.label = none) ∧ ¬LiveSeats db := by
  refine ⟨replay settled (office fullChain) deputyLeavesRole,
    endState settled (office fullChain) deputyLeavesRole,
    systemRun_replay (office_initial (by decide)) (by decide), by decide, ?_⟩
  obtain ⟨r, hget, hr⟩ := exists_of_any
    (o := (endState settled (office fullChain) deputyLeavesRole).evaluationRecords.get? 1)
    (p := fun r => r.isOpen && r.chain.deputyUserId = some 2)
    (by decide)
  obtain ⟨u, hu, hrole⟩ := exists_of_any
    (o := (endState settled (office fullChain) deputyLeavesRole).users.get? 2)
    (p := fun u => !mayActAt u.role .deputy)
    (by decide)
  rw [Bool.and_eq_true, decide_eq_true_eq] at hr
  rw [Bool.not_eq_true'] at hrole
  intro hlive
  obtain ⟨v, hv, -, hmay⟩ := hlive r (Table.mem_of_get? hget) hr.1 .deputy 2 hr.2
  rw [hu] at hv
  cases hv
  have hmay' : mayActAt u.role .deputy = true := hmay
  rw [hrole] at hmay'
  cases hmay'

end NexaHR
